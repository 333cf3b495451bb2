import Mathlib.Data.List.Nodup
import Floorplanner.Proofs.Design.Closed

/-!
What a problem finds under a name.

A block or a terminal that is put at the end of its list is found under its name from then on, and
all others where they were. So among distinct names each is found at its own position, and a
reference that was found is one to the entry of that name.
-/

namespace Floorplanner

namespace Problem

section LastIndex

variable {β κ : Type} [BEq κ] [LawfulBEq κ]

theorem lastIndex?_concat (p : β → Bool) (entries : List β) (entry : β) :
    lastIndex? p (entries ++ [entry]) =
      if p entry then some entries.length else lastIndex? p entries := by
  induction entries with
  | nil => rfl
  | cons first rest induction =>
      rw [List.cons_append, lastIndex?, induction, lastIndex?]
      cases p entry <;> rfl

omit [BEq κ] [LawfulBEq κ] in
theorem getElem?_concat_eq_some_iff {values : List κ} {value wanted : κ} {index : Nat} :
    (values ++ [value])[index]? = some wanted ↔
      values[index]? = some wanted ∨ index = values.length ∧ value = wanted := by
  grind

theorem lastIndex?_eq_some_iff {key : β → κ} {entries : List β}
    (distinct : (entries.map key).Nodup) {wanted : κ} {index : Nat} :
    lastIndex? (key · == wanted) entries = some index ↔
      (entries.map key)[index]? = some wanted := by
  induction entries using List.reverseRecOn with
  | nil => simp [lastIndex?]
  | append_singleton entries entry induction =>
      rw [List.map_append, List.map_singleton] at distinct ⊢
      obtain ⟨distinct, -, apart⟩ := List.nodup_append'.mp distinct
      have fresh : key entry ∉ entries.map key := List.disjoint_singleton.mp apart
      rw [lastIndex?_concat, getElem?_concat_eq_some_iff, ← induction distinct, List.length_map]
      split
      next same =>
        cases eq_of_beq same
        have missing : lastIndex? (key · == key entry) entries ≠ some index := by
          rw [ne_eq, induction distinct]
          exact fun found => fresh (List.mem_of_getElem? found)
        simp [missing, eq_comm]
      next other =>
        have different : key entry ≠ wanted := by simpa using other
        simp [different]

end LastIndex

variable {α : Type} {problem : Problem α} {name : String} {index : Nat}

theorem map_index_lastIndex? {kind : Entity} {β : Type} {p : β → Bool} {entries : List β}
    (addressable : entries.length ≤ 2 ^ 32) :
    ((lastIndex? p entries).map (.ofIndex : Nat → Entity.Ref kind)).map (·.index) =
      lastIndex? p entries := by
  cases found : lastIndex? p entries with
  | none => rfl
  | some index =>
      have bound : index < 2 ^ 32 := (lastIndex?_lt found).trans_le addressable
      exact congrArg some (Entity.Ref.index_ofIndex bound)

def IsBlock (problem : Problem α) (name : String) (ref : BlockRef) : Prop :=
  problem.blockNames[ref.index]? = some name

def IsTerminal (problem : Problem α) (name : String) (ref : TerminalRef) : Prop :=
  problem.terminalNames[ref.index]? = some name

section Distinct

variable (addressable : problem.IsAddressable)
include addressable

theorem index_findBlock?_eq_some_iff (distinct : problem.blockNames.Nodup) :
    (problem.findBlock? name).map (·.index) = some index ↔
      problem.blockNames[index]? = some name := by
  rw [findBlock?, map_index_lastIndex? addressable.blocks]
  exact lastIndex?_eq_some_iff distinct

theorem index_findTerminal?_eq_some_iff (distinct : problem.terminalNames.Nodup) :
    (problem.findTerminal? name).map (·.index) = some index ↔
      problem.terminalNames[index]? = some name := by
  rw [findTerminal?, map_index_lastIndex? addressable.terminals]
  exact lastIndex?_eq_some_iff distinct

theorem isBlock_of_findBlock? (distinct : problem.blockNames.Nodup) {ref : BlockRef}
    (found : problem.findBlock? name = some ref) : problem.IsBlock name ref := by
  apply (index_findBlock?_eq_some_iff addressable distinct).mp
  rw [found, Option.map_some]

theorem isTerminal_of_findTerminal? (distinct : problem.terminalNames.Nodup) {ref : TerminalRef}
    (found : problem.findTerminal? name = some ref) : problem.IsTerminal name ref := by
  apply (index_findTerminal?_eq_some_iff addressable distinct).mp
  rw [found, Option.map_some]

end Distinct

end Problem

end Floorplanner
