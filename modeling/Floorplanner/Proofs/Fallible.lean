import Mathlib.Data.List.Forall2
import Mathlib.Data.List.Nodup
import Mathlib.Tactic.Tauto

/-! What can be said of a computation that may fail, once it has not. -/

namespace Floorplanner

variable {ε β γ δ κ : Type}

theorem bind_eq_ok_iff {first : Except ε β} {rest : β → Except ε γ} {result : γ} :
    (first >>= rest) = .ok result ↔ ∃ value, first = .ok value ∧ rest value = .ok result := by
  cases first with
  | error failure =>
      constructor
      · nofun
      · rintro ⟨_, ⟨⟩, _⟩
  | ok value =>
      constructor
      · exact fun equality => ⟨value, rfl, equality⟩
      · rintro ⟨_, ⟨⟩, equality⟩
        exact equality

theorem then_eq_ok_iff {first : Except ε Unit} {rest : Except ε γ} {result : γ} :
    (first >>= fun _ => rest) = .ok result ↔ first = .ok () ∧ rest = .ok result := by
  rw [bind_eq_ok_iff]
  constructor
  · rintro ⟨_, passed, equality⟩
    exact ⟨passed, equality⟩
  · rintro ⟨passed, equality⟩
    exact ⟨(), passed, equality⟩

theorem mapM_eq_ok_iff {f : β → Except ε γ} {entries : List β} {results : List γ} :
    entries.mapM f = .ok results ↔
      List.Forall₂ (fun entry result => f entry = .ok result) entries results := by
  induction entries generalizing results with
  | nil =>
      rw [List.mapM_nil, List.forall₂_nil_left_iff]
      exact ⟨fun equality => (Except.ok.inj equality).symm, fun nothing => congrArg _ nothing.symm⟩
  | cons entry entries induction =>
      rw [List.mapM_cons, bind_eq_ok_iff, List.forall₂_cons_left_iff]
      constructor
      · rintro ⟨first, head, rest⟩
        obtain ⟨others, tail, equality⟩ := bind_eq_ok_iff.mp rest
        cases equality
        exact ⟨first, others, head, induction.mp tail, rfl⟩
      · rintro ⟨first, others, head, tail, rfl⟩
        exact ⟨first, head, bind_eq_ok_iff.mpr ⟨others, induction.mpr tail, rfl⟩⟩

theorem mapM_eq_some_iff {f : β → Option γ} {entries : List β} {results : List γ} :
    entries.mapM f = some results ↔
      List.Forall₂ (fun entry result => f entry = some result) entries results := by
  induction entries generalizing results with
  | nil =>
      rw [List.mapM_nil, List.forall₂_nil_left_iff]
      exact ⟨fun equality => (Option.some.inj equality).symm, fun nothing => congrArg _ nothing.symm⟩
  | cons entry entries induction =>
      simp only [List.mapM_cons, Option.bind_eq_bind, Option.bind_eq_some_iff,
        List.forall₂_cons_left_iff]
      constructor
      · rintro ⟨first, head, others, tail, equality⟩
        cases equality
        exact ⟨first, others, head, induction.mp tail, rfl⟩
      · rintro ⟨first, others, head, tail, rfl⟩
        exact ⟨first, head, others, induction.mpr tail, rfl⟩

theorem forall_mem_of_mapM {f : β → Except ε γ} {entries : List β} {results : List γ}
    {holds : γ → Prop} (each : ∀ entry result, f entry = .ok result → holds result)
    (mapped : entries.mapM f = .ok results) : ∀ result ∈ results, holds result := by
  induction mapM_eq_ok_iff.mp mapped with
  | nil => exact nofun
  | cons first _ induction =>
      rw [List.forall_mem_cons]
      exact ⟨each _ _ first, induction (mapM_eq_ok_iff.mpr ‹_›)⟩

theorem exists_mapM_eq_ok_iff {f : β → Except ε γ} {entries : List β} :
    (∃ results, entries.mapM f = .ok results) ↔
      ∀ entry ∈ entries, ∃ result, f entry = .ok result := by
  induction entries with
  | nil => exact ⟨fun _ => List.forall_mem_nil _, fun _ => ⟨[], rfl⟩⟩
  | cons entry entries induction =>
      rw [List.forall_mem_cons, ← induction]
      simp only [mapM_eq_ok_iff, List.forall₂_cons_left_iff]
      constructor
      · rintro ⟨_, first, rest, head, tail, rfl⟩
        exact ⟨⟨first, head⟩, rest, tail⟩
      · rintro ⟨⟨first, head⟩, rest, tail⟩
        exact ⟨_, first, rest, head, tail, rfl⟩

/--
Steps that each put one more item at the end, under a name that no item has yet, get to the end
exactly if all the names are new and different.
-/
theorem foldlM_put_eq_ok_iff {step : γ → β → Except ε γ} {put : List δ → γ}
    {Makes : β → δ → Prop} {name : β → κ} {nameOf : δ → κ}
    (named : ∀ entry item, Makes entry item → nameOf item = name entry)
    (steps : ∀ items entry next, step (put items) entry = .ok next ↔
      name entry ∉ items.map nameOf ∧ ∃ item, Makes entry item ∧ next = put (items ++ [item]))
    {entries : List β} {items : List δ} {result : γ} :
    entries.foldlM step (put items) = .ok result ↔
      ((entries.map name).Nodup ∧ (items.map nameOf).Disjoint (entries.map name)) ∧
        ∃ added, List.Forall₂ Makes entries added ∧ result = put (items ++ added) := by
  induction entries generalizing items with
  | nil =>
      simp only [List.foldlM_nil, List.map_nil, List.nodup_nil, List.disjoint_nil_right,
        List.forall₂_nil_left_iff, exists_eq_left, List.append_nil, true_and]
      exact ⟨fun equality => (Except.ok.inj equality).symm, fun same => congrArg _ same.symm⟩
  | cons entry entries induction =>
      rw [List.foldlM_cons, bind_eq_ok_iff]
      have names (item : δ) (makes : Makes entry item) :
          ((entries.map name).Nodup ∧ ((items ++ [item]).map nameOf).Disjoint (entries.map name)) ∧
            name entry ∉ items.map nameOf ↔
          ((entry :: entries).map name).Nodup ∧
            (items.map nameOf).Disjoint ((entry :: entries).map name) := by
        rw [List.map_append, List.map_singleton, named entry item makes, List.map_cons,
          List.nodup_cons, List.disjoint_append_left, List.singleton_disjoint,
          List.disjoint_cons_right]
        tauto
      constructor
      · rintro ⟨next, stepped, rest⟩
        obtain ⟨fresh, item, makes, rfl⟩ := (steps _ _ _).mp stepped
        obtain ⟨distinct, added, all, rfl⟩ := induction.mp rest
        refine ⟨(names item makes).mp ⟨distinct, fresh⟩, item :: added, .cons makes all, ?_⟩
        rw [List.append_assoc, List.singleton_append]
      · rintro ⟨distinct, _, all, rfl⟩
        obtain ⟨item, added, makes, rest, rfl⟩ := List.forall₂_cons_left_iff.mp all
        obtain ⟨distinct, fresh⟩ := (names item makes).mpr distinct
        refine ⟨_, (steps _ _ _).mpr ⟨fresh, item, makes, rfl⟩, ?_⟩
        rw [induction]
        exact ⟨distinct, added, rest, by rw [List.append_assoc, List.singleton_append]⟩

end Floorplanner
