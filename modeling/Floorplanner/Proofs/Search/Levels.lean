import Mathlib
import Floorplanner.Proofs.Fallible
import Floorplanner.Proofs.TotalOrder
import Floorplanner.Search

/-!
One level of a search.

A level is won by the first of its cheapest outcomes, and the levels that are left go on from there.
-/

namespace Floorplanner

namespace Search

variable {α σ : Type} [Number α]

/-- The first of the cheapest outcomes: none is cheaper, and those before it are dearer. -/
structure IsFirstCheapest (outcomes : List (Outcome α)) (index : Nat) (winner : Outcome α) :
    Prop where
  place : outcomes[index]? = some winner
  least : ∀ other ∈ outcomes, Number.sortsBefore winner.cost other.cost = true
  first : ∀ earlier < index, ∀ other, outcomes[earlier]? = some other →
    Number.sortsBefore other.cost winner.cost = false

section Winner

variable {outcomes : List (Outcome α)} {index : Nat} {winner next : Outcome α}

theorem IsFirstCheapest.lt_length (cheapest : IsFirstCheapest outcomes index winner) :
    index < outcomes.length :=
  (List.getElem?_eq_some_iff.mp cheapest.place).1

theorem IsFirstCheapest.concat (cheapest : IsFirstCheapest outcomes index winner)
    (sorts : Number.sortsBefore winner.cost next.cost = true) :
    IsFirstCheapest (outcomes ++ [next]) index winner where
  place := by rw [List.getElem?_append_left cheapest.lt_length, cheapest.place]
  least := by
    rw [List.forall_mem_append, List.forall_mem_singleton]
    exact ⟨cheapest.least, sorts⟩
  first earlier before other found := by
    rw [List.getElem?_append_left (before.trans cheapest.lt_length)] at found
    exact cheapest.first earlier before other found

variable [Number.SortsTotally α]

theorem isFirstCheapest_singleton (winner : Outcome α) : IsFirstCheapest [winner] 0 winner where
  place := rfl
  least := by
    rw [List.forall_mem_singleton]
    exact (or_self_iff).mp (Number.SortsTotally.total winner.cost winner.cost)
  first := nofun

theorem IsFirstCheapest.replace (cheapest : IsFirstCheapest outcomes index winner)
    (undercut : ¬ Number.sortsBefore winner.cost next.cost = true) :
    IsFirstCheapest (outcomes ++ [next]) outcomes.length next := by
  have sorts := (Number.SortsTotally.total winner.cost next.cost).resolve_left undercut
  have itself := (or_self_iff).mp (Number.SortsTotally.total next.cost next.cost)
  constructor
  · exact List.getElem?_concat_length
  · rw [List.forall_mem_append, List.forall_mem_singleton]
    refine ⟨?_, itself⟩
    intro other member
    exact Number.SortsTotally.trans sorts (cheapest.least other member)
  · intro earlier before other found
    rw [List.getElem?_append_left before] at found
    have least := cheapest.least other (List.mem_of_getElem? found)
    rw [← Bool.not_eq_true]
    exact fun below => undercut (Number.SortsTotally.trans least below)

theorem IsFirstCheapest.foldl (cheapest : IsFirstCheapest outcomes index winner)
    (rest : List (Outcome α)) :
    ∃ index, IsFirstCheapest (outcomes ++ rest) index (rest.foldl
      (fun best next => if Number.sortsBefore best.cost next.cost then best else next) winner) := by
  induction rest generalizing outcomes index winner with
  | nil =>
      rw [List.append_nil]
      exact ⟨index, cheapest⟩
  | cons next rest induction =>
      rw [List.append_cons, List.foldl_cons]
      split
      next sorts => exact induction (cheapest.concat sorts)
      next undercut => exact induction (cheapest.replace undercut)

theorem isFirstCheapest_of_cheapest? (wins : cheapest? outcomes = some winner) :
    ∃ index, IsFirstCheapest outcomes index winner := by
  cases outcomes with
  | nil => cases wins
  | cons first rest =>
      cases wins
      exact (isFirstCheapest_singleton first).foldl rest

end Winner

variable [SeededSource σ] [IndexSource σ] [FractionSource σ α] {problem : Problem α}
  {config : Config α} {seeds : List UInt64} {norms : Terms α} {left level : Nat} {heat : Heat α}
  {best last : Outcome α} {summaries : List (LevelSummary α)}

theorem levelsFrom_succ_eq_ok_iff :
    levelsFrom σ problem config seeds norms (left + 1) level heat best = .ok (last, summaries) ↔
      ∃ winner rest,
        cheapest? (runLevel σ problem config seeds
          ⟨norms, (heat.next config.parallel.heatRate).temperature⟩ level best.arrangement) =
            some winner ∧
        levelsFrom σ problem config seeds norms left (level + 1)
          (heat.next config.parallel.heatRate) winner = .ok (last, rest) ∧
        summaries = summarize norms level winner :: rest := by
  rw [levelsFrom]
  dsimp only
  split
  next none => simp [none]
  next winner wins =>
    rw [wins, bind_eq_ok_iff]
    constructor
    · rintro ⟨⟨last, rest⟩, went, equality⟩
      cases equality
      exact ⟨winner, rest, rfl, went, rfl⟩
    · rintro ⟨_, rest, ⟨⟩, went, rfl⟩
      exact ⟨(last, rest), went, rfl⟩

end Search

end Floorplanner
