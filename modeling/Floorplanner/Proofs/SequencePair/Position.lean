import Floorplanner.Proofs.SequencePair.Order

/-!
Where the blocks of a pair stand.

A sequence is checked for its length, for references out of range and for repeats, and not for blocks
that are missing: as many different references below the count as there are blocks leave none out. So
in a valid pair every block has one position in the negative sequence, and that is the one found for
it.
-/

namespace Floorplanner

namespace SequencePair

variable {pair : SequencePair} {position : Nat} {ref : BlockRef}

theorem getElem?_negativePosition (found : pair.negativePosition? ref = some position) :
    pair.negative[position]? = some ref := by
  obtain ⟨bound, same, _⟩ := List.findIdx?_eq_some_iff_getElem.mp found
  rw [List.getElem?_eq_getElem bound]
  exact congrArg some (eq_of_beq same)

theorem exists_negativePosition (member : ref ∈ pair.negative) :
    ∃ position, pair.negativePosition? ref = some position ∧
      pair.negative[position]? = some ref := by
  cases found : pair.negativePosition? ref with
  | none =>
      have absent := List.findIdx?_eq_none_iff.mp found ref member
      simp at absent
  | some position => exact ⟨position, rfl, getElem?_negativePosition found⟩

/-- A sequence without repeats holds a block at the position found for it and nowhere else. -/
theorem getElem?_negative_iff (nodup : pair.negative.Nodup)
    (found : pair.negativePosition? ref = some position) (other : Nat) :
    pair.negative[other]? = some ref ↔ other = position := by
  have here := getElem?_negativePosition found
  constructor
  · intro there
    obtain ⟨bound, _⟩ := List.getElem?_eq_some_iff.mp there
    exact (List.getElem?_inj bound nodup).mp (there.trans here.symm)
  · intro same
    rw [same, here]

/--
A pair is valid for just the number of blocks that both of its sequences are rearrangements of. In
the negative sequence of a valid pair, each of the blocks stands at the position found for it, and at
no other.
-/
theorem valid_pairs_hold_each_block_once (pair : SequencePair) (count : Nat) :
    (pair.isValid count = true ↔
      (pair.positive.map Entity.Ref.index).Perm (List.range count) ∧
        (pair.negative.map Entity.Ref.index).Perm (List.range count)) ∧
    (pair.isValid count = true → ∀ index < count,
      let ref : BlockRef := .ofIndex index
      ref.index = index ∧ ∃ position < count, pair.negativePosition? ref = some position ∧
        ∀ other, pair.negative[other]? = some ref ↔ other = position) := by
  refine ⟨isValid_iff_enumerates, ?_⟩
  intro valid index bound
  have order := negative_enumerates valid
  obtain ⟨ref, member, rfl⟩ := order.exists_ref bound
  obtain ⟨position, found, here⟩ := exists_negativePosition member
  rw [Entity.Ref.ofIndex_index]
  refine ⟨rfl, position, ?_, found, getElem?_negative_iff order.nodup found⟩
  rw [← order.length]
  exact (List.getElem?_eq_some_iff.mp here).1

theorem valid_pairs_hold_each_block_once_three :
    let pair : SequencePair := ⟨[⟨1⟩, ⟨2⟩, ⟨0⟩], [⟨2⟩, ⟨0⟩, ⟨1⟩]⟩
    pair.isValid 3 = true ∧ pair.negativePosition? ⟨0⟩ = some 1 ∧
      ∀ other, pair.negative[other]? = some ⟨0⟩ ↔ other = 1 := by
  intro pair
  have valid : pair.isValid 3 = true := by decide
  obtain ⟨_, position, _, found, once⟩ :=
    (valid_pairs_hold_each_block_once pair 3).2 valid 0 (by decide)
  have here : position = 1 := Option.some.inj (found.symm.trans (by decide))
  rw [here] at found once
  exact ⟨valid, found, once⟩

end SequencePair

end Floorplanner
