import Mathlib
import Floorplanner.Proofs.Move.Range
import Floorplanner.Proofs.Packing.Renaming
import Floorplanner.Proofs.SequencePair.Exchange

/-!
A double swap gives two blocks each other's part.

The negative positions are looked up when the positive sequence has already changed, but what is
looked up stands in the negative one, which has not. So each of the two blocks takes the other's
place in both sequences, as if it had its name. If they are of the same extents, they trade places
in the packed layout, and nothing else moves.
-/

namespace Floorplanner

variable {α : Type}

namespace SequencePair

variable {pair : SequencePair} {count i j k l : Nat} {a b : BlockRef}

theorem exchange_both_eq_rename (valid : pair.isValid count = true)
    (first : pair.positive[i]? = some a) (second : pair.positive[j]? = some b)
    (negativeSecond : pair.negative[k]? = some b) (negativeFirst : pair.negative[l]? = some a) :
    (pair.exchangePositive i j).exchangeNegative k l = pair.rename (Equiv.swap a b) := by
  obtain ⟨positive, negative⟩ := isValid_iff_enumerates.mp valid
  have positiveRenamed := exchange_eq_map_swap positive.nodup first second
  have negativeRenamed := exchange_eq_map_swap negative.nodup negativeSecond negativeFirst
  rw [Equiv.swap_comm] at negativeRenamed
  rw [rename, ← positiveRenamed, ← negativeRenamed]
  rfl

end SequencePair

namespace Move

variable {pair : SequencePair} {count i j : Nat} {a b : BlockRef}

theorem swapBoth_eq_rename (valid : pair.isValid count = true)
    (first : pair.positive[i]? = some a) (second : pair.positive[j]? = some b) :
    ∃ k l, pair.negative[k]? = some b ∧ pair.negative[l]? = some a ∧
      (swapBoth pair i j : Move α × SequencePair) =
        (.doubleSwap (i, j) (k, l), pair.rename (Equiv.swap a b)) := by
  obtain ⟨positive, negative⟩ := SequencePair.isValid_iff_enumerates.mp valid
  have members {ref : BlockRef} (member : ref ∈ pair.positive) : ref ∈ pair.negative :=
    negative.mem_iff.mpr (positive.mem_iff.mp member)
  obtain ⟨k, l, negativeSecond, negativeFirst, swapped⟩ := swapBoth_eq (α := α) first second
    (members (List.mem_of_getElem? first)) (members (List.mem_of_getElem? second))
  refine ⟨k, l, negativeSecond, negativeFirst, ?_⟩
  rw [swapped, SequencePair.exchange_both_eq_rename valid first second negativeSecond negativeFirst]

end Move

/--
A double swap renames two blocks to each other in both sequences, and it records where they stood.
Packing goes by no names, so if the two have the same extents, they trade their coordinates, and
neither the other blocks nor the size of the layout change.
-/
theorem double_swap_trades_places [Number α] :
    (∀ (pair : SequencePair) (count i j : Nat), pair.isValid count = true → i < count → j < count →
      ∃ a b k l, pair.positive[i]? = some a ∧ pair.positive[j]? = some b ∧
        pair.negative[k]? = some b ∧ pair.negative[l]? = some a ∧
        (Move.swapBoth pair i j : Move α × SequencePair) =
          (.doubleSwap (i, j) (k, l), pair.rename (Equiv.swap a b))) ∧
    (∀ (rename : Equiv.Perm BlockRef) (pair : SequencePair) (blocks others : List (Block α)),
      others.length = blocks.length →
      (∀ ref : BlockRef, others[(rename ref).index]? = blocks[ref.index]?) →
        (pack others (pair.rename rename)).2 = (pack blocks pair).2 ∧
          ∀ ref : BlockRef, (pack others (pair.rename rename)).1[(rename ref).index]? =
            (pack blocks pair).1[ref.index]?) ∧
    ∀ (blocks : List (Block α)) (pair : SequencePair) (i j : Nat) (a b : BlockRef)
      (first second : Block α), pair.isValid blocks.length = true →
      pair.positive[i]? = some a → pair.positive[j]? = some b →
      blocks[a.index]? = some first → blocks[b.index]? = some second →
      first.width = second.width → first.height = second.height →
        let before := pack blocks pair
        let after := pack blocks (Move.swapBoth pair i j : Move α × SequencePair).2
        (∀ axis, after.1[a.index]?.map (·.low axis) = before.1[b.index]?.map (·.low axis) ∧
          after.1[b.index]?.map (·.low axis) = before.1[a.index]?.map (·.low axis)) ∧
        (∀ ref : BlockRef, ref ≠ a → ref ≠ b → after.1[ref.index]? = before.1[ref.index]?) ∧
        after.2 = before.2 := by
  refine ⟨?_, ?_, ?_⟩
  · intro pair count i j valid firstBound secondBound
    have length := (SequencePair.isValid_iff_enumerates.mp valid).1.length
    rw [← length] at firstBound secondBound
    have first := List.getElem?_eq_getElem firstBound
    have second := List.getElem?_eq_getElem secondBound
    obtain ⟨k, l, swapped⟩ := Move.swapBoth_eq_rename (α := α) valid first second
    exact ⟨_, _, k, l, first, second, swapped⟩
  · intro rename pair blocks others length renamed
    exact pack_rename rename.injective length renamed
  · intro blocks pair i j a b first second valid atFirst atSecond findFirst findSecond width height
      before after
    obtain ⟨ha, rfl⟩ := List.getElem?_eq_some_iff.mp findFirst
    obtain ⟨hb, rfl⟩ := List.getElem?_eq_some_iff.mp findSecond
    obtain ⟨_, _, _, _, swapped⟩ := Move.swapBoth_eq_rename (α := α) valid atFirst atSecond
    have alike : SweepsAlike (Equiv.swap a b) pair blocks blocks :=
      sweepsAlike_swap valid ha hb fun axis => by cases axis <;> assumption
    have renamed : after = pack blocks (pair.rename (Equiv.swap a b)) := by
      simp only [after, swapped]
    rw [renamed]
    refine ⟨fun axis => ⟨?_, ?_⟩, fun ref notFirst notSecond => ?_, alike.size_eq⟩
    · rw [← alike.low_eq axis b, Equiv.swap_apply_right]
    · rw [← alike.low_eq axis a, Equiv.swap_apply_left]
    · have stays : Equiv.swap a b ref = ref := Equiv.swap_apply_of_ne_of_ne notFirst notSecond
      have same := alike.getElem?_eq (congrArg (fun other => blocks[other.index]?) stays)
      rwa [stays] at same

theorem double_swap_trades_places_three :
    let blocks : List (Block ℝ) :=
      [.hard "shelf" 6 1 [⟨3, 2⟩], .hard "bench" 6 2 [⟨3, 2⟩], .hard "tower" 8 1 [⟨2, 4⟩]]
    let pair : SequencePair := ⟨[⟨1⟩, ⟨0⟩, ⟨2⟩], [⟨0⟩, ⟨2⟩, ⟨1⟩]⟩
    let after := pack blocks (Move.swapBoth pair 0 1 : Move ℝ × SequencePair).2
    after.1[2]? = (pack blocks pair).1[2]? ∧ after.2 = (pack blocks pair).2 := by
  intro blocks pair after
  have valid : pair.isValid blocks.length = true := by decide
  obtain ⟨_, untouched, size⟩ := double_swap_trades_places.2.2 blocks pair 0 1 ⟨1⟩ ⟨0⟩
    (.hard "bench" 6 2 [⟨3, 2⟩]) (.hard "shelf" 6 1 [⟨3, 2⟩]) valid rfl rfl rfl rfl rfl rfl
  exact ⟨untouched ⟨2⟩ (by decide) (by decide), size⟩

end Floorplanner
