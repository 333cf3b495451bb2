import Mathlib
import Floorplanner.Proofs.Geometry.Overlap
import Floorplanner.Proofs.Packing.Reach

/-!
A packed layout is legal: its blocks lie where the pair wants them, within the size of the layout
and clear of each other.
-/

namespace Floorplanner

variable {α : Type} [ExactNumber α] {blocks : List (Block α)} {pair : SequencePair}

theorem Block.span_footprint (block : Block α) (axis : Axis) :
    block.footprint.span axis = ⟨block.low axis, block.low axis + block.extent axis⟩ := by
  cases axis <;> rfl

section Valid

variable (valid : pair.isValid blocks.length = true)

include valid

theorem highAt_le_lowAt_pack (axis : Axis) {a b : BlockRef} (before : pair.Before axis a b) :
    highAt (pack blocks pair).1 axis a ≤ lowAt (pack blocks pair).1 axis b :=
  (isReach_lowAt_pack valid axis (SequencePair.bound_of_before valid before).2).le_of_mem before

theorem nonneg_lowAt_pack (axis : Axis) {ref : BlockRef} (bound : ref.index < blocks.length) :
    0 ≤ lowAt (pack blocks pair).1 axis ref :=
  (isReach_lowAt_pack valid axis bound).nonneg

theorem highAt_pack_le_along (axis : Axis) {ref : BlockRef} (bound : ref.index < blocks.length) :
    highAt (pack blocks pair).1 axis ref ≤ (pack blocks pair).2.along axis :=
  (isReach_along_pack valid axis).le_of_mem bound

theorem apart_pack {a b : BlockRef} {first second : Block α} (different : a ≠ b)
    (findFirst : (pack blocks pair).1[a.index]? = some first)
    (findSecond : (pack blocks pair).1[b.index]? = some second) :
    first.footprint.Apart second.footprint := by
  have ha : a.index < blocks.length := by
    simpa using (List.getElem?_eq_some_iff.mp findFirst).1
  have hb : b.index < blocks.length := by
    simpa using (List.getElem?_eq_some_iff.mp findSecond).1
  obtain ⟨axis, before⟩ := SequencePair.before_total valid ha hb different
  refine ⟨axis, ?_⟩
  rw [Block.span_footprint, Block.span_footprint]
  rcases before with before | before
  · have apart := highAt_le_lowAt_pack valid axis before
    rw [highAt_eq findFirst, lowAt_eq findSecond] at apart
    exact .inl apart
  · have apart := highAt_le_lowAt_pack valid axis before
    rw [highAt_eq findSecond, lowAt_eq findFirst] at apart
    exact .inr apart

theorem overlapArea_pack {a b : BlockRef} {first second : Block α} (different : a ≠ b)
    (findFirst : (pack blocks pair).1[a.index]? = some first)
    (findSecond : (pack blocks pair).1[b.index]? = some second) :
    first.footprint.overlapArea second.footprint = 0 := by
  obtain ⟨axis, below | above⟩ := apart_pack valid different findFirst findSecond
  · exact Rect.overlapArea_eq_zero axis below
  · rw [Rect.overlapArea_comm]
    exact Rect.overlapArea_eq_zero axis above

theorem exists_ref_of_getElem? {index : Nat} {block : Block α}
    (found : (pack blocks pair).1[index]? = some block) : ∃ ref : BlockRef, ref.index = index := by
  have bound : index < blocks.length := by
    simpa using (List.getElem?_eq_some_iff.mp found).1
  obtain ⟨ref, _, equality⟩ := (SequencePair.negative_enumerates valid).exists_ref bound
  exact ⟨ref, equality⟩

/--
Packing keeps the blocks but for their places. It sets each of them within the size that it
reports, and every two of them apart as the pair prescribes, so that no two have area in common.
-/
theorem pack_apart_within_size :
    (pack blocks pair).1.map (·.atOrigin) = blocks.map (·.atOrigin) ∧
      (∀ block ∈ (pack blocks pair).1, 0 ≤ block.x ∧ 0 ≤ block.y ∧
        block.x + block.width ≤ (pack blocks pair).2.width ∧
        block.y + block.height ≤ (pack blocks pair).2.height) ∧
      (∀ (a b : BlockRef) (first second : Block α),
        (pack blocks pair).1[a.index]? = some first →
        (pack blocks pair).1[b.index]? = some second →
          (pair.Before .x a b → first.x + first.width ≤ second.x) ∧
          (pair.Before .y a b → first.y + first.height ≤ second.y)) ∧
      (pack blocks pair).1.Pairwise fun first second =>
        ¬ 0 < first.footprint.overlapArea second.footprint := by
  refine ⟨map_atOrigin_pack blocks pair, ?_, ?_, ?_⟩
  · intro block member
    obtain ⟨index, found⟩ := List.mem_iff_getElem?.mp member
    obtain ⟨ref, rfl⟩ := exists_ref_of_getElem? valid found
    have bound : ref.index < blocks.length := by
      simpa using (List.getElem?_eq_some_iff.mp found).1
    have low (axis : Axis) : 0 ≤ block.low axis := by
      rw [← lowAt_eq found]
      exact nonneg_lowAt_pack valid axis bound
    have high (axis : Axis) : block.low axis + block.extent axis ≤
        (pack blocks pair).2.along axis := by
      rw [← highAt_eq found]
      exact highAt_pack_le_along valid axis bound
    exact ⟨low .x, low .y, high .x, high .y⟩
  · intro a b first second findFirst findSecond
    have apart (axis : Axis) (before : pair.Before axis a b) :
        first.low axis + first.extent axis ≤ second.low axis := by
      rw [← highAt_eq findFirst, ← lowAt_eq findSecond]
      exact highAt_le_lowAt_pack valid axis before
    exact ⟨apart .x, apart .y⟩
  · rw [List.pairwise_iff_getElem]
    intro i j hi hj less
    have findFirst := List.getElem?_eq_getElem hi
    have findSecond := List.getElem?_eq_getElem hj
    obtain ⟨a, rfl⟩ := exists_ref_of_getElem? valid findFirst
    obtain ⟨b, rfl⟩ := exists_ref_of_getElem? valid findSecond
    have different : a ≠ b := by
      rintro rfl
      exact Nat.lt_irrefl _ less
    rw [overlapArea_pack valid different findFirst findSecond]
    exact lt_irrefl 0

end Valid

theorem pack_apart_within_size_three :
    let blocks : List (Block ℝ) :=
      [.hard "wide" 6 1 [⟨3, 2⟩], .hard "tall" 8 1 [⟨2, 4⟩], .hard "flat" 5 1 [⟨5, 1⟩]]
    let pair : SequencePair := ⟨[⟨1⟩, ⟨0⟩, ⟨2⟩], [⟨0⟩, ⟨2⟩, ⟨1⟩]⟩
    pair.isValid blocks.length = true ∧
      (pack blocks pair).1.map (·.atOrigin) = blocks.map (·.atOrigin) ∧
      (∀ first second, (pack blocks pair).1[0]? = some first →
        (pack blocks pair).1[1]? = some second → first.y + first.height ≤ second.y) ∧
      (pack blocks pair).1.Pairwise fun first second =>
        ¬ 0 < first.footprint.overlapArea second.footprint := by
  intro blocks pair
  have valid : pair.isValid blocks.length = true := by decide
  obtain ⟨kept, _, apart, clear⟩ := pack_apart_within_size valid
  have below : pair.Before .y ⟨0⟩ ⟨1⟩ := by
    constructor <;> decide
  refine ⟨valid, kept, fun first second findFirst findSecond => ?_, clear⟩
  exact (apart ⟨0⟩ ⟨1⟩ first second findFirst findSecond).2 below

end Floorplanner
