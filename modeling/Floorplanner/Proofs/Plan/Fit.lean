import Mathlib
import Floorplanner.Proofs.Plan.Account
import Floorplanner.Proofs.Plan.SoftBlocks

/-!
Alignment costs a layout no fit.

A hard block goes onto an edge of the outline or up to an edge of another, so no block comes to end
further out than one did before, unless that is the end of the outline. The size of a plan is
therefore at most what the larger of the outline and the packed layout needs, and a winner that fits
makes a feasible plan.
-/

namespace Floorplanner

variable {α : Type} [ExactNumber α]

def Size.cover (first second : Size α) : Size α :=
  ⟨max first.width second.width, max first.height second.height⟩

@[simp] theorem Size.along_cover (first second : Size α) (axis : Axis) :
    (first.cover second).along axis = max (first.along axis) (second.along axis) := by
  cases axis <;> rfl

namespace Plan

open Floorplanner.Alignment

variable {outline bound : Size α} {blocks : List (Block α)} {axis : Axis}

theorem high_le_boundingSize {block : Block α} (member : block ∈ blocks) (axis : Axis) :
    block.high axis ≤ (boundingSize blocks).along axis := by
  apply (isGreatest_boundingSize blocks axis).2
  refine .inr ⟨block, member, ?_⟩
  rw [Block.span_footprint]
  rfl

theorem along_boundingSize_le (nonneg : 0 ≤ bound.along axis)
    (ends : ∀ block ∈ blocks, block.high axis ≤ bound.along axis) :
    (boundingSize blocks).along axis ≤ bound.along axis := by
  rcases (isGreatest_boundingSize blocks axis).1 with zero | ⟨block, member, high⟩
  · rwa [zero]
  · rw [Block.span_footprint] at high
    rw [← high]
    exact ends block member

theorem nonneg_boundingSize (blocks : List (Block α)) (axis : Axis) :
    0 ≤ (boundingSize blocks).along axis :=
  (isGreatest_boundingSize blocks axis).2 (.inl rfl)

/-- Soft blocks stay in a layout as they are, so alignment is a matter of the hard ones. -/
theorem forall_mem_alignHard {holds : Block α → Prop}
    (soft : ∀ block ∈ blocks, block.isHard = false → holds block)
    (hard : ∀ block ∈ (alignHard outline blocks).blocks, block.isHard = true → holds block) :
    ∀ block ∈ (alignHard outline blocks).blocks, holds block := by
  intro block member
  cases isHard : block.isHard with
  | true => exact hard block member isHard
  | false =>
      obtain ⟨index, found⟩ := List.mem_iff_getElem?.mp member
      obtain ⟨original, stays, same, stay⟩ :=
        exists_of_forall₂ (alignHard_relocates outline blocks).1 found
      rw [isHard_of_atOrigin_eq same] at isHard
      have isSoft : original.isSoft = true := by simpa [Block.isHard] using isHard
      rw [stay isSoft]
      exact soft original (List.mem_of_getElem? stays) isHard

theorem isWithin_cover_alignHard
    (positive : ∀ block ∈ blocks, block.isHard = true → 0 < block.width ∧ 0 < block.height)
    (nonneg : ∀ block ∈ blocks, ∀ axis, 0 ≤ block.low axis) :
    ∀ block ∈ (alignHard outline blocks).blocks,
      block.IsWithin (outline.cover (boundingSize blocks)) := by
  have within : ∀ block ∈ blocks, block.IsWithin (outline.cover (boundingSize blocks)) := by
    intro block member axis
    rw [Size.along_cover]
    exact ⟨nonneg block member axis, le_max_of_le_right (high_le_boundingSize member axis)⟩
  apply forall_mem_alignHard
  · exact fun block member _ => within block member
  · apply isWithin_alignHard_of_le _ positive
    · exact fun block member _ => within block member
    · intro axis
      rw [Size.along_cover]
      exact le_max_left _ _

theorem boundingSize_alignHard_le
    (positive : ∀ block ∈ blocks, block.isHard = true → 0 < block.width ∧ 0 < block.height)
    (nonneg : ∀ block ∈ blocks, ∀ axis, 0 ≤ block.low axis) (axis : Axis) :
    (boundingSize (alignHard outline blocks).blocks).along axis ≤
      max (outline.along axis) ((boundingSize blocks).along axis) := by
  rw [← Size.along_cover]
  apply along_boundingSize_le
  · rw [Size.along_cover]
    exact le_max_of_le_right (nonneg_boundingSize blocks axis)
  · exact fun block member => (isWithin_cover_alignHard positive nonneg block member axis).2

theorem boundingSize_pack_le {pair : SequencePair} (valid : pair.isValid blocks.length = true)
    (axis : Axis) :
    (boundingSize (pack blocks pair).1).along axis ≤ (pack blocks pair).2.along axis := by
  apply along_boundingSize_le
  · exact nonneg_along_pack blocks pair axis
  · intro block member
    obtain ⟨index, found⟩ := List.mem_iff_getElem?.mp member
    obtain ⟨ref, rfl⟩ := exists_ref_of_getElem? valid found
    have bound : ref.index < blocks.length := by
      simpa using (List.getElem?_eq_some_iff.mp found).1
    rw [Block.high, ← highAt_eq found]
    exact highAt_pack_le_along valid axis bound

/--
Aligned blocks stay on the far side of the origin, and end within the outline or within what the
layout took before. So a plan is feasible if the packed layout of the winner fits.
-/
theorem alignment_keeps_fit :
    (∀ (outline : Size α) (blocks : List (Block α)),
      (∀ block ∈ blocks, 0 < block.width ∧ 0 < block.height) →
      (∀ block ∈ blocks, ∀ axis, 0 ≤ block.low axis) →
        (∀ block ∈ (alignHard outline blocks).blocks, ∀ axis, 0 ≤ block.low axis) ∧
          ∀ axis, (boundingSize (alignHard outline blocks).blocks).along axis ≤
            max (outline.along axis) ((boundingSize blocks).along axis)) ∧
    ∀ (problem : Problem α) (config : Config α) (winner : Outcome α) (calibration : Calibration α)
      (levels : List (LevelSummary α)) (blocks : List (Block α)) (pair : SequencePair),
      (∀ axis, 0 < problem.outline.along axis) →
      (∀ block ∈ blocks, 0 < block.width ∧ 0 < block.height) →
      pair.isValid blocks.length = true → winner.arrangement.blocks = (pack blocks pair).1 →
      problem.fits (pack blocks pair).2 = true →
        (finish problem config winner calibration levels).feasible = true := by
  constructor
  · intro outline blocks positive nonneg
    have hard := fun block member (_ : block.isHard = true) => positive block member
    exact ⟨fun block member axis => (isWithin_cover_alignHard hard nonneg block member axis).1,
      boundingSize_alignHard_le hard nonneg⟩
  · intro problem config winner calibration levels blocks pair outline positive valid packed fits
    rw [finish, packed, Problem.fits_iff]
    rw [Problem.fits_iff] at fits
    intro axis
    refine (boundingSize_alignHard_le ?_ ?_ axis).trans (max_le ?_ ?_)
    · intro block member _
      obtain ⟨original, member, same⟩ := exists_of_mem_pack member
      have width : block.width = original.width := extent_of_atOrigin_eq same .x
      have height : block.height = original.height := extent_of_atOrigin_eq same .y
      rw [width, height]
      exact positive original member
    · exact fun block member => nonneg_low_pack valid member
    · apply le_mul_of_one_le_right (outline axis).le
      norm_num [Number.ratio]
    · exact (boundingSize_pack_le valid axis).trans (fits axis)

section Crowded

open Packing in
theorem size_pack_crowded : (pack crowded (.identity 3)).2 = ⟨2001 / 2, 100⟩ := by
  have row : SequencePair.identity 3 = ⟨[⟨0⟩, ⟨1⟩, ⟨2⟩], [⟨0⟩, ⟨1⟩, ⟨2⟩]⟩ := by decide
  have ranks : rank [⟨0⟩, ⟨1⟩, ⟨2⟩] ⟨0⟩ = 0 ∧ rank [⟨0⟩, ⟨1⟩, ⟨2⟩] ⟨1⟩ = 1 ∧
      rank [⟨0⟩, ⟨1⟩, ⟨2⟩] ⟨2⟩ = 2 := by decide
  have indices : (⟨0⟩ : BlockRef).index = 0 ∧ (⟨1⟩ : BlockRef).index = 1 ∧
      (⟨2⟩ : BlockRef).index = 2 := by decide
  norm_num [row, ranks, indices, crowded, pack, Sweep.run, Sweep.place, Sweep.reach, raiseFrom,
    raise, Block.hard, List.replicate]

/-- A row that is longer than the outline by less than a thousandth makes a feasible plan. -/
theorem alignment_keeps_fit_crowded :
    let problem : Problem ℝ := { Problem.ofOutline ⟨1000, 100⟩ with blocks := crowded }
    let winner : Outcome ℝ := ⟨⟨(pack crowded (.identity 3)).1, .identity 3⟩, .zero, 0⟩
    let aligned := (alignHard problem.outline (crowdedAt [0, 100, 1801 / 2])).blocks
    ((∀ block ∈ aligned, ∀ axis, 0 ≤ block.low axis) ∧
      ∀ axis, (boundingSize aligned).along axis ≤
        max (problem.outline.along axis)
          ((boundingSize (crowdedAt [0, 100, 1801 / 2])).along axis)) ∧
      problem.fits (pack crowded (.identity 3)).2 = true ∧
      (finish problem .default winner ⟨.zero, 0⟩ []).feasible = true := by
  intro problem winner aligned
  have positive : ∀ block ∈ crowded, 0 < block.width ∧ 0 < block.height := by
    simp [crowded, Block.hard]
  have outline : ∀ axis, 0 < problem.outline.along axis := by
    rintro (_ | _)
    all_goals norm_num [problem, Problem.ofOutline, Size.along]
  have fits : problem.fits (pack crowded (.identity 3)).2 = true := by
    rw [size_pack_crowded]
    norm_num [Problem.fits, problem, Problem.ofOutline, Number.ratio]
  refine ⟨alignment_keeps_fit.1 _ _ ?_ ?_, fits,
    alignment_keeps_fit.2 _ _ _ _ _ _ _ outline positive (by decide) rfl fits⟩
  · simp [crowdedAt, crowded, Block.hard, Block.moveTo]
  · simp only [crowdedAt, crowded, List.zipWith, List.forall_mem_cons]
    refine ⟨?_, ?_, ?_, List.forall_mem_nil _⟩
    all_goals
      rintro (_ | _)
      all_goals norm_num [Block.moveTo, Block.low]

end Crowded

end Plan

end Floorplanner
