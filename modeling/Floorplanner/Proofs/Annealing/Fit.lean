import Mathlib
import Floorplanner.Proofs.Annealing.Coherence
import Floorplanner.Proofs.Block.Stock
import Floorplanner.Proofs.Packing.Monotonicity
import Floorplanner.Proofs.Plan.Account

/-!
Shrinking never hurts the fit.

A shrink leaves the hard blocks as they are and makes the soft ones smaller. Packed by the same pair,
they need no more room, so what the layout needs beyond the outline does not grow, and a layout that
fits still does.
-/

namespace Floorplanner

open Number

variable {α σ : Type} [Number α] [RoundsMonotonically α]

namespace Block

theorem extent_shrink_le {block : Block α} {factor : α} (axis : Axis)
    (nonneg : 0 ≤ block.extent axis) (atMost : factor ≤ 1)
    (number : (block.shrink factor).extent axis ≤ (block.shrink factor).extent axis) :
    (block.shrink factor).extent axis ≤ block.extent axis := by
  cases kind : block.isHard with
  | true =>
      rw [shrink_of_isHard kind]
      exact RoundsMonotonically.le_self_of_le nonneg
  | false =>
      have scaled : (block.shrink factor).extent axis = block.extent axis * factor := by
        cases block with
        | mk name area form =>
            cases form with
            | soft => cases axis <;> rfl
            | hard => cases kind
      rw [scaled] at number ⊢
      by_cases positive : 0 < block.extent axis * factor
      · exact RoundsMonotonically.mul_le_self nonneg atMost positive
      · have nonpos := ComparesLawfully.le_of_not_lt number MaxesLawfully.zero_le_zero positive
        exact ComparesLawfully.le_trans nonpos nonneg

theorem noLarger_shrink {blocks : List (Block α)} {factor : α}
    (nonneg : ∀ block ∈ blocks, ∀ axis, 0 ≤ block.extent axis) (atMost : factor ≤ 1) :
    NoLarger (blocks.map (·.shrink factor)) blocks := by
  rw [NoLarger, List.forall₂_map_left_iff, List.forall₂_same]
  exact fun block member axis => extent_shrink_le axis (nonneg block member axis) atMost

end Block

namespace Cost

open RoundsMonotonically

variable {outline small large : Size α}

theorem le_self_area (positive : ∀ axis, 0 < outline.along axis) (size : Size α) :
    max outline.width size.width * max outline.height size.height ≤
      max outline.width size.width * max outline.height size.height := by
  have side {line slot : α} (positive : 0 < line) : 0 < max line slot :=
    pos_of_pos_of_le positive (le_max_left (MaxesLawfully.le_self_of_lt positive))
  exact le_self_mul (side (positive .x)) (side (positive .y))

theorem outlinePenalty_mono
    (within : ∀ axis, Packing.IsWithin (small.along axis) (large.along axis))
    (number : max outline.width large.width * max outline.height large.height ≤
      max outline.width large.width * max outline.height large.height) :
    outlinePenalty outline small ≤ outlinePenalty outline large := by
  have side (line : α) {slot other : α} (within : Packing.IsWithin slot other) :
      Packing.IsWithin (max line slot) (max line other) :=
    ⟨ComparesLawfully.le_trans within.1 (le_max_right (le_self_of_le within.1)),
      max_le_max_left within.2⟩
  have width := side outline.width (within .x)
  have height := side outline.height (within .y)
  apply max_zero_le_max_zero
  intro positive
  have area := mul_le_mul_of_number width.1 height.1 width.2 height.2
    (le_self_of_pos_sub positive) number
  exact sub_le_sub area positive

end Cost

theorem Problem.fits_mono {problem : Problem α} {small large : Size α}
    (smaller : ∀ axis, small.along axis ≤ large.along axis) (fits : problem.fits large = true) :
    problem.fits small = true := by
  rw [Problem.fits_iff] at fits ⊢
  exact fun axis => ComparesLawfully.le_trans (smaller axis) (fits axis)

namespace Annealer

variable {annealer : Annealer α σ} {layout : Layout α}

theorem size_shrinkSoft_isWithin (coherent : layout.IsCoherent annealer.problem annealer.config)
    (valid : layout.arrangement.pair.isValid layout.arrangement.blocks.length = true)
    (nonneg : ∀ block ∈ layout.arrangement.blocks, ∀ axis, 0 ≤ block.extent axis)
    (atMost : annealer.config.shrinking.factor ≤ 1) (axis : Axis) :
    Packing.IsWithin ((annealer.shrinkSoft layout).size.along axis) (layout.size.along axis) := by
  have smaller := Block.noLarger_shrink nonneg atMost
  rw [← smaller.length_eq] at valid
  have packed := smaller.along_pack_isWithin valid axis
  rwa [coherent.packed] at packed

end Annealer

/--
Of two lists of blocks, the one whose blocks are no larger is packed no further out, block by block
and as a whole. So shrinking the soft blocks of a layout that is packed and evaluated, as those of a
search are, extends it along no axis, takes it no further beyond the outline, and keeps it fitting if
it fits. Rounding changes none of this; the area beyond the outline is compared where the layout with
the outline has an area, and not a side of zero next to one without end.
-/
theorem smaller_blocks_fit :
    (∀ (blocks others : List (Block α)) (pair : SequencePair),
      pair.isValid blocks.length = true →
      List.Forall₂ (fun block other => ∀ axis, block.extent axis ≤ other.extent axis)
        blocks others →
        List.Forall₂ (fun block other => ∀ axis, block.low axis ≤ other.low axis)
            (pack blocks pair).1 (pack others pair).1 ∧
          ∀ axis, (pack blocks pair).2.along axis ≤ (pack others pair).2.along axis) ∧
    ∀ (annealer : Annealer α σ) (layout : Layout α),
      layout.IsCoherent annealer.problem annealer.config →
      layout.arrangement.pair.isValid layout.arrangement.blocks.length = true →
      (∀ block ∈ layout.arrangement.blocks, ∀ axis, 0 ≤ block.extent axis) →
      annealer.config.shrinking.factor ≤ 1 →
        (∀ axis, (annealer.shrinkSoft layout).size.along axis ≤ layout.size.along axis) ∧
          (let outline := annealer.problem.outline
            let area := max outline.width layout.size.width * max outline.height layout.size.height
            (∀ axis, 0 < outline.along axis) ∨ area ≤ area →
              (annealer.shrinkSoft layout).terms.outline ≤ layout.terms.outline) ∧
          (annealer.problem.fits layout.size = true →
            annealer.problem.fits (annealer.shrinkSoft layout).size = true) := by
  constructor
  · intro blocks others pair valid extents
    have smaller : NoLarger blocks others := extents.imp fun _ _ atMost axis _ => atMost axis
    exact ⟨smaller.forall₂_low_pack_le valid,
      fun axis => (smaller.along_pack_isWithin valid axis).2⟩
  · intro annealer layout coherent valid nonneg atMost
    have sizes := Annealer.size_shrinkSoft_isWithin coherent valid nonneg atMost
    refine ⟨fun axis => (sizes axis).2, ?_, Problem.fits_mono fun axis => (sizes axis).2⟩
    intro outline area number
    rw [coherent.evaluated]
    apply Cost.outlinePenalty_mono sizes
    rcases number with positive | number
    · exact Cost.le_self_area positive layout.size
    · exact number

theorem smaller_blocks_fit_two :
    let pair : SequencePair := ⟨[⟨1⟩, ⟨0⟩], [⟨0⟩, ⟨1⟩]⟩
    let low : Block ℝ := .hard "shelf" 6 1 [⟨3, 2⟩]
    let slim : Block ℝ := .hard "tower" 8 1 [⟨2, 4⟩]
    let wide : Block ℝ := .hard "tower" 20 1 [⟨4, 5⟩]
    let problem : Problem ℝ :=
      { Problem.ofOutline ⟨10, 10⟩ with blocks := [low, .soft "core" 16 [⟨1, 1⟩]] }
    let annealer : Annealer ℝ Unit := .new problem .default 1 ()
    (∀ axis, (pack [low, slim] pair).2.along axis ≤ (pack [low, wide] pair).2.along axis) ∧
      (annealer.shrinkSoft annealer.layout).terms.outline ≤ annealer.layout.terms.outline := by
  intro pair low slim wide problem annealer
  constructor
  · refine ((smaller_blocks_fit (σ := Unit)).1 [low, slim] [low, wide] pair (by decide) ?_).2
    refine .cons (fun _ => le_rfl) (.cons ?_ .nil)
    rintro (_ | _)
    all_goals norm_num [slim, wide, Block.hard, Block.extent]
  · have nonneg : ∀ block ∈ problem.blocks, ∀ axis, 0 ≤ block.extent axis := by
      rw [List.forall_mem_cons, List.forall_mem_singleton]
      constructor
      all_goals
        rintro (_ | _)
        all_goals
          simp [low, Block.hard, Block.soft, Block.withRatio, Block.extent, Number.sqrt,
            ExactNumber.sqrt]
    refine (smaller_blocks_fit.2 annealer annealer.layout ?_ ?_ ?_ ?_).2.1 (.inr le_rfl)
    · exact Annealer.isCoherent_new problem .default 1 ()
    · change (SequencePair.identity 2).isValid (pack problem.blocks _).1.length = true
      rw [length_pack]
      decide
    · intro block member axis
      obtain ⟨original, member, same⟩ := Plan.exists_of_mem_pack member
      rw [Alignment.extent_of_atOrigin_eq same]
      exact nonneg original member axis
    · norm_num [annealer, Annealer.new, Config.default, Config.Shrinking.default, Number.ratio]

end Floorplanner
