import Mathlib
import Floorplanner.Plan
import Floorplanner.Proofs.Alignment.HardBlocks

/-!
Hard blocks of a plan.

A plan is made from a packed layout, which has no overlaps, by alignment. As long as all its hard
blocks end within the outline, it has none either. A feasible plan may exceed the outline by a
thousandth, though. Then snapping can put a hard block onto the edge of the outline that another
reaches across.
-/

namespace Floorplanner

variable {α : Type}

def PlacedBlock.footprint [Number α] (block : PlacedBlock α) : Rect α :=
  .ofOrigin block.x block.y block.width block.height

namespace Plan

open Floorplanner.Alignment

variable [ExactNumber α]

def HardAreClear (plan : Plan α) : Prop :=
  (plan.blocks.filter (·.isHard)).Pairwise fun a b => a.footprint.overlaps b.footprint = false

section Packed

variable {blocks : List (Block α)} {pair : SequencePair}

theorem areClear_pack (valid : pair.isValid blocks.length = true) :
    Block.AreClear (pack blocks pair).1 := by
  rw [Alignment.areClear_iff]
  intro i j a b different first second
  obtain ⟨this, rfl⟩ := exists_ref_of_getElem? valid first
  obtain ⟨that, rfl⟩ := exists_ref_of_getElem? valid second
  have different : this ≠ that := fun same => different (congrArg _ same)
  rw [Rect.overlaps, overlapArea_pack valid different first second]
  exact decide_eq_false (lt_irrefl 0)

theorem nonneg_low_pack (valid : pair.isValid blocks.length = true) {block : Block α}
    (member : block ∈ (pack blocks pair).1) (axis : Axis) : 0 ≤ block.low axis := by
  obtain ⟨index, found⟩ := List.mem_iff_getElem?.mp member
  obtain ⟨ref, rfl⟩ := exists_ref_of_getElem? valid found
  rw [← lowAt_eq found]
  apply nonneg_lowAt_pack valid
  simpa using (List.getElem?_eq_some_iff.mp found).1

theorem exists_of_mem_pack {block : Block α} (member : block ∈ (pack blocks pair).1) :
    ∃ original ∈ blocks, block.atOrigin = original.atOrigin := by
  have image : block.atOrigin ∈ blocks.map (·.atOrigin) := by
    rw [← map_atOrigin_pack blocks pair]
    exact List.mem_map_of_mem member
  obtain ⟨original, member, same⟩ := List.mem_map.mp image
  exact ⟨original, member, same.symm⟩

end Packed

section Finish

variable {problem : Problem α} {config : Config α} {winner : Outcome α}
  {calibration : Calibration α} {levels : List (LevelSummary α)}

theorem hard_finish :
    (finish problem config winner calibration levels).blocks.filter (·.isHard) =
      ((alignHard problem.outline winner.arrangement.blocks).blocks.filter (·.isHard)).map
        .ofBlock := by
  rw [finish, List.filter_map]
  rfl

variable {blocks : List (Block α)} {pair : SequencePair}

/-- The hard blocks of a plan do not overlap if none of them ends beyond the outline. -/
theorem hardAreClear_finish (valid : pair.isValid blocks.length = true)
    (positive : ∀ block ∈ blocks, block.isHard = true → 0 < block.width ∧ 0 < block.height)
    (packed : winner.arrangement.blocks = (pack blocks pair).1)
    (inside : ∀ block ∈ (finish problem config winner calibration levels).blocks,
      block.isHard = true → block.x + block.width ≤ problem.outline.width ∧
        block.y + block.height ≤ problem.outline.height) :
    (finish problem config winner calibration levels).HardAreClear := by
  rw [HardAreClear, hard_finish, packed, List.pairwise_map]
  apply areClear_alignHard
  · intro block member isHard
    obtain ⟨original, member, same⟩ := exists_of_mem_pack member
    have width : block.width = original.width := extent_of_atOrigin_eq same .x
    have height : block.height = original.height := extent_of_atOrigin_eq same .y
    rw [width, height]
    exact positive original member ((isHard_of_atOrigin_eq same).symm.trans isHard)
  · exact fun block member _ => nonneg_low_pack valid member
  · simp only [← List.forall_mem_filter, hard_finish, packed, List.forall_mem_map] at inside ⊢
    intro block member axis
    cases axis with
    | x => exact (inside block member).1
    | y => exact (inside block member).2
  · exact (areClear_pack valid).filter _

end Finish

section Crowded

/-- Three hard blocks in a row that is longer than an outline of a thousand by half a unit. -/
noncomputable def crowded : List (Block ℝ) :=
  [.hard "d" 10000 1 [⟨(100 : Nat), (100 : Nat)⟩],
    .hard "a" 80050 1 [⟨1601 / (2 : Nat), (100 : Nat)⟩],
    .hard "c" 10000 1 [⟨(100 : Nat), (100 : Nat)⟩]]

noncomputable def crowdedAt (coordinates : List ℝ) : List (Block ℝ) :=
  List.zipWith (fun block x => block.moveTo x 0) crowded coordinates

open Packing in
theorem pack_crowded : (pack crowded (.identity 3)).1 = crowdedAt [0, 100, 1801 / 2] := by
  have row : SequencePair.identity 3 = ⟨[⟨0⟩, ⟨1⟩, ⟨2⟩], [⟨0⟩, ⟨1⟩, ⟨2⟩]⟩ := by decide
  have ranks : rank [⟨0⟩, ⟨1⟩, ⟨2⟩] ⟨0⟩ = 0 ∧ rank [⟨0⟩, ⟨1⟩, ⟨2⟩] ⟨1⟩ = 1 ∧
      rank [⟨0⟩, ⟨1⟩, ⟨2⟩] ⟨2⟩ = 2 := by decide
  have indices : (⟨0⟩ : BlockRef).index = 0 ∧ (⟨1⟩ : BlockRef).index = 1 ∧
      (⟨2⟩ : BlockRef).index = 2 := by decide
  norm_num [row, ranks, indices, crowded, crowdedAt, pack, Sweep.run, Sweep.place, raiseFrom,
    raise, Block.hard, Block.moveTo, List.replicate]

/-- In an outline that holds the row, the plan is legal. -/
theorem hardAreClear_finish_crowded :
    let problem : Problem ℝ := { Problem.ofOutline ⟨2001 / 2, 100⟩ with blocks := crowded }
    let winner : Outcome ℝ := ⟨⟨(pack crowded (.identity 3)).1, .identity 3⟩, .zero, 0⟩
    let plan := finish problem .default winner ⟨.zero, 0⟩ []
    (∀ block ∈ plan.blocks, block.isHard = true →
      block.x + block.width ≤ 2001 / 2 ∧ block.y + block.height ≤ 100) ∧ plan.HardAreClear := by
  intro problem winner plan
  have positive : ∀ block ∈ crowded, block.isHard = true → 0 < block.width ∧ 0 < block.height := by
    simp [crowded, Block.hard]
  have within : ∀ block ∈ (alignHard ⟨2001 / 2, 100⟩ (pack crowded (.identity 3)).1).blocks,
      block.isHard = true → block.IsWithin ⟨2001 / 2, 100⟩ := by
    rw [pack_crowded]
    apply isWithin_alignHard
    · simp [crowdedAt, crowded, Block.hard, Block.moveTo]
    · simp only [crowdedAt, crowded, List.zipWith, List.forall_mem_cons]
      refine ⟨?_, ?_, ?_, List.forall_mem_nil _⟩
      all_goals
        rintro _ (_ | _)
        all_goals norm_num [Block.hard, Block.moveTo, Block.low, Block.high, Block.extent,
          Size.along]
  have inside : ∀ block ∈ plan.blocks, block.isHard = true →
      block.x + block.width ≤ 2001 / 2 ∧ block.y + block.height ≤ 100 := by
    intro placed image isHard
    obtain ⟨block, member, rfl⟩ := List.mem_map.mp image
    exact ⟨(within block member isHard .x).2, (within block member isHard .y).2⟩
  exact ⟨inside, hardAreClear_finish (by decide) positive rfl inside⟩

theorem reach_crowded (coordinates : List ℝ) (length : coordinates.length = 3) :
    reach ⟨1000, 100⟩ (crowdedAt coordinates) = ⟨100, 10⟩ := by
  obtain ⟨x, y, z, rfl⟩ := List.length_eq_three.mp length
  norm_num [reach, crowdedAt, crowded, Block.hard, Block.moveTo]

theorem map_snap_crowded :
    (crowdedAt [0, 100, 1801 / 2]).map (snap ⟨1000, 100⟩ ⟨100, 10⟩) =
      crowdedAt [0, 399 / 2, 1801 / 2] := by
  norm_num [crowdedAt, crowded, snap, snapped, Block.hard, Block.moveTo, Block.footprint,
    Rect.ofOrigin, Rect.span, Interval.length]

theorem map_snap_snapped :
    (crowdedAt [0, 399 / 2, 1801 / 2]).map (snap ⟨1000, 100⟩ ⟨100, 10⟩) =
      crowdedAt [0, 399 / 2, 1801 / 2] := by
  norm_num [crowdedAt, crowded, snap, snapped, Block.hard, Block.moveTo, Block.footprint,
    Rect.ofOrigin, Rect.span, Interval.length]

theorem touches_snapped (pass : Pass ℝ) (outlines : pass.outline = ⟨1000, 100⟩) :
    ∀ block ∈ crowdedAt [0, 399 / 2, 1801 / 2], ∃ upper, pass.touches upper block = true := by
  simp only [crowdedAt, crowded, List.zipWith, List.forall_mem_cons]
  cases axis : pass.side.axis with
  | x =>
      refine ⟨⟨false, ?_⟩, ⟨true, ?_⟩, ⟨true, ?_⟩, nofun⟩
      all_goals norm_num [Pass.touches, axis, outlines, Block.hard, Block.moveTo, Block.footprint,
        Rect.ofOrigin, Rect.span, Size.along]
  | y =>
      refine ⟨⟨false, ?_⟩, ⟨false, ?_⟩, ⟨false, ?_⟩, nofun⟩
      all_goals norm_num [Pass.touches, axis, outlines, Block.hard, Block.moveTo, Block.footprint,
        Rect.ofOrigin, Rect.span, Size.along]

theorem alignHard_crowded :
    (alignHard ⟨1000, 100⟩ (crowdedAt [0, 100, 1801 / 2])).blocks =
      crowdedAt [0, 399 / 2, 1801 / 2] := by
  have first : round ⟨1000, 100⟩ ⟨100, 10⟩ (crowdedAt [0, 100, 1801 / 2]) =
      crowdedAt [0, 399 / 2, 1801 / 2] := by
    rw [round_eq_map_snap, map_snap_crowded]
    rw [map_snap_crowded]
    exact touches_snapped
  have settled : round ⟨1000, 100⟩ ⟨100, 10⟩ (crowdedAt [0, 399 / 2, 1801 / 2]) =
      crowdedAt [0, 399 / 2, 1801 / 2] := by
    rw [round_eq_map_snap, map_snap_snapped]
    rw [map_snap_snapped]
    exact touches_snapped
  have hard : (crowdedAt [0, 100, 1801 / 2]).filter (·.isHard) = crowdedAt [0, 100, 1801 / 2] := rfl
  have rounds : (rounds ⟨1000, 100⟩ ⟨100, 10⟩ maxRounds 0 (crowdedAt [0, 100, 1801 / 2])).blocks =
      crowdedAt [0, 399 / 2, 1801 / 2] := rounds_of_settled_round first settled
  have some : ¬ (crowdedAt [0, 100, 1801 / 2]).isEmpty = true := Bool.false_ne_true
  rw [alignHard, hard, if_neg some, reach_crowded _ rfl]
  change merge _ (Alignment.rounds _ _ _ _ _).blocks = _
  rw [rounds]
  rfl

/-- The plan is feasible, but two of its blocks overlap. -/
theorem feasible_and_overlapping_crowded :
    let problem : Problem ℝ := { Problem.ofOutline ⟨1000, 100⟩ with blocks := crowded }
    let winner : Outcome ℝ := ⟨⟨(pack crowded (.identity 3)).1, .identity 3⟩, .zero, 0⟩
    let plan := finish problem .default winner ⟨.zero, 0⟩ []
    (SequencePair.identity 3).isValid crowded.length = true ∧
      (∀ block ∈ crowded, 0 < block.width ∧ 0 < block.height) ∧
      plan.feasible = true ∧ ¬ plan.HardAreClear := by
  intro problem winner plan
  have blocks : (alignHard problem.outline winner.arrangement.blocks).blocks =
      crowdedAt [0, 399 / 2, 1801 / 2] := by
    rw [← alignHard_crowded, ← pack_crowded]
    rfl
  refine ⟨by decide, ?_, ?_, ?_⟩
  · simp [crowded, Block.hard]
  · change problem.fits (boundingSize (alignHard _ _).blocks) = true
    rw [blocks]
    norm_num [Problem.fits, boundingSize, crowdedAt, crowded, Block.hard, Block.moveTo,
      Block.footprint, Rect.ofOrigin, Number.ratio, problem, Problem.ofOutline, Size.zero]
  · rw [HardAreClear, hard_finish, blocks]
    intro clear
    have apart := (List.pairwise_cons.mp (List.pairwise_cons.mp clear).2).1 _ List.mem_cons_self
    rw [← Bool.not_eq_true, Rect.overlaps_iff] at apart
    apply apart
    rintro (_ | _)
    all_goals norm_num [PlacedBlock.footprint, PlacedBlock.ofBlock, Block.hard, Block.moveTo,
      Rect.ofOrigin, Rect.span]

end Crowded

end Plan

end Floorplanner
