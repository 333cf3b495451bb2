import Mathlib
import Floorplanner.Proofs.Alignment.HardBlocks
import Floorplanner.Proofs.Pointwise

/-!
How far a round moves a block.

A pass draws a block to its side, by no more than the reach of alignment, and only a block that is at
neither edge of the outline. So what snapping brought onto an edge, or what was at one before, stays
there. A block that was not snapped is drawn to one side and then to the other, which does not add up.
-/

namespace Floorplanner

variable {α : Type} [ExactNumber α]

namespace Alignment

/-- Whether a block starts at the lower edge of the outline, or ends at the upper one or beyond. -/
def IsAtEdge (outline : Size α) (axis : Axis) (block : Block α) : Prop :=
  block.low axis = 0 ∨ outline.along axis ≤ block.high axis

variable {outline reach : Size α} {block after : Block α} {blocks others : List (Block α)}
  {axis : Axis} {pass : Pass α} {start : α}

theorem exists_touches_iff (outlines : pass.outline = outline) :
    (∃ upper, pass.touches upper block = true) ↔ IsAtEdge outline pass.side.axis block := by
  rw [Bool.exists_bool, IsAtEdge, Block.high, ← outlines]
  simp only [Pass.touches, Block.span_footprint, if_true, Bool.false_eq_true, if_false,
    beq_iff_eq, decide_eq_true_eq]

structure Pass.Draws (pass : Pass α) (block after : Block α) : Prop where
  extent : ∀ axis, after.extent axis = block.extent axis
  across : ∀ axis, axis ≠ pass.side.axis → after.low axis = block.low axis
  touching : (∃ upper, pass.touches upper block = true) →
    after.low pass.side.axis = block.low pass.side.axis
  lower : pass.side.isUpper = false →
    after.low pass.side.axis ≤ block.low pass.side.axis ∧
      block.low pass.side.axis ≤ after.low pass.side.axis + pass.reach.along pass.side.axis
  upper : pass.side.isUpper = true →
    block.low pass.side.axis ≤ after.low pass.side.axis ∧
      after.low pass.side.axis ≤ block.low pass.side.axis + pass.reach.along pass.side.axis

namespace Pass.Draws

theorem refl (nonneg : ∀ axis, 0 ≤ pass.reach.along axis) (block : Block α) :
    pass.Draws block block where
  extent _ := rfl
  across _ _ := rfl
  touching _ := rfl
  lower _ := ⟨le_rfl, le_add_of_nonneg_right (nonneg _)⟩
  upper _ := ⟨le_rfl, le_add_of_nonneg_right (nonneg _)⟩

theorem slide {origin : Block α} (free : ∀ upper, pass.touches upper block = false)
    (aligned : pass.start? origin.footprint block = some start) :
    pass.Draws block (slide pass.side.axis start block) where
  extent _ := extent_slide
  across _ different := low_slide_of_ne different
  touching := by
    rintro ⟨upper, touches⟩
    rw [free upper] at touches
    cases touches
  lower isLower := by
    rw [low_slide_self]
    rcases start?_cases aligned with ⟨_, below, near, _⟩ | ⟨isUpper, _⟩
    · exact ⟨below, near⟩
    · rw [isLower] at isUpper
      cases isUpper
  upper isUpper := by
    rw [low_slide_self]
    rcases start?_cases aligned with ⟨isLower, _⟩ | ⟨_, above, near, _⟩
    · rw [isUpper] at isLower
      cases isLower
    · exact ⟨above, near⟩

/-- A block at an edge keeps its place on that axis, whatever the axis of the pass. -/
theorem low_eq (draws : pass.Draws block after) (outlines : pass.outline = outline)
    (atEdge : IsAtEdge outline axis block) : after.low axis = block.low axis := by
  by_cases along : axis = pass.side.axis
  · subst along
    exact draws.touching ((exists_touches_iff outlines).mpr atEdge)
  · exact draws.across axis along

theorem isAtEdge (draws : pass.Draws block after) (outlines : pass.outline = outline)
    (atEdge : IsAtEdge outline axis block) : IsAtEdge outline axis after := by
  rw [IsAtEdge, Block.high, draws.low_eq outlines atEdge, draws.extent]
  exact atEdge

end Pass.Draws

/-- What a pass keeps as it spreads: it has drawn some blocks, and the others are where they were. -/
structure SpreadsDrawn (pass : Pass α) (blocks : List (Block α)) (progress : Pass.Progress α) :
    Prop where
  draws : List.Forall₂ pass.Draws blocks progress.blocks
  unmoved : ∀ index, index ∉ progress.sources → progress.blocks[index]? = blocks[index]?

theorem SpreadsDrawn.step {before next : Pass.Progress α}
    (spreads : SpreadsDrawn pass blocks before)
    (step : pass.Step (pass.pending blocks) before next) : SpreadsDrawn pass blocks next where
  draws := by
    cases step with
    | @slide _ _ _ index source block start _ _ member fresh found _ aligned _ =>
        have original := (spreads.unmoved index fresh).symm.trans found
        have free := Pass.not_touches_of_mem_pending member original
        have drawn := forall₂_set spreads.draws index (Pass.Draws.slide free aligned)
        obtain ⟨bound, rfl⟩ := List.getElem?_eq_some_iff.mp original
        rwa [List.set_getElem_self] at drawn
  unmoved := step.unmoved spreads.unmoved

theorem draws_run (nonneg : ∀ axis, 0 ≤ pass.reach.along axis) :
    List.Forall₂ pass.Draws blocks (pass.run blocks) := by
  have initial : SpreadsDrawn pass blocks ⟨pass.queue blocks, blocks⟩ :=
    ⟨List.forall₂_same.mpr fun block _ => .refl nonneg block, fun _ _ => rfl⟩
  obtain ⟨_, final⟩ := pass.run_induction _ initial fun _ _ spreads step => spreads.step step
  exact final.draws

def KeepsEdges (outline : Size α) (block after : Block α) : Prop :=
  ∀ axis, IsAtEdge outline axis block →
    after.low axis = block.low axis ∧ IsAtEdge outline axis after

theorem Pass.Draws.keepsEdges (draws : pass.Draws block after) (outlines : pass.outline = outline) :
    KeepsEdges outline block after :=
  fun _ atEdge => ⟨draws.low_eq outlines atEdge, draws.isAtEdge outlines atEdge⟩

theorem KeepsEdges.trans {last : Block α} (first : KeepsEdges outline block after)
    (second : KeepsEdges outline after last) : KeepsEdges outline block last := by
  intro axis atEdge
  obtain ⟨low, atEdge⟩ := first axis atEdge
  obtain ⟨lastLow, atEdge⟩ := second axis atEdge
  exact ⟨lastLow.trans low, atEdge⟩

/-- Snapping leaves a block, or brings it onto an edge that is within reach. -/
theorem snap_cases (nonneg : 0 ≤ block.low axis) :
    (snap outline reach block).low axis = block.low axis ∨
      IsAtEdge outline axis (snap outline reach block) ∧
        |(snap outline reach block).low axis - block.low axis| ≤ reach.along axis := by
  rw [IsAtEdge, high_snap]
  have ends : block.high axis = block.low axis + block.extent axis := rfl
  rcases low_snap_cases outline reach axis block with
    ⟨near, low⟩ | ⟨_, ⟨inside, near, low⟩ | ⟨_, low⟩⟩
  · refine .inr ⟨.inl low, ?_⟩
    rw [low, zero_sub, abs_neg, abs_of_nonneg nonneg]
    exact near.le
  · refine .inr ⟨.inr ?_, ?_⟩
    · rw [low, sub_add_cancel]
    · rw [low, abs_of_nonneg]
      all_goals linarith
  · exact .inl low

section Rounds

def passLayouts (outline reach : Size α) (blocks : List (Block α)) : List (List (Block α)) :=
  let snapped := blocks.map (snap outline reach)
  let rows := snapped.map (·.footprint.span .y)
  let left := (Pass.mk .left outline reach rows).run snapped
  let right := (Pass.mk .right outline reach rows).run left
  let columns := right.map (·.footprint.span .x)
  let bottom := (Pass.mk .bottom outline reach columns).run right
  [left, right, bottom, (Pass.mk .top outline reach columns).run bottom]

theorem getLast?_passLayouts (outline reach : Size α) (blocks : List (Block α)) :
    (passLayouts outline reach blocks).getLast? = some (round outline reach blocks) := rfl

structure Shifts (reach : Size α) (axis : Axis) (block after : Block α) : Prop where
  along : |after.low axis - block.low axis| ≤ reach.along axis
  across : ∀ other, other ≠ axis → after.low other = block.low other

variable (nonneg : ∀ axis, 0 ≤ reach.along axis)

include nonneg

theorem keepsEdges_run (outlines : pass.outline = outline) (reaches : pass.reach = reach)
    (kept : List.Forall₂ (KeepsEdges outline) blocks others) :
    List.Forall₂ (KeepsEdges outline) blocks (pass.run others) := by
  subst reaches
  exact forall₂_trans kept (draws_run nonneg) fun keeps draws =>
    keeps.trans (draws.keepsEdges outlines)

theorem keepsEdges_of_mem_passLayouts :
    ∀ layout ∈ passLayouts outline reach blocks,
      List.Forall₂ (KeepsEdges outline) (blocks.map (snap outline reach)) layout := by
  let snapped := blocks.map (snap outline reach)
  let rows := snapped.map (·.footprint.span .y)
  let left := (Pass.mk .left outline reach rows).run snapped
  let right := (Pass.mk .right outline reach rows).run left
  let columns := right.map (·.footprint.span .x)
  let bottom := (Pass.mk .bottom outline reach columns).run right
  let top := (Pass.mk .top outline reach columns).run bottom
  have start : List.Forall₂ (KeepsEdges outline) snapped snapped :=
    List.forall₂_same.mpr fun _ _ _ atEdge => ⟨rfl, atEdge⟩
  have afterLeft : List.Forall₂ (KeepsEdges outline) snapped left :=
    keepsEdges_run nonneg rfl rfl start
  have afterRight : List.Forall₂ (KeepsEdges outline) snapped right :=
    keepsEdges_run nonneg rfl rfl afterLeft
  have afterBottom : List.Forall₂ (KeepsEdges outline) snapped bottom :=
    keepsEdges_run nonneg rfl rfl afterRight
  have afterTop : List.Forall₂ (KeepsEdges outline) snapped top :=
    keepsEdges_run nonneg rfl rfl afterBottom
  simp only [passLayouts, List.forall_mem_cons]
  exact ⟨afterLeft, afterRight, afterBottom, afterTop, List.forall_mem_nil _⟩

theorem shifts_run_run (lower upper : Pass α) (reaches : lower.reach = reach)
    (again : upper.reach = reach) (axes : upper.side.axis = lower.side.axis)
    (isLower : lower.side.isUpper = false) (isUpper : upper.side.isUpper = true) :
    List.Forall₂ (Shifts reach lower.side.axis) blocks (upper.run (lower.run blocks)) := by
  subst reaches
  refine forall₂_trans (draws_run nonneg) (draws_run (again ▸ nonneg)) fun first second => ?_
  have down := first.lower isLower
  have up := second.upper isUpper
  rw [axes, again] at up
  constructor
  · rw [abs_le]
    constructor <;> linarith [down.1, down.2, up.1, up.2]
  · intro other different
    rw [second.across other (axes ▸ different), first.across other different]

theorem passes_move_within_reach :
    List.Forall₂ (fun snapped after => ∀ axis,
        |after.low axis - snapped.low axis| ≤ reach.along axis)
      (blocks.map (snap outline reach)) (round outline reach blocks) := by
  let snapped := blocks.map (snap outline reach)
  let rows := snapped.map (·.footprint.span .y)
  let left : Pass α := ⟨.left, outline, reach, rows⟩
  let right : Pass α := ⟨.right, outline, reach, rows⟩
  let aligned := right.run (left.run snapped)
  let columns := aligned.map (·.footprint.span .x)
  let bottom : Pass α := ⟨.bottom, outline, reach, columns⟩
  let top : Pass α := ⟨.top, outline, reach, columns⟩
  have across : List.Forall₂ (Shifts reach .x) snapped aligned :=
    shifts_run_run nonneg left right rfl rfl rfl rfl rfl
  have upward : List.Forall₂ (Shifts reach .y) aligned (top.run (bottom.run aligned)) :=
    shifts_run_run nonneg bottom top rfl rfl rfl rfl rfl
  refine forall₂_trans across upward fun first second axis => ?_
  cases axis with
  | x =>
      rw [second.across .x nofun]
      exact first.along
  | y =>
      rw [← first.across .y nofun]
      exact second.along

/-- Snapping and the passes do not add up: a block that was snapped on an axis is at an edge there. -/
theorem forall₂_abs_sub_low_round_le (nonnegLow : ∀ block ∈ blocks, ∀ axis, 0 ≤ block.low axis) :
    List.Forall₂ (fun before after => ∀ axis,
        |after.low axis - before.low axis| ≤ reach.along axis)
      blocks (round outline reach blocks) := by
  have last := List.mem_of_getLast? (getLast?_passLayouts outline reach blocks)
  have keeps := keepsEdges_of_mem_passLayouts nonneg _ last
  have moves : List.Forall₂ _ (blocks.map (snap outline reach)) (round outline reach blocks) :=
    passes_move_within_reach nonneg
  rw [List.forall₂_map_left_iff] at keeps moves
  have held := (List.forall₂_and_left _ _).mpr ⟨nonnegLow, keeps⟩
  refine held.mp (fun before after held moved axis => ?_) moves
  obtain ⟨nonnegLow, keeps⟩ := held
  rcases snap_cases (nonnegLow axis) with same | ⟨atEdge, near⟩
  · rw [← same]
    exact moved axis
  · rw [(keeps axis atEdge).1]
    exact near

end Rounds

theorem along_reach_nonneg (nonneg : ∀ axis, 0 ≤ outline.along axis)
    (extents : ∀ block ∈ blocks, ∀ axis, 0 ≤ block.extent axis) (axis : Axis) :
    0 ≤ (Alignment.reach outline blocks).along axis := by
  rcases List.mem_cons.mp (isLeast_along_reach outline blocks axis).1 with tenth | extent
  · rw [tenth]
    exact div_nonneg (nonneg axis) (Nat.cast_nonneg _)
  · obtain ⟨block, member, same⟩ := List.mem_map.mp extent
    rw [← same]
    exact extents block member axis

end Alignment

open Floorplanner.Alignment

variable {outline : Size α} {blocks : List (Block α)}

/--
A round moves no hard block by more than the reach of alignment along either axis. A block that is at
an edge of the outline once it is snapped stays there through all passes.
-/
theorem round_moves_within_reach (outlinePositive : ∀ axis, 0 < outline.along axis)
    (positive : ∀ block ∈ blocks, block.isHard = true → ∀ axis, 0 < block.extent axis)
    (nonneg : ∀ block ∈ blocks, block.isHard = true → ∀ axis, 0 ≤ block.low axis) :
    let hard := blocks.filter (·.isHard)
    let reach := Alignment.reach outline hard
    List.Forall₂ (fun before after => ∀ axis,
        |after.low axis - before.low axis| ≤ reach.along axis)
      hard (round outline reach hard) ∧
    (passLayouts outline reach hard).getLast? = some (round outline reach hard) ∧
    ∀ layout ∈ passLayouts outline reach hard,
      List.Forall₂ (fun snapped after => ∀ axis,
          snapped.low axis = 0 ∨ outline.along axis ≤ snapped.high axis →
            after.low axis = snapped.low axis)
        (hard.map (snap outline reach)) layout := by
  intro hard reach
  simp only [← List.forall_mem_filter] at positive nonneg
  have reachNonneg : ∀ axis, 0 ≤ reach.along axis :=
    along_reach_nonneg (fun axis => (outlinePositive axis).le)
      fun block member axis => (positive block member axis).le
  refine ⟨forall₂_abs_sub_low_round_le reachNonneg nonneg, getLast?_passLayouts outline reach hard,
    fun layout member => ?_⟩
  exact (keepsEdges_of_mem_passLayouts reachNonneg layout member).imp
    fun _ _ keeps axis atEdge => (keeps axis atEdge).1

theorem round_moves_within_reach_three :
    let outline : Size ℝ := ⟨10, 10⟩
    let blocks : List (Block ℝ) :=
      [(Block.hard "near" 4 1 [⟨2, 2⟩]).moveTo (1 / 2) 0,
        (Block.soft "loose" 4 [⟨1, 1⟩]).moveTo 1 1,
        (Block.hard "beside" 6 1 [⟨3, 2⟩]).moveTo (13 / 2) (1 / 2)]
    let hard := blocks.filter (·.isHard)
    List.Forall₂ (fun before after => ∀ axis, |after.low axis - before.low axis| ≤ 1)
      hard (round outline ⟨1, 1⟩ hard) := by
  intro outline blocks hard
  have there : hard =
      [(Block.hard "near" 4 1 [⟨2, 2⟩]).moveTo (1 / 2) 0,
        (Block.hard "beside" 6 1 [⟨3, 2⟩]).moveTo (13 / 2) (1 / 2)] := rfl
  have near : reach outline hard = ⟨1, 1⟩ := by
    norm_num [there, reach, outline, Block.hard, Block.moveTo]
  have moves : List.Forall₂ (fun before after => ∀ axis,
      |after.low axis - before.low axis| ≤ (reach outline hard).along axis)
      hard (round outline (reach outline hard) hard) := by
    refine (round_moves_within_reach ?_ ?_ ?_).1
    · rintro (_ | _)
      all_goals norm_num [outline, Size.along]
    all_goals
      rw [← List.forall_mem_filter]
      change ∀ block ∈ hard, _
      simp only [there, List.forall_mem_cons]
      refine ⟨?_, ?_, List.forall_mem_nil _⟩
      all_goals
        rintro (_ | _)
        all_goals norm_num [Block.hard, Block.moveTo, Block.low, Block.extent]
  rw [near] at moves
  refine moves.imp fun _ _ within axis => ?_
  cases axis
  · exact within .x
  · exact within .y

end Floorplanner
