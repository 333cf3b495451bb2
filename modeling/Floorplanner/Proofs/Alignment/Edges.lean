import Mathlib
import Floorplanner.Proofs.Alignment.HardBlocks

/-!
Alignment leaves no block near an edge of the outline without being on it.

Snapping sees to this, and the passes keep it. A block that a pass may move is out of reach of both
edges when the pass begins. It comes to lie at an edge of a source, which is on an edge of the
outline or out of its reach as well, or beside the source, which alone is as wide as the reach.
-/

namespace Floorplanner

variable {α : Type} [ExactNumber α]

namespace Alignment

def ClearsUpper (outline reach : Size α) (axis : Axis) (block : Block α) : Prop :=
  block.high axis = outline.along axis ∨ reach.along axis ≤ outline.along axis - block.high axis

/--
Whether a block is on the lower edge of the outline, or out of reach of it and on the upper edge or
out of reach of that one too.
-/
def ClearsEdges (outline reach : Size α) (axis : Axis) (block : Block α) : Prop :=
  block.low axis = 0 ∨ reach.along axis ≤ block.low axis ∧ ClearsUpper outline reach axis block

structure IsPlaced (outline reach : Size α) (block : Block α) : Prop where
  sound : IsSound reach block
  within : block.IsWithin outline
  clears : ∀ axis, ClearsEdges outline reach axis block

variable {outline reach : Size α} {block origin : Block α} {blocks : List (Block α)} {axis : Axis}
  {pass : Pass α} {start : α}

theorem clearsEdges_snap (within : block.IsWithin outline) (axis : Axis) :
    ClearsEdges outline reach axis (snap outline reach block) := by
  have ends : block.high axis = block.low axis + block.extent axis := rfl
  rcases low_snap_cases outline reach axis block with
    ⟨_, low⟩ | ⟨far, ⟨inside, _, low⟩ | ⟨off, low⟩⟩
  · exact .inl low
  · refine .inr ⟨?_, .inl ?_⟩
    · rw [low]
      linarith
    · rw [high_snap, low, sub_add_cancel]
  · rw [ClearsEdges, ClearsUpper, high_snap, low, ← ends]
    refine .inr ⟨far, ?_⟩
    rcases (within axis).2.lt_or_eq with less | same
    · exact .inr (off less)
    · exact .inl same

theorem isPlaced_snap (sound : IsSound reach block) (within : block.IsWithin outline) :
    IsPlaced outline reach (snap outline reach block) where
  sound := sound.snap
  within := isWithin_snap (fun _ => le_rfl) within
  clears := clearsEdges_snap within

section Passes

variable (outlines : pass.outline = outline)

include outlines

theorem IsPlaced.reach_le (placed : IsPlaced outline reach block)
    (free : ∀ upper, pass.touches upper block = false) :
    reach.along pass.side.axis ≤ block.low pass.side.axis ∧
      reach.along pass.side.axis ≤
        outline.along pass.side.axis - block.high pass.side.axis := by
  have lower := free false
  have upper := free true
  simp only [Pass.touches, Block.span_footprint, if_true, Bool.false_eq_true, if_false,
    beq_eq_false_iff_ne, decide_eq_false_iff_not, not_le, outlines] at lower upper
  obtain ⟨far, onUpper | off⟩ := (placed.clears pass.side.axis).resolve_left lower
  · exact absurd onUpper upper.ne
  · exact ⟨far, off⟩

theorem IsPlaced.clearsUpper_of_touches (placed : IsPlaced outline reach block)
    (touches : pass.touches true block = true) :
    ClearsUpper outline reach pass.side.axis block := by
  rw [Pass.touches, if_pos rfl, Block.span_footprint, decide_eq_true_iff, outlines] at touches
  exact .inl ((placed.within pass.side.axis).2.antisymm touches)

/-- A block that is clear of both edges stays so as it goes up to a source. -/
theorem clears_slide (placed : IsPlaced outline reach block)
    (free : ∀ upper, pass.touches upper block = false) (source : IsPlaced outline reach origin)
    (clears : pass.side.isUpper = true → ClearsUpper outline reach pass.side.axis origin)
    (aligned : pass.start? origin.footprint block = some start) :
    ClearsEdges outline reach pass.side.axis (slide pass.side.axis start block) ∧
      (pass.side.isUpper = true →
        ClearsUpper outline reach pass.side.axis (slide pass.side.axis start block)) := by
  obtain ⟨far, off⟩ := placed.reach_le outlines free
  have originNonneg := source.sound.nonneg pass.side.axis
  have originReaches := source.sound.reaches pass.side.axis
  have originPositive := source.sound.positive pass.side.axis
  have ends : block.high pass.side.axis =
    block.low pass.side.axis + block.extent pass.side.axis := rfl
  have originEnds : origin.high pass.side.axis =
    origin.low pass.side.axis + origin.extent pass.side.axis := rfl
  rw [ClearsEdges, ClearsUpper, Block.high, extent_slide, low_slide_self]
  rcases start?_cases aligned with ⟨lower, below, _, edge⟩ | ⟨upper, above, _, edge⟩
  · refine ⟨?_, fun upper => absurd upper (by simp [lower])⟩
    have away : reach.along pass.side.axis ≤
        outline.along pass.side.axis - (start + block.extent pass.side.axis) := by linarith
    rcases edge with onLow | onHigh
    · rcases source.clears pass.side.axis with zero | ⟨originFar, _⟩
      · exact .inl (onLow.trans zero)
      · exact .inr ⟨onLow ▸ originFar, .inr away⟩
    · exact .inr ⟨by linarith, .inr away⟩
  · have upperClear : start + block.extent pass.side.axis = outline.along pass.side.axis ∨
        reach.along pass.side.axis ≤
          outline.along pass.side.axis - (start + block.extent pass.side.axis) := by
      rcases edge with onLow | onHigh
      · rcases clears upper with onUpper | originOff
        · exact .inr (by linarith)
        · exact .inr (by linarith)
      · rw [onHigh]
        exact clears upper
    exact ⟨.inr ⟨far.trans above, upperClear⟩, fun _ => upperClear⟩

theorem IsPlaced.slide (placed : IsPlaced outline reach block)
    (free : ∀ upper, pass.touches upper block = false) (source : IsPlaced outline reach origin)
    (clears : pass.side.isUpper = true → ClearsUpper outline reach pass.side.axis origin)
    (aligned : pass.start? origin.footprint block = some start) :
    IsPlaced outline reach (slide pass.side.axis start block) where
  sound := placed.sound.slide source.sound aligned
  within := isWithin_slide placed.sound source.sound placed.within source.within aligned
  clears axis := by
    by_cases same : axis = pass.side.axis
    · subst same
      exact (clears_slide outlines placed free source clears aligned).1
    · rw [ClearsEdges, ClearsUpper, Block.high, extent_slide, low_slide_of_ne same]
      exact placed.clears axis

/--
What a pass keeps as it spreads: all blocks are placed, those that have not moved are where they
were, and the sources of an upper pass are clear of the upper edge even if they are on the lower one.
-/
structure SpreadsPlaced (pass : Pass α) (outline reach : Size α) (blocks : List (Block α))
    (progress : Pass.Progress α) : Prop where
  placed : ∀ block ∈ progress.blocks, IsPlaced outline reach block
  unmoved : ∀ index, index ∉ progress.sources → progress.blocks[index]? = blocks[index]?
  sources : pass.side.isUpper = true → ∀ index ∈ progress.sources, ∀ block,
    progress.blocks[index]? = some block → ClearsUpper outline reach pass.side.axis block

theorem SpreadsPlaced.step {before after : Pass.Progress α}
    (spreads : SpreadsPlaced pass outline reach blocks before)
    (step : pass.Step (pass.pending blocks) before after) :
    SpreadsPlaced pass outline reach blocks after := by
  have unmoved := step.unmoved spreads.unmoved
  cases step with
  | @slide sources current originIndex index source block start isSource foundSource member fresh
      found _ aligned _ =>
      have sourcePlaced := spreads.placed source (List.mem_of_getElem? foundSource)
      have blockPlaced := spreads.placed block (List.mem_of_getElem? found)
      have free := Pass.not_touches_of_mem_pending member
        ((spreads.unmoved index fresh).symm.trans found)
      have sourceClears := fun upper => spreads.sources upper originIndex isSource source foundSource
      have bound : index < current.length := (List.getElem?_eq_some_iff.mp found).1
      refine ⟨?_, unmoved, ?_⟩
      · intro other member
        rcases List.mem_or_eq_of_mem_set member with member | rfl
        · exact spreads.placed other member
        · exact blockPlaced.slide outlines free sourcePlaced sourceClears aligned
      · intro upper position isLater other there
        by_cases same : index = position
        · subst same
          rw [List.getElem?_set_self bound] at there
          cases there
          exact (clears_slide outlines blockPlaced free sourcePlaced sourceClears aligned).2
            upper
        · rw [List.getElem?_set_ne same] at there
          rcases List.mem_cons.mp isLater with rfl | isSource
          · exact absurd rfl same
          · exact spreads.sources upper position isSource other there

theorem isPlaced_run (placed : ∀ block ∈ blocks, IsPlaced outline reach block) :
    ∀ block ∈ pass.run blocks, IsPlaced outline reach block := by
  have initial : SpreadsPlaced pass outline reach blocks ⟨pass.queue blocks, blocks⟩ := by
    refine ⟨placed, fun _ _ => rfl, fun upper index queued block found => ?_⟩
    have touches := Pass.touches_of_mem_queue queued found
    rw [upper] at touches
    exact (placed block (List.mem_of_getElem? found)).clearsUpper_of_touches outlines touches
  obtain ⟨_, final⟩ := pass.run_induction _ initial
    fun before after spreads step => spreads.step outlines step
  exact final.placed

end Passes

section Rounds

variable {left done : Nat}

theorem isPlaced_round (sound : ∀ block ∈ blocks, IsSound reach block)
    (within : ∀ block ∈ blocks, block.IsWithin outline) :
    ∀ block ∈ round outline reach blocks, IsPlaced outline reach block := by
  have snapped : ∀ block ∈ blocks.map (snap outline reach), IsPlaced outline reach block := by
    intro _ image
    obtain ⟨block, member, rfl⟩ := List.mem_map.mp image
    exact isPlaced_snap (sound block member) (within block member)
  rw [round]
  apply isPlaced_run rfl
  apply isPlaced_run rfl
  apply isPlaced_run rfl
  exact isPlaced_run rfl snapped

theorem isPlaced_rounds (sound : ∀ block ∈ blocks, IsSound reach block)
    (within : ∀ block ∈ blocks, block.IsWithin outline) :
    ∀ block ∈ (rounds outline reach (left + 1) done blocks).blocks,
      IsPlaced outline reach block := by
  apply rounds_succ_invariant (fun blocks => ∀ block ∈ blocks, IsPlaced outline reach block)
    (isPlaced_round sound within)
  intro blocks placed
  exact isPlaced_round (fun block member => (placed block member).sound)
    fun block member => (placed block member).within

end Rounds

end Alignment

open Floorplanner.Alignment

variable {outline : Size α} {blocks : List (Block α)}

/--
If the hard blocks of a layout lie within the outline, each of them is, once they are aligned, on the
edges of the outline or out of reach of them, however many rounds that took.
-/
theorem clearsEdges_alignHard
    (positive : ∀ block ∈ blocks, block.isHard = true → 0 < block.width ∧ 0 < block.height)
    (within : ∀ block ∈ blocks, block.isHard = true → block.IsWithin outline) :
    ∀ block ∈ (alignHard outline blocks).blocks, block.isHard = true → ∀ axis,
      ClearsEdges outline (reach outline (blocks.filter (·.isHard))) axis block := by
  simp only [← List.forall_mem_filter] at positive within ⊢
  rw [(alignHard_relocates outline blocks).2]
  have sound : ∀ block ∈ blocks.filter (·.isHard), IsSound (reach outline _) block :=
    isSound_reach positive fun block member axis => (within block member axis).1
  exact fun block member => (isPlaced_rounds sound within block member).clears

theorem clearsEdges_alignHard_three :
    let outline : Size ℝ := ⟨10, 10⟩
    let blocks : List (Block ℝ) :=
      [(Block.hard "near" 4 1 [⟨2, 2⟩]).moveTo (1 / 2) 0,
        (Block.soft "loose" 4 [⟨1, 1⟩]).moveTo 1 1,
        (Block.hard "beside" 6 1 [⟨3, 2⟩]).moveTo (13 / 2) (1 / 2)]
    ∀ block ∈ (alignHard outline blocks).blocks, block.isHard = true → ∀ axis,
      ClearsEdges outline ⟨1, 1⟩ axis block := by
  intro outline blocks
  have hard : blocks.filter (·.isHard) =
      [(Block.hard "near" 4 1 [⟨2, 2⟩]).moveTo (1 / 2) 0,
        (Block.hard "beside" 6 1 [⟨3, 2⟩]).moveTo (13 / 2) (1 / 2)] := rfl
  have near : reach outline (blocks.filter (·.isHard)) = ⟨1, 1⟩ := by
    norm_num [hard, reach, outline, Block.hard, Block.moveTo]
  rw [← near]
  apply clearsEdges_alignHard
  · simp only [← List.forall_mem_filter, hard]
    simp [Block.hard, Block.moveTo]
  · simp only [← List.forall_mem_filter, hard, List.forall_mem_cons]
    refine ⟨?_, ?_, List.forall_mem_nil _⟩
    all_goals
      rintro (_ | _)
      all_goals norm_num [outline, Block.hard, Block.moveTo, Block.low, Block.high, Block.extent,
        Size.along]

end Floorplanner
