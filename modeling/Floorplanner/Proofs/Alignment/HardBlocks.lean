import Mathlib
import Floorplanner.Proofs.Alignment.Legality
import Floorplanner.Proofs.Extremes

/-!
Alignment of the hard blocks of a layout with soft ones between them.

Only places change, and only those of hard blocks. How near an edge has to be to draw a block is
never more than the block itself, which is what keeps snapping safe.
-/

namespace Floorplanner

variable {α : Type}

namespace Alignment

theorem merge_cons_of_hard {block aligned : Block α} {rest others : List (Block α)}
    (isHard : block.isHard = true) :
    merge (block :: rest) (aligned :: others) = aligned :: merge rest others := by
  simp only [merge, isHard, if_true]

theorem merge_cons_of_soft {block : Block α} {rest hard : List (Block α)}
    (isSoft : block.isHard = false) : merge (block :: rest) hard = block :: merge rest hard := by
  cases hard <;> simp [merge, isSoft]

section Places

variable {blocks hard : List (Block α)}

theorem forall₂_merge {relates : Block α → Block α → Prop}
    (soft : ∀ block ∈ blocks, block.isHard = false → relates block block)
    (aligned : List.Forall₂ relates (blocks.filter (·.isHard)) hard) :
    List.Forall₂ relates blocks (merge blocks hard) := by
  induction blocks generalizing hard with
  | nil => exact .nil
  | cons block rest induction =>
      obtain ⟨here, soft⟩ := List.forall_mem_cons.mp soft
      cases isHard : block.isHard with
      | true =>
          rw [List.filter_cons_of_pos isHard] at aligned
          cases aligned with
          | cons first others =>
              rw [merge_cons_of_hard isHard]
              exact .cons first (induction soft others)
      | false =>
          rw [List.filter_cons_of_neg (Bool.not_eq_true _ ▸ isHard)] at aligned
          rw [merge_cons_of_soft isHard]
          exact .cons (here isHard) (induction soft aligned)

variable [Number α]

theorem map_atOrigin_round (outline reach : Size α) (blocks : List (Block α)) :
    (round outline reach blocks).map (·.atOrigin) = blocks.map (·.atOrigin) := by
  let same (others : List (Block α)) : Prop :=
    others.map (·.atOrigin) = blocks.map (·.atOrigin)
  apply round_invariant same rfl
  · intro others initial
    change (others.map (snap outline reach)).map (·.atOrigin) = _
    rw [← initial, List.map_map]
    exact List.map_congr_left fun block _ => atOrigin_snap
  · intro pass others _ _ initial
    apply pass.run_invariant same initial
    intro _ _ before after _ _ initial step
    cases step with
    | @slide index _ start _ found _ _ =>
        obtain ⟨bound, rfl⟩ := List.getElem?_eq_some_iff.mp found
        change (before.set index (slide pass.side.axis start before[index])).map (·.atOrigin) = _
        rw [← initial, List.map_set, atOrigin_slide]
        apply List.ext_getElem?
        intro position
        grind

theorem map_atOrigin_rounds (outline reach : Size α) (left done : Nat) (blocks : List (Block α)) :
    (rounds outline reach left done blocks).blocks.map (·.atOrigin) = blocks.map (·.atOrigin) :=
  rounds_invariant (fun others => others.map (·.atOrigin) = blocks.map (·.atOrigin)) left done rfl
    fun others same => (map_atOrigin_round outline reach others).trans same

theorem isHard_of_atOrigin_eq {block other : Block α} (same : block.atOrigin = other.atOrigin) :
    block.isHard = other.isHard := by
  change block.atOrigin.isHard = other.atOrigin.isHard
  rw [same]

theorem extent_of_atOrigin_eq {block other : Block α} (same : block.atOrigin = other.atOrigin)
    (axis : Axis) : block.extent axis = other.extent axis := by
  rw [← Block.extent_moveTo block 0 0, ← Block.extent_moveTo other 0 0]
  change block.atOrigin.extent axis = other.atOrigin.extent axis
  rw [same]

def Relocates (block other : Block α) : Prop :=
  other.atOrigin = block.atOrigin ∧ (block.isSoft = true → other = block)

theorem filter_isHard_merge
    (same : hard.map (·.atOrigin) = (blocks.filter (·.isHard)).map (·.atOrigin)) :
    (merge blocks hard).filter (·.isHard) = hard := by
  induction blocks generalizing hard with
  | nil => exact (List.map_eq_nil_iff.mp same).symm
  | cons block rest induction =>
      cases isHard : block.isHard with
      | true =>
          rw [List.filter_cons_of_pos isHard, List.map_cons] at same
          obtain ⟨aligned, others, rfl, here, there⟩ := List.map_eq_cons_iff.mp same
          have alignedHard : aligned.isHard = true := (isHard_of_atOrigin_eq here).trans isHard
          rw [merge_cons_of_hard isHard, List.filter_cons_of_pos alignedHard, induction there]
      | false =>
          rw [List.filter_cons_of_neg (Bool.not_eq_true _ ▸ isHard)] at same
          rw [merge_cons_of_soft isHard, List.filter_cons_of_neg (Bool.not_eq_true _ ▸ isHard),
            induction same]

theorem relocates_of_hard {block other : Block α} (isHard : block.isHard = true)
    (same : other.atOrigin = block.atOrigin) : Relocates block other := by
  refine ⟨same, fun isSoft => ?_⟩
  rw [Block.isHard, isSoft] at isHard
  exact absurd isHard Bool.false_ne_true

theorem merge_relocates
    (same : hard.map (·.atOrigin) = (blocks.filter (·.isHard)).map (·.atOrigin)) :
    List.Forall₂ Relocates blocks (merge blocks hard) := by
  apply forall₂_merge fun block _ _ => ⟨rfl, fun _ => rfl⟩
  rw [← List.forall₂_eq_eq_eq, List.forall₂_map_left_iff, List.forall₂_map_right_iff] at same
  have hard : ∀ block ∈ blocks.filter (·.isHard), block.isHard = true :=
    fun block member => (List.mem_filter.mp member).2
  refine ((List.forall₂_and_left _ _).mpr ⟨hard, same.flip⟩).imp fun block other both => ?_
  exact relocates_of_hard both.1 both.2

theorem alignHard_relocates (outline : Size α) (blocks : List (Block α)) :
    List.Forall₂ Relocates blocks (alignHard outline blocks).blocks ∧
      (alignHard outline blocks).blocks.filter (·.isHard) =
        (rounds outline (reach outline (blocks.filter (·.isHard))) maxRounds 0
          (blocks.filter (·.isHard))).blocks := by
  have same := map_atOrigin_rounds outline (reach outline (blocks.filter (·.isHard))) maxRounds 0
    (blocks.filter (·.isHard))
  rw [alignHard]
  split
  next none =>
    -- Without hard blocks there are no rounds, but rounds of no blocks would change nothing.
    rw [List.isEmpty_iff.mp none] at same ⊢
    refine ⟨List.forall₂_same.mpr fun block _ => ⟨rfl, fun _ => rfl⟩, ?_⟩
    exact (List.map_eq_nil_iff.mp same).symm
  next => exact ⟨merge_relocates same, filter_isHard_merge same⟩

end Places

section Reach

variable [ExactNumber α] {outline : Size α} {blocks : List (Block α)}

/-- How near an edge has to be is a tenth of the outline or the extent of a block. -/
theorem isLeast_along_reach (outline : Size α) (blocks : List (Block α)) (axis : Axis) :
    IsLeast {extent | extent ∈ outline.along axis / (10 : Nat) :: blocks.map (·.extent axis)}
      ((reach outline blocks).along axis) := by
  cases axis with
  | x => exact isLeast_foldl_min _ _
  | y => exact isLeast_foldl_min _ _

theorem along_reach_le {block : Block α} (member : block ∈ blocks) (axis : Axis) :
    (reach outline blocks).along axis ≤ block.extent axis := by
  have extent : block.extent axis ∈ blocks.map (·.extent axis) := List.mem_map_of_mem member
  exact (isLeast_along_reach outline blocks axis).2 (.tail _ extent)

theorem isSound_reach (positive : ∀ block ∈ blocks, 0 < block.width ∧ 0 < block.height)
    (nonneg : ∀ block ∈ blocks, ∀ axis, 0 ≤ block.low axis) :
    ∀ block ∈ blocks, IsSound (reach outline blocks) block := by
  intro block member
  refine ⟨fun axis => ?_, along_reach_le member, nonneg block member⟩
  cases axis with
  | x => exact (positive block member).1
  | y => exact (positive block member).2

end Reach

end Alignment

open Floorplanner.Alignment

variable [ExactNumber α] {outline : Size α} {blocks : List (Block α)}

theorem isWithin_alignHard_of_le {bound : Size α}
    (holds : ∀ axis, outline.along axis ≤ bound.along axis)
    (positive : ∀ block ∈ blocks, block.isHard = true → 0 < block.width ∧ 0 < block.height)
    (within : ∀ block ∈ blocks, block.isHard = true → block.IsWithin bound) :
    ∀ block ∈ (alignHard outline blocks).blocks, block.isHard = true → block.IsWithin bound := by
  simp only [← List.forall_mem_filter] at positive within ⊢
  rw [(alignHard_relocates outline blocks).2]
  apply isWithin_rounds holds _ within
  exact isSound_reach positive fun block member axis => (within block member axis).1

theorem isWithin_alignHard
    (positive : ∀ block ∈ blocks, block.isHard = true → 0 < block.width ∧ 0 < block.height)
    (within : ∀ block ∈ blocks, block.isHard = true → block.IsWithin outline) :
    ∀ block ∈ (alignHard outline blocks).blocks, block.isHard = true → block.IsWithin outline :=
  isWithin_alignHard_of_le (fun _ => le_rfl) positive within

/-- What keeps hard blocks clear of each other is that none of them ends beyond the outline. -/
theorem areClear_alignHard
    (positive : ∀ block ∈ blocks, block.isHard = true → 0 < block.width ∧ 0 < block.height)
    (nonneg : ∀ block ∈ blocks, block.isHard = true → ∀ axis, 0 ≤ block.low axis)
    (inside : ∀ block ∈ (alignHard outline blocks).blocks, block.isHard = true →
      ∀ axis, block.high axis ≤ outline.along axis)
    (clear : Block.AreClear (blocks.filter (·.isHard))) :
    Block.AreClear ((alignHard outline blocks).blocks.filter (·.isHard)) := by
  simp only [← List.forall_mem_filter] at positive nonneg inside
  rw [(alignHard_relocates outline blocks).2] at inside ⊢
  apply IsOrderly.clear
  apply IsOrderly.rounds ⟨isSound_reach positive nonneg, clear⟩
  rintro ⟨block, member, axis, beyond⟩
  exact not_le.mpr beyond.2 (inside block member axis)

/--
If the hard blocks of a layout lie within the outline and do not overlap, they still do and do not
once they are aligned, and nothing but their places changes.
-/
theorem alignHard_keeps_legal
    (positive : ∀ block ∈ blocks, block.isHard = true → 0 < block.width ∧ 0 < block.height)
    (within : ∀ block ∈ blocks, block.isHard = true → block.IsWithin outline)
    (clear : Block.AreClear (blocks.filter (·.isHard))) :
    (∀ block ∈ (alignHard outline blocks).blocks, block.isHard = true → block.IsWithin outline) ∧
      Block.AreClear ((alignHard outline blocks).blocks.filter (·.isHard)) ∧
      List.Forall₂ Relocates blocks (alignHard outline blocks).blocks := by
  have inside := isWithin_alignHard positive within
  refine ⟨inside, ?_, (alignHard_relocates outline blocks).1⟩
  apply areClear_alignHard positive _ _ clear
  · exact fun block member isHard axis => (within block member isHard axis).1
  · exact fun block member isHard axis => (inside block member isHard axis).2

theorem alignHard_keeps_legal_three :
    let outline : Size ℝ := ⟨10, 10⟩
    let blocks : List (Block ℝ) :=
      [(Block.hard "near" 4 1 [⟨2, 2⟩]).moveTo (1 / 2) 0,
        (Block.soft "loose" 4 [⟨1, 1⟩]).moveTo 1 1,
        (Block.hard "beside" 6 1 [⟨3, 2⟩]).moveTo (13 / 2) (1 / 2)]
    (∀ block ∈ (alignHard outline blocks).blocks, block.isHard = true → block.IsWithin outline) ∧
      Block.AreClear ((alignHard outline blocks).blocks.filter (·.isHard)) ∧
      List.Forall₂ Relocates blocks (alignHard outline blocks).blocks := by
  intro outline blocks
  have hard : blocks.filter (·.isHard) =
      [(Block.hard "near" 4 1 [⟨2, 2⟩]).moveTo (1 / 2) 0,
        (Block.hard "beside" 6 1 [⟨3, 2⟩]).moveTo (13 / 2) (1 / 2)] := rfl
  apply alignHard_keeps_legal
  · simp only [← List.forall_mem_filter, hard]
    simp [Block.hard, Block.moveTo]
  · simp only [← List.forall_mem_filter, hard, List.forall_mem_cons]
    refine ⟨?_, ?_, nofun⟩
    all_goals
      rintro (_ | _)
      all_goals norm_num [outline, Block.hard, Block.moveTo, Block.low, Block.high, Block.extent,
        Size.along]
  · rw [hard, Block.AreClear, List.pairwise_pair, Rect.overlaps, decide_eq_false_iff_not,
      Rect.overlapArea_eq_zero .x]
    · exact lt_irrefl 0
    · norm_num [Block.hard, Block.moveTo, Block.footprint, Rect.ofOrigin, Rect.span]

end Floorplanner
