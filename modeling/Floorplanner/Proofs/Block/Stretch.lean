import Mathlib
import Floorplanner.Proofs.Alignment.Legality
import Floorplanner.Proofs.Block.Resize
import Floorplanner.Proofs.Extremes
import Floorplanner.Proofs.Packing.BoundingSize

/-!
How far a stretch goes.

A stretch forward ends at the next end of a block in front of the outline's edge, or at that edge,
and there is none only for a block that starts beyond it. A stretch backward ends at the last end of a
block inside the span, and there is one just when some block ends there. Either way the length is
positive, so a soft block is given two positive sides of its area.
-/

namespace Floorplanner

variable {α : Type} [ExactNumber α]

namespace Block

section Span

/-- A length at which a span ends at the next of some edges in front of a limit, or at the limit. -/
structure ReachesNext (span : Interval α) (edges : Set α) (limit length : α) : Prop where
  positive : 0 < length
  stop : span.low + length = limit ∨
    span.low + length ∈ edges ∧ span.high < span.low + length ∧ span.low + length < limit
  next : ∀ edge ∈ edges, ¬ (span.high < edge ∧ edge < span.low + length)

/-- A length at which a span ends at the last of the edges that lie inside it. -/
structure ReachesLast (span : Interval α) (edges : Set α) (length : α) : Prop where
  positive : 0 < length
  shorter : length < span.length
  last : IsGreatest {edge | edge ∈ edges ∧ span.low < edge ∧ edge < span.high} (span.low + length)

variable {span : Interval α} {edges : List α} {limit length : α}

theorem stretchForward_eq_none_iff :
    stretchForward span edges limit = none ↔ limit ≤ span.low := by
  rw [stretchForward]
  split
  next beyond => exact iff_of_true rfl beyond
  next inside => exact iff_of_false nofun inside

theorem reachesNext_of_stretchForward (proper : span.low < span.high)
    (stretches : stretchForward span edges limit = some length) :
    ReachesNext span {edge | edge ∈ edges} limit length := by
  rw [stretchForward] at stretches
  split at stretches
  next => cases stretches
  next inside =>
    obtain ⟨member, least⟩ := isLeast_foldl_min limit
      (edges.filter fun edge => decide (span.high < edge) && decide (edge < limit))
    cases stretches
    generalize List.foldl min limit _ = stop at member least ⊢
    have ends : span.low + (stop - span.low) = stop := add_sub_cancel _ _
    have stops : stop = limit ∨ stop ∈ edges ∧ span.high < stop ∧ stop < limit := by
      simpa using member
    refine ⟨sub_pos.mpr ?_, ?_, ?_⟩
    · rcases stops with rfl | ⟨_, ahead, _⟩
      · exact not_le.mp inside
      · exact proper.trans ahead
    · rwa [ends]
    · rw [ends]
      rintro edge (isEdge : edge ∈ edges) ⟨ahead, before⟩
      have atMost : stop ≤ limit := least List.mem_cons_self
      have least : stop ≤ edge := least (by simp [isEdge, ahead, before.trans_le atMost])
      exact least.not_gt before

theorem reachesLast_of_stretchBackward (stretches : stretchBackward span edges = some length) :
    ReachesLast span {edge | edge ∈ edges} length := by
  obtain ⟨member, greatest⟩ := isGreatest_foldl_max span.low
    (edges.filter fun edge => decide (edge < span.high) && decide (span.low < edge))
  rw [stretchBackward] at stretches
  generalize List.foldl max span.low _ = stop at member greatest stretches
  split at stretches
  next ahead =>
    cases stretches
    have ends : span.low + (stop - span.low) = stop := add_sub_cancel _ _
    have stops : stop ∈ edges ∧ stop < span.high ∧ span.low < stop := by
      simpa [ahead.ne'] using member
    refine ⟨sub_pos.mpr ahead, sub_lt_sub_right stops.2.1 _, ?_⟩
    rw [ends]
    refine ⟨⟨stops.1, stops.2.2, stops.2.1⟩, ?_⟩
    rintro edge ⟨(isEdge : edge ∈ edges), low, high⟩
    exact greatest (by simp [isEdge, low, high])
  next => cases stretches

theorem isSome_stretchBackward_iff :
    (stretchBackward span edges).isSome = true ↔
      ∃ edge ∈ edges, span.low < edge ∧ edge < span.high := by
  constructor
  · intro some
    obtain ⟨length, stretches⟩ := Option.isSome_iff_exists.mp some
    exact ⟨_, (reachesLast_of_stretchBackward stretches).last.1⟩
  · rintro ⟨edge, isEdge, low, high⟩
    have greatest := (isGreatest_foldl_max span.low
      (edges.filter fun edge => decide (edge < span.high) && decide (span.low < edge))).2
    have ahead : span.low < List.foldl max span.low _ :=
      low.trans_le (greatest (by simp [isEdge, low, high]))
    rw [stretchBackward]
    rw [if_pos ahead, Option.isSome_some]

end Span

section Sides

structure IsProportioned (block : Block α) : Prop where
  sides : block.width * block.height = block.area
  positive : ∀ axis, 0 < block.extent axis
  limits : ∃ ratios, block.form = .ofRatios block.area ratios ∧
    ∀ range ∈ ratios, 0 < range.low ∧ 0 < range.high

def sized (block : Block α) (axis : Axis) (length : α) : Block α :=
  match axis with
  | .x => { block with width := length, height := block.area / length }
  | .y => { block with height := length, width := block.area / length }

variable {block : Block α} {axis : Axis} {length wanted : α}

theorem changeWidth_eq {ratios widths heights : List (Interval α)}
    (form : block.form = .soft ratios widths heights) :
    block.changeWidth wanted =
      match widths.head?, widths.getLast? with
      | some first, some last => block.sized .x (nearestWidth first last widths wanted)
      | _, _ => block := by
  cases block
  cases form
  rfl

theorem changeHeight_eq {ratios widths heights : List (Interval α)}
    (form : block.form = .soft ratios widths heights) :
    block.changeHeight wanted =
      match heights.head?, heights.getLast? with
      | some first, some last => block.sized .y (nearestHeight first last heights wanted)
      | _, _ => block := by
  cases block
  cases form
  rfl

namespace IsProportioned

theorem area_pos (proportioned : block.IsProportioned) : 0 < block.area := by
  rw [← proportioned.sides]
  exact mul_pos (proportioned.positive .x) (proportioned.positive .y)

theorem sized (proportioned : block.IsProportioned) (positive : 0 < length) :
    (block.sized axis length).IsProportioned := by
  have other : 0 < block.area / length := div_pos proportioned.area_pos positive
  cases axis with
  | x =>
      refine ⟨mul_div_cancel₀ _ positive.ne', ?_, proportioned.limits⟩
      rintro (_ | _)
      · exact positive
      · exact other
  | y =>
      refine ⟨div_mul_cancel₀ _ positive.ne', ?_, proportioned.limits⟩
      rintro (_ | _)
      · exact other
      · exact positive

theorem sized_extent (proportioned : block.IsProportioned) :
    block.sized axis (block.extent axis) = block := by
  have across := proportioned.positive .x
  have upward := proportioned.positive .y
  cases axis with
  | x =>
      have height : block.area / block.width = block.height := by
        rw [← proportioned.sides]
        exact mul_div_cancel_left₀ _ across.ne'
      simp only [Block.sized, extent, height]
  | y =>
      have width : block.area / block.height = block.width := by
        rw [← proportioned.sides]
        exact mul_div_cancel_right₀ _ upward.ne'
      simp only [Block.sized, extent, width]

variable [ExactNumber.HasRoots α]

theorem heightRange_pos {area : α} (positive : 0 < area) {range : Interval α}
    (ends : 0 < range.low ∧ 0 < range.high) :
    0 < (heightRange area range).low ∧ 0 < (heightRange area range).high :=
  ⟨sqrt_pos (mul_pos positive ends.1), sqrt_pos (mul_pos positive ends.2)⟩

/-- A wanted length that is positive is changed to a positive one, and the area divided by that. -/
theorem exists_stretchTo_eq (proportioned : block.IsProportioned) (axis : Axis)
    (positive : 0 < wanted) :
    ∃ length, 0 < length ∧ Move.stretchTo block axis wanted = block.sized axis length := by
  obtain ⟨ratios, form, ends⟩ := proportioned.limits
  have heights : ∀ range ∈ ratios.map (heightRange block.area), 0 < range.low ∧ 0 < range.high := by
    rw [List.forall_mem_map]
    exact fun range member => heightRange_pos proportioned.area_pos (ends range member)
  have widths : ∀ range ∈ ratios.map (widthRange block.area), 0 < range.low ∧ 0 < range.high := by
    rw [List.forall_mem_map] at heights ⊢
    intro range member
    obtain ⟨low, high⟩ := heights range member
    exact ⟨div_pos proportioned.area_pos high, div_pos proportioned.area_pos low⟩
  have unchanged : ∃ length, 0 < length ∧ block = block.sized axis length :=
    ⟨block.extent axis, proportioned.positive axis, proportioned.sized_extent.symm⟩
  cases axis with
  | x =>
      rw [Move.stretchTo, changeWidth_eq form]
      split
      next first last starts ends =>
        refine ⟨_, neg_neg_iff_pos.mp ?_, rfl⟩
        apply (lands_nearestWidth starts ends wanted).holds (· < 0) (neg_neg_of_pos positive)
        rw [List.forall_mem_map]
        intro range member
        exact ⟨neg_neg_of_pos (widths range member).2, neg_neg_of_pos (widths range member).1⟩
      next => exact unchanged
  | y =>
      rw [Move.stretchTo, changeHeight_eq form]
      split
      next first last starts ends =>
        exact ⟨_, (lands_nearestHeight starts ends wanted).holds (0 < ·) positive heights, rfl⟩
      next => exact unchanged

end IsProportioned

theorem isProportioned_soft [ExactNumber.HasRoots α] (name : String) {area : α}
    (positive : 0 < area) {ratios : List (Interval α)}
    (ends : ∀ range ∈ ratios, 0 < range.low ∧ 0 < range.high) :
    (soft name area ratios).IsProportioned := by
  have start : 0 < (ratios.mergeSort rangeSortsBefore).head?.elim 1 Interval.low := by
    cases first : (ratios.mergeSort rangeSortsBefore).head? with
    | none => exact one_pos
    | some range => exact (ends range (List.mem_mergeSort.mp (List.mem_of_head? first))).1
  have height : 0 < (soft name area ratios).height := sqrt_pos (mul_pos positive start)
  refine ⟨div_mul_cancel₀ area height.ne', ?_, ratios.mergeSort rangeSortsBefore, rfl, ?_⟩
  · rintro (_ | _)
    · exact div_pos positive height
    · exact height
  · exact fun range member => ends range (List.mem_mergeSort.mp member)

end Sides

section Target

variable {blocks : List (Block α)} {outline : Size α} {block : Block α} {direction : Direction}
  {length : α}

theorem ends_eq_members (blocks : List (Block α)) (axis : Axis) :
    ends blocks axis = {stop | stop ∈ blocks.map fun other => (other.footprint.span axis).high} := by
  ext stop
  exact List.mem_map.symm

theorem stretchTarget_of_forward (forward : direction.isForward = true) :
    block.stretchTarget blocks outline direction =
      stretchForward (block.footprint.span direction.axis)
        (blocks.map fun other => (other.footprint.span direction.axis).high)
        (outline.along direction.axis) :=
  if_pos forward

theorem stretchTarget_of_backward (backward : direction.isForward = false) :
    block.stretchTarget blocks outline direction =
      stretchBackward (block.footprint.span direction.axis)
        (blocks.map fun other => (other.footprint.span direction.axis).high) :=
  if_neg (Bool.eq_false_iff.mp backward)

theorem stretchTarget_eq_none_iff (forward : direction.isForward = true) :
    block.stretchTarget blocks outline direction = none ↔
      outline.along direction.axis ≤ (block.footprint.span direction.axis).low := by
  rw [stretchTarget_of_forward forward, stretchForward_eq_none_iff]

theorem isSome_stretchTarget_iff (backward : direction.isForward = false) :
    (block.stretchTarget blocks outline direction).isSome = true ↔
      ∃ stop ∈ ends blocks direction.axis, (block.footprint.span direction.axis).low < stop ∧
        stop < (block.footprint.span direction.axis).high := by
  rw [stretchTarget_of_backward backward, isSome_stretchBackward_iff, ends_eq_members]
  rfl

theorem reachesNext_of_stretchTarget (positive : ∀ axis, 0 < block.extent axis)
    (forward : direction.isForward = true)
    (stretches : block.stretchTarget blocks outline direction = some length) :
    ReachesNext (block.footprint.span direction.axis) (ends blocks direction.axis)
      (outline.along direction.axis) length := by
  rw [stretchTarget_of_forward forward] at stretches
  rw [ends_eq_members]
  exact reachesNext_of_stretchForward (isProper_footprint positive direction.axis) stretches

theorem reachesLast_of_stretchTarget (backward : direction.isForward = false)
    (stretches : block.stretchTarget blocks outline direction = some length) :
    ReachesLast (block.footprint.span direction.axis) (ends blocks direction.axis) length := by
  rw [stretchTarget_of_backward backward] at stretches
  rw [ends_eq_members]
  exact reachesLast_of_stretchBackward stretches

theorem pos_of_stretchTarget (positive : ∀ axis, 0 < block.extent axis)
    (stretches : block.stretchTarget blocks outline direction = some length) : 0 < length := by
  cases way : direction.isForward with
  | true => exact (reachesNext_of_stretchTarget positive way stretches).positive
  | false => exact (reachesLast_of_stretchTarget way stretches).positive

end Target

variable [ExactNumber.HasRoots α]

/--
A block with an extent that is stretched forward ends at the next end of a block in front of the
outline's edge, or at that edge, unless it starts beyond it. Stretched backward, it ends at the last
end of a block inside its span, if there is one. A soft block that is given the length of the stretch
gets two positive sides, one of which its area is divided by.
-/
theorem stretch_reaches_next_end (blocks : List (Block α)) (outline : Size α) {block : Block α}
    (positive : ∀ axis, 0 < block.extent axis) (direction : Direction) :
    let span := block.footprint.span direction.axis
    let stops := ends blocks direction.axis
    let limit := outline.along direction.axis
    let target := block.stretchTarget blocks outline direction
    (direction.isForward = true →
      (target = none ↔ limit ≤ span.low) ∧
        ∀ length, target = some length → ReachesNext span stops limit length) ∧
    (direction.isForward = false →
      (target.isSome = true ↔ ∃ stop ∈ stops, span.low < stop ∧ stop < span.high) ∧
        ∀ length, target = some length → ReachesLast span stops length) ∧
    ∀ length, target = some length → block.IsProportioned →
      let stretched := Move.stretchTo block direction.axis length
      (∃ divisor, 0 < divisor ∧ stretched = block.sized direction.axis divisor) ∧
        stretched.IsProportioned := by
  intro span stops limit target
  refine ⟨fun forward => ⟨?_, ?_⟩, fun backward => ⟨?_, ?_⟩, ?_⟩
  · exact stretchTarget_eq_none_iff forward
  · exact fun length => reachesNext_of_stretchTarget positive forward
  · exact isSome_stretchTarget_iff backward
  · exact fun length => reachesLast_of_stretchTarget backward
  · intro length stretches proportioned
    have wanted : 0 < length := pos_of_stretchTarget positive stretches
    obtain ⟨divisor, divisorPositive, stretched⟩ :=
      proportioned.exists_stretchTo_eq direction.axis wanted
    refine ⟨⟨divisor, divisorPositive, stretched⟩, ?_⟩
    rw [stretched]
    exact proportioned.sized divisorPositive

/-- A square of side four beside a hard block of side three: it is stretched to its end and back. -/
theorem stretch_reaches_next_end_pair :
    let core : Block ℝ := .soft "core" 16 [⟨1, 4⟩]
    let rom : Block ℝ := (Block.hard "rom" 9 1 [⟨3, 3⟩]).moveTo 4 0
    let blocks := [core, rom]
    core.stretchTarget blocks ⟨10, 10⟩ .right = some 7 ∧
      ReachesNext (core.footprint.span .x) (ends blocks .x) 10 7 ∧
      core.stretchTarget blocks ⟨10, 10⟩ .bottom = some 3 ∧
      ReachesLast (core.footprint.span .y) (ends blocks .y) 3 ∧
      (Move.stretchTo core .y 3).IsProportioned := by
  intro core rom blocks
  have proportioned : core.IsProportioned := isProportioned_soft "core" (by norm_num) (by norm_num)
  have root : Number.sqrt (16 : ℝ) = 4 := by
    rw [← sqrt_mul_self_eq (zero_le_four (α := ℝ))]
    norm_num
  have sides : core.footprint = ⟨0, 0, 4, 4⟩ := by
    norm_num [core, soft, withRatio, footprint, Rect.ofOrigin, root]
  have spans (axis : Axis) : core.footprint.span axis = ⟨0, 4⟩ := by
    rw [sides]
    cases axis <;> rfl
  have stops : blocks.map (fun other => (other.footprint.span .x).high) = [4, 7] ∧
      blocks.map (fun other => (other.footprint.span .y).high) = [4, 3] := by
    simp only [blocks, List.map_cons, List.map_nil, spans]
    norm_num [rom, hard, moveTo, footprint, Rect.ofOrigin, Rect.span]
  have right : core.stretchTarget blocks ⟨10, 10⟩ .right = some 7 := by
    rw [stretchTarget_of_forward rfl]
    norm_num [stretchForward, Direction.axis, spans, stops, Size.along]
  have bottom : core.stretchTarget blocks ⟨10, 10⟩ .bottom = some 3 := by
    rw [stretchTarget_of_backward rfl]
    norm_num [stretchBackward, Direction.axis, spans, stops]
  obtain ⟨forth, _⟩ := stretch_reaches_next_end blocks ⟨10, 10⟩ proportioned.positive .right
  obtain ⟨_, back, resized⟩ :=
    stretch_reaches_next_end blocks ⟨10, 10⟩ proportioned.positive .bottom
  exact ⟨right, (forth rfl).2 7 right, bottom, (back rfl).2 3 bottom,
    (resized 3 bottom proportioned).2⟩

end Block

end Floorplanner
