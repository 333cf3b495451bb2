import Mathlib
import Floorplanner.Geometry
import Floorplanner.Proofs.ExactNumber

/-! The common area of two rectangles, and when they have none. -/

namespace Floorplanner

namespace Rect

variable {α : Type} [ExactNumber α]

theorem overlapArea_comm (r s : Rect α) : r.overlapArea s = s.overlapArea r := by
  simp only [overlapArea, min_comm r.ux, max_comm r.lx, min_comm r.uy, max_comm r.ly]

theorem overlaps_comm (r s : Rect α) : r.overlaps s = s.overlaps r := by
  simp only [overlaps, overlapArea_comm r]

theorem overlapArea_nonneg (r s : Rect α) : 0 ≤ r.overlapArea s := by
  rw [overlapArea]
  split
  next => exact le_rfl
  next sides =>
    obtain ⟨width, height⟩ := not_or.mp sides
    exact mul_nonneg (not_le.mp width).le (not_le.mp height).le

theorem overlapArea_eq_zero {r s : Rect α} (axis : Axis)
    (apart : (r.span axis).high ≤ (s.span axis).low) : r.overlapArea s = 0 := by
  rw [overlapArea, if_pos]
  cases axis with
  | x =>
      refine .inl (sub_nonpos.mpr ?_)
      exact (min_le_left _ _).trans (apart.trans (le_max_right _ _))
  | y =>
      refine .inr (sub_nonpos.mpr ?_)
      exact (min_le_left _ _).trans (apart.trans (le_max_right _ _))

theorem overlaps_iff (r s : Rect α) :
    r.overlaps s = true ↔ ∀ axis,
      max (r.span axis).low (s.span axis).low < min (r.span axis).high (s.span axis).high := by
  rw [overlaps, decide_eq_true_eq, overlapArea]
  constructor
  · intro positive
    split at positive
    · exact absurd positive (lt_irrefl 0)
    next sides =>
      obtain ⟨width, height⟩ := not_or.mp sides
      intro axis
      cases axis with
      | x => exact sub_pos.mp (not_le.mp width)
      | y => exact sub_pos.mp (not_le.mp height)
  · intro common
    have width := sub_pos.mpr (common .x)
    have height := sub_pos.mpr (common .y)
    rw [if_neg]
    · exact mul_pos width height
    · exact not_or.mpr ⟨not_le.mpr width, not_le.mpr height⟩

/-- One of the rectangles ends, along some axis, where the other starts or before it. -/
def Apart (r s : Rect α) : Prop :=
  ∃ axis, (r.span axis).high ≤ (s.span axis).low ∨ (s.span axis).high ≤ (r.span axis).low

def IsProper (r : Rect α) : Prop := ∀ axis, (r.span axis).low < (r.span axis).high

def IsInside (inner outer : Rect α) : Prop :=
  ∀ axis, (outer.span axis).low ≤ (inner.span axis).low ∧
    (inner.span axis).high ≤ (outer.span axis).high

theorem isInside_iff {inner outer : Rect α} :
    inner.IsInside outer ↔ (outer.lx ≤ inner.lx ∧ inner.ux ≤ outer.ux) ∧
      outer.ly ≤ inner.ly ∧ inner.uy ≤ outer.uy :=
  ⟨fun inside => ⟨inside .x, inside .y⟩, fun ⟨across, upward⟩ axis =>
    match axis with
    | .x => across
    | .y => upward⟩

theorem overlaps_eq_false_iff {r s : Rect α} (first : r.IsProper) (second : s.IsProper) :
    r.overlaps s = false ↔ r.Apart s := by
  rw [← Bool.not_eq_true, overlaps_iff, not_forall, Apart]
  apply exists_congr
  intro axis
  simp only [not_lt, min_le_iff, le_max_iff, (first axis).not_ge, (second axis).not_ge, or_false,
    false_or]
  exact or_comm

end Rect

end Floorplanner
