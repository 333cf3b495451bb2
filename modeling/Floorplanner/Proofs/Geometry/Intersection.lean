import Mathlib
import Floorplanner.Proofs.Geometry.Overlap

/-!
The common part of two rectangles.

The points that two rectangles share are those of a third one, which goes from the larger of their
lower ends to the smaller of their upper ends. The two overlap if it has an inside, and then its area
is the area that they share; over the reals that is the measure of the points strictly inside both.
Neither rectangle needs to have an inside, or its corners in order.
-/

namespace Floorplanner

namespace Rect

section Exact

variable {α : Type} [ExactNumber α] {r s larger other : Rect α}

/-- The points of a rectangle, those on its edges included. -/
def points (r : Rect α) : Set (Point α) :=
  {point | point.x ∈ Set.Icc r.lx r.ux ∧ point.y ∈ Set.Icc r.ly r.uy}

def interior (r : Rect α) : Set (Point α) :=
  {point | point.x ∈ Set.Ioo r.lx r.ux ∧ point.y ∈ Set.Ioo r.ly r.uy}

def meet (r s : Rect α) : Rect α :=
  ⟨max r.lx s.lx, max r.ly s.ly, min r.ux s.ux, min r.uy s.uy⟩

theorem points_meet (r s : Rect α) : (r.meet s).points = r.points ∩ s.points := by
  ext point
  simp only [points, meet, Set.mem_inter_iff, Set.mem_ofPred_eq, Set.mem_Icc, max_le_iff,
    le_min_iff]
  tauto

theorem interior_meet (r s : Rect α) : (r.meet s).interior = r.interior ∩ s.interior := by
  ext point
  simp only [interior, meet, Set.mem_inter_iff, Set.mem_ofPred_eq, Set.mem_Ioo, max_lt_iff,
    lt_min_iff]
  tauto

theorem nonempty_interior_iff : r.interior.Nonempty ↔ r.IsProper := by
  constructor
  · intro ⟨point, across, upward⟩ axis
    cases axis with
    | x => exact across.1.trans across.2
    | y => exact upward.1.trans upward.2
  · intro proper
    obtain ⟨x, across⟩ := exists_between (proper .x)
    obtain ⟨y, upward⟩ := exists_between (proper .y)
    exact ⟨⟨x, y⟩, across, upward⟩

theorem IsProper.width_pos (proper : r.IsProper) : 0 < r.width := sub_pos.mpr (proper .x)

theorem IsProper.height_pos (proper : r.IsProper) : 0 < r.height := sub_pos.mpr (proper .y)

theorem IsInside.isProper (inside : r.IsInside s) (proper : r.IsProper) : s.IsProper :=
  fun axis => (inside axis).1.trans_lt ((proper axis).trans_le (inside axis).2)

theorem IsInside.area_le (inside : r.IsInside s) (width : 0 ≤ r.width) (height : 0 ≤ r.height) :
    r.area ≤ s.area := by
  obtain ⟨across, upward⟩ := isInside_iff.mp inside
  have wider : r.width ≤ s.width := sub_le_sub across.2 across.1
  have higher : r.height ≤ s.height := sub_le_sub upward.2 upward.1
  exact mul_le_mul wider higher height (width.trans wider)

theorem meet_isInside (r s : Rect α) : (r.meet s).IsInside r :=
  isInside_iff.mpr ⟨⟨le_max_left _ _, min_le_left _ _⟩, le_max_left _ _, min_le_left _ _⟩

theorem IsInside.meet (first : r.IsInside larger) (second : s.IsInside other) :
    (r.meet s).IsInside (larger.meet other) := by
  obtain ⟨across, upward⟩ := isInside_iff.mp first
  obtain ⟨otherAcross, otherUpward⟩ := isInside_iff.mp second
  apply isInside_iff.mpr
  constructor
  · exact ⟨max_le_max across.1 otherAcross.1, min_le_min across.2 otherAcross.2⟩
  · exact ⟨max_le_max upward.1 otherUpward.1, min_le_min upward.2 otherUpward.2⟩

theorem overlaps_iff_isProper : r.overlaps s = true ↔ (r.meet s).IsProper := by
  rw [overlaps_iff]
  apply forall_congr'
  intro axis
  cases axis <;> exact Iff.rfl

theorem overlapArea_eq_area (proper : (r.meet s).IsProper) :
    r.overlapArea s = (r.meet s).area := by
  rw [overlapArea, if_neg]
  · rfl
  · exact not_or.mpr ⟨not_le.mpr proper.width_pos, not_le.mpr proper.height_pos⟩

theorem overlapArea_eq_zero_of_not_isProper (flat : ¬ (r.meet s).IsProper) :
    r.overlapArea s = 0 := by
  rw [← overlaps_iff_isProper, overlaps, decide_eq_true_eq, not_lt] at flat
  exact flat.antisymm (overlapArea_nonneg r s)

theorem overlapArea_le_area (width : 0 ≤ r.width) (height : 0 ≤ r.height) :
    r.overlapArea s ≤ r.area := by
  by_cases proper : (r.meet s).IsProper
  · rw [overlapArea_eq_area proper]
    exact (meet_isInside r s).area_le proper.width_pos.le proper.height_pos.le
  · rw [overlapArea_eq_zero_of_not_isProper proper]
    exact mul_nonneg width height

theorem overlapArea_mono (first : r.IsInside larger) (second : s.IsInside other) :
    r.overlapArea s ≤ larger.overlapArea other := by
  by_cases proper : (r.meet s).IsProper
  · have inside := first.meet second
    rw [overlapArea_eq_area proper, overlapArea_eq_area (inside.isProper proper)]
    exact inside.area_le proper.width_pos.le proper.height_pos.le
  · rw [overlapArea_eq_zero_of_not_isProper proper]
    exact overlapArea_nonneg larger other

end Exact

section Measure

open MeasureTheory

theorem volume_interior (r : Rect ℝ) :
    volume {place : ℝ × ℝ | ⟨place.1, place.2⟩ ∈ r.interior} =
      ENNReal.ofReal r.width * ENNReal.ofReal r.height := by
  change volume (Set.Ioo r.lx r.ux ×ˢ Set.Ioo r.ly r.uy) = _
  rw [Measure.volume_eq_prod, Measure.prod_prod, Real.volume_Ioo, Real.volume_Ioo]
  rfl

theorem volume_interior_inter (r s : Rect ℝ) :
    volume {place : ℝ × ℝ | ⟨place.1, place.2⟩ ∈ r.interior ∩ s.interior} =
      ENNReal.ofReal (r.overlapArea s) := by
  rw [← interior_meet]
  by_cases proper : (r.meet s).IsProper
  · rw [volume_interior, overlapArea_eq_area proper, area, ENNReal.ofReal_mul proper.width_pos.le]
  · have empty : (r.meet s).interior = ∅ :=
      Set.not_nonempty_iff_eq_empty.mp (nonempty_interior_iff.not.mpr proper)
    simp [empty, overlapArea_eq_zero_of_not_isProper proper]

end Measure

/--
Two rectangles share the points of a third one. They overlap just when there are points strictly
inside both, and then the area of the third is the area that they share, which is zero otherwise. It
does not depend on their order, it is no larger than that of either one with sides that are not
negative, and it does not shrink with a rectangle that is enlarged. Over the reals it is the measure
of the points strictly inside both.
-/
theorem overlap_measures_common_points :
    (∀ {α : Type} [ExactNumber α] (r s : Rect α),
      r.overlapArea s = s.overlapArea r ∧ 0 ≤ r.overlapArea s ∧
      (r.overlaps s = true ↔ ∃ point, point ∈ r.interior ∧ point ∈ s.interior) ∧
      (∃ shared : Rect α,
        shared.points = r.points ∩ s.points ∧ shared.interior = r.interior ∩ s.interior ∧
          ((∃ point, point ∈ r.interior ∧ point ∈ s.interior) → r.overlapArea s = shared.area)) ∧
      ((¬ ∃ point, point ∈ r.interior ∧ point ∈ s.interior) → r.overlapArea s = 0) ∧
      (0 ≤ r.width → 0 ≤ r.height → r.overlapArea s ≤ r.area) ∧
      (0 ≤ s.width → 0 ≤ s.height → r.overlapArea s ≤ s.area) ∧
      ∀ larger other : Rect α, r.IsInside larger → s.IsInside other →
        r.overlapArea s ≤ larger.overlapArea other) ∧
    ∀ r s : Rect ℝ, MeasureTheory.volume {place : ℝ × ℝ |
      ⟨place.1, place.2⟩ ∈ r.interior ∩ s.interior} = ENNReal.ofReal (r.overlapArea s) := by
  refine ⟨?_, volume_interior_inter⟩
  intro α _ r s
  have proper : (r.meet s).IsProper ↔ ∃ point, point ∈ r.interior ∧ point ∈ s.interior := by
    rw [← nonempty_interior_iff, interior_meet]
    exact Iff.rfl
  refine ⟨overlapArea_comm r s, overlapArea_nonneg r s, overlaps_iff_isProper.trans proper, ?_, ?_,
    overlapArea_le_area, ?_, fun _ _ => overlapArea_mono⟩
  · exact ⟨r.meet s, points_meet r s, interior_meet r s,
      fun inside => overlapArea_eq_area (proper.mpr inside)⟩
  · exact fun apart => overlapArea_eq_zero_of_not_isProper (proper.not.mpr apart)
  · rw [overlapArea_comm]
    exact overlapArea_le_area

/-- A rectangle over a corner of another one, both of them enlarged; and one inside out. -/
theorem overlap_measures_common_points_corner :
    let shelf : Rect ℝ := ⟨0, 0, 4, 4⟩
    let bench : Rect ℝ := ⟨2, -1, 6, 3⟩
    let inverted : Rect ℝ := ⟨3, 0, 1, 4⟩
    (shelf.overlapArea bench ≤ shelf.area ∧ shelf.overlapArea bench ≤ bench.area) ∧
      shelf.overlapArea bench ≤ Rect.overlapArea ⟨-1, 0, 5, 4⟩ ⟨2, -2, 7, 3⟩ ∧
      (∃ shared : Rect ℝ, shared.interior = shelf.interior ∩ bench.interior ∧
        shelf.overlapArea bench = shared.area) ∧
      inverted.overlapArea shelf = 0 := by
  intro shelf bench inverted
  obtain ⟨_, _, _, ⟨shared, _, inside, equal⟩, _, first, second, grows⟩ :=
    overlap_measures_common_points.1 shelf bench
  obtain ⟨_, _, _, _, apart, _⟩ := overlap_measures_common_points.1 inverted shelf
  have both : (⟨3, 1⟩ : Point ℝ) ∈ shelf.interior ∧ (⟨3, 1⟩ : Point ℝ) ∈ bench.interior := by
    norm_num [shelf, bench, interior]
  have none : ¬ ∃ point, point ∈ inverted.interior ∧ point ∈ shelf.interior := by
    intro ⟨point, ⟨⟨low, high⟩, _⟩, _⟩
    exact absurd (low.trans high) (by norm_num [inverted])
  refine ⟨⟨first ?_ ?_, second ?_ ?_⟩, grows _ _ ?_ ?_, ⟨shared, inside, equal ⟨_, both⟩⟩,
    apart none⟩
  all_goals norm_num [shelf, bench, width, height, isInside_iff]

end Rect

end Floorplanner
