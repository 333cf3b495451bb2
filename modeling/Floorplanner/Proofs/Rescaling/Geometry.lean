import Mathlib
import Floorplanner.Geometry
import Floorplanner.Proofs.ExactNumber

/-!
Changes of the unit of length.

Another unit multiplies all lengths by one factor and all areas by its square. Sums, differences and
comparisons of lengths go along with it, and so do those of areas; ratios do not change at all. The
lemmas on numbers here move the factor outwards, so that what a definition computes from rescaled
lengths is simplified to the rescaled length that it computes from the others.
-/

namespace Floorplanner

/-- A change of the unit of length. Square roots take areas to lengths in any unit. -/
structure Rescaling (α : Type) [ExactNumber α] where
  factor : α
  positive : 0 < factor
  sqrt_square_mul (a : α) : Number.sqrt (factor * factor * a) = factor * Number.sqrt a

variable {α : Type} [ExactNumber α]

namespace Rescaling

variable (unit : Rescaling α) (a b : α)

def length : α := unit.factor * a

def area : α := unit.factor * unit.factor * a

theorem square_positive : 0 < unit.factor * unit.factor := mul_pos unit.positive unit.positive

@[simp] theorem length_zero : unit.length 0 = 0 := mul_zero _

@[simp] theorem area_zero : unit.area 0 = 0 := mul_zero _

@[simp] theorem length_add : unit.length a + unit.length b = unit.length (a + b) :=
  (mul_add _ _ _).symm

@[simp] theorem area_add : unit.area a + unit.area b = unit.area (a + b) := (mul_add _ _ _).symm

@[simp] theorem length_sub : unit.length a - unit.length b = unit.length (a - b) :=
  (mul_sub _ _ _).symm

@[simp] theorem area_sub : unit.area a - unit.area b = unit.area (a - b) := (mul_sub _ _ _).symm

theorem length_mul : unit.length a * b = unit.length (a * b) := mul_assoc _ _ _

theorem area_mul : unit.area a * b = unit.area (a * b) := mul_assoc _ _ _

theorem length_div : unit.length a / b = unit.length (a / b) := mul_div_assoc _ _ _

theorem area_div : unit.area a / b = unit.area (a / b) := mul_div_assoc _ _ _

@[simp] theorem length_mul_length : unit.length a * unit.length b = unit.area (a * b) :=
  mul_mul_mul_comm _ _ _ _

@[simp] theorem length_div_length : unit.length a / unit.length b = a / b :=
  mul_div_mul_left _ _ unit.positive.ne'

@[simp] theorem area_div_area : unit.area a / unit.area b = a / b :=
  mul_div_mul_left _ _ unit.square_positive.ne'

@[simp] theorem area_div_length : unit.area a / unit.length b = unit.length (a / b) := by
  rw [area, length, length, mul_assoc, mul_div_mul_left _ _ unit.positive.ne', mul_div_assoc]

@[simp] theorem sqrt_area : Number.sqrt (unit.area a) = unit.length (Number.sqrt a) :=
  unit.sqrt_square_mul a

@[simp] theorem length_le_length : unit.length a ≤ unit.length b ↔ a ≤ b :=
  mul_le_mul_iff_right₀ unit.positive

@[simp] theorem length_lt_length : unit.length a < unit.length b ↔ a < b :=
  mul_lt_mul_iff_right₀ unit.positive

@[simp] theorem length_inj : unit.length a = unit.length b ↔ a = b :=
  mul_right_inj' unit.positive.ne'

@[simp] theorem length_beq_length : (unit.length a == unit.length b) = (a == b) :=
  decide_eq_decide.mpr (unit.length_inj a b)

@[simp] theorem length_beq_zero : (unit.length a == 0) = (a == 0) := by
  rw [← unit.length_zero, length_beq_length, length_zero]

@[simp] theorem length_pos : 0 < unit.length a ↔ 0 < a := mul_pos_iff_of_pos_left unit.positive

@[simp] theorem area_pos : 0 < unit.area a ↔ 0 < a := mul_pos_iff_of_pos_left unit.square_positive

@[simp] theorem length_nonpos : unit.length a ≤ 0 ↔ a ≤ 0 := by
  rw [← not_lt, length_pos, not_lt]

@[simp] theorem min_length : min (unit.length a) (unit.length b) = unit.length (min a b) :=
  (mul_min_of_nonneg a b unit.positive.le).symm

@[simp] theorem max_length : max (unit.length a) (unit.length b) = unit.length (max a b) :=
  (mul_max_of_nonneg a b unit.positive.le).symm

@[simp] theorem max_length_zero : max (unit.length a) 0 = unit.length (max a 0) := by
  rw [← unit.length_zero, max_length, length_zero]

@[simp] theorem max_area_zero : max (unit.area a) 0 = unit.area (max a 0) := by
  rw [area, area, mul_max_of_nonneg a 0 unit.square_positive.le, mul_zero]

@[simp] theorem abs_length : Number.abs (unit.length a) = unit.length (Number.abs a) :=
  (abs_mul unit.factor a).trans (congrArg (· * |a|) (abs_of_pos unit.positive))

theorem foldl_length {β : Type} {step changed : α → β → α} (list : List β)
    (commutes : ∀ sum item, changed (unit.length sum) item = unit.length (step sum item)) :
    list.foldl changed 0 = unit.length (list.foldl step 0) := by
  rw [← List.foldl_hom unit.length commutes, unit.length_zero]

theorem foldl_area {β : Type} {step changed : α → β → α} (list : List β)
    (commutes : ∀ sum item, changed (unit.area sum) item = unit.area (step sum item)) :
    list.foldl changed 0 = unit.area (list.foldl step 0) := by
  rw [← List.foldl_hom unit.area commutes, unit.area_zero]

theorem foldl_min_length (values : List α) :
    (values.map unit.length).foldl min (unit.length a) = unit.length (values.foldl min a) := by
  rw [List.foldl_map]
  exact List.foldl_hom unit.length fun least value => unit.min_length least value

theorem foldl_max_length (values : List α) :
    (values.map unit.length).foldl max (unit.length a) = unit.length (values.foldl max a) := by
  rw [List.foldl_map]
  exact List.foldl_hom unit.length fun most value => unit.max_length most value

end Rescaling

variable (unit : Rescaling α)

namespace Size

@[simps] def rescale (size : Size α) : Size α := ⟨unit.length size.width, unit.length size.height⟩

@[simp] theorem along_rescale (size : Size α) (axis : Axis) :
    (size.rescale unit).along axis = unit.length (size.along axis) := by
  cases axis <;> rfl

@[simp] theorem area_rescale (size : Size α) : (size.rescale unit).area = unit.area size.area :=
  unit.length_mul_length _ _

@[simp] theorem rescale_zero : (zero : Size α).rescale unit = zero := by
  simp [zero, rescale]

end Size

namespace Interval

@[simps] def rescale (range : Interval α) : Interval α :=
  ⟨unit.length range.low, unit.length range.high⟩

@[simp] theorem length_rescale (range : Interval α) :
    (range.rescale unit).length = unit.length range.length :=
  unit.length_sub _ _

@[simp] theorem contains_rescale (range : Interval α) (value : α) :
    (range.rescale unit).contains (unit.length value) = range.contains value := by
  simp [contains]

end Interval

@[simps] def Point.rescale (point : Point α) : Point α := ⟨unit.length point.x, unit.length point.y⟩

namespace Rect

@[simps] def rescale (rect : Rect α) : Rect α :=
  ⟨unit.length rect.lx, unit.length rect.ly, unit.length rect.ux, unit.length rect.uy⟩

@[simp] theorem span_rescale (rect : Rect α) (axis : Axis) :
    (rect.rescale unit).span axis = (rect.span axis).rescale unit := by
  cases axis <;> rfl

@[simp] theorem ofOrigin_rescale (x y width height : α) :
    ofOrigin (unit.length x) (unit.length y) (unit.length width) (unit.length height) =
      (ofOrigin x y width height).rescale unit := by
  simp [ofOrigin, rescale]

@[simp] theorem width_rescale (rect : Rect α) :
    (rect.rescale unit).width = unit.length rect.width :=
  unit.length_sub _ _

@[simp] theorem height_rescale (rect : Rect α) :
    (rect.rescale unit).height = unit.length rect.height :=
  unit.length_sub _ _

@[simp] theorem center_rescale (rect : Rect α) :
    (rect.rescale unit).center = rect.center.rescale unit := by
  simp [center, Point.rescale, Rescaling.length_div]

@[simp] theorem overlapArea_rescale (first second : Rect α) :
    (first.rescale unit).overlapArea (second.rescale unit) =
      unit.area (first.overlapArea second) := by
  simp only [overlapArea, rescale, Rescaling.min_length, Rescaling.max_length,
    Rescaling.length_sub, Rescaling.length_nonpos, Rescaling.length_mul_length]
  split
  · exact unit.area_zero.symm
  · rfl

@[simp] theorem overlaps_rescale (first second : Rect α) :
    (first.rescale unit).overlaps (second.rescale unit) = first.overlaps second := by
  simp [overlaps]

end Rect

end Floorplanner
