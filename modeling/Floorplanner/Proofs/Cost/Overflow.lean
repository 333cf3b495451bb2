import Mathlib
import Floorplanner.Proofs.Block.Shape
import Floorplanner.Proofs.Cost.Nonneg
import Floorplanner.Proofs.Plan.Account

/-!
When a layout is too large for its outline.

The outline's penalty, the test that keeps notches from being counted and the fit of a plan measure
this in three ways: by an area, by each side, and by each side with some slack. All of them go by the
area that covers both the layout and the outline, which is more than the outline's as soon as one side
is longer, by however little.
-/

namespace Floorplanner

variable {α : Type} [ExactNumber α]

def Size.IsExceededBy (outline size : Size α) : Prop :=
  outline.width < size.width ∨ outline.height < size.height

def Size.coveringArea (outline size : Size α) : α :=
  max size.width outline.width * max size.height outline.height

/-- What the notches of a layout count for if one of its sides is longer than the outline's. -/
def Notch.overflow (outline size : Size α) : α :=
  Number.sqrt (outline.coveringArea size / outline.area)

section Covering

variable {outline size larger : Size α} (positive : ∀ axis, 0 < outline.along axis)

include positive

theorem Size.coveringArea_mono (wider : size.width ≤ larger.width)
    (higher : size.height ≤ larger.height) :
    outline.coveringArea size ≤ outline.coveringArea larger :=
  mul_le_mul (max_le_max_right _ wider) (max_le_max_right _ higher)
    (le_max_of_le_right (positive .y).le) (le_max_of_le_right (positive .x).le)

theorem Size.area_le_coveringArea : outline.area ≤ outline.coveringArea size :=
  mul_le_mul (le_max_right _ _) (le_max_right _ _) (positive .y).le
    (le_max_of_le_right (positive .x).le)

theorem Size.area_lt_coveringArea_iff :
    outline.area < outline.coveringArea size ↔ outline.IsExceededBy size := by
  constructor
  · intro less
    by_contra inside
    obtain ⟨width, height⟩ := not_or.mp inside
    rw [coveringArea, max_eq_right (not_lt.mp width), max_eq_right (not_lt.mp height)] at less
    exact lt_irrefl _ less
  · rintro (wider | higher)
    · exact mul_lt_mul (lt_max_of_lt_left wider) (le_max_right _ _) (positive .y)
        (le_max_of_le_right (positive .x).le)
    · exact mul_lt_mul' (le_max_right _ _) (lt_max_of_lt_left higher) (positive .y).le
        (lt_max_of_lt_right (positive .x))

theorem Size.coveringShare_nonneg : 0 ≤ outline.coveringArea size / outline.area := by
  have area := Size.area_pos positive
  exact div_nonneg (area.le.trans (Size.area_le_coveringArea positive)) area.le

theorem Cost.outlinePenalty_eq :
    Cost.outlinePenalty outline size = outline.coveringArea size - outline.area := by
  have nonneg : 0 ≤ outline.coveringArea size - outline.area :=
    sub_nonneg.mpr (Size.area_le_coveringArea positive)
  rw [Cost.outlinePenalty, max_comm outline.width, max_comm outline.height]
  exact max_eq_left nonneg

theorem Cost.outlinePenalty_pos_iff :
    0 < Cost.outlinePenalty outline size ↔ outline.IsExceededBy size := by
  rw [outlinePenalty_eq positive, sub_pos, Size.area_lt_coveringArea_iff positive]

variable [ExactNumber.HasRoots α]

theorem Notch.overflow_sq_mul_area :
    Notch.overflow outline size ^ 2 * outline.area = outline.coveringArea size := by
  have nonneg : 0 ≤ outline.coveringArea size / outline.area := Size.coveringShare_nonneg positive
  have area := Size.area_pos positive
  rw [pow_two, overflow, ExactNumber.HasRoots.sqrt_mul_self _ nonneg, div_mul_cancel₀ _ area.ne']

theorem Notch.overflow_nonneg : 0 ≤ Notch.overflow outline size :=
  ExactNumber.HasRoots.sqrt_nonneg _ (Size.coveringShare_nonneg positive)

theorem Notch.one_lt_overflow_iff :
    1 < Notch.overflow outline size ↔ outline.IsExceededBy size := by
  have area := Size.area_pos positive
  rw [← Size.area_lt_coveringArea_iff positive, ← overflow_sq_mul_area positive,
    lt_mul_iff_one_lt_left area, one_lt_sq_iff₀ (overflow_nonneg positive)]

end Covering

theorem Problem.exceeds_of_not_fits {problem : Problem α} {size : Size α}
    (positive : ∀ axis, 0 < problem.outline.along axis) (unfit : problem.fits size = false) :
    problem.outline.IsExceededBy size := by
  by_contra inside
  obtain ⟨width, height⟩ := not_or.mp inside
  have slack : (1 : α) ≤ Number.ratio 1001 1000 := by norm_num [Number.ratio]
  have fits : problem.fits size = true := by
    rw [Problem.fits_iff]
    intro axis
    have within : size.along axis ≤ problem.outline.along axis := by
      cases axis with
      | x => exact not_lt.mp width
      | y => exact not_lt.mp height
    exact within.trans (le_mul_of_one_le_right (positive axis).le slack)
  rw [fits] at unfit
  cases unfit

namespace Notch

variable {outline size thresholds : Size α} {blocks : List (Block α)}

theorem penalty_of_exceeds (exceeds : outline.IsExceededBy size) :
    penalty outline size blocks thresholds = overflow outline size :=
  if_pos exceeds

theorem penalty_of_not_exceeds (inside : ¬outline.IsExceededBy size) :
    penalty outline size blocks thresholds =
      total outline thresholds ((blocks.filter (·.isHard)).map (·.footprint)) :=
  if_neg inside

theorem isNotch_nil (grid : Grid α) (thresholds : Size α) (column row : Interval α × Nat) :
    isNotch grid [] thresholds column row = false := by
  have enclosed : isEnclosed grid [] column.2 row.2 = false := by
    rw [isEnclosed]
    refine decide_eq_false fun enough => ?_
    have needed (count : Nat) : 0 < if count = 4 then 2 else 1 := by split <;> omega
    obtain ⟨_, _, covered⟩ := List.countP_pos_iff.mp ((needed _).trans_le enough)
    exact Bool.false_ne_true covered
  rw [isNotch, enclosed, Bool.and_false, Bool.false_and]

theorem total_nil (outline thresholds : Size α) : total outline thresholds [] = 0 := by
  rw [total_eq_sum_cells]
  refine Finset.sum_eq_zero fun column _ => Finset.sum_eq_zero fun row _ => ?_
  exact if_neg (ne_true_of_eq_false (isNotch_nil _ _ _ _))

variable [ExactNumber.HasRoots α] (positive : ∀ axis, 0 < outline.along axis)

include positive

theorem exceeds_iff_penalty_eq_overflow :
    outline.IsExceededBy size ↔
      penalty outline size blocks thresholds = overflow outline size ∧
        1 < penalty outline size blocks thresholds := by
  constructor
  · intro exceeds
    rw [penalty_of_exceeds exceeds]
    exact ⟨rfl, (one_lt_overflow_iff positive).mpr exceeds⟩
  · rintro ⟨same, more⟩
    rw [same] at more
    exact (one_lt_overflow_iff positive).mp more

theorem exceeds_iff_forall_penalty_eq_overflow :
    outline.IsExceededBy size ↔
      ∀ blocks thresholds, penalty outline size blocks thresholds = overflow outline size := by
  refine ⟨fun exceeds _ _ => penalty_of_exceeds exceeds, fun same => ?_⟩
  by_contra inside
  have square : overflow outline size ^ 2 * outline.area = outline.coveringArea size :=
    overflow_sq_mul_area positive
  rw [← same [] .zero, penalty_of_not_exceeds inside, List.filter_nil, List.map_nil, total_nil,
    zero_pow two_ne_zero, zero_mul] at square
  have area := Size.area_pos positive
  exact (area.trans_le (Size.area_le_coveringArea positive)).ne square

theorem penalty_sq_mul_area (exceeds : outline.IsExceededBy size) :
    penalty outline size blocks thresholds ^ 2 * outline.area =
      outline.area + Cost.outlinePenalty outline size := by
  rw [penalty_of_exceeds exceeds, overflow_sq_mul_area positive, Cost.outlinePenalty_eq positive,
    add_sub_cancel]

end Notch

/--
A layout has a penalty for its outline exactly if a side of it is too long, and exactly then its
notches are not counted: instead it has a penalty above one, by which the area of the outline grows
to the covering one. What does not fit even with slack has such a penalty, and no side adds to the
penalty by being shorter.
-/
theorem Problem.overflow_criteria_agree [ExactNumber.HasRoots α] {problem : Problem α}
    (positive : ∀ axis, 0 < problem.outline.along axis) (size : Size α) (blocks : List (Block α))
    (thresholds : Size α) :
    let outline := problem.outline
    let penalty := Notch.penalty outline size blocks thresholds
    (0 < Cost.outlinePenalty outline size ↔
        outline.width < size.width ∨ outline.height < size.height) ∧
      (outline.width < size.width ∨ outline.height < size.height ↔
        penalty = Notch.overflow outline size ∧ 1 < penalty) ∧
      (outline.width < size.width ∨ outline.height < size.height ↔
        ∀ blocks thresholds,
          Notch.penalty outline size blocks thresholds = Notch.overflow outline size) ∧
      (outline.width < size.width ∨ outline.height < size.height →
        penalty ^ 2 * outline.width * outline.height =
          outline.width * outline.height + Cost.outlinePenalty outline size) ∧
      (¬(outline.width < size.width ∨ outline.height < size.height) →
        penalty = Notch.total outline thresholds
          ((blocks.filter (·.isHard)).map (·.footprint))) ∧
      (problem.fits size = false → 0 < Cost.outlinePenalty outline size) ∧
      ∀ larger : Size α, size.width ≤ larger.width → size.height ≤ larger.height →
        Cost.outlinePenalty outline size ≤ Cost.outlinePenalty outline larger := by
  intro outline penalty
  refine ⟨Cost.outlinePenalty_pos_iff positive, Notch.exceeds_iff_penalty_eq_overflow positive,
    Notch.exceeds_iff_forall_penalty_eq_overflow positive, ?square, Notch.penalty_of_not_exceeds,
    ?unfit, ?grows⟩
  case square =>
    intro exceeds
    rw [mul_assoc]
    exact Notch.penalty_sq_mul_area positive exceeds
  case unfit =>
    exact fun unfit =>
      (Cost.outlinePenalty_pos_iff positive).mpr (exceeds_of_not_fits positive unfit)
  case grows =>
    intro larger wider higher
    rw [Cost.outlinePenalty_eq positive, Cost.outlinePenalty_eq positive]
    exact sub_le_sub_right (Size.coveringArea_mono positive wider higher) _

/-- A layout that is too long by less than the slack fits, but is penalized. -/
theorem Problem.overflow_criteria_agree_pair :
    let problem : Problem ℝ := ⟨⟨10, 10⟩, [], [], [], [], []⟩
    let size : Size ℝ := ⟨2001 / 200, 4⟩
    (∀ axis, 0 < problem.outline.along axis) ∧ problem.fits size = true ∧
      0 < Cost.outlinePenalty problem.outline size ∧
      1 < Notch.penalty problem.outline size [] ⟨1, 1⟩ ∧
      Notch.penalty problem.outline size [] ⟨1, 1⟩ ^ 2 * 10 * 10 = 2001 / 20 := by
  intro problem size
  have positive (axis : Axis) : 0 < problem.outline.along axis := by
    cases axis <;> norm_num [problem, Size.along]
  have exceeds : problem.outline.width < size.width ∨ problem.outline.height < size.height :=
    .inl (by norm_num [problem, size])
  obtain ⟨penalized, counted, -, square, -⟩ :=
    overflow_criteria_agree positive size [] ⟨1, 1⟩
  refine ⟨positive, ?_, penalized.mpr exceeds, (counted.mp exceeds).2, (square exceeds).trans ?_⟩
  · rw [fits_iff]
    intro axis
    cases axis <;> norm_num [problem, size, Size.along, Number.ratio]
  · norm_num [problem, size, Cost.outlinePenalty, Size.area]

end Floorplanner
