import Mathlib
import Floorplanner.Proofs.Cost.Raster
import Floorplanner.Proofs.Cost.Sums

/-!
No term of the cost is negative.

Each of them adds up lengths, squares, areas, clamped gaps or roots, wherever the blocks are. So the
mean of a term over some layouts is positive unless the term is zero in all of them, and by weights
that are not negative a cost can only rise with a term.
-/

namespace Floorplanner

namespace Cost

inductive Term where
  | area
  | wirelength
  | outline
  | boundary
  | macroBlockage
  | location
  | notch
  deriving Repr, DecidableEq

def Term.all : List Term :=
  [.area, .wirelength, .outline, .boundary, .macroBlockage, .location, .notch]

end Cost

variable {α : Type}

namespace Terms

open Cost

def value (terms : Terms α) : Term → α
  | .area => terms.area
  | .wirelength => terms.wirelength
  | .outline => terms.outline
  | .boundary => terms.boundary
  | .macroBlockage => terms.macroBlockage
  | .location => terms.location
  | .notch => terms.notch

@[simp] theorem value_map {β : Type} (f : α → β) (terms : Terms α) (term : Term) :
    (terms.map f).value term = f (terms.value term) := by
  cases term <;> rfl

@[simp] theorem value_zipWith {β γ : Type} (f : α → β → γ) (first : Terms α) (second : Terms β)
    (term : Term) :
    (zipWith f first second).value term = f (first.value term) (second.value term) := by
  cases term <;> rfl

@[simp] theorem value_replicate (value : α) (term : Term) : (replicate value).value term = value := by
  cases term <;> rfl

variable [ExactNumber α] {terms others norms weights : Terms α} {samples : List (Terms α)}
  {term : Term}

section Mean

theorem value_foldl_add (samples : List (Terms α)) (start : Terms α) (term : Term) :
    (samples.foldl (zipWith (· + ·)) start).value term =
      start.value term + (samples.map (·.value term)).sum := by
  induction samples generalizing start with
  | nil => simp
  | cons sample rest induction =>
      rw [List.foldl_cons, induction, value_zipWith, List.map_cons, List.sum_cons, add_assoc]

theorem value_mean (samples : List (Terms α)) (term : Term) :
    (mean samples).value term = (samples.map (·.value term)).sum / (samples.length : α) := by
  cases samples with
  | nil => simp [mean, zero]
  | cons sample rest =>
      rw [mean, List.isEmpty_cons, if_neg Bool.false_ne_true, value_map, value_foldl_add, zero,
        value_replicate, zero_add]

/-- The mean of a term that is never negative is positive if the term is not zero throughout. -/
theorem value_mean_pos_iff (nonneg : ∀ sample ∈ samples, 0 ≤ sample.value term) :
    0 < (mean samples).value term ↔ ∃ sample ∈ samples, sample.value term ≠ 0 := by
  have values : ∀ value ∈ samples.map (·.value term), 0 ≤ value := List.forall_mem_map.mpr nonneg
  rw [value_mean]
  constructor
  · intro positive
    by_contra none
    push Not at none
    have total : (samples.map (·.value term)).sum = 0 := by
      rw [List.map_congr_left none]
      simp
    rw [total, zero_div] at positive
    exact lt_irrefl 0 positive
  · rintro ⟨sample, member, different⟩
    have less : 0 < sample.value term := (nonneg sample member).lt_of_ne different.symm
    have total : sample.value term ≤ (samples.map (·.value term)).sum :=
      List.single_le_sum values _ (List.mem_map_of_mem member)
    have count : 0 < samples.length := List.length_pos_of_mem member
    exact div_pos (less.trans_le total) (Nat.cast_pos.mpr count)

end Mean

section Weights

/-- What one term adds to a cost; nothing if its constant is not positive. -/
theorem cost_eq_sum (terms norms weights : Terms α) :
    terms.cost norms weights = (Term.all.map fun term => weights.value term *
      if 0 < norms.value term then terms.value term / norms.value term else 0).sum :=
  cost_eq_weighted terms norms weights

variable (nonneg : ∀ term, 0 ≤ weights.value term)

include nonneg

theorem cost_mono (more : ∀ term, terms.value term ≤ others.value term) :
    terms.cost norms weights ≤ others.cost norms weights := by
  rw [cost_eq_sum, cost_eq_sum]
  refine List.sum_le_sum fun term _ => mul_le_mul_of_nonneg_left ?_ (nonneg term)
  split
  next positive => exact div_le_div_of_nonneg_right (more term) positive.le
  next => exact le_rfl

theorem cost_nonneg (values : ∀ term, 0 ≤ terms.value term) : 0 ≤ terms.cost norms weights := by
  rw [cost_eq_sum]
  refine List.sum_nonneg (List.forall_mem_map.mpr fun term _ => mul_nonneg (nonneg term) ?_)
  split
  next positive => exact div_nonneg (values term) positive.le
  next => exact le_rfl

end Weights

end Terms

variable [ExactNumber α]

theorem Size.area_pos {size : Size α} (positive : ∀ axis, 0 < size.along axis) : 0 < size.area :=
  mul_pos (positive .x) (positive .y)

namespace Cost

variable (problem : Problem α) (outline : Size α) (blocks : List (Block α))

theorem boundingBox?_ordered {points : List (Point α)} {box : Rect α}
    (bounds : boundingBox? points = some box) : box.lx ≤ box.ux ∧ box.ly ≤ box.uy := by
  cases points with
  | nil => cases bounds
  | cons first rest =>
      cases bounds
      apply List.foldlRecOn (motive := fun box : Rect α => box.lx ≤ box.ux ∧ box.ly ≤ box.uy)
      · exact ⟨le_rfl, le_rfl⟩
      intro box ordered point _
      exact ⟨min_le_of_left_le (le_max_of_le_left ordered.1),
        min_le_of_left_le (le_max_of_le_left ordered.2)⟩

theorem netLength_nonneg (net : Net) : 0 ≤ netLength problem blocks net := by
  rw [netLength]
  cases bounds : boundingBox? (pins problem blocks net) with
  | none => exact le_rfl
  | some box =>
      obtain ⟨across, upward⟩ := boundingBox?_ordered bounds
      exact mul_nonneg (add_nonneg (sub_nonneg.mpr across) (sub_nonneg.mpr upward))
        (Nat.cast_nonneg _)

theorem wirelength_nonneg : 0 ≤ wirelength problem blocks := by
  rw [wirelength_eq_sum]
  exact List.sum_nonneg (List.forall_mem_map.mpr fun net _ => netLength_nonneg problem blocks net)

theorem boundaryPenalty_nonneg : 0 ≤ boundaryPenalty outline blocks := by
  rw [boundaryPenalty_eq_sum]
  refine List.sum_nonneg (List.forall_mem_map.mpr fun block _ => ?_)
  have square := mul_self_nonneg (edgeDistance outline block.footprint)
  have macros : (0 : α) ≤ block.macros := Nat.cast_nonneg _
  exact mul_nonneg (mul_nonneg square macros) macros

theorem macroBlockage_nonneg : 0 ≤ macroBlockage problem blocks := by
  rw [macroBlockage_eq_sum]
  refine List.sum_nonneg (List.forall_mem_map.mpr fun region _ => ?_)
  exact List.sum_nonneg (List.forall_mem_map.mpr fun block _ => Rect.overlapArea_nonneg _ _)

theorem locationPenalty_nonneg : 0 ≤ locationPenalty problem blocks := by
  rw [locationPenalty_eq_sum]
  refine List.sum_nonneg (List.forall_mem_map.mpr fun location _ => ?_)
  rw [guideGap]
  cases blocks[location.block.index]? with
  | none => exact le_rfl
  | some block => exact le_min (le_max_right _ _) (le_max_right _ _)

end Cost

namespace Notch

variable {outline size thresholds : Size α}

theorem length_nonneg_of_mem_strips {lines : List α} (increasing : lines.Pairwise (· < ·))
    {strip : Interval α} (member : strip ∈ strips lines) : 0 ≤ strip.length := by
  obtain ⟨index, found⟩ := List.mem_iff_getElem?.mp member
  obtain ⟨atLow, atHigh⟩ := getElem?_strips found
  have less := (getElem?_lt_iff increasing atLow atHigh).mpr (Nat.lt_succ_self index)
  exact sub_nonneg.mpr less.le

variable [ExactNumber.HasRoots α] (positive : ∀ axis, 0 < outline.along axis)

include positive

theorem total_nonneg (rects : List (Rect α)) : 0 ≤ total outline thresholds rects := by
  rw [total_eq_sum_cells]
  refine Finset.sum_nonneg fun column _ => Finset.sum_nonneg fun row _ => ?_
  rw [cellWeight]
  split
  next =>
    have width := length_nonneg_of_mem_strips (areLines_gridLines _ _).increasing
      (List.getElem_mem column.isLt)
    have height := length_nonneg_of_mem_strips (areLines_gridLines _ _).increasing
      (List.getElem_mem row.isLt)
    have share := div_nonneg (mul_nonneg width height) (Size.area_pos positive).le
    exact ExactNumber.HasRoots.sqrt_nonneg _ share
  next => exact le_rfl

theorem penalty_nonneg (blocks : List (Block α)) :
    0 ≤ penalty outline size blocks thresholds := by
  rw [penalty]
  split
  next =>
    have width : 0 ≤ max size.width outline.width := le_max_of_le_right (positive .x).le
    have height : 0 ≤ max size.height outline.height := le_max_of_le_right (positive .y).le
    have share := div_nonneg (mul_nonneg width height) (Size.area_pos positive).le
    exact ExactNumber.HasRoots.sqrt_nonneg _ share
  next => exact total_nonneg positive _

end Notch

theorem Cost.value_evaluate_nonneg [ExactNumber.HasRoots α] {problem : Problem α}
    {notching : Config.Notching α} {blocks : List (Block α)} {size : Size α}
    (positive : ∀ axis, 0 < problem.outline.along axis) (nonneg : ∀ axis, 0 ≤ size.along axis)
    (term : Term) : 0 ≤ (evaluate problem notching blocks size).value term := by
  cases term with
  | area => exact mul_nonneg (nonneg .x) (nonneg .y)
  | wirelength => exact wirelength_nonneg problem blocks
  | outline => exact le_max_right _ _
  | boundary => exact boundaryPenalty_nonneg problem.outline blocks
  | macroBlockage => exact macroBlockage_nonneg problem blocks
  | location => exact locationPenalty_nonneg problem blocks
  | notch => exact Notch.penalty_nonneg positive blocks

end Floorplanner
