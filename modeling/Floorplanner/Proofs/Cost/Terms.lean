import Mathlib
import Floorplanner.Cost.Terms
import Floorplanner.Proofs.ExactNumber

/-!
The cost as a weighted sum.

A term whose normalization constant is not positive is left out of the cost, and is zero among the
normalized terms. So with exact numbers the cost is the sum of all normalized terms by their weights.
-/

namespace Floorplanner

variable {α : Type} [ExactNumber α]

theorem Number.sum_eq (terms : List α) : Number.sum terms = terms.sum := by
  rw [Number.sum, neg_zero, List.sum_eq_foldl]

namespace Terms

theorem sum_filterMap_id (shares : List (Option α)) :
    (shares.filterMap id).sum = (shares.map (·.getD 0)).sum := by
  induction shares with
  | nil => rfl
  | cons share rest induction =>
      cases share with
      | none => simpa using induction
      | some value => simpa using induction

theorem getD_share? (value norm weight : α) :
    (share? value norm weight).getD 0 = weight * if 0 < norm then value / norm else 0 := by
  rw [share?]
  split
  · exact mul_div_assoc weight value norm
  · exact (mul_zero weight).symm

def weighted (weights terms : Terms α) : α := (zipWith (· * ·) weights terms).toList.sum

/-- A term that is left out of the cost is one that counts as zero. -/
theorem cost_eq_weighted (terms norms weights : Terms α) :
    terms.cost norms weights = weighted weights (terms.normalized norms) := by
  rw [cost, Number.sum_eq, sum_filterMap_id, weighted]
  simp only [toList, zipWith, normalized, List.map, getD_share?]

structure AddUp (norms weights terms normalized : Terms α) (cost : α) : Prop where
  normalizes : normalized = terms.normalized norms
  adds : cost = weighted weights normalized

end Terms

end Floorplanner
