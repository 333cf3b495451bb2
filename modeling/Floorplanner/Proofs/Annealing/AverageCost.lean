import Mathlib
import Floorplanner.Proofs.Annealing.Normalization

/-!
What sampled layouts cost on average.

The constant of a term is its mean over the samples, so by its constant a term that counts at all is
one on average. The average cost is then what such terms weigh together, whatever the layouts were.
-/

namespace Floorplanner

open Cost

variable {α σ : Type} [ExactNumber α]

namespace Terms

variable (samples : List (Terms α)) (terms norms weights : Terms α)

/-- What the terms that a cost does not leave out weigh together. -/
def countedWeight : α :=
  ((Term.all.filter fun term => 0 < norms.value term).map weights.value).sum

theorem cost_eq_sum_normalized :
    terms.cost norms weights =
      (Term.all.map fun term => weights.value term * (terms.normalized norms).value term).sum := by
  rw [cost_eq_sum]
  simp only [normalized, value_zipWith]

theorem sum_cost_eq_sum_normalized :
    (samples.map (·.cost norms weights)).sum =
      (Term.all.map fun term => weights.value term *
        (samples.map fun sample => (sample.normalized norms).value term).sum).sum := by
  induction samples with
  | nil => simp
  | cons sample rest induction =>
      rw [List.map_cons, List.sum_cons, induction, cost_eq_sum_normalized, ← List.sum_map_add]
      simp only [List.map_cons, List.sum_cons, mul_add]

theorem sum_normalized_mean (term : Term) :
    (samples.map fun sample => (sample.normalized (mean samples)).value term).sum =
      if 0 < (mean samples).value term then (samples.length : α) else 0 := by
  simp only [normalized, value_zipWith]
  split
  next positive =>
    have length : (samples.length : α) ≠ 0 := by
      intro none
      rw [value_mean, none, div_zero] at positive
      exact lt_irrefl 0 positive
    calc
      (samples.map fun sample => sample.value term / (mean samples).value term).sum
        = (samples.map (·.value term)).sum / (mean samples).value term := by
          simp only [div_eq_mul_inv, List.sum_map_mul_right]
      _ = (mean samples).value term * samples.length / (mean samples).value term := by
          rw [value_mean, div_mul_cancel₀ _ length]
      _ = samples.length := mul_div_cancel_left₀ _ positive.ne'
  next => simp

theorem sum_cost_mean :
    (samples.map (·.cost (mean samples) weights)).sum =
      samples.length * countedWeight (mean samples) weights := by
  rw [sum_cost_eq_sum_normalized, countedWeight, ← List.sum_map_mul_left]
  simp only [sum_normalized_mean, mul_comm (weights.value _), ite_mul, zero_mul, List.sum_map_ite,
    List.map_const', List.sum_replicate, nsmul_zero, add_zero]

theorem average_cost_mean {samples : List (Terms α)} (nonempty : samples ≠ []) :
    (samples.map (·.cost (mean samples) weights)).sum / samples.length =
      countedWeight (mean samples) weights := by
  have length : (samples.length : α) ≠ 0 :=
    Nat.cast_ne_zero.mpr (List.length_pos_iff.mpr nonempty).ne'
  rw [sum_cost_mean, mul_div_cancel_left₀ _ length]

end Terms

namespace Annealer

variable [IndexSource σ] [FractionSource σ α] (annealer : Annealer α σ)

theorem length_walked (count : Nat) (layout : Layout α) (source : σ) :
    (annealer.walked count layout source).length = count := by
  induction count generalizing layout source with
  | zero => rfl
  | succ count induction => exact congrArg (· + 1) (induction _ _)

theorem average_cost_sampled (moves : 0 < annealer.config.annealing.movesPerStep) :
    (annealer.sampled.map annealer.sample.costOf).sum / annealer.config.annealing.movesPerStep =
      Terms.countedWeight annealer.sample.calibration.norms annealer.config.weights := by
  have count : annealer.sampled.length = annealer.config.annealing.movesPerStep :=
    annealer.length_walked _ _ _
  have nonempty : annealer.sampled.map (·.terms) ≠ [] := by
    rw [← List.length_pos_iff, List.length_map, count]
    exact moves
  have average := Terms.average_cost_mean annealer.config.weights nonempty
  rw [← annealer.norms_sample, List.map_map, List.length_map, count] at average
  exact average

end Annealer

/--
Under the means of some layouts the cost of each of them is the sum of its normalized terms by their
weights, and together the layouts cost on average the sum of the weights of the terms with a positive
mean. So do the layouts of the walk that an annealer calibrates itself by, under what it takes from
them.
-/
theorem sampled_costs_average_counted_weight :
    (∀ (samples : List (Terms α)) (weights : Terms α), samples ≠ [] →
      let norms := Terms.mean samples
      (samples.map (·.cost norms weights)).sum / samples.length =
          ((Term.all.filter fun term => 0 < norms.value term).map weights.value).sum ∧
        ∀ sample ∈ samples, sample.cost norms weights = (Term.all.map fun term =>
          weights.value term * (sample.normalized norms).value term).sum) ∧
    ∀ (σ : Type) [IndexSource σ] [FractionSource σ α] (annealer : Annealer α σ),
      0 < annealer.config.annealing.movesPerStep →
        let norms := annealer.sample.calibration.norms
        (annealer.sampled.map annealer.sample.costOf).sum / annealer.config.annealing.movesPerStep =
          ((Term.all.filter fun term => 0 < norms.value term).map
            annealer.config.weights.value).sum := by
  constructor
  · intro samples weights nonempty norms
    refine ⟨Terms.average_cost_mean weights nonempty, fun sample _ => ?_⟩
    exact Terms.cost_eq_sum_normalized sample norms weights
  · intro σ _ _ annealer moves
    exact annealer.average_cost_sampled moves

theorem sampled_costs_average_counted_weight_pair :
    let low : Terms ℝ := { Terms.zero with area := 1, wirelength := 4 }
    let high : Terms ℝ := { Terms.zero with area := 3 }
    let weights : Terms ℝ := ⟨1, 2, 5, 5, 5, 5, 5⟩
    let norms := Terms.mean [low, high]
    let annealer : Annealer ℝ WordScript :=
      .new { Problem.ofOutline ⟨10, 10⟩ with blocks := [.hard "rom" 6 1 [⟨2, 3⟩]] } .default 1 ⟨[]⟩
    (low.cost norms weights + high.cost norms weights) / 2 = 3 ∧
      (annealer.sampled.map annealer.sample.costOf).sum / (50 : ℕ) =
        ((Term.all.filter fun term => 0 < annealer.sample.calibration.norms.value term).map
          annealer.config.weights.value).sum := by
  intro low high weights norms annealer
  obtain ⟨average, sampling⟩ := sampled_costs_average_counted_weight (α := ℝ)
  refine ⟨?_, sampling WordScript annealer (by decide)⟩
  have means : norms = ⟨2, 2, 0, 0, 0, 0, 0⟩ := by
    norm_num [norms, Terms.mean, low, high, Terms.zero, Terms.replicate, Terms.zipWith, Terms.map]
  have both : (low.cost norms weights + (high.cost norms weights + 0)) / (2 : ℕ) =
      ((Term.all.filter fun term => 0 < norms.value term).map weights.value).sum :=
    (average [low, high] weights (List.cons_ne_nil low [high])).1
  calc (low.cost norms weights + high.cost norms weights) / 2
    _ = ((Term.all.filter fun term => 0 < norms.value term).map weights.value).sum := by
      simpa using both
    _ = 3 := by norm_num [means, Term.all, List.filter_cons, Terms.value, weights]

end Floorplanner
