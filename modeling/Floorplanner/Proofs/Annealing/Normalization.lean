import Mathlib
import Floorplanner.Annealing
import Floorplanner.Proofs.Cost.Nonneg
import Floorplanner.Proofs.Packing.Reach
import Floorplanner.Random.Script

/-!
Normalization leaves out no term that occurs.

The constants of a run are the means of the terms over the layouts that it samples. Every one of
these is packed and evaluated, so none of its terms is negative. A constant is therefore positive if
the term was not zero in all of them, and a term that is left out of the cost is one that the samples
never showed.
-/

namespace Floorplanner

variable {α σ : Type} [ExactNumber α]

namespace Annealer

theorem value_terms_settle_nonneg [ExactNumber.HasRoots α] {annealer : Annealer α σ}
    (positive : ∀ axis, 0 < annealer.problem.outline.along axis) (arrangement : Arrangement α)
    (term : Cost.Term) : 0 ≤ (annealer.settle arrangement).terms.value term :=
  Cost.value_evaluate_nonneg positive (nonneg_along_pack arrangement.blocks arrangement.pair) term

variable [IndexSource σ] [FractionSource σ α] (annealer : Annealer α σ)

/-- The layouts that a number of moves from a layout leads to, whatever they cost. -/
def walked (annealer : Annealer α σ) : Nat → Layout α → σ → List (Layout α)
  | 0, _, _ => []
  | count + 1, layout, source =>
      let next := annealer.propose layout source
      next.1.2 :: annealer.walked count next.1.2 next.2

theorem terms_wander (count : Nat) (layout : Layout α) (source : σ) :
    (annealer.wander count layout source).1 =
      (annealer.walked count layout source).map (·.terms) := by
  induction count generalizing layout source with
  | zero => rfl
  | succ count induction => exact congrArg (List.cons _) (induction _ _)

def sampled : List (Layout α) :=
  annealer.walked annealer.config.annealing.movesPerStep annealer.layout annealer.source

theorem norms_sample :
    annealer.sample.calibration.norms = Terms.mean (annealer.sampled.map (·.terms)) :=
  congrArg Terms.mean (annealer.terms_wander _ _ _)

variable [ExactNumber.HasRoots α] {annealer}
  (positive : ∀ axis, 0 < annealer.problem.outline.along axis)

include positive

theorem value_terms_walked_nonneg (count : Nat) (layout : Layout α) (source : σ) :
    ∀ next ∈ annealer.walked count layout source, ∀ term, 0 ≤ next.terms.value term := by
  induction count generalizing layout source with
  | zero => exact List.forall_mem_nil _
  | succ count induction =>
      rw [walked, List.forall_mem_cons]
      exact ⟨value_terms_settle_nonneg positive _, induction _ _⟩

theorem value_norms_sample_pos_iff (term : Cost.Term) :
    0 < annealer.sample.calibration.norms.value term ↔
      ∃ layout ∈ annealer.sampled, layout.terms.value term ≠ 0 := by
  have nonneg : ∀ terms ∈ annealer.sampled.map (·.terms), 0 ≤ terms.value term :=
    List.forall_mem_map.mpr fun layout member =>
      value_terms_walked_nonneg positive _ _ _ layout member term
  rw [norms_sample, Terms.value_mean_pos_iff nonneg]
  simp only [List.mem_map, exists_exists_and_eq_and]

end Annealer

/--
No term of a layout is negative. So the constant that sampling gives a term is positive just when the
term was not zero in one of the sampled layouts. Under these constants, and with weights that are not
negative, no cost is negative, and it does not fall when terms rise.
-/
theorem normalization_drops_absent_terms [ExactNumber.HasRoots α] [IndexSource σ]
    [FractionSource σ α] :
    (∀ (problem : Problem α) (notching : Config.Notching α) (blocks : List (Block α))
      (size : Size α), (∀ axis, 0 < problem.outline.along axis) → (∀ axis, 0 ≤ size.along axis) →
        ∀ term, 0 ≤ (Cost.evaluate problem notching blocks size).value term) ∧
    ∀ annealer : Annealer α σ, (∀ axis, 0 < annealer.problem.outline.along axis) →
      let norms := annealer.sample.calibration.norms
      (∀ term, 0 < norms.value term ↔
        ∃ layout ∈ annealer.sampled, layout.terms.value term ≠ 0) ∧
      ∀ weights : Terms α, (∀ term, 0 ≤ weights.value term) →
        (∀ terms : Terms α, (∀ term, 0 ≤ terms.value term) → 0 ≤ terms.cost norms weights) ∧
          ∀ terms others : Terms α, (∀ term, terms.value term ≤ others.value term) →
            terms.cost norms weights ≤ others.cost norms weights := by
  constructor
  · intro problem notching blocks size positive nonneg
    exact Cost.value_evaluate_nonneg positive nonneg
  · intro annealer positive norms
    refine ⟨Annealer.value_norms_sample_pos_iff positive, fun weights nonneg => ⟨?_, ?_⟩⟩
    · exact fun terms values => Terms.cost_nonneg nonneg values
    · exact fun terms others more => Terms.cost_mono nonneg more

theorem normalization_drops_absent_terms_pair :
    let problem : Problem ℝ :=
      { Problem.ofOutline ⟨10, 10⟩ with
        blocks := [.hard "rom" 6 1 [⟨2, 3⟩, ⟨3, 2⟩], .hard "ram" 8 1 [⟨2, 4⟩]] }
    let config : Config ℝ := .default
    let annealer : Annealer ℝ WordScript := .new problem config 1 ⟨[]⟩
    let norms := annealer.sample.calibration.norms
    (0 < norms.boundary ↔ ∃ layout ∈ annealer.sampled, layout.terms.boundary ≠ 0) ∧
      0 ≤ annealer.layout.terms.cost norms config.weights := by
  intro problem config annealer norms
  have outline : ∀ axis, 0 < problem.outline.along axis := by
    rintro (_ | _)
    all_goals norm_num [problem, Problem.ofOutline, Size.along]
  have weights : ∀ term, 0 ≤ config.weights.value term := by
    rintro (_ | _)
    all_goals norm_num [config, Config.default, Config.defaultWeights, Terms.value, Number.ratio]
  obtain ⟨nonneg, sampling⟩ := normalization_drops_absent_terms (α := ℝ) (σ := WordScript)
  obtain ⟨occurs, costs⟩ := sampling annealer outline
  refine ⟨occurs .boundary, (costs config.weights weights).1 annealer.layout.terms ?_⟩
  exact nonneg problem config.notching _ _ outline (nonneg_along_pack _ _)

end Floorplanner
