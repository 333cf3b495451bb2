import Mathlib
import Floorplanner.Config.Document
import Floorplanner.Proofs.ExactNumber
import Floorplanner.Proofs.Fallible

/-! What a checked configuration can be relied on for. -/

namespace Floorplanner

namespace Config

variable {α : Type}

theorem require_eq_ok_iff {condition : Bool} {violation : Violation α} :
    require condition violation = .ok () ↔ condition = true := by
  rw [require]
  split
  next holds => exact iff_of_true rfl holds
  next fails => exact iff_of_false nofun fails

variable [Number α] {parameter : String} {value : α}

theorem checkUnit_eq_ok_iff : checkUnit parameter value = .ok () ↔ 0 < value ∧ value ≤ 1 := by
  rw [checkUnit, require_eq_ok_iff, Bool.and_eq_true, decide_eq_true_eq, decide_eq_true_eq]

theorem checkOpenUnit_eq_ok_iff : checkOpenUnit parameter value = .ok () ↔ 0 < value ∧ value < 1 := by
  rw [checkOpenUnit, require_eq_ok_iff, Bool.and_eq_true, decide_eq_true_eq, decide_eq_true_eq]

omit [Number α] in
theorem checkCount_eq_ok_iff {least count : Nat} :
    (checkCount parameter least count : Except (Violation α) Unit) = .ok () ↔ least ≤ count := by
  rw [checkCount, require_eq_ok_iff, decide_eq_true_eq]

theorem Annealing.check_eq_ok_iff {annealing : Annealing α} :
    annealing.check = .ok () ↔
      (0 < annealing.initialAcceptance ∧ annealing.initialAcceptance < 1) ∧
        1 ≤ annealing.steps ∧ 2 ≤ annealing.movesPerStep := by
  rw [Annealing.check, then_eq_ok_iff, then_eq_ok_iff, checkOpenUnit_eq_ok_iff,
    checkCount_eq_ok_iff, checkCount_eq_ok_iff]

theorem Parallel.workers_pos {parallel : Parallel α} (checked : parallel.check = .ok ()) :
    0 < parallel.workers :=
  checkCount_eq_ok_iff.mp (then_eq_ok_iff.mp checked).1

theorem Parallel.not_max_lt_min {parallel : Parallel α} (checked : parallel.check = .ok ()) :
    ¬ parallel.coolingRateMax < parallel.coolingRateMin := by
  rw [Parallel.check, then_eq_ok_iff, then_eq_ok_iff, then_eq_ok_iff, then_eq_ok_iff] at checked
  obtain ⟨_, _, _, _, ordered⟩ := checked
  rw [require_eq_ok_iff, Bool.not_eq_true', decide_eq_false_iff_not] at ordered
  exact ordered

theorem Shrinking.check_eq_ok_iff {shrinking : Shrinking α} :
    shrinking.check = .ok () ↔
      (0 < shrinking.factor ∧ shrinking.factor ≤ 1) ∧
        0 < shrinking.frequency ∧ shrinking.frequency ≤ 1 := by
  rw [Shrinking.check, then_eq_ok_iff, checkUnit_eq_ok_iff, checkUnit_eq_ok_iff]

theorem check_eq_ok_iff {config : Config α} :
    config.check = .ok () ↔
      checkWeights config.weights = .ok () ∧ config.moves.check = .ok () ∧
        config.annealing.check = .ok () ∧ config.shrinking.check = .ok () ∧
        config.parallel.check = .ok () ∧ config.notching.check = .ok () := by
  simp only [check, then_eq_ok_iff]

theorem validate_eq_ok_iff {config : Config α} : config.validate = .ok () ↔ config.check = .ok () := by
  rw [validate]
  cases config.check with
  | error violation => exact ⟨nofun, nofun⟩
  | ok _ => exact ⟨fun _ => rfl, fun _ => rfl⟩

theorem check_of_read {text : String} {config : Config Float} (found : read text = .ok config) :
    config.check = .ok () := by
  rw [read] at found
  split at found
  next => cases found
  next =>
    obtain ⟨_, valid, equality⟩ := bind_eq_ok_iff.mp found
    cases equality
    exact validate_eq_ok_iff.mp valid

theorem check_default {β : Type} [ExactNumber β] : (Config.default : Config β).check = .ok () := by
  rw [check_eq_ok_iff]
  refine ⟨?_, ?_, ?_, ?_, ?_, ?_⟩
  · norm_num [Config.default, defaultWeights, checkWeights, then_eq_ok_iff, checkWeight,
      require_eq_ok_iff, Number.ratio, Number.isFinite]
  · norm_num [Config.default, Moves.default, Moves.check, then_eq_ok_iff, checkProbability,
      require_eq_ok_iff, Number.ratio]
  · norm_num [Config.default, Annealing.default, Annealing.check, then_eq_ok_iff, checkOpenUnit,
      checkCount, require_eq_ok_iff, Number.ratio]
  · norm_num [Config.default, Shrinking.default, Shrinking.check_eq_ok_iff, Number.ratio]
  · norm_num [Config.default, Parallel.default, Parallel.check, then_eq_ok_iff, checkOpenUnit,
      checkCount, require_eq_ok_iff, Number.ratio, Number.isFinite]
  · norm_num [Config.default, Notching.default, Notching.check, require_eq_ok_iff, Number.ratio]

end Config

end Floorplanner
