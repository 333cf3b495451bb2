import Mathlib
import Floorplanner.Proofs.Annealing.Restarts
import Floorplanner.Proofs.Config.Validation
import Floorplanner.Proofs.Cost.Nonneg
import Floorplanner.Proofs.Random.Fraction

/-!
How hot a run is.

The temperature to start from is that at which the mean change of the sampled cost is accepted with
a probability below one, so it is never negative. A schedule goes from it by one factor from step to
step, and so does every schedule that is made again. No temperature is needed for a move that does
not add to the cost: it is kept in any case.
-/

namespace Floorplanner

variable {α σ : Type}

def Iteration.setting (iteration : Iteration α σ) : Nat × α := (iteration.step, iteration.temperature)

namespace Annealer

variable [ExactNumber α]

section Calibration

theorem meanChange_nonneg (costs : List α) : 0 ≤ meanChange costs := by
  rw [meanChange, Number.sum_eq]
  refine div_nonneg (List.sum_nonneg ?_) (Nat.cast_nonneg _)
  intro change member
  obtain ⟨index, bound, rfl⟩ := List.getElem_of_mem member
  rw [List.getElem_zipWith]
  exact abs_nonneg _

theorem temperature_calibrationOf_nonneg [ExactNumber.HasLogs α] {config : Config α}
    (checked : config.annealing.check = .ok ()) (samples : List (Terms α)) :
    0 ≤ (calibrationOf config samples).temperature := by
  obtain ⟨⟨positive, belowOne⟩, _⟩ := Config.Annealing.check_eq_ok_iff.mp checked
  have negative := ExactNumber.HasLogs.log_neg _ positive belowOne
  exact div_nonneg_of_nonpos (neg_nonpos.mpr (meanChange_nonneg _)) negative.le

end Calibration

theorem iterate_cool (annealer : Annealer α σ) (count : Nat) (temperature : α) :
    annealer.cool^[count] temperature = temperature * annealer.coolingRate ^ count :=
  congrFun (mul_right_iterate annealer.coolingRate count) temperature

variable [FractionSource σ α]

theorem accepts_of_nonpos [UnitSource σ α] {delta : α} (noLoss : delta ≤ 0) (temperature : α)
    (source : σ) : (accepts delta temperature source).1 = true := by
  rw [accepts]
  split
  next => rfl
  next =>
    rw [if_neg noLoss.not_gt]
    exact decide_eq_true (UnitSource.lt_one source)

variable [IndexSource σ]

/--
A run whose steps count from one in each schedule, and whose temperature falls by the cooling rate
from step to step.
-/
structure CoolsBySchedule (annealer : Annealer α σ) : Prop where
  chain : annealer.Chain annealer.start annealer.log annealer.finish
  schedules : ∃ restarts ≤ maxRestarts,
    annealer.run.1 = (1 + restarts) * annealer.config.annealing.steps
  settings : annealer.log.map Iteration.setting =
    (List.range annealer.run.1).flatMap fun count =>
      List.replicate annealer.config.annealing.movesPerStep
        (count % annealer.config.annealing.steps + 1,
          annealer.calibration.temperature *
            annealer.coolingRate ^ (count % annealer.config.annealing.steps))

variable {annealer : Annealer α σ} {iteration : Iteration α σ} {walk : Walk α σ}

section Schedule

theorem map_setting_stepLog (step : Nat) (temperature : α) (count : Nat) (walk : Walk α σ) :
    (annealer.stepLog step temperature count walk).map Iteration.setting =
      List.replicate count (step, temperature) := by
  induction count generalizing walk with
  | zero => rfl
  | succ count induction =>
      rw [stepLog, List.map_cons, induction, List.replicate_succ]
      rfl

theorem coolsBySchedule (positive : 1 ≤ annealer.config.annealing.steps) :
    annealer.CoolsBySchedule := by
  obtain ⟨restarts, times, _⟩ := exists_restartsTimes positive
  refine ⟨annealer.chain_log, ⟨restarts, times.within, times.count⟩, ?_⟩
  rw [times.log, List.map_flatMap]
  apply List.flatMap_congr
  intro count member
  obtain ⟨step, -, temperature⟩ := times.position count (List.mem_range.mp member)
  rw [stageLog, map_setting_stepLog, step, temperature, iterate_cool]

/-- The temperature of a step is what the steps before it in the schedule have left of the first. -/
theorem CoolsBySchedule.setting_of_mem (cools : annealer.CoolsBySchedule)
    (positive : 1 ≤ annealer.config.annealing.steps) (member : iteration ∈ annealer.log) :
    1 ≤ iteration.step ∧ iteration.step ≤ annealer.config.annealing.steps ∧
      iteration.temperature =
        annealer.calibration.temperature * annealer.coolingRate ^ (iteration.step - 1) := by
  have setting := List.mem_map_of_mem (f := Iteration.setting) member
  rw [cools.settings, List.mem_flatMap] at setting
  obtain ⟨count, _, setting⟩ := setting
  obtain ⟨step, temperature⟩ := Prod.ext_iff.mp (List.eq_of_mem_replicate setting)
  change iteration.step = count % _ + 1 at step
  rw [step]
  exact ⟨Nat.succ_pos _, Nat.mod_lt count positive, temperature⟩

end Schedule

theorem iterate_of_noLoss [UnitSource σ α] (step : Nat) (temperature : α)
    (noLoss : (annealer.candidate walk).cost - walk.current.cost ≤ 0) :
    annealer.iterate step temperature walk =
      annealer.accept step (annealer.candidate walk)
        { walk with source := (annealer.decision temperature walk).2 } := by
  rw [iterate_eq]
  exact if_pos (accepts_of_nonpos noLoss temperature _)

end Annealer

end Floorplanner
