import Mathlib
import Floorplanner.Proofs.Annealing.Temperature
import Floorplanner.Proofs.Search.LevelCosts

/-!
How hot the levels of a search are.

The factor from one level to the next changes by the heat rate itself, so that the temperature of a
level is that of the search times a power of the rate with a triangular number. In each level the
workers start from it together, and then each cools by a rate of its own, the rates being as far apart
from each other as the bounds allow.
-/

namespace Floorplanner

namespace Search

variable {α σ : Type} [ExactNumber α]

def rateOf (parallel : Config.Parallel α) (worker : Nat) : α :=
  parallel.coolingRateMax -
    worker * (parallel.coolingRateMax - parallel.coolingRateMin) / (parallel.workers - 1 : Nat)

structure AreEvenRates (parallel : Config.Parallel α) (rates : List α) : Prop where
  length : rates.length = parallel.workers
  rate : ∀ worker < parallel.workers, rates[worker]? = some (rateOf parallel worker)
  within : ∀ rate ∈ rates, parallel.coolingRateMin ≤ rate ∧ rate ≤ parallel.coolingRateMax
  first : rates[0]? = some parallel.coolingRateMax
  last : 2 ≤ parallel.workers → rates[parallel.workers - 1]? = some parallel.coolingRateMin

section Rates

variable {parallel : Config.Parallel α} {worker : Nat}

theorem getElem?_coolingRates (bound : worker < parallel.workers) :
    (coolingRates parallel)[worker]? = some (rateOf parallel worker) := by
  rw [coolingRates, rateOf]
  dsimp only
  split
  next alone =>
    obtain rfl : worker = 0 := by omega
    rw [List.getElem?_replicate_of_lt bound, Nat.cast_zero, zero_mul, zero_div, sub_zero]
  next => rw [List.getElem?_map, List.getElem?_range bound, Option.map_some, mul_div_assoc]

theorem rateOf_zero : rateOf parallel 0 = parallel.coolingRateMax := by
  rw [rateOf, Nat.cast_zero, zero_mul, zero_div, sub_zero]

theorem rateOf_last (several : 2 ≤ parallel.workers) :
    rateOf parallel (parallel.workers - 1) = parallel.coolingRateMin := by
  have positive : ((parallel.workers - 1 : Nat) : α) ≠ 0 := Nat.cast_ne_zero.mpr (by omega)
  rw [rateOf, mul_div_cancel_left₀ _ positive, sub_sub_cancel]

theorem rateOf_mem (ordered : parallel.coolingRateMin ≤ parallel.coolingRateMax)
    (bound : worker < parallel.workers) :
    parallel.coolingRateMin ≤ rateOf parallel worker ∧
      rateOf parallel worker ≤ parallel.coolingRateMax := by
  have range := sub_nonneg.mpr ordered
  have count : (0 : α) ≤ (parallel.workers - 1 : Nat) := Nat.cast_nonneg _
  have share : (worker : α) ≤ (parallel.workers - 1 : Nat) := Nat.cast_le.mpr (by omega)
  constructor
  · rw [rateOf, le_sub_comm]
    apply div_le_of_le_mul₀ count range
    rw [mul_comm]
    exact mul_le_mul_of_nonneg_left share range
  · exact sub_le_self _ (div_nonneg (mul_nonneg (Nat.cast_nonneg _) range) count)

theorem areEvenRates (checked : parallel.check = .ok ()) :
    AreEvenRates parallel (coolingRates parallel) where
  length := length_coolingRates parallel
  rate _ := getElem?_coolingRates
  within := by
    have ordered := not_lt.mp (Config.Parallel.not_max_lt_min checked)
    intro rate member
    obtain ⟨worker, bound, found⟩ := List.getElem_of_mem member
    rw [length_coolingRates] at bound
    have same := (getElem?_coolingRates bound).symm.trans (List.getElem?_eq_some_iff.mpr ⟨_, found⟩)
    rw [← Option.some.inj same]
    exact rateOf_mem ordered bound
  first := by rw [getElem?_coolingRates (Config.Parallel.workers_pos checked), rateOf_zero]
  last several := by rw [getElem?_coolingRates (by omega), rateOf_last several]

end Rates

variable (σ) [SeededSource σ] [IndexSource σ] [FractionSource σ α] (problem : Problem α)
  (config : Config α) (seeds : List UInt64) (calibration : Calibration α)

/-- A level whose workers start at the temperature of its calibration and cool each by its rate. -/
structure LevelCools (level : Nat) (start winner : Outcome α) : Prop where
  count : (runLevel σ problem config seeds calibration level start.arrangement).length =
    config.parallel.workers
  workers : ∀ worker < config.parallel.workers,
    let annealer := workerOf σ problem config calibration start.arrangement
      (rateOf config.parallel worker) (seeds.getD (seedIndex config level worker) 0)
    (runLevel σ problem config seeds calibration level start.arrangement)[worker]? =
        some annealer.run.2.outcome ∧
      annealer.CoolsBySchedule ∧
      ∀ iteration ∈ annealer.log, 1 ≤ iteration.step ∧ iteration.step ≤ config.annealing.steps ∧
        iteration.temperature =
          calibration.temperature * rateOf config.parallel worker ^ (iteration.step - 1)
  won : cheapest? (runLevel σ problem config seeds calibration level start.arrangement) =
    some winner

variable {σ problem config seeds calibration} {level : Nat} {start winner first : Outcome α}
  {heat : Heat α}

theorem levelCools (checked : config.check = .ok ())
    (wins : cheapest? (runLevel σ problem config seeds calibration level start.arrangement) =
      some winner) :
    LevelCools σ problem config seeds calibration level start winner where
  count := length_runLevel σ problem config seeds calibration level _
  workers worker bound := by
    obtain ⟨_, _, annealing, _⟩ := Config.check_eq_ok_iff.mp checked
    have positive := (Config.Annealing.check_eq_ok_iff.mp annealing).2.1
    let annealer := workerOf σ problem config calibration start.arrangement
      (rateOf config.parallel worker) (seeds.getD (seedIndex config level worker) 0)
    have cools : annealer.CoolsBySchedule := Annealer.coolsBySchedule positive
    refine ⟨?_, cools, fun iteration member => cools.setting_of_mem positive member⟩
    rw [runLevel, List.getElem?_map, List.getElem?_zipIdx, getElem?_coolingRates bound,
      Option.map_some, Option.map_some, Nat.zero_add]
    rfl
  won := wins

theorem Reaches.heat_eq
    (reaches : Reaches σ problem config seeds calibration first level heat start) :
    heat.factor = config.parallel.heatRate ^ level ∧
      (heat.next config.parallel.heatRate).temperature =
        calibration.temperature * config.parallel.heatRate ^ (level * (level + 1) / 2) := by
  induction reaches with
  | first => simp [Heat.next]
  | @next level heat start winner reaches wins induction =>
      obtain ⟨factor, temperature⟩ := induction
      have raised : (heat.next config.parallel.heatRate).factor =
          config.parallel.heatRate ^ (level + 1) := by
        rw [Heat.next, factor, pow_succ]
      have triangle := Nat.triangle_succ (level + 1)
      rw [Nat.add_sub_cancel, Nat.add_sub_cancel, Nat.mul_comm (level + 1 + 1),
        Nat.mul_comm (level + 1) level] at triangle
      refine ⟨raised, ?_⟩
      calc
        (heat.next config.parallel.heatRate).temperature *
            (heat.next config.parallel.heatRate).factor
          = calibration.temperature *
              config.parallel.heatRate ^ (level * (level + 1) / 2 + (level + 1)) := by
            rw [raised, temperature, mul_assoc, ← pow_add]
        _ = calibration.temperature *
              config.parallel.heatRate ^ ((level + 1) * (level + 1 + 1) / 2) := by rw [triangle]

end Search

end Floorplanner
