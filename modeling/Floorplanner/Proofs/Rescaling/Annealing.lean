import Mathlib
import Floorplanner.Proofs.Annealing.Coherence
import Floorplanner.Proofs.Rescaling.Cost
import Floorplanner.Proofs.Rescaling.Move
import Floorplanner.Proofs.Rescaling.Packing

/-!
Annealing in another unit of length.

A rescaled annealer makes the rescaled moves and finds the same costs, so it accepts, takes back,
shrinks, restarts and stops just where the other does. Whatever one does to the two, they stay the
same but for the unit.
-/

namespace Floorplanner

variable {α σ : Type} [ExactNumber α] (unit : Rescaling α)

@[simps] def Layout.rescale (layout : Layout α) : Layout α :=
  ⟨layout.arrangement.rescale unit, layout.size.rescale unit, layout.terms.rescale unit⟩

@[simps] def Calibration.rescale (calibration : Calibration α) : Calibration α :=
  ⟨calibration.norms.rescale unit, calibration.temperature⟩

@[simps] def Outcome.rescale (outcome : Outcome α) : Outcome α :=
  ⟨outcome.arrangement.rescale unit, outcome.terms.rescale unit, outcome.cost⟩

@[simps] def Snapshot.rescale (snapshot : Snapshot α) : Snapshot α :=
  ⟨snapshot.layout.rescale unit, snapshot.cost⟩

@[simps] def Walk.rescale (walk : Walk α σ) : Walk α σ :=
  ⟨walk.current.rescale unit, walk.best.rescale unit, walk.shrinks, walk.source⟩

def Iteration.rescale (iteration : Iteration α σ) : Iteration α σ :=
  ⟨iteration.step, iteration.temperature, iteration.walk.rescale unit⟩

@[simps] def Annealer.rescale (annealer : Annealer α σ) : Annealer α σ where
  problem := annealer.problem.rescale unit
  config := annealer.config.rescale unit
  coolingRate := annealer.coolingRate
  source := annealer.source
  layout := annealer.layout.rescale unit
  calibration := annealer.calibration.rescale unit

@[simp] theorem Layout.ofArrangement_rescale (problem : Problem α) (config : Config α)
    (arrangement : Arrangement α) :
    ofArrangement (problem.rescale unit) (config.rescale unit) (arrangement.rescale unit) =
      (ofArrangement problem config arrangement).rescale unit := by
  simp only [ofArrangement, Arrangement.rescale_blocks, pack_rescale, Prod.map_fst, Prod.map_snd,
    Cost.evaluate_rescale]
  rfl

namespace Annealer

section State

variable (annealer : Annealer α σ) (arrangement : Arrangement α) (layout : Layout α)

@[simp] theorem new_rescale (problem : Problem α) (config : Config α) (coolingRate : α)
    (source : σ) :
    new (problem.rescale unit) (config.rescale unit) coolingRate source =
      (new problem config coolingRate source).rescale unit := by
  have row := Layout.ofArrangement_rescale unit problem config
    ⟨problem.blocks, SequencePair.identity problem.blocks.length⟩
  simp only [Arrangement.rescale] at row
  simp [new, rescale, Calibration.rescale, row]

@[simp] theorem settle_rescale :
    (annealer.rescale unit).settle (arrangement.rescale unit) =
      (annealer.settle arrangement).rescale unit :=
  Layout.ofArrangement_rescale unit _ _ _

@[simp] theorem costOf_rescale :
    (annealer.rescale unit).costOf (layout.rescale unit) = annealer.costOf layout :=
  Terms.cost_rescale unit _ _ _

@[simp] theorem cost_rescale : (annealer.rescale unit).cost = annealer.cost :=
  annealer.costOf_rescale unit _

@[simp] theorem calibrate_rescale (calibration : Calibration α) :
    (annealer.rescale unit).calibrate (calibration.rescale unit) =
      (annealer.calibrate calibration).rescale unit := rfl

@[simp] theorem setState_rescale :
    (annealer.rescale unit).setState (arrangement.rescale unit) =
      (annealer.setState arrangement).rescale unit := by
  rw [setState, settle_rescale]
  rfl

@[simp] theorem outcome_rescale :
    (annealer.rescale unit).outcome = annealer.outcome.rescale unit := by
  rw [outcome, cost_rescale]
  rfl

end State

section Sampling

variable (samples : List (Terms α)) (config : Config α)

@[simp] theorem calibrationOf_rescale :
    calibrationOf (config.rescale unit) (samples.map (Terms.rescale unit)) =
      (calibrationOf config samples).rescale unit := by
  simp only [calibrationOf, Terms.mean_rescale, List.map_map, Function.comp_def,
    Config.rescale_weights, Terms.cost_rescale]
  rfl

variable [IndexSource σ] [FractionSource σ α] (annealer : Annealer α σ) (layout : Layout α)
  (source : σ)

@[simp] theorem randomizeShapes_rescale :
    (annealer.rescale unit).randomizeShapes = annealer.randomizeShapes.rescale unit := by
  have settles := annealer.settle_rescale unit
    ⟨(Block.randomizeAll annealer.layout.arrangement.blocks annealer.source).1,
      annealer.layout.arrangement.pair⟩
  simp only [Arrangement.rescale] at settles
  simp only [randomizeShapes, rescale_layout, Layout.rescale_arrangement,
    Arrangement.rescale_blocks, Arrangement.rescale_pair, rescale_source,
    Block.randomizeAll_rescale, Prod.map_fst, Prod.map_snd, settles]
  rfl

@[simp] theorem propose_rescale :
    (annealer.rescale unit).propose (layout.rescale unit) source =
      (annealer.propose layout source).map (Prod.map (Move.rescale unit) (Layout.rescale unit))
        id := by
  simp only [propose, rescale_problem, Problem.rescale_outline, rescale_config,
    Config.rescale_moves, Layout.rescale_arrangement, Move.perturb_rescale, Prod.map_fst,
    Prod.map_snd, settle_rescale]
  rfl

@[simp] theorem wander_rescale (count : Nat) :
    (annealer.rescale unit).wander count (layout.rescale unit) source =
      (annealer.wander count layout source).map (List.map (Terms.rescale unit))
        (Prod.map (Layout.rescale unit) id) := by
  induction count generalizing layout source with
  | zero => rfl
  | succ count induction =>
      simp only [wander, propose_rescale, Prod.map_fst, Prod.map_snd, id, induction]
      rfl

@[simp] theorem sample_rescale :
    (annealer.rescale unit).sample = annealer.sample.rescale unit := by
  simp only [sample, rescale_config, Config.rescale_annealing, rescale_layout, rescale_source,
    wander_rescale, Prod.map_fst, Prod.map_snd, calibrationOf_rescale]
  rfl

end Sampling

section Running

variable (annealer : Annealer α σ) (layout : Layout α) (walk : Walk α σ) (move : Move α)

@[simp] theorem reject_rescale :
    (walk.rescale unit).reject (move.rescale unit) (layout.rescale unit) =
      (walk.reject move layout).rescale unit := by
  simp only [Walk.reject, Layout.rescale_arrangement, Move.undo_rescale,
    Arrangement.rescale_blocks, Arrangement.rescale_pair, pack_rescale, Prod.map_fst]
  rfl

@[simp] theorem shrinkSoft_rescale :
    (annealer.rescale unit).shrinkSoft (layout.rescale unit) =
      (annealer.shrinkSoft layout).rescale unit := by
  have shrinks : (layout.arrangement.blocks.map (Block.rescale unit)).map
      (·.shrink annealer.config.shrinking.factor) =
        (layout.arrangement.blocks.map (·.shrink annealer.config.shrinking.factor)).map
          (Block.rescale unit) := by
    simp
  rw [shrinkSoft, shrinkSoft, ← settle_rescale]
  exact congrArg (fun blocks => (annealer.rescale unit).settle ⟨blocks, layout.arrangement.pair⟩)
    shrinks

@[simp] theorem shrinksAt_rescale (step shrinks : Nat) :
    (annealer.rescale unit).shrinksAt step shrinks (layout.rescale unit) =
      annealer.shrinksAt step shrinks layout := by
  rw [shrinksAt, rescale_problem, Layout.rescale_size, Problem.fits_rescale]
  rfl

@[simp] theorem accept_rescale (step : Nat) (next : Snapshot α) :
    (annealer.rescale unit).accept step (next.rescale unit) (walk.rescale unit) =
      (annealer.accept step next walk).rescale unit := by
  simp only [accept, Snapshot.rescale_cost, Snapshot.rescale_layout, Walk.rescale_best,
    Walk.rescale_shrinks, shrinksAt_rescale, shrinkSoft_rescale, costOf_rescale]
  split
  · split <;> rfl
  · rfl

@[simp] theorem start_rescale : (annealer.rescale unit).start = annealer.start.rescale unit := by
  simp [start, Walk.rescale, Snapshot.rescale]

variable [IndexSource σ] [FractionSource σ α] (step : Nat) (temperature : α)

@[simp] theorem candidate_rescale :
    (annealer.rescale unit).candidate (walk.rescale unit) =
      (annealer.candidate walk).rescale unit := by
  simp only [candidate, snapshot, Walk.rescale_current, Snapshot.rescale_layout,
    Walk.rescale_source, propose_rescale, Prod.map_fst, Prod.map_snd, costOf_rescale]
  rfl

/-- The same draws are made, and the same moves are accepted. -/
@[simp] theorem decision_rescale :
    (annealer.rescale unit).decision temperature (walk.rescale unit) =
      annealer.decision temperature walk := by
  simp only [decision, candidate_rescale, Walk.rescale_current, Snapshot.rescale_layout,
    Snapshot.rescale_cost, Walk.rescale_source, propose_rescale, Prod.map_snd, id]

@[simp] theorem iterate_rescale :
    (annealer.rescale unit).iterate step temperature (walk.rescale unit) =
      (annealer.iterate step temperature walk).rescale unit := by
  simp only [iterate_eq, decision_rescale, candidate_rescale, Walk.rescale_current,
    Snapshot.rescale_layout, Walk.rescale_source, propose_rescale, Prod.map_fst]
  split
  · rw [← accept_rescale]
    rfl
  · rw [← reject_rescale]
    rfl

@[simp] theorem iterations_rescale (count : Nat) :
    (annealer.rescale unit).iterations step temperature count (walk.rescale unit) =
      (annealer.iterations step temperature count walk).rescale unit := by
  induction count generalizing walk with
  | zero => rfl
  | succ count induction => rw [iterations, iterate_rescale, induction, iterations]

@[simp] theorem schedule_rescale (left : Nat) :
    (annealer.rescale unit).schedule left step temperature (walk.rescale unit) =
      (annealer.schedule left step temperature walk).rescale unit := by
  induction left generalizing step temperature walk with
  | zero => rfl
  | succ left induction =>
      rw [schedule, iterations_rescale, induction, schedule]
      rfl

@[simp] theorem schedules_rescale (restarts : Nat) :
    (annealer.rescale unit).schedules restarts (walk.rescale unit) =
      (annealer.schedules restarts walk).map id (Walk.rescale unit) := by
  induction restarts generalizing walk with
  | zero =>
      simp [schedules]
  | succ restarts induction =>
      simp only [schedules, rescale_config, Config.rescale_annealing, rescale_calibration,
        Calibration.rescale_temperature, schedule_rescale, Walk.rescale_best,
        Snapshot.rescale_layout, Layout.rescale_size, rescale_problem, Problem.fits_rescale,
        induction, Prod.map_fst, Prod.map_snd]
      split <;> rfl

/-- Runs take the same number of temperature steps and end in the same layout but for the unit. -/
@[simp] theorem run_rescale :
    (annealer.rescale unit).run = annealer.run.map id (rescale unit) := by
  have walks := annealer.schedules_rescale unit annealer.start maxRestarts
  rw [← start_rescale] at walks
  have run_eq (annealer : Annealer α σ) : annealer.run =
      let walk := (annealer.schedules maxRestarts annealer.start).2
      let final := if walk.best.cost < walk.current.cost then walk.best else walk.current
      ((annealer.schedules maxRestarts annealer.start).1,
        { annealer with layout := final.layout, source := walk.source }) := rfl
  rw [run_eq, run_eq, walks]
  simp only [Prod.map_snd, Walk.rescale_best, Walk.rescale_current, Snapshot.rescale_cost]
  split <;> rfl

@[simp] theorem stepLog_rescale (count : Nat) :
    (annealer.rescale unit).stepLog step temperature count (walk.rescale unit) =
      (annealer.stepLog step temperature count walk).map (Iteration.rescale unit) := by
  induction count generalizing walk with
  | zero => rfl
  | succ count induction =>
      rw [stepLog, iterate_rescale, induction]
      rfl

@[simp] theorem scheduleLog_rescale (left : Nat) :
    (annealer.rescale unit).scheduleLog left step temperature (walk.rescale unit) =
      (annealer.scheduleLog left step temperature walk).map (Iteration.rescale unit) := by
  induction left generalizing step temperature walk with
  | zero => rfl
  | succ left induction =>
      rw [scheduleLog, stepLog_rescale, iterations_rescale, induction, scheduleLog,
        List.map_append]
      rfl

@[simp] theorem schedulesLog_rescale (restarts : Nat) :
    (annealer.rescale unit).schedulesLog restarts (walk.rescale unit) =
      (annealer.schedulesLog restarts walk).map (Iteration.rescale unit) := by
  induction restarts generalizing walk with
  | zero => simp [schedulesLog]
  | succ restarts induction =>
      simp only [schedulesLog, rescale_config, Config.rescale_annealing, rescale_calibration,
        Calibration.rescale_temperature, scheduleLog_rescale, schedule_rescale, Walk.rescale_best,
        Snapshot.rescale_layout, Layout.rescale_size, rescale_problem, Problem.fits_rescale,
        induction]
      split
      · rfl
      · exact List.map_append.symm

@[simp] theorem log_rescale :
    (annealer.rescale unit).log = annealer.log.map (Iteration.rescale unit) := by
  rw [log, start_rescale, schedulesLog_rescale, log]

end Running

end Annealer

end Floorplanner
