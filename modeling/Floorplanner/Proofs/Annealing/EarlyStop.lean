import Mathlib
import Floorplanner.Proofs.Annealing.FinalCost

/-!
What a run that stops early leaves behind.

A run stops before its last restart only if its best layout fits. What it leaves is the layout where
the walk ends, unless the best one is cheaper; so where the walk ends on a layout that ties with the
best, the one that is left need not fit.
-/

namespace Floorplanner

namespace Annealer

section Schedules

variable {α σ : Type} [Number α] [IndexSource σ] [FractionSource σ α]

theorem complete_or_fits_schedules (annealer : Annealer α σ) (restarts : Nat) (walk : Walk α σ) :
    (annealer.schedules restarts walk).1 = (restarts + 1) * annealer.config.annealing.steps ∨
      annealer.problem.fits (annealer.schedules restarts walk).2.best.layout.size = true := by
  induction restarts generalizing walk with
  | zero =>
      left
      rw [schedules]
      simp
  | succ restarts induction =>
      rw [schedules]
      dsimp only
      split
      next fits => exact .inr fits
      next tooLarge =>
        rcases induction (annealer.schedule annealer.config.annealing.steps 1
          annealer.calibration.temperature walk) with complete | fits
        · left
          rw [complete]
          ring
        · exact .inr fits

end Schedules

/--
A run that does not make all its schedules met a layout that fits and is the cheapest since the last
reset. It leaves a layout that fits, unless it ends on one that ties with that.
-/
theorem run_stops_for_fit {α σ : Type} [ExactNumber α] [IndexSource σ] [FractionSource σ α]
    (problem : Problem α) (config : Config α) (coolingRate : α) (source : σ)
    (operations : List (Operation α)) :
    let annealer := reached problem config coolingRate source operations
    annealer.run.1 = (maxRestarts + 1) * annealer.config.annealing.steps ∨
      ∃ state ∈ annealer.sinceReset, annealer.problem.fits state.layout.size = true ∧
        (∀ other ∈ annealer.sinceReset, state.cost ≤ other.cost) ∧
        (annealer.run.2.isFeasible = true ∨
          ∃ last ∈ annealer.sinceReset, last.layout = annealer.run.2.layout ∧
            annealer.problem.fits last.layout.size = false ∧ last.cost = state.cost) := by
  intro annealer
  have coherent : annealer.IsCoherent := isCoherent_reached _ _ _ _ _
  have keeps := coherent.keepsBest (areOrdered_of_exact _)
  rcases complete_or_fits_schedules annealer maxRestarts annealer.start with complete | fits
  · exact .inl complete
  · have least (other) (member : other ∈ annealer.sinceReset) :
        annealer.finish.best.cost ≤ other.cost := not_lt.mp (keeps.least other member)
    refine .inr ⟨annealer.finish.best, keeps.best, fits, least, ?_⟩
    have member := kept_mem_sinceReset keeps
    cases feasible : annealer.run.2.isFeasible with
    | true => exact .inl rfl
    | false =>
        refine .inr ⟨annealer.kept, member, rfl, feasible, le_antisymm ?_ (least _ member)⟩
        rw [cost_kept coherent]
        exact coherent.cost_run_le keeps.best

noncomputable section Tied

namespace Tied

open WordScript

def tile (name : String) : Block ℝ := .hard name 25 1 [⟨5, 5⟩]

def problem : Problem ℝ :=
  { Problem.ofOutline ⟨((10 : Nat) : ℝ), 5⟩ with
    blocks := [tile "a", tile "b"]
    nets := [⟨[⟨0⟩, ⟨1⟩], [], 1⟩] }

def config : Config ℝ :=
  { Config.default with
    weights := ⟨0, Number.ratio 1 2, 0, 0, 1, Number.ratio 1 2, 0⟩
    moves := ⟨0, 1, 0, 0⟩
    annealing := ⟨Number.ratio 19 20, 1, 3⟩ }

def annealer : Annealer ℝ WordScript :=
  reached problem config (Number.ratio 99 100) exhausted [.calibrate ⟨.replicate 1, 1⟩]

theorem check_config : config.check = .ok () := by
  obtain ⟨-, -, -, shrinking, parallel, notching⟩ :=
    Config.check_eq_ok_iff.mp (@Config.check_default ℝ _)
  refine Config.check_eq_ok_iff.mpr ⟨?_, ?_, ?_, shrinking, parallel, notching⟩
  · norm_num [config, Config.checkWeights, then_eq_ok_iff, Config.checkWeight,
      Config.require_eq_ok_iff, Number.isFinite, Number.ratio]
  · norm_num [config, Config.Moves.check, then_eq_ok_iff, Config.checkProbability,
      Config.require_eq_ok_iff, Number.ratio]
  · norm_num [config, Config.Annealing.check, then_eq_ok_iff, Config.checkOpenUnit,
      Config.checkCount, Config.require_eq_ok_iff, Number.ratio]

def blocksAt (x y : ℝ) : List (Block ℝ) := [tile "a", (tile "b").moveTo x y]

def layoutAt (x y : ℝ) (pair : SequencePair) (size : Size ℝ) : Layout ℝ where
  arrangement := ⟨blocksAt x y, pair⟩
  size
  terms := Cost.evaluate problem config.notching (blocksAt x y) size

def inRow : Layout ℝ := layoutAt 5 0 (.identity 2) ⟨(10 : Nat), 5⟩

def stacked : Layout ℝ := layoutAt 0 5 .stack ⟨5, (10 : Nat)⟩

theorem settle_identity (x y : ℝ) : annealer.settle ⟨blocksAt x y, .identity 2⟩ = inRow := by
  have packed : pack (blocksAt x y) (.identity 2) = (blocksAt 5 0, ⟨(10 : Nat), 5⟩) := by
    rw [blocksAt, pack_identity_two]
    all_goals norm_num [blocksAt, tile, Block.hard, Block.moveTo]
  rw [settle, Layout.ofArrangement, packed]
  rfl

theorem settle_stack (x y : ℝ) : annealer.settle ⟨blocksAt x y, .stack⟩ = stacked := by
  have packed : pack (blocksAt x y) .stack = (blocksAt 0 5, ⟨5, (10 : Nat)⟩) := by
    rw [blocksAt, pack_stack]
    all_goals norm_num [blocksAt, tile, Block.hard, Block.moveTo]
  rw [settle, Layout.ofArrangement, packed]
  rfl

theorem costOf_layoutAt {x y : ℝ} (right : 0 ≤ x) (above : 0 ≤ y) (pair : SequencePair)
    (size : Size ℝ) : annealer.costOf (layoutAt x y pair size) = (x + y) / 2 := by
  have pins : Cost.pins problem (blocksAt x y) ⟨[⟨0⟩, ⟨1⟩], [], 1⟩ =
      [⟨0 + 5 / (2 : Nat), 0 + 5 / (2 : Nat)⟩, ⟨x + 5 / (2 : Nat), y + 5 / (2 : Nat)⟩] := rfl
  have wirelength : Cost.wirelength problem (blocksAt x y) = x + y := by
    have nets : problem.nets = [⟨[⟨0⟩, ⟨1⟩], [], 1⟩] := rfl
    rw [Cost.wirelength, nets, List.foldl_cons, List.foldl_nil, pins]
    simp [Cost.boundingBox?, right, above]
  have blockage : Cost.macroBlockage problem (blocksAt x y) = 0 := rfl
  have location : Cost.locationPenalty problem (blocksAt x y) = 0 := rfl
  norm_num [costOf, annealer, reached, perform, calibrate, new, config, layoutAt, Cost.evaluate,
    Terms.cost, Terms.zipWith, Terms.share?, Terms.toList, Terms.replicate, Number.sum,
    List.filterMap, Number.ratio, wirelength, blockage, location]
  ring

theorem costOf_stacked : annealer.costOf stacked = annealer.costOf inRow := by
  rw [stacked, inRow, costOf_layoutAt le_rfl (by norm_num), costOf_layoutAt (by norm_num) le_rfl]
  norm_num

theorem perturb_blocksAt (x y : ℝ) (pair : SequencePair) :
    Move.perturb problem.outline (.ofProbabilities config.moves) ⟨blocksAt x y, pair⟩ exhausted =
      ((.positiveSwap 0 1, ⟨blocksAt x y, pair.exchangePositive 0 1⟩), exhausted) := by
  apply Move.perturb_of_drawKind
  have resizable : Move.resizable [tile "a", (tile "b").moveTo x y] = [] := rfl
  norm_num [Move.drawKind, resizable, config, Move.Thresholds.ofProbabilities,
    Move.Thresholds.redraw, Move.Thresholds.swapKind]

theorem propose_inRow :
    annealer.propose inRow exhausted = ((.positiveSwap 0 1, stacked), exhausted) := by
  rw [propose_of_perturb (perturb_blocksAt 5 0 (.identity 2)), ← settle_stack 5 0]
  rfl

theorem propose_stacked :
    annealer.propose stacked exhausted = ((.positiveSwap 0 1, inRow), exhausted) := by
  rw [propose_of_perturb (perturb_blocksAt 0 5 .stack), ← settle_identity 0 5]
  rfl

def walkAt (layout : Layout ℝ) : Walk ℝ WordScript :=
  ⟨annealer.snapshot layout, annealer.snapshot inRow, 0, exhausted⟩

theorem iterate_inRow (step : Nat) (temperature : ℝ) :
    annealer.iterate step temperature (walkAt inRow) = walkAt stacked := by
  simp [iterate, walkAt, snapshot, propose_inRow, costOf_stacked, accepts_exhausted, accept]

theorem iterate_stacked (step : Nat) (temperature : ℝ) :
    annealer.iterate step temperature (walkAt stacked) = walkAt inRow := by
  simp [iterate, walkAt, snapshot, propose_stacked, costOf_stacked, accepts_exhausted, accept]

theorem fits_inRow : annealer.problem.fits inRow.size = true := by
  norm_num [Problem.fits, inRow, layoutAt, Number.ratio, annealer, reached, perform, calibrate, new,
    problem, Problem.ofOutline]

theorem not_fits_stacked : annealer.problem.fits stacked.size = false := by
  norm_num [Problem.fits, stacked, layoutAt, Number.ratio, annealer, reached, perform, calibrate,
    new, problem, Problem.ofOutline]

theorem schedules_eq (restarts : Nat) :
    annealer.schedules restarts annealer.start = (1, walkAt stacked) := by
  have layout : annealer.layout = inRow := settle_identity 0 0
  have start : annealer.start = walkAt inRow := by
    rw [Annealer.start, cost, layout]
    rfl
  have schedule : annealer.schedule 1 1 annealer.calibration.temperature annealer.start =
      walkAt stacked := by
    change annealer.iterate 1 _ (annealer.iterate 1 _ (annealer.iterate 1 _ annealer.start)) = _
    rw [start, iterate_inRow, iterate_stacked, iterate_inRow]
  have steps : annealer.config.annealing.steps = 1 := rfl
  cases restarts with
  | zero => simp only [schedules, steps, schedule, ite_self]
  | succ restarts =>
      rw [schedules]
      simp only [steps, schedule]
      exact if_pos fits_inRow

/-- The walk ends on a layout that is as cheap as the best, but too high for the outline. -/
theorem run_stops_without_fit :
    config.check = .ok () ∧ annealer.run.1 < (maxRestarts + 1) * annealer.config.annealing.steps ∧
      annealer.isFeasible = true ∧ annealer.run.2.isFeasible = false := by
  have row : annealer.layout = inRow := settle_identity 0 0
  have finish : annealer.finish = walkAt stacked := congrArg Prod.snd (schedules_eq maxRestarts)
  have layout : annealer.run.2.layout = stacked := by
    rw [layout_run, finish, if_neg]
    · rfl
    · exact not_lt.mpr costOf_stacked.le
  refine ⟨check_config, ?_, ?_, ?_⟩
  · calc
      annealer.run.1 = 1 := congrArg Prod.fst (schedules_eq maxRestarts)
      _ < (maxRestarts + 1) * annealer.config.annealing.steps := by decide
  · rw [isFeasible, row]
    exact fits_inRow
  · change annealer.problem.fits annealer.run.2.layout.size = false
    rw [layout]
    exact not_fits_stacked

end Tied

end Tied

end Annealer

end Floorplanner
