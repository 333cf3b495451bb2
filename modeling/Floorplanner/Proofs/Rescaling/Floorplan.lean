import Mathlib
import Floorplanner.Proofs.Rescaling.Alignment
import Floorplanner.Proofs.Rescaling.Annealing
import Floorplanner.Proofs.Search.Success

/-!
Floorplanning in another unit of length.

The search on a rescaled problem enters the same levels from the rescaled starts, and each of its
workers makes the same decisions on the way to the rescaled outcome. So the plan is the same but for
the unit: its costs, its normalized terms and whether it fits have none.
-/

namespace Floorplanner

variable {α : Type} [ExactNumber α] (unit : Rescaling α)

def LevelSummary.rescale (summary : LevelSummary α) : LevelSummary α :=
  ⟨summary.level, summary.cost, summary.terms.rescale unit, summary.normalized⟩

def PlacedBlock.rescale (block : PlacedBlock α) : PlacedBlock α where
  name := block.name
  x := unit.length block.x
  y := unit.length block.y
  width := unit.length block.width
  height := unit.length block.height
  area := unit.area block.area
  isHard := block.isHard

def Plan.rescale (plan : Plan α) : Plan α where
  blocks := plan.blocks.map (PlacedBlock.rescale unit)
  size := plan.size.rescale unit
  outline := plan.outline.rescale unit
  feasible := plan.feasible
  cost := plan.cost
  terms := plan.terms.rescale unit
  normalized := plan.normalized
  levels := plan.levels.map (LevelSummary.rescale unit)

namespace Search

variable {σ : Type}

@[simp] theorem summarize_rescale (norms : Terms α) (level : Nat) (winner : Outcome α) :
    summarize (norms.rescale unit) level (winner.rescale unit) =
      (summarize norms level winner).rescale unit := by
  simp [summarize, LevelSummary.rescale]

@[simp] theorem cheapest?_rescale (outcomes : List (Outcome α)) :
    cheapest? (outcomes.map (Outcome.rescale unit)) =
      (cheapest? outcomes).map (Outcome.rescale unit) := by
  cases outcomes with
  | nil => rfl
  | cons first rest =>
      simp only [List.map_cons, cheapest?, List.foldl_map, Option.map_some]
      refine congrArg some (List.foldl_hom (Outcome.rescale unit) fun best next => ?_)
      simp only [Outcome.rescale_cost]
      split <;> rfl

variable [SeededSource σ] (problem : Problem α) (config : Config α)

@[simp] theorem seeds_rescale : seeds σ (config.rescale unit) = seeds σ config := rfl

variable [IndexSource σ] [FractionSource σ α]

@[simp] theorem sample_rescale (seed : UInt64) :
    sample σ (problem.rescale unit) (config.rescale unit) seed =
      (sample σ problem config seed).map (Outcome.rescale unit) (Calibration.rescale unit) := by
  simp only [sample, Config.rescale_parallel, Annealer.new_rescale,
    Annealer.randomizeShapes_rescale, Annealer.sample_rescale, Annealer.outcome_rescale]
  rfl

theorem anneal_rescale (calibration : Calibration α) (start : Arrangement α) (coolingRate : α)
    (seed : UInt64) :
    anneal σ (problem.rescale unit) (config.rescale unit) (calibration.rescale unit)
        (start.rescale unit) coolingRate seed =
      (anneal σ problem config calibration start coolingRate seed).rescale unit := by
  simp only [anneal, Annealer.new_rescale, Annealer.calibrate_rescale, Annealer.setState_rescale,
    Annealer.run_rescale, Prod.map_snd, Annealer.outcome_rescale]

theorem runLevel_rescale (seeds : List UInt64) (calibration : Calibration α) (level : Nat)
    (start : Arrangement α) :
    runLevel σ (problem.rescale unit) (config.rescale unit) seeds (calibration.rescale unit) level
        (start.rescale unit) =
      (runLevel σ problem config seeds calibration level start).map (Outcome.rescale unit) := by
  simp only [runLevel, anneal_rescale, List.map_map]
  rfl

theorem levelsFrom_rescale (seeds : List UInt64) (norms : Terms α) (left level : Nat)
    (heat : Heat α) (best : Outcome α) :
    levelsFrom σ (problem.rescale unit) (config.rescale unit) seeds (norms.rescale unit) left level
        heat (best.rescale unit) =
      (levelsFrom σ problem config seeds norms left level heat best).map
        (Prod.map (Outcome.rescale unit) (List.map (LevelSummary.rescale unit))) := by
  induction left generalizing level heat best with
  | zero => rfl
  | succ left induction =>
      have workers := runLevel_rescale (σ := σ) unit problem config seeds
        ⟨norms, (heat.next config.parallel.heatRate).temperature⟩ level best.arrangement
      simp only [Calibration.rescale] at workers
      simp only [levelsFrom, Config.rescale_parallel, Outcome.rescale_arrangement, workers,
        cheapest?_rescale]
      cases cheapest? (runLevel σ problem config seeds
          ⟨norms, (heat.next config.parallel.heatRate).temperature⟩ level best.arrangement) with
      | none => rfl
      | some winner =>
          simp only [Option.map_some, induction, summarize_rescale]
          cases levelsFrom σ problem config seeds norms left (level + 1)
              (heat.next config.parallel.heatRate) winner <;> rfl

@[simp] theorem levels_rescale (seeds : List UInt64) (start : Outcome α)
    (calibration : Calibration α) :
    levels σ (problem.rescale unit) (config.rescale unit) seeds (start.rescale unit)
        (calibration.rescale unit) =
      (levels σ problem config seeds start calibration).map
        (Prod.map (Outcome.rescale unit) (List.map (LevelSummary.rescale unit))) :=
  levelsFrom_rescale unit problem config seeds _ _ _ _ _

@[simp] theorem sampled_rescale :
    sampled σ (problem.rescale unit) (config.rescale unit) =
      (sampled σ problem config).map (Outcome.rescale unit) (Calibration.rescale unit) := by
  rw [sampled, seeds_rescale, sample_rescale, sampled]

@[simp] theorem annealerOf_rescale (temperature : α) (start : Outcome α) (coolingRate : α)
    (seed : UInt64) :
    annealerOf σ (problem.rescale unit) (config.rescale unit) temperature (start.rescale unit)
        coolingRate seed =
      (annealerOf σ problem config temperature start coolingRate seed).rescale unit := by
  simp only [annealerOf, sampled_rescale, Prod.map_snd, Annealer.new_rescale,
    Outcome.rescale_arrangement, ← Annealer.setState_rescale]
  rfl

theorem outcomesOf_rescale (level : Nat) (temperature : α) (start : Outcome α) :
    outcomesOf σ (problem.rescale unit) (config.rescale unit) level temperature
        (start.rescale unit) =
      (outcomesOf σ problem config level temperature start).map (Outcome.rescale unit) := by
  rw [outcomesOf, outcomesOf, ← runLevel_rescale, sampled_rescale]
  rfl

/-- The levels that a search comes to in another unit are those that it comes to. -/
theorem enters_rescale_iff {level : Nat} {heat : Heat α} {start : Outcome α} :
    Enters σ (problem.rescale unit) (config.rescale unit) level heat start ↔
      ∃ origin, Enters σ problem config level heat origin ∧ start = origin.rescale unit := by
  constructor
  · intro enters
    induction enters with
    | first =>
        rw [sampled_rescale]
        exact ⟨_, .first, rfl⟩
    | @next level heat start winner _ wins induction =>
        obtain ⟨origin, entered, rfl⟩ := induction
        rw [outcomesOf_rescale, cheapest?_rescale, Option.map_eq_some_iff] at wins
        obtain ⟨cheapest, wins, rfl⟩ := wins
        exact ⟨cheapest, entered.next wins, rfl⟩
  · rintro ⟨origin, enters, rfl⟩
    induction enters with
    | first =>
        have entered : Enters σ (problem.rescale unit) (config.rescale unit) 0 _ _ := .first
        rwa [sampled_rescale] at entered
    | @next level heat start winner _ wins induction =>
        refine induction.next ?_
        rw [outcomesOf_rescale, cheapest?_rescale, Config.rescale_parallel, wins,
          Option.map_some]

end Search

namespace Plan

@[simp] theorem boundingSize_rescale (blocks : List (Block α)) :
    boundingSize (blocks.map (Block.rescale unit)) = (boundingSize blocks).rescale unit := by
  rw [boundingSize, List.foldl_map]
  conv_lhs => rw [← Size.rescale_zero unit]
  refine List.foldl_hom (Size.rescale unit) fun size block => ?_
  simp [Size.rescale]

@[simp] theorem finish_rescale (problem : Problem α) (config : Config α) (winner : Outcome α)
    (calibration : Calibration α) (levels : List (LevelSummary α)) :
    finish (problem.rescale unit) (config.rescale unit) (winner.rescale unit)
        (calibration.rescale unit) (levels.map (LevelSummary.rescale unit)) =
      (finish problem config winner calibration levels).rescale unit := by
  have placed (blocks : List (Block α)) : (blocks.map (Block.rescale unit)).map .ofBlock =
      (blocks.map .ofBlock).map (PlacedBlock.rescale unit) := by
    simp [PlacedBlock.ofBlock, PlacedBlock.rescale]
  simp only [finish, Problem.rescale_outline, Outcome.rescale_arrangement,
    Arrangement.rescale_blocks, alignHard_rescale, Alignment.Result.rescale_blocks,
    boundingSize_rescale, Cost.evaluate_rescale, placed, Problem.fits_rescale,
    Calibration.rescale_norms, Config.rescale_weights, Terms.cost_rescale,
    Terms.normalized_rescale]
  rfl

end Plan

/-- Two runs with the same steps and decisions, through the same walks but for the unit. -/
structure Annealer.RunsAlike {σ : Type} [IndexSource σ] [FractionSource σ α]
    (unit : Rescaling α) (annealer changed : Annealer α σ) : Prop where
  steps : changed.run.1 = annealer.run.1
  ends : changed.run.2 = annealer.run.2.rescale unit
  log : changed.log = annealer.log.map (Iteration.rescale unit)
  decisions :
    (changed.log.map fun iteration => changed.decision iteration.temperature iteration.walk) =
      annealer.log.map fun iteration => annealer.decision iteration.temperature iteration.walk

theorem Annealer.runsAlike_rescale {σ : Type} [IndexSource σ] [FractionSource σ α]
    (annealer : Annealer α σ) : RunsAlike unit annealer (annealer.rescale unit) where
  steps := by rw [run_rescale, Prod.map_fst, id]
  ends := by rw [run_rescale, Prod.map_snd]
  log := annealer.log_rescale unit
  decisions := by
    rw [log_rescale, List.map_map]
    exact List.map_congr_left fun iteration _ => annealer.decision_rescale unit _ _

section Floorplan

variable {σ : Type} [NumberText α] [SeededSource σ] [IndexSource σ] [FractionSource σ α]
  (problem : Problem α) (config : Config α)

theorem result_floorplan_rescale (journal : Journal) :
    (floorplan σ (problem.rescale unit) (config.rescale unit) journal).result =
      (floorplan σ problem config journal).result.map (Plan.rescale unit) := by
  by_cases none : problem.blocks = []
  · have changed : (problem.rescale unit).blocks = [] := by rw [Problem.rescale_blocks, none]; rfl
    rw [floorplan_of_isEmpty none, floorplan_of_isEmpty changed]
    rfl
  have nonempty : (problem.rescale unit).blocks ≠ [] := by
    rwa [Problem.rescale_blocks, ne_eq, List.map_eq_nil_iff]
  by_cases room : Search.HasRoom config
  · have granted : Search.HasRoom (config.rescale unit) := room
    rw [floorplan_of_hasRoom none room, floorplan_of_hasRoom nonempty granted]
    simp only [Search.seeds_rescale, Search.sample_rescale, Prod.map_fst, Prod.map_snd,
      Search.levels_rescale]
    cases Search.levels σ problem config (Search.seeds σ config)
        (Search.sample σ problem config ((Search.seeds σ config).headD 0)).1
        (Search.sample σ problem config ((Search.seeds σ config).headD 0)).2 with
    | error error => rfl
    | ok result =>
        refine congrArg Except.ok ?_
        exact Plan.finish_rescale unit problem config _ _ _
  · have denied : ¬ Search.HasRoom (config.rescale unit) := room
    rw [result_floorplan_of_not_hasRoom none room, result_floorplan_of_not_hasRoom nonempty denied]
    rfl

open Search in
/--
The unit of length does not matter. Blocks are rescaled by their areas and sizes and an outline by
its sides; the plan of a rescaled problem is then the rescaled plan, and the search comes to it by
the same levels, in which every worker makes the same decisions from the same draws.
-/
theorem floorplan_rescale {s : α} (positive : 0 < s)
    (root : ∀ a : α, Number.sqrt (s * s * a) = s * Number.sqrt a) :
    let unit : Rescaling α := ⟨s, positive, root⟩
    (∀ name area ratios, (Block.soft name area ratios).rescale unit =
        Block.soft name (s * s * area) ratios) ∧
      (∀ name area macros options, (Block.hard name area macros options).rescale unit =
        Block.hard name (s * s * area) macros (options.map (Size.rescale unit))) ∧
      (∀ outline, (Problem.ofOutline outline).rescale unit =
        Problem.ofOutline (outline.rescale unit)) ∧
      (∀ journal, (floorplan σ (problem.rescale unit) (config.rescale unit) journal).result =
        (floorplan σ problem config journal).result.map (Plan.rescale unit)) ∧
      sampled σ (problem.rescale unit) (config.rescale unit) =
        (sampled σ problem config).map (Outcome.rescale unit) (Calibration.rescale unit) ∧
      (∀ level heat start,
        Enters σ (problem.rescale unit) (config.rescale unit) level heat start ↔
          ∃ origin, Enters σ problem config level heat origin ∧ start = origin.rescale unit) ∧
      ∀ temperature start coolingRate seed,
        Annealer.RunsAlike unit (annealerOf σ problem config temperature start coolingRate seed)
          (annealerOf σ (problem.rescale unit) (config.rescale unit) temperature
            (start.rescale unit) coolingRate seed) := by
  intro unit
  refine ⟨Block.soft_rescale unit, Block.hard_rescale unit, Problem.ofOutline_rescale unit,
    result_floorplan_rescale unit problem config, sampled_rescale unit problem config,
    fun _ _ _ => enters_rescale_iff unit problem config, fun _ _ _ _ => ?_⟩
  rw [annealerOf_rescale]
  exact Annealer.runsAlike_rescale unit _

end Floorplan

theorem floorplan_rescale_doubled :
    let _ : NumberText ℝ :=
      ⟨fun a => toString ⌊a⌋, fun _ a => toString ⌊a⌋, fun a => some (toString ⌊a⌋)⟩
    let small : Problem ℝ :=
      { Problem.ofOutline ⟨10, 10⟩ with
        blocks := [.soft "soft" 4 [⟨1 / 2, 2⟩], .hard "hard" 6 1 [⟨2, 3⟩, ⟨3, 2⟩]] }
    let large : Problem ℝ :=
      { Problem.ofOutline ⟨20, 20⟩ with
        blocks := [.soft "soft" 16 [⟨1 / 2, 2⟩], .hard "hard" 24 1 [⟨4, 6⟩, ⟨6, 4⟩]] }
    ∃ unit : Rescaling ℝ, unit.factor = 2 ∧ small.rescale unit = large ∧
      ∀ journal, (floorplan Generator large (Config.default.rescale unit) journal).result =
        (floorplan Generator small .default journal).result.map (Plan.rescale unit) := by
  intro _ small large
  have positive : (0 : ℝ) < 2 := by norm_num
  have root (a : ℝ) : Number.sqrt (2 * 2 * a) = 2 * Number.sqrt a := by
    change √(2 * 2 * a) = 2 * √a
    rw [Real.sqrt_mul (mul_self_nonneg 2), Real.sqrt_mul_self positive.le]
  obtain ⟨soft, hard, outline, plans, _⟩ :=
    floorplan_rescale (σ := Generator) small .default positive root
  have doubled : small.rescale ⟨2, positive, root⟩ = large := by
    calc
      small.rescale ⟨2, positive, root⟩ =
          { (Problem.ofOutline ⟨10, 10⟩).rescale ⟨2, positive, root⟩ with
            blocks := small.blocks.map (Block.rescale ⟨2, positive, root⟩) } := rfl
      _ = large := by
        simp only [small, List.map_cons, List.map_nil, soft, hard, outline, Size.rescale,
          Rescaling.length, large]
        norm_num
  exact ⟨⟨2, positive, root⟩, rfl, doubled, doubled ▸ plans⟩

end Floorplanner
