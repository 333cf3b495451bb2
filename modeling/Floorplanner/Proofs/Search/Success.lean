import Mathlib
import Floorplanner.Proofs.Alignment.HardBlocks
import Floorplanner.Proofs.Alignment.Range
import Floorplanner.Proofs.Annealing.Range
import Floorplanner.Proofs.Config.Validation
import Floorplanner.Proofs.Search.Room
import Floorplanner.Random.Generator

/-!
A search succeeds.

With a configuration that passes its checks, every level has a worker to win it. The workers read
the seeds one after another, none of them that of the sampler. On a problem that a design describes,
the winners are arrangements of its blocks, so no annealer of any level looks up what is not there,
and the plan has the blocks of the design.
-/

namespace Floorplanner

variable {α σ : Type}

namespace Search

section Seeds

variable [SeededSource σ] {config : Config α} {level worker : Nat}

theorem length_drawSeeds (count : Nat) (source : σ) : (drawSeeds count source).length = count := by
  induction count generalizing source with
  | zero => rfl
  | succ count induction => rw [drawSeeds, List.length_cons, induction]

theorem length_seeds (σ : Type) [SeededSource σ] (config : Config α) :
    (seeds σ config).length = config.parallel.levels * config.parallel.workers + 11 :=
  length_drawSeeds _ _

theorem seedIndex_lt_of_lt (levelBound : level < config.parallel.levels)
    (workerBound : worker < config.parallel.workers) :
    seedIndex config level worker < 1 + config.parallel.levels * config.parallel.workers :=
  calc
    seedIndex config level worker < 1 + (level + 1) * config.parallel.workers := by
      rw [seedIndex, Nat.succ_mul]
      omega
    _ ≤ 1 + config.parallel.levels * config.parallel.workers := by
      exact Nat.add_le_add_left (Nat.mul_le_mul_right _ levelBound) 1

theorem seedIndex_lt (levelBound : level < config.parallel.levels)
    (workerBound : worker < config.parallel.workers) :
    seedIndex config level worker < (seeds σ config).length := by
  rw [length_seeds]
  exact (seedIndex_lt_of_lt levelBound workerBound).trans_le (by omega)

theorem seedIndex_injective {otherLevel otherWorker : Nat}
    (workerBound : worker < config.parallel.workers)
    (otherBound : otherWorker < config.parallel.workers)
    (same : seedIndex config level worker = seedIndex config otherLevel otherWorker) :
    level = otherLevel ∧ worker = otherWorker := by
  have positive : 0 < config.parallel.workers := Nat.zero_lt_of_lt workerBound
  have slots : worker + config.parallel.workers * level =
      otherWorker + config.parallel.workers * otherLevel := by
    rw [seedIndex, seedIndex] at same
    rw [Nat.mul_comm _ level, Nat.mul_comm _ otherLevel]
    omega
  constructor
  · have quotients := congrArg (· / config.parallel.workers) slots
    simpa only [Nat.add_mul_div_left _ _ positive, Nat.div_eq_of_lt workerBound,
      Nat.div_eq_of_lt otherBound, Nat.zero_add] using quotients
  · have remainders := congrArg (· % config.parallel.workers) slots
    simpa only [Nat.add_mul_mod_self_left, Nat.mod_eq_of_lt workerBound,
      Nat.mod_eq_of_lt otherBound] using remainders

/-- Each worker of each level reads a seed that nobody else reads. -/
structure SeedsApart (σ : Type) [SeededSource σ] (config : Config α) : Prop where
  length : (seeds σ config).length = config.parallel.levels * config.parallel.workers + 11
  sampler : (seeds σ config)[0]? = some ((seeds σ config).headD 0)
  bounds : ∀ level < config.parallel.levels, ∀ worker < config.parallel.workers,
    0 < seedIndex config level worker ∧ seedIndex config level worker < (seeds σ config).length
  apart : ∀ level < config.parallel.levels, ∀ worker < config.parallel.workers,
    ∀ otherLevel < config.parallel.levels, ∀ otherWorker < config.parallel.workers,
      seedIndex config level worker = seedIndex config otherLevel otherWorker →
        level = otherLevel ∧ worker = otherWorker

theorem seedsApart (σ : Type) [SeededSource σ] (config : Config α) : SeedsApart σ config where
  length := length_seeds σ config
  sampler := rfl
  bounds _ levelBound _ workerBound :=
    ⟨Nat.add_pos_left (Nat.add_pos_left Nat.one_pos _) _, seedIndex_lt levelBound workerBound⟩
  apart _ _ _ workerBound _ _ _ otherBound := seedIndex_injective workerBound otherBound

end Seeds

variable [Number α]

theorem length_coolingRates (parallel : Config.Parallel α) :
    (coolingRates parallel).length = parallel.workers := by
  rw [coolingRates]
  dsimp only
  split
  · exact List.length_replicate
  · rw [List.length_map, List.length_range]

theorem mem_of_cheapest? {outcomes : List (Outcome α)} {winner : Outcome α}
    (cheapest : cheapest? outcomes = some winner) : winner ∈ outcomes := by
  cases outcomes with
  | nil => cases cheapest
  | cons first rest =>
      cases cheapest
      induction rest generalizing first with
      | nil => exact List.mem_cons_self
      | cons next rest induction =>
          rw [List.foldl_cons]
          split
          · rcases List.mem_cons.mp (induction first) with equality | member
            · rw [equality]
              exact List.mem_cons_self
            · exact .tail _ (.tail _ member)
          · exact .tail _ (induction next)

theorem exists_cheapest? {outcomes : List (Outcome α)} (several : 0 < outcomes.length) :
    ∃ winner, cheapest? outcomes = some winner := by
  obtain ⟨first, rest, equality⟩ := List.exists_cons_of_ne_nil (List.ne_nil_of_length_pos several)
  rw [equality]
  exact ⟨_, rfl⟩

variable (σ) [SeededSource σ] [IndexSource σ] [FractionSource σ α]
  (problem : Problem α) (config : Config α)

section RunLevel

variable (seeds : List UInt64) (calibration : Calibration α) (level : Nat) (start : Arrangement α)

theorem length_runLevel :
    (runLevel σ problem config seeds calibration level start).length = config.parallel.workers := by
  rw [runLevel, List.length_map, List.length_zipIdx, length_coolingRates]

variable {config seeds level}

theorem exists_anneal_of_cheapest? {winner : Outcome α}
    (wins : cheapest? (runLevel σ problem config seeds calibration level start) = some winner) :
    ∃ coolingRate seed, winner = anneal σ problem config calibration start coolingRate seed := by
  obtain ⟨⟨coolingRate, _⟩, _, outcome⟩ := List.mem_map.mp (mem_of_cheapest? wins)
  exact ⟨coolingRate, _, outcome.symm⟩

theorem getElem?_runLevel {worker : Nat} (workerBound : worker < config.parallel.workers)
    (seedBound : seedIndex config level worker < seeds.length) :
    ∃ coolingRate seed, (coolingRates config.parallel)[worker]? = some coolingRate ∧
      seeds[seedIndex config level worker]? = some seed ∧
      (runLevel σ problem config seeds calibration level start)[worker]? =
        some (anneal σ problem config calibration start coolingRate seed) := by
  have rateBound : worker < (coolingRates config.parallel).length := by
    rwa [length_coolingRates]
  have rate := List.getElem?_eq_getElem rateBound
  refine ⟨_, _, rate, List.getElem?_eq_getElem seedBound, ?_⟩
  rw [runLevel, List.getElem?_map, List.getElem?_zipIdx, rate, Option.map_some, Option.map_some,
    Nat.zero_add]
  dsimp only
  rw [List.getD_eq_getElem _ _ seedBound]

end RunLevel

def sampler : Annealer α σ :=
  .new problem config config.parallel.coolingRateMax
    (SeededSource.ofSeed ((seeds σ config).headD 0) : σ)

def sampled : Outcome α × Calibration α :=
  sample σ problem config ((seeds σ config).headD 0)

def annealerOf (temperature : α) (start : Outcome α) (coolingRate : α) (seed : UInt64) :
    Annealer α σ :=
  ((Annealer.new problem config coolingRate (SeededSource.ofSeed seed : σ)).calibrate
    ⟨(sampled σ problem config).2.norms, temperature⟩).setState start.arrangement

def outcomesOf (level : Nat) (temperature : α) (start : Outcome α) : List (Outcome α) :=
  runLevel σ problem config (seeds σ config) ⟨(sampled σ problem config).2.norms, temperature⟩ level
    start.arrangement

/-- The levels that a search comes to, with the heat before each of them and what it starts from. -/
inductive Enters : Nat → Heat α → Outcome α → Prop where
  | first : Enters 0 ⟨(sampled σ problem config).2.temperature, 1⟩ (sampled σ problem config).1
  | next {level : Nat} {heat : Heat α} {start winner : Outcome α} (enters : Enters level heat start)
      (wins : cheapest? (outcomesOf σ problem config level
        (heat.next config.parallel.heatRate).temperature start) = some winner) :
      Enters (level + 1) (heat.next config.parallel.heatRate) winner

structure LevelIsInRange (level : Nat) (temperature : α) (start : Outcome α) : Prop where
  count : (outcomesOf σ problem config level temperature start).length = config.parallel.workers
  workers : ∀ worker < config.parallel.workers, ∃ coolingRate seed,
    (coolingRates config.parallel)[worker]? = some coolingRate ∧
      (seeds σ config)[seedIndex config level worker]? = some seed ∧
      let annealer := annealerOf σ problem config temperature start coolingRate seed
      annealer.RunsInRange ∧
        (outcomesOf σ problem config level temperature start)[worker]? = some annealer.run.2.outcome
  winner : ∃ winner, cheapest? (outcomesOf σ problem config level temperature start) = some winner

structure IsInRange : Prop where
  seeds : SeedsApart σ config
  sampler : (sampler σ problem config).SamplesInRange
  entered : ∀ level ≤ config.parallel.levels, ∃ heat start,
    Enters σ problem config level heat start
  levels : ∀ level < config.parallel.levels, ∀ heat start,
    Enters σ problem config level heat start →
      LevelIsInRange σ problem config level (heat.next config.parallel.heatRate).temperature start
  rounds : ∀ reach blocks, Alignment.RoundIsInRange problem.outline reach blocks
  aligned : ∀ heat winner, Enters σ problem config config.parallel.levels heat winner →
    Cost.IsInRange problem (alignHard problem.outline winner.arrangement.blocks).blocks

theorem isCoherent_annealerOf (temperature : α) (start : Outcome α) (coolingRate : α)
    (seed : UInt64) : (annealerOf σ problem config temperature start coolingRate seed).IsCoherent :=
  Annealer.isCoherent_settle _ _

section Outcomes

variable (level : Nat) (temperature : α) (start : Outcome α)

theorem length_outcomesOf :
    (outcomesOf σ problem config level temperature start).length = config.parallel.workers :=
  length_runLevel σ problem config _ _ level _

variable {config}

theorem exists_winner (workers : 0 < config.parallel.workers) :
    ∃ winner, cheapest? (outcomesOf σ problem config level temperature start) = some winner := by
  apply exists_cheapest?
  rw [length_outcomesOf]
  exact workers

variable {level}

theorem getElem?_outcomesOf {worker : Nat} (levelBound : level < config.parallel.levels)
    (workerBound : worker < config.parallel.workers) :
    ∃ coolingRate seed, (coolingRates config.parallel)[worker]? = some coolingRate ∧
      (seeds σ config)[seedIndex config level worker]? = some seed ∧
      (outcomesOf σ problem config level temperature start)[worker]? =
        some (annealerOf σ problem config temperature start coolingRate seed).run.2.outcome := by
  have seedBound : seedIndex config level worker < (seeds σ config).length :=
    seedIndex_lt levelBound workerBound
  exact getElem?_runLevel σ problem _ _ workerBound seedBound

end Outcomes

variable {σ} {problem} {config} {level : Nat} {heat : Heat α} {start : Outcome α} {temperature : α}

section Levels

variable (workers : 0 < config.parallel.workers)
include workers

theorem levelsFrom_succeeds (left : Nat) (enters : Enters σ problem config level heat start) :
    ∃ last winner summaries,
      levelsFrom σ problem config (seeds σ config) (sampled σ problem config).2.norms left level
          heat start = .ok (winner, summaries) ∧
        Enters σ problem config (level + left) last winner ∧
        summaries.map (·.level) = List.range' level left := by
  induction left generalizing level heat start with
  | zero => exact ⟨heat, start, [], rfl, enters, rfl⟩
  | succ left induction =>
      obtain ⟨winner, wins⟩ := exists_winner σ problem level
        (heat.next config.parallel.heatRate).temperature start workers
      obtain ⟨last, final, summaries, went, entered, levels⟩ := induction (enters.next wins)
      let summary := summarize (sampled σ problem config).2.norms level winner
      refine ⟨last, final, summary :: summaries, ?_, ?_, ?_⟩
      · rw [outcomesOf] at wins
        rw [levelsFrom]
        simp only [wins, went]
        rfl
      · rwa [Nat.add_assoc, Nat.add_comm 1] at entered
      · rw [List.map_cons, levels]
        rfl

theorem exists_enters (level : Nat) : ∃ heat start, Enters σ problem config level heat start := by
  have entered : Enters σ problem config 0 _ _ := .first
  obtain ⟨last, winner, _, _, enters, _⟩ := levelsFrom_succeeds workers level entered
  rw [Nat.zero_add] at enters
  exact ⟨last, winner, enters⟩

end Levels

section Usable

variable [BoundedSource σ] (usable : problem.IsUsable)
include usable

theorem isOf_sampled : (sampled σ problem config).1.arrangement.IsOf problem := by
  have new : (sampler σ problem config).layout.arrangement.IsOf problem :=
    Annealer.isOf_new problem config _ _
  exact Annealer.isOf_sample usable (Annealer.isOf_randomizeShapes usable new)

theorem Enters.isOf (enters : Enters σ problem config level heat start) :
    start.arrangement.IsOf problem := by
  induction enters with
  | first => exact isOf_sampled usable
  | @next level heat start winner _ wins arranged =>
      obtain ⟨coolingRate, seed, rfl⟩ := exists_anneal_of_cheapest? σ problem _ _ wins
      have coherent := isCoherent_annealerOf σ problem config
        (heat.next config.parallel.heatRate).temperature start coolingRate seed
      exact coherent.isOf_run usable (Annealer.isOf_settle arranged)

theorem levelIsInRange (workers : 0 < config.parallel.workers)
    (levelBound : level < config.parallel.levels) (arranged : start.arrangement.IsOf problem) :
    LevelIsInRange σ problem config level temperature start where
  count := length_outcomesOf σ problem config level temperature start
  workers worker workerBound := by
    obtain ⟨coolingRate, seed, rate, read, outcome⟩ :=
      getElem?_outcomesOf σ problem temperature start levelBound workerBound
    refine ⟨coolingRate, seed, rate, read, ?_, outcome⟩
    have coherent := isCoherent_annealerOf σ problem config temperature start coolingRate seed
    exact coherent.runsInRange usable rfl (Annealer.isOf_settle arranged)
  winner := exists_winner σ problem level temperature start workers

theorem isInRange (workers : 0 < config.parallel.workers) : IsInRange σ problem config where
  seeds := seedsApart σ config
  sampler := Annealer.samplesInRange usable rfl (Annealer.isOf_new problem config _ _)
  entered level _ := exists_enters workers level
  levels _ levelBound _ _ enters := levelIsInRange usable workers levelBound (enters.isOf usable)
  rounds reach blocks := Alignment.roundIsInRange problem.outline reach blocks
  aligned heat winner enters := by
    have relocated := (Alignment.alignHard_relocates problem.outline winner.arrangement.blocks).1
    apply usable.closed.evaluates
    rw [← relocated.length_eq]
    exact (enters.isOf usable).length

end Usable

end Search

theorem Block.areKept_alignHard [Number α] (outline : Size α) (blocks : List (Block α)) :
    AreKept blocks (alignHard outline blocks).blocks :=
  (Alignment.alignHard_relocates outline blocks).1.imp fun _ _ relocates =>
    .of_atOrigin_eq relocates.1

variable [Number α] [NumberText α] [SeededSource σ] [IndexSource σ] [FractionSource σ α]
  {design : Design α} {problem : Problem α} {config : Config α}

theorem result_floorplan {winner : Outcome α} {summaries : List (LevelSummary α)}
    (nonempty : problem.blocks ≠ []) (room : Search.HasRoom config)
    (went : Search.levels σ problem config (Search.seeds σ config)
      (Search.sampled σ problem config).1 (Search.sampled σ problem config).2 =
        .ok (winner, summaries)) (journal : Journal) :
    (floorplan σ problem config journal).result =
      .ok (Plan.finish problem config winner (Search.sampled σ problem config).2 summaries) := by
  rw [Search.sampled] at went
  rw [floorplan_of_hasRoom nonempty room]
  dsimp only
  rw [went]
  rfl

theorem levels_of_result_floorplan {journal : Journal} {plan : Plan α}
    (planned : (floorplan σ problem config journal).result = .ok plan) :
    problem.blocks ≠ [] ∧ Search.HasRoom config ∧ ∃ winner summaries,
      Search.levels σ problem config (Search.seeds σ config) (Search.sampled σ problem config).1
        (Search.sampled σ problem config).2 = .ok (winner, summaries) ∧
      plan = Plan.finish problem config winner (Search.sampled σ problem config).2 summaries := by
  have nonempty : problem.blocks ≠ [] := by
    intro none
    rw [floorplan_of_isEmpty none] at planned
    cases planned
  have room : Search.HasRoom config := by
    by_contra crowded
    rw [result_floorplan_of_not_hasRoom nonempty crowded] at planned
    cases planned
  refine ⟨nonempty, room, ?_⟩
  rw [floorplan_of_hasRoom nonempty room] at planned
  dsimp only at planned
  split at planned
  next => cases planned
  next winner summaries went =>
    cases planned
    exact ⟨winner, summaries, went, rfl⟩

/-- Some blocks to place, a worker to place them, and room are all that a plan takes. -/
theorem exists_plan (nonempty : problem.blocks ≠ []) (workers : 0 < config.parallel.workers)
    (room : Search.HasRoom config) (journal : Journal) :
    ∃ plan, (floorplan σ problem config journal).result = .ok plan ∧
      plan.levels.map (·.level) = List.range config.parallel.levels := by
  have entered : Search.Enters σ problem config 0 _ _ := .first
  obtain ⟨_, winner, summaries, went, _, levels⟩ :=
    Search.levelsFrom_succeeds workers config.parallel.levels entered
  exact ⟨_, result_floorplan nonempty room went journal, levels.trans List.range_eq_range'.symm⟩

/--
On a problem that a design describes, and with a configuration that passes its checks, a search
gives a plan just when there is room for its lists. Nothing that it looks up is missing.
-/
theorem floorplan_succeeds_with_room [BoundedSource σ] (resolved : design.resolve = .ok problem)
    (addressable : problem.IsAddressable) (checked : config.check = .ok ()) (journal : Journal) :
    (Search.HasRoom config → ∃ plan, (floorplan σ problem config journal).result = .ok plan ∧
      plan.levels.map (·.level) = List.range config.parallel.levels ∧
      plan.blocks.map (fun block => (block.name, block.isHard)) =
        design.blocks.map fun description => (description.name, decide (0 < description.macros))) ∧
    (¬ Search.HasRoom config →
      (floorplan σ problem config journal).result = .error .capacityOverflow) ∧
    Search.IsInRange σ problem config := by
  have usable := Design.isUsable_of_resolve resolved addressable
  have nonempty := Design.nonempty_of_resolve resolved
  obtain ⟨_, _, _, _, parallel, _⟩ := Config.check_eq_ok_iff.mp checked
  have workers := Config.Parallel.workers_pos parallel
  refine ⟨?_, fun crowded => result_floorplan_of_not_hasRoom nonempty crowded journal,
    Search.isInRange usable workers⟩
  intro room
  have entered : Search.Enters σ problem config 0 _ _ := .first
  obtain ⟨_, winner, summaries, went, enters, levels⟩ :=
    Search.levelsFrom_succeeds workers config.parallel.levels entered
  have kept := (enters.isOf usable).blocks.trans (Block.areKept_alignHard problem.outline _)
  refine ⟨_, result_floorplan nonempty room went journal, ?_, ?_⟩
  · exact levels.trans List.range_eq_range'.symm
  · calc
      ((alignHard problem.outline winner.arrangement.blocks).blocks.map PlacedBlock.ofBlock).map
          (fun block => (block.name, block.isHard))
        = (alignHard problem.outline winner.arrangement.blocks).blocks.map
            fun block => (block.name, block.isHard) := List.map_map
      _ = problem.blocks.map fun block => (block.name, block.isHard) := kept.kinds
      _ = _ := Design.kinds_of_resolve resolved

open Design Design.BlockDescription in
theorem floorplan_succeeds_with_room_pair :
    let _ : NumberText ℝ :=
      ⟨fun a => toString ⌊a⌋, fun _ a => toString ⌊a⌋, fun a => some (toString ⌊a⌋)⟩
    let design : Design ℝ :=
      ⟨⟨10, 10⟩, [⟨"soft", some 4, 0, [⟨1 / 2, 2⟩], []⟩, ⟨"hard", none, 1, [], [⟨2, 3⟩, ⟨3, 2⟩]⟩],
        [], [], [], []⟩
    let problem : Problem ℝ :=
      { Problem.ofOutline ⟨10, 10⟩ with
        blocks := [.soft "soft" 4 [⟨1 / 2, 2⟩], .hard "hard" 6 1 [⟨2, 3⟩, ⟨3, 2⟩]] }
    design.resolve = .ok problem ∧ problem.IsAddressable ∧
      (Config.default : Config ℝ).check = .ok () ∧ Search.HasRoom (Config.default : Config ℝ) ∧
      (∃ plan, (floorplan Generator problem .default .empty).result = .ok plan ∧
        plan.levels.map (·.level) = [0, 1, 2, 3] ∧
        plan.blocks.map (fun block => (block.name, block.isHard)) =
          [("soft", false), ("hard", true)]) ∧
      Search.IsInRange Generator problem .default := by
  intro _ design problem
  have fresh : ¬ (Block.soft "soft" (4 : ℝ) [⟨1 / 2, 2⟩]).name = "hard" := by
    change ¬ "soft" = "hard"
    decide
  have resolved : design.resolve = .ok problem := by
    norm_num [design, problem, Design.resolve, checkOutline, Size.isPositive, Number.isLength,
      Number.isFinite, Problem.withBlock, Problem.findBlock?, Problem.lastIndex?, Problem.ofOutline,
      BlockDescription.resolve, resolveSoft, resolveHard, checkArea, checkRatios, isRatioRange,
      Problem.addBlock, bind, Except.bind, pure, Except.pure, Size.area, fresh]
  have addressable : problem.IsAddressable := ⟨by decide, by decide⟩
  have room : Search.HasRoom (Config.default : Config ℝ) := by decide
  obtain ⟨succeeds, _, inRange⟩ :=
    floorplan_succeeds_with_room (σ := Generator) resolved addressable Config.check_default .empty
  exact ⟨resolved, addressable, Config.check_default, room, succeeds room, inRange⟩

/-- Without levels there are no runs, but still a cooling rate for each of too many workers. -/
theorem floorplan_breaks_off :
    let design : Design Float :=
      ⟨⟨10, 10⟩, [⟨"rom", none, 1, [], [⟨2, 3⟩]⟩], [], [], [], []⟩
    let problem : Problem Float :=
      { Problem.ofOutline ⟨10, 10⟩ with blocks := [.hard "rom" 6 1 [⟨2, 3⟩]] }
    let config : Config Float :=
      { Config.default with
        parallel := { Config.Parallel.default with levels := 0, workers := 2 ^ 61 } }
    design.resolve = .ok problem ∧ problem.IsAddressable ∧ config.check = .ok () ∧
      config.parallel.levels * config.parallel.workers + 11 < 2 ^ 64 ∧
      (floorplan Generator problem config .empty).result = .error .capacityOverflow := by
  intro design problem config
  have crowded : ¬ Search.HasRoom config := by decide
  have nonempty : problem.blocks ≠ [] := List.cons_ne_nil _ _
  refine ⟨by decide +kernel, ⟨by decide, by decide⟩, by decide +kernel, by decide, ?_⟩
  exact result_floorplan_of_not_hasRoom nonempty crowded .empty

end Floorplanner
