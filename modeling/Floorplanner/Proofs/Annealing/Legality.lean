import Mathlib
import Floorplanner.Proofs.Annealing.Coherence
import Floorplanner.Proofs.Config.Validation
import Floorplanner.Proofs.Design.Resolution
import Floorplanner.Proofs.Move.Legality
import Floorplanner.Random.Script

/-!
Every state of a search is legal.

From a problem that a design describes, with a configuration that passes its checks, an annealer
comes only to arrangements of the blocks of the problem: two orders of all of them, and for each a
shape that it may have. That holds between its runs and at each iteration of them, also where a move
is taken back, where soft blocks shrink and where the best layout is put back.
-/

namespace Floorplanner

variable {α σ : Type} [ExactNumber α]

structure Walk.IsLegal (originals : List (Block α)) (walk : Walk α σ) : Prop where
  current : walk.current.layout.arrangement.IsLegal originals
  best : walk.best.layout.arrangement.IsLegal originals

namespace Annealer

variable {originals : List (Block α)} {annealer : Annealer α σ} {arrangement : Arrangement α}

theorem isLegal_settle (legal : arrangement.IsLegal originals) :
    (annealer.settle arrangement).arrangement.IsLegal originals :=
  legal.packed

theorem isLegal_shrunk {layout : Layout α} (legal : layout.arrangement.IsLegal originals)
    (positive : 0 < annealer.config.shrinking.factor) :
    (annealer.shrunk layout).layout.arrangement.IsLegal originals := by
  apply isLegal_settle
  exact ⟨legal.pair, legal.blocks.shrink positive⟩

theorem isLegal_new {problem : Problem α} (legal : ∀ block ∈ problem.blocks, block.form.Allows block)
    (config : Config α) (coolingRate : α) (source : σ) :
    (new problem config coolingRate source).layout.arrangement.IsLegal problem.blocks := by
  apply Arrangement.IsLegal.packed
  exact ⟨.identity _, List.forall₂_same.mpr legal⟩

section Source

variable [ExactNumber.HasRoots α] [IndexSource σ] [FractionSource σ α] [UnitSource σ α]

theorem isLegal_propose {layout : Layout α} (legal : layout.arrangement.IsLegal originals)
    (source : σ) : (annealer.propose layout source).1.2.arrangement.IsLegal originals := by
  apply isLegal_settle
  exact legal.step (Move.step_perturb rfl)

theorem Iterates.isLegal {step : Nat} {temperature : α} {walk next : Walk α σ}
    (iterates : annealer.Iterates step temperature walk next) (legal : walk.IsLegal originals)
    (positive : 0 < annealer.config.shrinking.factor) : next.IsLegal originals := by
  have candidate : (annealer.candidate walk).layout.arrangement.IsLegal originals :=
    isLegal_propose legal.current walk.source
  cases iterates with
  | reject => exact ⟨legal.current, legal.best⟩
  | accept => exact ⟨candidate, legal.best⟩
  | improve => exact ⟨candidate, candidate⟩
  | shrink => exact ⟨isLegal_shrunk candidate positive, isLegal_shrunk candidate positive⟩

theorem IsCoherent.legal_walks (coherent : annealer.IsCoherent)
    (legal : annealer.layout.arrangement.IsLegal originals)
    (positive : 0 < annealer.config.shrinking.factor) :
    (∀ iteration ∈ annealer.log, iteration.walk.IsLegal originals) ∧
      annealer.finish.IsLegal originals :=
  coherent.invariant ⟨legal, legal⟩ fun iterates legal => iterates.isLegal legal positive

/-- The annealers of a search. A worker starts where an annealer of the search has ended. -/
inductive Reachable (problem : Problem α) (config : Config α) : Annealer α σ → Prop
  | new (coolingRate : α) (source : σ) :
      Reachable problem config (new problem config coolingRate source)
  | randomizeShapes {annealer : Annealer α σ} (reachable : Reachable problem config annealer) :
      Reachable problem config annealer.randomizeShapes
  | sample {annealer : Annealer α σ} (reachable : Reachable problem config annealer) :
      Reachable problem config annealer.sample
  | calibrate {annealer : Annealer α σ} (reachable : Reachable problem config annealer)
      (calibration : Calibration α) :
      Reachable problem config (annealer.calibrate calibration)
  | setState {annealer previous : Annealer α σ} (reachable : Reachable problem config annealer)
      (ended : Reachable problem config previous) :
      Reachable problem config (annealer.setState previous.outcome.arrangement)
  | run {annealer : Annealer α σ} (reachable : Reachable problem config annealer) :
      Reachable problem config annealer.run.2

/-- An annealer that can go on for its problem without ever being in an illegal arrangement. -/
structure IsSound (problem : Problem α) (config : Config α) (annealer : Annealer α σ) : Prop where
  sameProblem : annealer.problem = problem
  sameConfig : annealer.config = config
  coherent : annealer.IsCoherent
  legal : annealer.layout.arrangement.IsLegal problem.blocks

variable {problem : Problem α} {config : Config α}

theorem Reachable.isSound (legal : ∀ block ∈ problem.blocks, block.form.Allows block)
    (positive : 0 < config.shrinking.factor) (reachable : Reachable problem config annealer) :
    annealer.IsSound problem config := by
  induction reachable with
  | new coolingRate source =>
      exact ⟨rfl, rfl, isCoherent_new problem config coolingRate source,
        isLegal_new legal config coolingRate source⟩
  | @randomizeShapes annealer _ sound =>
      refine ⟨sound.sameProblem, sound.sameConfig, sound.coherent.perform .randomizeShapes, ?_⟩
      apply isLegal_settle
      exact ⟨sound.legal.pair, sound.legal.blocks.randomizeAll annealer.source⟩
  | @sample annealer _ sound =>
      refine ⟨sound.sameProblem, sound.sameConfig, sound.coherent.perform .sample, ?_⟩
      refine annealer.wander_invariant (·.arrangement.IsLegal _) ?_ _ sound.legal annealer.source
      exact fun _ source legal => isLegal_propose legal source
  | calibrate _ calibration sound =>
      exact ⟨sound.sameProblem, sound.sameConfig, sound.coherent, sound.legal⟩
  | @setState annealer previous _ _ sound ended =>
      refine ⟨sound.sameProblem, sound.sameConfig, sound.coherent.perform (.setState _), ?_⟩
      exact isLegal_settle ended.legal
  | @run annealer _ sound =>
      refine ⟨sound.sameProblem, sound.sameConfig, sound.coherent.perform .run, ?_⟩
      rw [← sound.sameConfig] at positive
      have finish := (sound.coherent.legal_walks sound.legal positive).2
      exact annealer.holds_layout_run (·.arrangement.IsLegal _) finish.best finish.current

end Source

/--
From a problem that a design describes, and with a configuration that passes its checks, a search
comes to legal arrangements only, in runs and between them.
-/
theorem legal_throughout [ExactNumber.HasRoots α] [WordSource σ] {design : Design α}
    {problem : Problem α} {config : Config α} (resolved : design.resolve = .ok problem)
    (checked : config.check = .ok ()) {annealer : Annealer α σ}
    (reachable : Reachable problem config annealer) :
    annealer.layout.arrangement.IsLegal problem.blocks ∧
      (problem.blocks.length ≤ 2 ^ 32 →
        annealer.layout.arrangement.pair.isValid problem.blocks.length = true) ∧
      ∀ iteration ∈ annealer.log, iteration.walk.IsLegal problem.blocks := by
  have blocks := Design.allows_of_mem_resolve resolved
  obtain ⟨_, _, _, shrinking, _⟩ := Config.check_eq_ok_iff.mp checked
  have positive := (Config.Shrinking.check_eq_ok_iff.mp shrinking).1.1
  have sound := reachable.isSound blocks positive
  refine ⟨sound.legal, sound.legal.pair.isValid, ?_⟩
  rw [← sound.sameConfig] at positive
  exact (sound.coherent.legal_walks sound.legal positive).1

open Design Design.BlockDescription in
theorem legal_throughout_two :
    let design : Design ℝ :=
      ⟨⟨10, 10⟩, [⟨"soft", some 4, 0, [⟨1 / 2, 2⟩], []⟩, ⟨"hard", none, 1, [], [⟨2, 3⟩, ⟨3, 2⟩]⟩],
        [], [], [], []⟩
    let problem : Problem ℝ :=
      { Problem.ofOutline ⟨10, 10⟩ with
        blocks := [.soft "soft" 4 [⟨1 / 2, 2⟩], .hard "hard" 6 1 [⟨2, 3⟩, ⟨3, 2⟩]] }
    let first : Annealer ℝ WordScript := new problem .default 1 ⟨[1, 2, 3]⟩
    let second : Annealer ℝ WordScript := new problem .default 1 ⟨[4, 5, 6]⟩
    let annealer := (second.setState first.randomizeShapes.sample.outcome.arrangement).run.2
    design.resolve = .ok problem ∧ (Config.default : Config ℝ).check = .ok () ∧
      annealer.layout.arrangement.IsLegal problem.blocks := by
  intro design problem first second annealer
  have fresh : ¬ (Block.soft "soft" (4 : ℝ) [⟨1 / 2, 2⟩]).name = "hard" := by
    change ¬ "soft" = "hard"
    decide
  have resolved : design.resolve = .ok problem := by
    norm_num [design, problem, Design.resolve, checkOutline, Size.isPositive, Number.isLength,
      Number.isFinite, Problem.withBlock, Problem.findBlock?, Problem.lastIndex?, Problem.ofOutline,
      BlockDescription.resolve, resolveSoft, resolveHard, checkArea, checkRatios, isRatioRange,
      Problem.addBlock, bind, Except.bind, pure, Except.pure, Size.area, fresh]
  have sampled : Reachable problem .default first.randomizeShapes.sample :=
    .sample (.randomizeShapes (.new _ _))
  have reachable : Reachable problem .default annealer := .run (.setState (.new _ _) sampled)
  refine ⟨resolved, Config.check_default, ?_⟩
  exact (legal_throughout resolved Config.check_default reachable).1

end Annealer

end Floorplanner
