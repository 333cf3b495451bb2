import Floorplanner.Proofs.Annealing.Iterations
import Floorplanner.Proofs.Move.Undo

/-!
What an annealer remembers about its layout is true of it.

Size and terms of a layout are computed when it is made, and put back from the layout before when a
move is taken back. Still, whatever is done to an annealer, they and the places of the blocks are at
every moment what packing and evaluating the shapes and orders would give, on any numbers.
-/

namespace Floorplanner

variable {α σ : Type} [Number α]

/-- A layout that is packed, with the size and the terms that go with it. -/
structure Layout.IsCoherent (problem : Problem α) (config : Config α) (layout : Layout α) :
    Prop where
  packed : pack layout.arrangement.blocks layout.arrangement.pair =
    (layout.arrangement.blocks, layout.size)
  evaluated : layout.terms =
    Cost.evaluate problem config.notching layout.arrangement.blocks layout.size

namespace Layout

variable {problem : Problem α} {config : Config α} {layout : Layout α}

theorem isCoherent_ofArrangement (problem : Problem α) (config : Config α)
    (arrangement : Arrangement α) :
    (ofArrangement problem config arrangement).IsCoherent problem config where
  packed := pack_pack arrangement.blocks arrangement.pair
  evaluated := rfl

theorem IsCoherent.packed_arrangement (coherent : layout.IsCoherent problem config) :
    layout.arrangement.packed = layout.arrangement := by
  simp only [Arrangement.packed, coherent.packed]

end Layout

structure Snapshot.IsCoherent (annealer : Annealer α σ) (snapshot : Snapshot α) : Prop where
  layout : snapshot.layout.IsCoherent annealer.problem annealer.config
  cost : snapshot.cost = annealer.costOf snapshot.layout

structure Walk.IsCoherent (annealer : Annealer α σ) (walk : Walk α σ) : Prop where
  current : walk.current.IsCoherent annealer
  best : walk.best.IsCoherent annealer

/-- The size and the terms stay those that the walk has, and only the arrangement is made anew. -/
theorem Walk.reject_eq (walk : Walk α σ) (move : Move α) (candidate : Layout α) :
    walk.reject move candidate =
      let arrangement := (move.undo candidate.arrangement).packed
      { walk with current.layout.arrangement := arrangement } := rfl

namespace Annealer

variable (annealer : Annealer α σ)

theorem isCoherent_settle (arrangement : Arrangement α) :
    (annealer.settle arrangement).IsCoherent annealer.problem annealer.config :=
  Layout.isCoherent_ofArrangement _ _ arrangement

def snapshot (layout : Layout α) : Snapshot α := ⟨layout, annealer.costOf layout⟩

variable {annealer} in
theorem isCoherent_snapshot {layout : Layout α}
    (coherent : layout.IsCoherent annealer.problem annealer.config) :
    (annealer.snapshot layout).IsCoherent annealer where
  layout := coherent
  cost := rfl

def IsCoherent : Prop := annealer.layout.IsCoherent annealer.problem annealer.config

theorem isCoherent_new (problem : Problem α) (config : Config α) (coolingRate : α) (source : σ) :
    (new problem config coolingRate source).IsCoherent :=
  Layout.isCoherent_ofArrangement problem config _

variable {annealer} in
theorem IsCoherent.start (coherent : annealer.IsCoherent) : annealer.start.IsCoherent annealer where
  current := isCoherent_snapshot coherent
  best := isCoherent_snapshot coherent

variable [IndexSource σ] [FractionSource σ α]

/-- What the next iteration of a walk moves to, unless it takes the move back. -/
def candidate (walk : Walk α σ) : Snapshot α :=
  annealer.snapshot (annealer.propose walk.current.layout walk.source).1.2

def decision (temperature : α) (walk : Walk α σ) : Bool × σ :=
  accepts ((annealer.candidate walk).cost - walk.current.cost) temperature
    (annealer.propose walk.current.layout walk.source).2

theorem iterate_eq (step : Nat) (temperature : α) (walk : Walk α σ) :
    annealer.iterate step temperature walk =
      let source := (annealer.decision temperature walk).2
      if (annealer.decision temperature walk).1 then
        annealer.accept step (annealer.candidate walk) { walk with source }
      else
        { walk with source : Walk α σ }.reject
          (annealer.propose walk.current.layout walk.source).1.1
          (annealer.candidate walk).layout := rfl

theorem isCoherent_candidate (walk : Walk α σ) : (annealer.candidate walk).IsCoherent annealer :=
  isCoherent_snapshot (annealer.isCoherent_settle _)

/-- Packing after the undo brings back the places, and the rest is put back from the walk. -/
theorem reject_candidate {walk : Walk α σ} (coherent : walk.IsCoherent annealer) (source : σ) :
    { walk with source : Walk α σ }.reject
        (annealer.propose walk.current.layout walk.source).1.1 (annealer.candidate walk).layout =
      { walk with source } := by
  obtain ⟨⟨layout, cost⟩, best, shrinks, drawn⟩ := walk
  have restored : ((annealer.propose layout drawn).1.1.undo
      (annealer.propose layout drawn).1.2.arrangement).packed = layout.arrangement := by
    calc
      ((annealer.propose layout drawn).1.1.undo
          (annealer.propose layout drawn).1.2.arrangement).packed
        = ((annealer.propose layout drawn).1.1.undo
            (Move.perturb annealer.problem.outline (.ofProbabilities annealer.config.moves)
              layout.arrangement drawn).1.2).packed := Move.packed_undo_packed _ _
      _ = layout.arrangement.packed := congrArg Arrangement.packed (Move.undo_perturb _ _ _ _)
      _ = layout.arrangement := coherent.current.layout.packed_arrangement
  rw [Walk.reject_eq]
  dsimp only [candidate, snapshot]
  rw [restored]

def shrunk (layout : Layout α) : Snapshot α := annealer.snapshot (annealer.shrinkSoft layout)

inductive Iterates (step : Nat) (temperature : α) (walk : Walk α σ) : Walk α σ → Prop where
  | reject {source : σ} (decided : annealer.decision temperature walk = (false, source)) :
      Iterates step temperature walk { walk with source }
  | accept {source : σ} (decided : annealer.decision temperature walk = (true, source))
      (notBetter : ¬ (annealer.candidate walk).cost < walk.best.cost) :
      Iterates step temperature walk { walk with current := annealer.candidate walk, source }
  | improve {source : σ} (decided : annealer.decision temperature walk = (true, source))
      (better : (annealer.candidate walk).cost < walk.best.cost)
      (keeps : annealer.shrinksAt step walk.shrinks (annealer.candidate walk).layout = false) :
      Iterates step temperature walk
        { walk with current := annealer.candidate walk, best := annealer.candidate walk, source }
  | shrink {source : σ} (decided : annealer.decision temperature walk = (true, source))
      (better : (annealer.candidate walk).cost < walk.best.cost)
      (shrinks : annealer.shrinksAt step walk.shrinks (annealer.candidate walk).layout = true) :
      Iterates step temperature walk
        { walk with
          current := annealer.shrunk (annealer.candidate walk).layout
          best := annealer.shrunk (annealer.candidate walk).layout
          shrinks := walk.shrinks + 1
          source }

variable {annealer} {step : Nat} {temperature : α} {walk next : Walk α σ}

theorem iterate_of_rejected {source : σ} (coherent : walk.IsCoherent annealer)
    (decided : annealer.decision temperature walk = (false, source)) :
    annealer.iterate step temperature walk = { walk with source } := by
  rw [iterate_eq, decided]
  exact annealer.reject_candidate coherent source

theorem iterates_iterate (coherent : walk.IsCoherent annealer) :
    annealer.Iterates step temperature walk (annealer.iterate step temperature walk) := by
  generalize decided : annealer.decision temperature walk = outcome
  obtain ⟨accepted, source⟩ := outcome
  cases accepted with
  | false =>
      rw [iterate_of_rejected coherent decided]
      exact .reject decided
  | true =>
      rw [iterate_eq, decided]
      simp only [if_true]
      rw [accept]
      split
      next better =>
        split
        next shrinks => exact .shrink decided better shrinks
        next keeps => exact .improve decided better (Bool.eq_false_iff.mpr keeps)
      next notBetter => exact .accept decided notBetter

theorem Iterates.isCoherent (iterates : annealer.Iterates step temperature walk next)
    (coherent : walk.IsCoherent annealer) : next.IsCoherent annealer := by
  cases iterates with
  | reject => exact ⟨coherent.current, coherent.best⟩
  | accept => exact ⟨annealer.isCoherent_candidate walk, coherent.best⟩
  | improve => exact ⟨annealer.isCoherent_candidate walk, annealer.isCoherent_candidate walk⟩
  | shrink =>
      have shrunk : (annealer.shrunk (annealer.candidate walk).layout).IsCoherent annealer :=
        isCoherent_snapshot (annealer.isCoherent_settle _)
      exact ⟨shrunk, shrunk⟩

theorem IsCoherent.walks (coherent : annealer.IsCoherent) :
    (∀ iteration ∈ annealer.log, iteration.walk.IsCoherent annealer) ∧
      annealer.finish.IsCoherent annealer := by
  apply annealer.chain_log.invariant coherent.start
  intro iteration walk
  exact (iterates_iterate walk).isCoherent walk

/-- What holds at the start, and is kept by whatever an iteration can do, holds throughout a run. -/
theorem IsCoherent.invariant {holds : Walk α σ → Prop} (coherent : annealer.IsCoherent)
    (initial : holds annealer.start)
    (keeps : ∀ {step temperature walk next},
      annealer.Iterates step temperature walk next → holds walk → holds next) :
    (∀ iteration ∈ annealer.log, holds iteration.walk) ∧ holds annealer.finish := by
  -- A rejection undoes its move on a coherent walk only, so the two are kept together.
  let both (walk : Walk α σ) : Prop := walk.IsCoherent annealer ∧ holds walk
  have walks : (∀ iteration ∈ annealer.log, both iteration.walk) ∧ both annealer.finish := by
    apply annealer.chain_log.invariant ⟨coherent.start, initial⟩
    rintro iteration ⟨coherent, held⟩
    have iterates : annealer.Iterates iteration.step iteration.temperature iteration.walk
      (annealer.after iteration) := iterates_iterate coherent
    exact ⟨iterates.isCoherent coherent, keeps iterates held⟩
  exact ⟨fun iteration member => (walks.1 iteration member).2, walks.2.2⟩

theorem IsCoherent.run (coherent : annealer.IsCoherent) : annealer.run.2.IsCoherent := by
  obtain ⟨_, finish⟩ := coherent.walks
  exact annealer.holds_layout_run (·.IsCoherent annealer.problem annealer.config)
    finish.best.layout finish.current.layout

theorem wander_invariant (annealer : Annealer α σ) (holds : Layout α → Prop)
    (keeps : ∀ layout source, holds layout → holds (annealer.propose layout source).1.2)
    (count : Nat) {layout : Layout α} (initial : holds layout) (source : σ) :
    holds (annealer.wander count layout source).2.1 := by
  induction count generalizing layout source with
  | zero => exact initial
  | succ count induction => exact induction (keeps layout source initial) _

inductive Operation (α : Type) where
  | randomizeShapes
  | sample
  | calibrate (calibration : Calibration α)
  | setState (arrangement : Arrangement α)
  | run

def perform (annealer : Annealer α σ) : Operation α → Annealer α σ
  | .randomizeShapes => annealer.randomizeShapes
  | .sample => annealer.sample
  | .calibrate calibration => annealer.calibrate calibration
  | .setState arrangement => annealer.setState arrangement
  | .run => annealer.run.2

@[simp] theorem problem_perform (annealer : Annealer α σ) (operation : Operation α) :
    (annealer.perform operation).problem = annealer.problem := by
  cases operation <;> rfl

@[simp] theorem config_perform (annealer : Annealer α σ) (operation : Operation α) :
    (annealer.perform operation).config = annealer.config := by
  cases operation <;> rfl

theorem IsCoherent.perform (coherent : annealer.IsCoherent) (operation : Operation α) :
    (annealer.perform operation).IsCoherent := by
  cases operation with
  | randomizeShapes => exact annealer.isCoherent_settle _
  | sample =>
      refine annealer.wander_invariant (·.IsCoherent _ _) ?_ _ coherent annealer.source
      exact fun _ _ _ => annealer.isCoherent_settle _
  | calibrate calibration => exact coherent
  | setState arrangement => exact annealer.isCoherent_settle arrangement
  | run => exact coherent.run

theorem IsCoherent.performAll {annealer : Annealer α σ} (coherent : annealer.IsCoherent)
    (operations : List (Operation α)) :
    (operations.foldl Annealer.perform annealer).IsCoherent := by
  induction operations generalizing annealer with
  | nil => exact coherent
  | cons operation rest induction => exact induction (coherent.perform operation)

theorem unchanged_performAll (annealer : Annealer α σ) (operations : List (Operation α)) :
    (operations.foldl perform annealer).problem = annealer.problem ∧
      (operations.foldl perform annealer).config = annealer.config := by
  induction operations generalizing annealer with
  | nil => exact ⟨rfl, rfl⟩
  | cons operation rest induction =>
      obtain ⟨problem, config⟩ := induction (annealer.perform operation)
      rw [problem_perform] at problem
      rw [config_perform] at config
      exact ⟨problem, config⟩

/--
An annealer that is coherent, and that a run keeps so at each of its iterations: all of them are in
the log, each starts at a coherent walk, and one that takes its move back changes nothing but the
source.
-/
structure RunsCoherently (annealer : Annealer α σ) : Prop where
  layout : annealer.layout.IsCoherent annealer.problem annealer.config
  chain : annealer.Chain annealer.start annealer.log annealer.finish
  length : annealer.log.length = annealer.run.1 * annealer.config.annealing.movesPerStep
  walks : ∀ iteration ∈ annealer.log, iteration.walk.IsCoherent annealer
  rejections : ∀ iteration ∈ annealer.log, ∀ source,
    annealer.decision iteration.temperature iteration.walk = (false, source) →
      annealer.after iteration = { iteration.walk with source }

theorem IsCoherent.runsCoherently (coherent : annealer.IsCoherent) : annealer.RunsCoherently where
  layout := coherent
  chain := annealer.chain_log
  length := annealer.length_log
  walks := coherent.walks.1
  rejections := by
    intro iteration member source decided
    exact iterate_of_rejected (coherent.walks.1 iteration member) decided

def reached (problem : Problem α) (config : Config α) (coolingRate : α) (source : σ)
    (operations : List (Operation α)) : Annealer α σ :=
  operations.foldl perform (new problem config coolingRate source)

/-- Whatever is done to an annealer, it stays coherent for its problem, in runs and between them. -/
theorem coherent_throughout (problem : Problem α) (config : Config α) (coolingRate : α) (source : σ)
    (operations : List (Operation α)) :
    (reached problem config coolingRate source operations).problem = problem ∧
      (reached problem config coolingRate source operations).config = config ∧
      (reached problem config coolingRate source operations).RunsCoherently := by
  obtain ⟨sameProblem, sameConfig⟩ :=
    unchanged_performAll (new problem config coolingRate source) operations
  refine ⟨sameProblem, sameConfig, ?_⟩
  have coherent := (isCoherent_new problem config coolingRate source).performAll operations
  exact coherent.runsCoherently

end Annealer

end Floorplanner
