import Floorplanner.Proofs.Annealing.Coherence
import Floorplanner.Proofs.Cost.Range
import Floorplanner.Proofs.Design.Closed
import Floorplanner.Proofs.Move.Range

/-!
An annealer looks up only what is there.

Every layout that an annealer comes to has two orders of the blocks of its problem, and for each of
them options or ranges to choose from. So every move and every evaluation finds what it looks up,
and no draw is from an empty range, whatever is accepted, taken back or shrunk. The numbers need not
be exact: no shape has to fit anything for that.
-/

namespace Floorplanner

variable {α σ : Type}

structure Problem.IsUsable (problem : Problem α) : Prop where
  slots : ∀ block ∈ problem.blocks, block.form.HasSlots
  closed : problem.IsClosed
  addressable : problem.IsAddressable

theorem Design.isUsable_of_resolve [Number α] {design : Design α} {problem : Problem α}
    (resolved : design.resolve = .ok problem) (addressable : problem.IsAddressable) :
    problem.IsUsable where
  slots := hasSlots_of_resolve resolved
  closed := isClosed_of_resolve resolved addressable
  addressable := addressable

def Arrangement.IsOf (problem : Problem α) (arrangement : Arrangement α) : Prop :=
  Arrangement.Keeps ⟨problem.blocks, .identity problem.blocks.length⟩ arrangement

namespace Arrangement.IsOf

variable {problem : Problem α} {arrangement next : Arrangement α}

theorem movable (arranged : arrangement.IsOf problem) (usable : problem.IsUsable) :
    arrangement.IsMovable :=
  Keeps.movable arranged ⟨.identity _, usable.slots⟩

theorem keeps (arranged : arrangement.IsOf problem) (keeps : arrangement.Keeps next) :
    next.IsOf problem :=
  Keeps.trans arranged keeps

theorem packed [Number α] (arranged : arrangement.IsOf problem) : arrangement.packed.IsOf problem :=
  arranged.keeps (.packed arrangement)

theorem length (arranged : arrangement.IsOf problem) :
    arrangement.blocks.length = problem.blocks.length :=
  arranged.blocks.length_eq.symm

end Arrangement.IsOf

variable [Number α]

/-- What packing, evaluating and moving on from an arrangement look up. -/
structure Arrangement.IsInRange (problem : Problem α) (arrangement : Arrangement α) : Prop where
  pair : arrangement.pair.isValid arrangement.blocks.length = true
  slots : ∀ block ∈ arrangement.blocks, block.form.HasSlots
  cost : Cost.IsInRange problem arrangement.blocks

theorem Arrangement.IsOf.isInRange {problem : Problem α} {arrangement : Arrangement α}
    (arranged : arrangement.IsOf problem) (usable : problem.IsUsable) :
    arrangement.IsInRange problem where
  pair := by
    refine (arranged.movable usable).pair.isValid ?_
    rw [arranged.length]
    exact usable.addressable.blocks
  slots := (arranged.movable usable).slots
  cost := usable.closed.evaluates arranged.length

structure Walk.IsInRange (problem : Problem α) (walk : Walk α σ) : Prop where
  current : walk.current.layout.arrangement.IsInRange problem
  best : walk.best.layout.arrangement.IsInRange problem

structure Walk.IsOf (problem : Problem α) (walk : Walk α σ) : Prop where
  current : walk.current.layout.arrangement.IsOf problem
  best : walk.best.layout.arrangement.IsOf problem

theorem Walk.IsOf.isInRange {problem : Problem α} {walk : Walk α σ} (arranged : walk.IsOf problem)
    (usable : problem.IsUsable) : walk.IsInRange problem where
  current := arranged.current.isInRange usable
  best := arranged.best.isInRange usable

namespace Annealer

theorem shrinkInterval_pos (config : Config α) : 0 < shrinkInterval config :=
  Nat.lt_of_lt_of_le Nat.one_pos (Nat.le_max_right _ _)

variable {annealer : Annealer α σ} {problem : Problem α} {layout : Layout α}

theorem isOf_new (problem : Problem α) (config : Config α) (coolingRate : α) (source : σ) :
    (new problem config coolingRate source).layout.arrangement.IsOf problem :=
  Arrangement.IsOf.packed (.refl _)

theorem isOf_settle {arrangement : Arrangement α} (arranged : arrangement.IsOf problem) :
    (annealer.settle arrangement).arrangement.IsOf problem :=
  arranged.packed

theorem isOf_shrunk (arranged : layout.arrangement.IsOf problem) :
    (annealer.shrunk layout).layout.arrangement.IsOf problem := by
  apply isOf_settle
  exact arranged.keeps ⟨.shrink _ _, id⟩

theorem source_accept (step : Nat) (next : Snapshot α) (walk : Walk α σ) :
    (annealer.accept step next walk).source = walk.source := by
  rw [accept]
  split
  · split <;> rfl
  · rfl

section Source

variable [IndexSource σ] [FractionSource σ α]

structure ProposesInRange (annealer : Annealer α σ) (layout : Layout α) (source : σ) : Prop where
  steps : ∃ arrangement,
    Move.StepsInRange layout.arrangement (annealer.propose layout source).1.1 arrangement ∧
      (annealer.propose layout source).1.2 = annealer.settle arrangement
  candidate : (annealer.propose layout source).1.2.arrangement.IsInRange annealer.problem
  draws : Draws α source (annealer.propose layout source).2

/-- What a run looks up and draws from; the interval is the modulus of its steps. -/
structure RunsInRange (annealer : Annealer α σ) : Prop where
  interval : 0 < shrinkInterval annealer.config
  walks : ∀ iteration ∈ annealer.log, iteration.walk.IsInRange annealer.problem
  finish : annealer.finish.IsInRange annealer.problem
  moves : ∀ iteration ∈ annealer.log,
    annealer.ProposesInRange iteration.walk.current.layout iteration.walk.source
  draws : ∀ iteration ∈ annealer.log,
    Draws α iteration.walk.source (annealer.after iteration).source

structure SamplesInRange (annealer : Annealer α σ) : Prop where
  initial : annealer.layout.arrangement.IsInRange annealer.problem
  shapes : List.Forall₂ Block.Reshapes annealer.layout.arrangement.blocks
    (Block.randomizeAll annealer.layout.arrangement.blocks annealer.source).1
  draws : Draws α annealer.source annealer.randomizeShapes.source
  moves : ∀ count < annealer.config.annealing.movesPerStep,
    let randomized := annealer.randomizeShapes
    let walked := randomized.wander count randomized.layout randomized.source
    walked.2.1.arrangement.IsInRange annealer.problem ∧
      randomized.ProposesInRange walked.2.1 walked.2.2

theorem source_after (iteration : Iteration α σ) :
    (annealer.after iteration).source =
      (annealer.decision iteration.temperature iteration.walk).2 := by
  rw [after, iterate_eq]
  dsimp only
  split
  · rw [source_accept]
  · rfl

theorem draws_accepts (delta temperature : α) (source : σ) :
    Draws α source (accepts delta temperature source).2 := by
  rw [accepts]
  split
  · exact .refl source
  · exact .fraction (.refl _)

variable [BoundedSource σ] (usable : problem.IsUsable)
include usable

theorem steps_propose (arranged : layout.arrangement.IsOf problem) (source : σ) :
    ∃ arrangement,
      Move.StepsInRange layout.arrangement (annealer.propose layout source).1.1 arrangement ∧
        (annealer.propose layout source).1.2 = annealer.settle arrangement ∧
        Draws α source (annealer.propose layout source).2 := by
  obtain ⟨steps, draws⟩ := Move.stepsInRange_perturb (arranged.movable usable)
    (rfl : Move.perturb annealer.problem.outline (.ofProbabilities annealer.config.moves)
      layout.arrangement source = _)
  exact ⟨_, steps, rfl, draws⟩

theorem isOf_propose (arranged : layout.arrangement.IsOf problem) (source : σ) :
    (annealer.propose layout source).1.2.arrangement.IsOf problem := by
  obtain ⟨arrangement, steps, settled, _⟩ := steps_propose usable arranged source
  rw [settled]
  exact isOf_settle (arranged.keeps steps.keeps)

theorem proposesInRange (sameProblem : annealer.problem = problem)
    (arranged : layout.arrangement.IsOf problem) (source : σ) :
    annealer.ProposesInRange layout source := by
  obtain ⟨arrangement, steps, settled, draws⟩ := steps_propose usable arranged source
  refine ⟨⟨arrangement, steps, settled⟩, ?_, draws⟩
  rw [sameProblem]
  exact (isOf_propose usable arranged source).isInRange usable

theorem isOf_wander (annealer : Annealer α σ) (count : Nat)
    (arranged : layout.arrangement.IsOf problem) (source : σ) :
    (annealer.wander count layout source).2.1.arrangement.IsOf problem := by
  refine annealer.wander_invariant (·.arrangement.IsOf problem) ?_ count arranged source
  exact fun _ source arranged => isOf_propose usable arranged source

theorem Iterates.isOf {step : Nat} {temperature : α} {walk next : Walk α σ}
    (iterates : annealer.Iterates step temperature walk next) (arranged : walk.IsOf problem) :
    next.IsOf problem := by
  have candidate : (annealer.candidate walk).layout.arrangement.IsOf problem :=
    isOf_propose usable arranged.current walk.source
  cases iterates with
  | reject => exact ⟨arranged.current, arranged.best⟩
  | accept => exact ⟨candidate, arranged.best⟩
  | improve => exact ⟨candidate, candidate⟩
  | shrink => exact ⟨isOf_shrunk candidate, isOf_shrunk candidate⟩

theorem IsCoherent.isOf_walks (coherent : annealer.IsCoherent)
    (arranged : annealer.layout.arrangement.IsOf problem) :
    (∀ iteration ∈ annealer.log, iteration.walk.IsOf problem) ∧ annealer.finish.IsOf problem :=
  coherent.invariant ⟨arranged, arranged⟩ fun iterates arranged => iterates.isOf usable arranged

theorem IsCoherent.isOf_run (coherent : annealer.IsCoherent)
    (arranged : annealer.layout.arrangement.IsOf problem) :
    annealer.run.2.layout.arrangement.IsOf problem := by
  obtain ⟨_, finish⟩ := coherent.isOf_walks usable arranged
  exact annealer.holds_layout_run (·.arrangement.IsOf problem) finish.best finish.current

theorem isOf_randomizeShapes (arranged : annealer.layout.arrangement.IsOf problem) :
    annealer.randomizeShapes.layout.arrangement.IsOf problem := by
  obtain ⟨shapes, _⟩ :=
    Block.reshapes_randomizeAll (arranged.movable usable).slots annealer.source
  apply isOf_settle
  exact arranged.keeps ⟨shapes.imp fun _ _ reshapes => reshapes.keeps, id⟩

theorem isOf_sample (arranged : annealer.layout.arrangement.IsOf problem) :
    annealer.sample.layout.arrangement.IsOf problem :=
  isOf_wander usable annealer _ arranged annealer.source

theorem IsCoherent.runsInRange (coherent : annealer.IsCoherent)
    (sameProblem : annealer.problem = problem)
    (arranged : annealer.layout.arrangement.IsOf problem) : annealer.RunsInRange := by
  obtain ⟨walks, finish⟩ := coherent.isOf_walks usable arranged
  subst sameProblem
  refine ⟨shrinkInterval_pos _, ?_, finish.isInRange usable, ?_, ?_⟩
  · exact fun iteration member => (walks iteration member).isInRange usable
  · exact fun iteration member => proposesInRange usable rfl (walks iteration member).current _
  · intro iteration member
    have moves : annealer.ProposesInRange iteration.walk.current.layout iteration.walk.source :=
      proposesInRange usable rfl (walks iteration member).current _
    rw [source_after]
    exact moves.draws.trans (draws_accepts _ _ _)

theorem samplesInRange (sameProblem : annealer.problem = problem)
    (arranged : annealer.layout.arrangement.IsOf problem) : annealer.SamplesInRange := by
  subst sameProblem
  obtain ⟨shapes, draws⟩ :=
    Block.reshapes_randomizeAll (arranged.movable usable).slots annealer.source
  refine ⟨arranged.isInRange usable, shapes, draws, ?_⟩
  intro count _
  have walked := isOf_wander usable annealer.randomizeShapes count
    (isOf_randomizeShapes usable arranged) annealer.randomizeShapes.source
  have moves : ∀ source, annealer.randomizeShapes.ProposesInRange _ source :=
    proposesInRange usable rfl walked
  exact ⟨walked.isInRange usable, moves _⟩

end Source

end Annealer

end Floorplanner
