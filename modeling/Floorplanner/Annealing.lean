import Floorplanner.Cost.Model
import Floorplanner.Move
import Floorplanner.Packing

/-!
The annealer: an arrangement of the blocks of a problem that random moves change, with its packed
layout and the terms of its cost at hand.
-/

namespace Floorplanner

structure Layout (α : Type) where
  arrangement : Arrangement α
  size : Size α
  terms : Terms α

structure Calibration (α : Type) where
  norms : Terms α
  temperature : α

structure Outcome (α : Type) where
  arrangement : Arrangement α
  terms : Terms α
  cost : α

structure Annealer (α σ : Type) where
  problem : Problem α
  config : Config α
  coolingRate : α
  source : σ
  layout : Layout α
  calibration : Calibration α

variable {α σ : Type} [Number α]

def Layout.ofArrangement (problem : Problem α) (config : Config α)
    (arrangement : Arrangement α) : Layout α :=
  let (blocks, size) := pack arrangement.blocks arrangement.pair
  { arrangement := ⟨blocks, arrangement.pair⟩
    size
    terms := Cost.evaluate problem config.notching blocks size }

namespace Annealer

/-- An annealer of the problem's blocks in one row. Before it is calibrated, every cost is zero. -/
def new (problem : Problem α) (config : Config α) (coolingRate : α) (source : σ) :
    Annealer α σ where
  problem
  config
  coolingRate
  source
  layout := .ofArrangement problem config
    ⟨problem.blocks, SequencePair.identity problem.blocks.length⟩
  calibration := ⟨.zero, 0⟩

def settle (annealer : Annealer α σ) (arrangement : Arrangement α) : Layout α :=
  .ofArrangement annealer.problem annealer.config arrangement

def costOf (annealer : Annealer α σ) (layout : Layout α) : α :=
  layout.terms.cost annealer.calibration.norms annealer.config.weights

def cost (annealer : Annealer α σ) : α := annealer.costOf annealer.layout

def isFeasible (annealer : Annealer α σ) : Bool :=
  annealer.problem.fits annealer.layout.size

def calibrate (annealer : Annealer α σ) (calibration : Calibration α) : Annealer α σ :=
  { annealer with calibration }

def setState (annealer : Annealer α σ) (arrangement : Arrangement α) : Annealer α σ :=
  { annealer with layout := annealer.settle arrangement }

def outcome (annealer : Annealer α σ) : Outcome α where
  arrangement := annealer.layout.arrangement
  terms := annealer.layout.terms
  cost := annealer.cost

variable [IndexSource σ] [FractionSource σ α]

def randomizeShapes (annealer : Annealer α σ) : Annealer α σ :=
  let arrangement := annealer.layout.arrangement
  let (blocks, source) := Block.randomizeAll arrangement.blocks annealer.source
  { annealer with source, layout := annealer.settle ⟨blocks, arrangement.pair⟩ }

def propose (annealer : Annealer α σ) (layout : Layout α) (source : σ) :
    (Move α × Layout α) × σ :=
  let ((move, arrangement), source) := Move.perturb annealer.problem.outline
    (.ofProbabilities annealer.config.moves) layout.arrangement source
  ((move, annealer.settle arrangement), source)

def wander (annealer : Annealer α σ) : Nat → Layout α → σ → List (Terms α) × Layout α × σ
  | 0, layout, source => ([], layout, source)
  | count + 1, layout, source =>
      let ((_, next), source) := annealer.propose layout source
      let (rest, last, source) := annealer.wander count next source
      (next.terms :: rest, last, source)

/-- The mean change between neighbours of a list; no change counts as one of size zero. -/
def meanChange (costs : List α) : α :=
  let changes := List.zipWith (fun before after => Number.abs (after - before)) costs costs.tail
  Number.sum changes / (max (costs.length - 1) 1 : Nat)

/--
The calibration that a walk gives. The constants are the means of its terms, and at the temperature
the mean change of its cost is accepted with the configured probability.
-/
def calibrationOf (config : Config α) (samples : List (Terms α)) : Calibration α :=
  let norms := Terms.mean samples
  let costs := samples.map fun terms => terms.cost norms config.weights
  { norms
    temperature := -meanChange costs / Number.log config.annealing.initialAcceptance }

def sample (annealer : Annealer α σ) : Annealer α σ :=
  let (samples, layout, source) := annealer.wander annealer.config.annealing.movesPerStep
    annealer.layout annealer.source
  { annealer with layout, source, calibration := calibrationOf annealer.config samples }

end Annealer

end Floorplanner
