import Floorplanner.Geometry

/-! The parameters of a run, each with its default. -/

namespace Floorplanner

/--
One number for each term of the cost: the raw terms of a layout, their normalization constants and
their weights.
-/
structure Terms (α : Type) where
  area : α
  wirelength : α
  outline : α
  boundary : α
  macroBlockage : α
  location : α
  notch : α
  deriving Repr, DecidableEq

namespace Config

variable {α : Type} [Number α]

/-- Probabilities of the kinds of move. What the first three leave over goes to the double swap. -/
structure Moves (α : Type) where
  resize : α
  positiveSwap : α
  negativeSwap : α
  doubleSwap : α
  deriving Repr, DecidableEq

structure Annealing (α : Type) where
  /-- How probably an average uphill move is taken at the start. -/
  initialAcceptance : α
  steps : Nat
  /-- Moves in one temperature step, and in the sampling walk. -/
  movesPerStep : Nat
  deriving Repr, DecidableEq

structure Shrinking (α : Type) where
  factor : α
  /-- Share of the schedule between two chances to shrink. -/
  frequency : α
  deriving Repr, DecidableEq

structure Parallel (α : Type) where
  levels : Nat
  workers : Nat
  heatRate : α
  coolingRateMax : α
  coolingRateMin : α
  deriving Repr, DecidableEq

structure Notching (α : Type) where
  maxThreshold : α
  /-- The thresholds as a share of the outline's sides. -/
  outlineFraction : α
  deriving Repr, DecidableEq

def defaultWeights : Terms α where
  area := Number.ratio 1 2
  wirelength := Number.ratio 1 2
  outline := 1
  boundary := Number.ratio 2 10
  macroBlockage := 1
  location := Number.ratio 1 2
  notch := Number.ratio 2 10

def Moves.default : Moves α where
  resize := Number.ratio 4 10
  positiveSwap := Number.ratio 2 10
  negativeSwap := Number.ratio 2 10
  doubleSwap := Number.ratio 2 10

def Annealing.default : Annealing α where
  initialAcceptance := Number.ratio 95 100
  steps := 300
  movesPerStep := 50

def Shrinking.default : Shrinking α where
  factor := Number.ratio 995 1000
  frequency := Number.ratio 1 10

def Parallel.default : Parallel α where
  levels := 4
  workers := 4
  heatRate := Number.ratio 1 2
  coolingRateMax := Number.ratio 995 1000
  coolingRateMin := Number.ratio 985 1000

def Notching.default : Notching α where
  maxThreshold := (50 : Nat)
  outlineFraction := Number.ratio 1 10

def Notching.thresholds (notching : Notching α) (outline : Size α) : Size α where
  width := min notching.maxThreshold (outline.width * notching.outlineFraction)
  height := min notching.maxThreshold (outline.height * notching.outlineFraction)

end Config

structure Config (α : Type) where
  seed : UInt64
  weights : Terms α
  moves : Config.Moves α
  annealing : Config.Annealing α
  shrinking : Config.Shrinking α
  parallel : Config.Parallel α
  notching : Config.Notching α
  deriving Repr, DecidableEq

def Config.default {α : Type} [Number α] : Config α where
  seed := 0
  weights := defaultWeights
  moves := .default
  annealing := .default
  shrinking := .default
  parallel := .default
  notching := .default

end Floorplanner
