import Floorplanner.Config

/-!
Which configurations a run accepts.

The parameters are looked at in a fixed order, and the first one out of its range is reported.
-/

namespace Floorplanner

namespace Config

variable {α : Type}

/-- Why a configuration is refused. A parameter is named by its section and its key. -/
inductive Violation (α : Type) where
  | weight (parameter : String) (value : α)
  | probability (parameter : String) (value : α)
  | probabilitySum (total : α)
  | openUnit (parameter : String) (value : α)
  | unit (parameter : String) (value : α)
  | tooFew (parameter : String) (least : Nat)
  | heatRate (value : α)
  | coolingOrder (least greatest : α)
  | notching
  deriving Repr, DecidableEq

def Violation.message (text : α → String) : Violation α → String
  | weight parameter value =>
      parameter ++ " must be a non-negative number, got " ++ text value
  | probability parameter value => parameter ++ " must be in [0, 1], got " ++ text value
  | probabilitySum total =>
      "move probabilities sum to " ++ text total ++ ", which exceeds 1"
  | openUnit parameter value => parameter ++ " must be in (0, 1), got " ++ text value
  | unit parameter value => parameter ++ " must be in (0, 1], got " ++ text value
  | tooFew parameter least => parameter ++ " must be at least " ++ toString least
  | heatRate value => "parallel.heat_rate must be positive, got " ++ text value
  | coolingOrder least greatest =>
      "parallel.cooling_rate_min (" ++ text least ++ ") exceeds parallel.cooling_rate_max (" ++
        text greatest ++ ")"
  | notching => "notch.max_threshold and notch.outline_fraction must be positive"

variable [Number α]

def require (condition : Bool) (violation : Violation α) : Except (Violation α) Unit :=
  if condition then .ok () else .error violation

def checkWeight (parameter : String) (value : α) : Except (Violation α) Unit :=
  require (Number.isFinite value && !decide (value < 0)) (.weight parameter value)

def checkProbability (parameter : String) (value : α) : Except (Violation α) Unit :=
  require (decide (0 ≤ value) && decide (value ≤ 1)) (.probability parameter value)

def checkOpenUnit (parameter : String) (value : α) : Except (Violation α) Unit :=
  require (decide (0 < value) && decide (value < 1)) (.openUnit parameter value)

def checkUnit (parameter : String) (value : α) : Except (Violation α) Unit :=
  require (decide (0 < value) && decide (value ≤ 1)) (.unit parameter value)

def checkCount (parameter : String) (least count : Nat) : Except (Violation α) Unit :=
  require (decide (least ≤ count)) (.tooFew parameter least)

def checkWeights (weights : Terms α) : Except (Violation α) Unit := do
  checkWeight "weights.area" weights.area
  checkWeight "weights.wirelength" weights.wirelength
  checkWeight "weights.outline" weights.outline
  checkWeight "weights.boundary" weights.boundary
  checkWeight "weights.macro_blockage" weights.macroBlockage
  checkWeight "weights.location" weights.location
  checkWeight "weights.notch" weights.notch

/-- Every probability is one, and their sum exceeds one by no more than a millionth. -/
def Moves.check (moves : Moves α) : Except (Violation α) Unit := do
  checkProbability "moves.resize" moves.resize
  checkProbability "moves.pos_swap" moves.positiveSwap
  checkProbability "moves.neg_swap" moves.negativeSwap
  checkProbability "moves.double_swap" moves.doubleSwap
  let total := moves.resize + moves.positiveSwap + moves.negativeSwap + moves.doubleSwap
  require (!decide (1 + Number.ratio 1 1000000 < total)) (.probabilitySum total)

def Annealing.check (annealing : Annealing α) : Except (Violation α) Unit := do
  checkOpenUnit "anneal.init_prob" annealing.initialAcceptance
  checkCount "anneal.max_num_step" 1 annealing.steps
  checkCount "anneal.perturb_per_step" 2 annealing.movesPerStep

def Shrinking.check (shrinking : Shrinking α) : Except (Violation α) Unit := do
  checkUnit "shrink.factor" shrinking.factor
  checkUnit "shrink.freq" shrinking.frequency

def Parallel.check (parallel : Parallel α) : Except (Violation α) Unit := do
  checkCount "parallel.num_worker" 1 parallel.workers
  require (decide (0 < parallel.heatRate) && Number.isFinite parallel.heatRate)
    (.heatRate parallel.heatRate)
  checkOpenUnit "parallel.cooling_rate_max" parallel.coolingRateMax
  checkOpenUnit "parallel.cooling_rate_min" parallel.coolingRateMin
  require (!decide (parallel.coolingRateMax < parallel.coolingRateMin))
    (.coolingOrder parallel.coolingRateMin parallel.coolingRateMax)

def Notching.check (notching : Notching α) : Except (Violation α) Unit :=
  require (decide (0 < notching.maxThreshold) && decide (0 < notching.outlineFraction)) .notching

def check (config : Config α) : Except (Violation α) Unit := do
  checkWeights config.weights
  config.moves.check
  config.annealing.check
  config.shrinking.check
  config.parallel.check
  config.notching.check

end Config

end Floorplanner
