import Floorplanner.Annealing.Run

/-!
The search: levels of annealing runs.

A sampling run calibrates the cost. In every level, a number of workers anneal the same starting
arrangement, each with its own seed and cooling rate, and the cheapest result is where the next
level starts. Workers share nothing else, so the result does not depend on the order they run in.
-/

namespace Floorplanner

inductive SearchError where
  | noBlocks
  /-- The level has no worker, so nothing won it. -/
  | noWinner (level : Nat)
  /-- A list would take more room than can be asked for. -/
  | capacityOverflow
  deriving Repr, DecidableEq

def SearchError.reason : SearchError → String
  | noBlocks => "cannot floorplan a problem without blocks"
  | noWinner level => "level " ++ toString level ++ " produced no result"
  | capacityOverflow => "capacity overflow"

def SearchError.message (error : SearchError) : String :=
  "internal floorplanner error: " ++ error.reason

structure LevelSummary (α : Type) where
  level : Nat
  cost : α
  terms : Terms α
  normalized : Terms α
  deriving Repr, DecidableEq

namespace Search

variable {α σ : Type}

def spareSeeds : Nat := 10

def drawSeeds [SeededSource σ] : Nat → σ → List UInt64
  | 0, _ => []
  | count + 1, source =>
      let (seed, source) := SeededSource.seed source
      seed :: drawSeeds count source

/-- The seeds of a search: one to sample with, one for each worker of each level, and some spare. -/
def seeds (σ : Type) [SeededSource σ] (config : Config α) : List UInt64 :=
  drawSeeds (config.parallel.levels * config.parallel.workers + 1 + spareSeeds)
    (SeededSource.ofSeed config.seed : σ)

/-- The lists of a search that room is made for before they are filled. -/
inductive Reservation where
  | seeds
  | samples
  | coolingRates
  | summaries
  | outcomes
  deriving Repr, DecidableEq

namespace Reservation

def length (config : Config α) : Reservation → Nat
  | seeds => config.parallel.levels * config.parallel.workers + 1 + spareSeeds
  | samples => config.annealing.movesPerStep
  | coolingRates => config.parallel.workers
  | summaries => config.parallel.levels
  | outcomes => if config.parallel.levels = 0 then 0 else config.parallel.workers

/-- Eight bytes for each number of an entry, and three times as many for each list that it holds. -/
def entryBytes : Reservation → Nat
  | seeds | coolingRates => 8
  | samples => 56
  | summaries => 128
  | outcomes => 136

/-- No list takes more bytes than a signed word counts. -/
def isGranted (config : Config α) (list : Reservation) : Bool :=
  decide (list.length config * list.entryBytes < 1 <<< 63)

end Reservation

def seedIndex (config : Config α) (level worker : Nat) : Nat :=
  1 + level * config.parallel.workers + worker

variable [Number α]

/-- The cooling rates of the workers, evenly spaced from the upper bound to the lower. -/
def coolingRates (parallel : Config.Parallel α) : List α :=
  let { workers, coolingRateMax, coolingRateMin, .. } := parallel
  if workers ≤ 1 then List.replicate workers coolingRateMax
  else
    let gap := (coolingRateMax - coolingRateMin) / (workers - 1 : Nat)
    (List.range workers).map fun (worker : Nat) => coolingRateMax - (worker : α) * gap

/-- The first of the cheapest outcomes. -/
def cheapest? : List (Outcome α) → Option (Outcome α)
  | [] => none
  | first :: rest =>
      some (rest.foldl
        (fun best next => if Number.sortsBefore best.cost next.cost then best else next) first)

def summarize (norms : Terms α) (level : Nat) (winner : Outcome α) : LevelSummary α where
  level
  cost := winner.cost
  terms := winner.terms
  normalized := winner.terms.normalized norms

variable [SeededSource σ] [IndexSource σ] [FractionSource σ α]

def sample (σ : Type) [SeededSource σ] [IndexSource σ] [FractionSource σ α]
    (problem : Problem α) (config : Config α) (seed : UInt64) : Outcome α × Calibration α :=
  let source : σ := SeededSource.ofSeed seed
  let annealer := Annealer.new problem config config.parallel.coolingRateMax source
  let annealer := annealer.randomizeShapes.sample
  (annealer.outcome, annealer.calibration)

def anneal (σ : Type) [SeededSource σ] [IndexSource σ] [FractionSource σ α]
    (problem : Problem α) (config : Config α) (calibration : Calibration α)
    (start : Arrangement α) (coolingRate : α) (seed : UInt64) : Outcome α :=
  let source : σ := SeededSource.ofSeed seed
  let annealer := Annealer.new problem config coolingRate source
  ((annealer.calibrate calibration).setState start).run.2.outcome

def runLevel (σ : Type) [SeededSource σ] [IndexSource σ] [FractionSource σ α]
    (problem : Problem α) (config : Config α) (seeds : List UInt64)
    (calibration : Calibration α) (level : Nat) (start : Arrangement α) : List (Outcome α) :=
  (coolingRates config.parallel).zipIdx.map fun (coolingRate, worker) =>
    anneal σ problem config calibration start coolingRate
      (seeds.getD (seedIndex config level worker) 0)

structure Heat (α : Type) where
  temperature : α
  factor : α

/-- The heat of the level after one. The factor itself changes at the heat rate. -/
def Heat.next (heat : Heat α) (heatRate : α) : Heat α where
  temperature := heat.temperature * heat.factor
  factor := heat.factor * heatRate

def levelsFrom (σ : Type) [SeededSource σ] [IndexSource σ] [FractionSource σ α]
    (problem : Problem α) (config : Config α) (seeds : List UInt64) (norms : Terms α) :
    (left level : Nat) → Heat α → Outcome α →
      Except SearchError (Outcome α × List (LevelSummary α))
  | 0, _, _, best => .ok (best, [])
  | left + 1, level, heat, best => do
      let heat := heat.next config.parallel.heatRate
      let outcomes := runLevel σ problem config seeds ⟨norms, heat.temperature⟩ level
        best.arrangement
      match cheapest? outcomes with
      | none => .error (.noWinner level)
      | some winner =>
          let (last, summaries) ←
            levelsFrom σ problem config seeds norms left (level + 1) heat winner
          return (last, summarize norms level winner :: summaries)

def levels (σ : Type) [SeededSource σ] [IndexSource σ] [FractionSource σ α]
    (problem : Problem α) (config : Config α) (seeds : List UInt64) (start : Outcome α)
    (calibration : Calibration α) : Except SearchError (Outcome α × List (LevelSummary α)) :=
  levelsFrom σ problem config seeds calibration.norms config.parallel.levels 0
    ⟨calibration.temperature, 1⟩ start

end Search

end Floorplanner
