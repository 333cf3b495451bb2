import Floorplanner.Annealing

/-!
One annealing run.

The walk accepts or takes back one move at a time, with uphill moves accepted by chance, and keeps
the best layout that it met. While that layout is too large, now and then an improvement makes all
soft blocks shrink, and a schedule that ends without a layout that fits is started over.
-/

namespace Floorplanner

structure Snapshot (α : Type) where
  layout : Layout α
  cost : α

structure Walk (α σ : Type) where
  current : Snapshot α
  best : Snapshot α
  shrinks : Nat
  source : σ

variable {α σ : Type} [Number α]

/-- Takes a move back. Size and terms are those from before it; the places follow from packing. -/
def Walk.reject (walk : Walk α σ) (move : Move α) (candidate : Layout α) : Walk α σ :=
  let { blocks, pair } := move.undo candidate.arrangement
  let layout : Layout α :=
    { walk.current.layout with arrangement := ⟨(pack blocks pair).1, pair⟩ }
  { walk with current := { walk.current with layout } }

namespace Annealer

def maxRestarts : Nat := 2

/-- The shrinks already made must not exceed this for another. -/
def shrinkLimit (shrinking : Config.Shrinking α) : Nat :=
  Number.wholePart (1 / shrinking.frequency)

def shrinkInterval (config : Config α) : Nat :=
  max (Number.wholePart ((config.annealing.steps : α) * config.shrinking.frequency)) 1

def shrinkSoft (annealer : Annealer α σ) (layout : Layout α) : Layout α :=
  let { blocks, pair } := layout.arrangement
  annealer.settle ⟨blocks.map (·.shrink annealer.config.shrinking.factor), pair⟩

def shrinksAt (annealer : Annealer α σ) (step shrinks : Nat) (layout : Layout α) : Bool :=
  decide (shrinks ≤ shrinkLimit annealer.config.shrinking) &&
    step % shrinkInterval annealer.config == 0 && !annealer.problem.fits layout.size

/-- Goes on from a layout. If it is better than the best, it becomes the best, perhaps shrunk. -/
def accept (annealer : Annealer α σ) (step : Nat) (next : Snapshot α) (walk : Walk α σ) :
    Walk α σ :=
  if next.cost < walk.best.cost then
    if annealer.shrinksAt step walk.shrinks next.layout then
      let layout := annealer.shrinkSoft next.layout
      let shrunk : Snapshot α := ⟨layout, annealer.costOf layout⟩
      { walk with current := shrunk, best := shrunk, shrinks := walk.shrinks + 1 }
    else { walk with current := next, best := next }
  else { walk with current := next }

variable [IndexSource σ] [FractionSource σ α]

/--
Whether a change of cost is accepted: always if it is a gain, and otherwise with a probability that
falls with its size and rises with the temperature. Only then is a draw made.
-/
def accepts (delta temperature : α) (source : σ) : Bool × σ :=
  if delta < 0 then (true, source)
  else
    let probability := if 0 < delta then Number.exp (-delta / temperature) else 1
    let (draw, source) := FractionSource.fraction source
    (decide (draw < probability), source)

def iterate (annealer : Annealer α σ) (step : Nat) (temperature : α) (walk : Walk α σ) :
    Walk α σ :=
  let ((move, candidate), source) := annealer.propose walk.current.layout walk.source
  let cost := annealer.costOf candidate
  let (accepted, source) := accepts (cost - walk.current.cost) temperature source
  let walk := { walk with source }
  if accepted then annealer.accept step ⟨candidate, cost⟩ walk
  else walk.reject move candidate

def iterations (annealer : Annealer α σ) (step : Nat) (temperature : α) :
    Nat → Walk α σ → Walk α σ
  | 0, walk => walk
  | count + 1, walk =>
      annealer.iterations step temperature count (annealer.iterate step temperature walk)

def schedule (annealer : Annealer α σ) : (left step : Nat) → α → Walk α σ → Walk α σ
  | 0, _, _, walk => walk
  | left + 1, step, temperature, walk =>
      annealer.schedule left (step + 1) (temperature * annealer.coolingRate)
        (annealer.iterations step temperature annealer.config.annealing.movesPerStep walk)

/--
Runs whole schedules from the initial temperature, until the best layout fits or no restart is left.
The count is that of the temperature steps.
-/
def schedules (annealer : Annealer α σ) : (restarts : Nat) → Walk α σ → Nat × Walk α σ
  | restarts, walk =>
      let steps := annealer.config.annealing.steps
      let walk := annealer.schedule steps 1 annealer.calibration.temperature walk
      if annealer.problem.fits walk.best.layout.size then (steps, walk)
      else
        match restarts with
        | 0 => (steps, walk)
        | restarts + 1 =>
            let (count, walk) := annealer.schedules restarts walk
            (steps + count, walk)

def run (annealer : Annealer α σ) : Nat × Annealer α σ :=
  let start : Snapshot α := ⟨annealer.layout, annealer.cost⟩
  let (steps, walk) := annealer.schedules maxRestarts ⟨start, start, 0, annealer.source⟩
  let final := if walk.best.cost < walk.current.cost then walk.best else walk.current
  (steps, { annealer with layout := final.layout, source := walk.source })

end Annealer

end Floorplanner
