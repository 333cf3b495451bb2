import Floorplanner.Annealing.Run

/-!
The iterations of a run.

A run is a chain of iterations, each of which starts where the one before it led to. With the list
of them, what a run does becomes a statement about its iterations, and what holds at the start of a
run and is kept by one iteration holds throughout.
-/

namespace Floorplanner

structure Iteration (α σ : Type) where
  step : Nat
  temperature : α
  walk : Walk α σ

namespace Annealer

variable {α σ : Type} [Number α]

def start (annealer : Annealer α σ) : Walk α σ :=
  let start : Snapshot α := ⟨annealer.layout, annealer.cost⟩
  ⟨start, start, 0, annealer.source⟩

variable [IndexSource σ] [FractionSource σ α]

def after (annealer : Annealer α σ) (iteration : Iteration α σ) : Walk α σ :=
  annealer.iterate iteration.step iteration.temperature iteration.walk

/-- The iterations of one temperature step; schedules and runs list them in the same order. -/
def stepLog (annealer : Annealer α σ) (step : Nat) (temperature : α) :
    Nat → Walk α σ → List (Iteration α σ)
  | 0, _ => []
  | count + 1, walk =>
      ⟨step, temperature, walk⟩ ::
        annealer.stepLog step temperature count (annealer.iterate step temperature walk)

def scheduleLog (annealer : Annealer α σ) :
    (left step : Nat) → α → Walk α σ → List (Iteration α σ)
  | 0, _, _, _ => []
  | left + 1, step, temperature, walk =>
      let count := annealer.config.annealing.movesPerStep
      annealer.stepLog step temperature count walk ++
        annealer.scheduleLog left (step + 1) (temperature * annealer.coolingRate)
          (annealer.iterations step temperature count walk)

def schedulesLog (annealer : Annealer α σ) : (restarts : Nat) → Walk α σ → List (Iteration α σ)
  | restarts, walk =>
      let steps := annealer.config.annealing.steps
      let temperature := annealer.calibration.temperature
      let log := annealer.scheduleLog steps 1 temperature walk
      let walk := annealer.schedule steps 1 temperature walk
      if annealer.problem.fits walk.best.layout.size then log
      else
        match restarts with
        | 0 => log
        | restarts + 1 => log ++ annealer.schedulesLog restarts walk

def log (annealer : Annealer α σ) : List (Iteration α σ) :=
  annealer.schedulesLog maxRestarts annealer.start

def finish (annealer : Annealer α σ) : Walk α σ :=
  (annealer.schedules maxRestarts annealer.start).2

theorem layout_run (annealer : Annealer α σ) :
    annealer.run.2.layout =
      (if annealer.finish.best.cost < annealer.finish.current.cost then annealer.finish.best
        else annealer.finish.current).layout := rfl

/-- A run leaves the best layout of its walk or the one where the walk ends. -/
theorem holds_layout_run (annealer : Annealer α σ) (holds : Layout α → Prop)
    (best : holds annealer.finish.best.layout) (current : holds annealer.finish.current.layout) :
    holds annealer.run.2.layout := by
  rw [layout_run]
  split
  · exact best
  · exact current

/-- Iterations that lead from one walk to another, each starting where the one before led to. -/
inductive Chain (annealer : Annealer α σ) : Walk α σ → List (Iteration α σ) → Walk α σ → Prop where
  | nil (walk : Walk α σ) : Chain annealer walk [] walk
  | cons (iteration : Iteration α σ) {rest : List (Iteration α σ)} {last : Walk α σ}
      (chain : Chain annealer (annealer.after iteration) rest last) :
      Chain annealer iteration.walk (iteration :: rest) last

variable {annealer : Annealer α σ}

namespace Chain

variable {first middle last : Walk α σ} {log rest : List (Iteration α σ)}

theorem append (chain : Chain annealer first log middle) (next : Chain annealer middle rest last) :
    Chain annealer first (log ++ rest) last := by
  induction chain with
  | nil walk => exact next
  | cons iteration chain induction => exact .cons iteration (induction next)

/-- What the first walk satisfies and every iteration keeps, all walks of a chain satisfy. -/
theorem invariant {holds : Walk α σ → Prop} (chain : Chain annealer first log last)
    (initial : holds first)
    (keeps : ∀ iteration, holds iteration.walk → holds (annealer.after iteration)) :
    (∀ iteration ∈ log, holds iteration.walk) ∧ holds last := by
  induction chain with
  | nil walk => exact ⟨nofun, initial⟩
  | cons iteration chain induction =>
      obtain ⟨later, final⟩ := induction (keeps iteration initial)
      refine ⟨?_, final⟩
      intro other member
      rcases List.mem_cons.mp member with rfl | member
      · exact initial
      · exact later other member

end Chain

variable (annealer)

theorem chain_step (step : Nat) (temperature : α) (count : Nat) (walk : Walk α σ) :
    annealer.Chain walk (annealer.stepLog step temperature count walk)
      (annealer.iterations step temperature count walk) := by
  induction count generalizing walk with
  | zero => exact .nil walk
  | succ count induction => exact .cons ⟨step, temperature, walk⟩ (induction _)

theorem chain_schedule (left step : Nat) (temperature : α) (walk : Walk α σ) :
    annealer.Chain walk (annealer.scheduleLog left step temperature walk)
      (annealer.schedule left step temperature walk) := by
  induction left generalizing step temperature walk with
  | zero => exact .nil walk
  | succ left induction =>
      exact (annealer.chain_step step temperature _ walk).append (induction _ _ _)

theorem chain_schedules (restarts : Nat) (walk : Walk α σ) :
    annealer.Chain walk (annealer.schedulesLog restarts walk)
      (annealer.schedules restarts walk).2 := by
  induction restarts generalizing walk with
  | zero =>
      rw [schedulesLog, schedules]
      simp only [ite_self]
      exact annealer.chain_schedule _ _ _ walk
  | succ restarts induction =>
      rw [schedulesLog, schedules]
      dsimp only
      split
      · exact annealer.chain_schedule _ _ _ walk
      · exact (annealer.chain_schedule _ _ _ walk).append (induction _)

/-- The log of a run is the chain of iterations that the run makes. -/
theorem chain_log : annealer.Chain annealer.start annealer.log annealer.finish :=
  annealer.chain_schedules maxRestarts annealer.start

@[simp] theorem length_stepLog (step : Nat) (temperature : α) (count : Nat) (walk : Walk α σ) :
    (annealer.stepLog step temperature count walk).length = count := by
  induction count generalizing walk with
  | zero => rfl
  | succ count induction => rw [stepLog, List.length_cons, induction]

@[simp] theorem length_scheduleLog (left step : Nat) (temperature : α) (walk : Walk α σ) :
    (annealer.scheduleLog left step temperature walk).length =
      left * annealer.config.annealing.movesPerStep := by
  induction left generalizing step temperature walk with
  | zero => simp [scheduleLog]
  | succ left induction =>
      rw [scheduleLog, List.length_append, length_stepLog, induction, Nat.succ_mul, Nat.add_comm]

theorem length_schedulesLog (restarts : Nat) (walk : Walk α σ) :
    (annealer.schedulesLog restarts walk).length =
      (annealer.schedules restarts walk).1 * annealer.config.annealing.movesPerStep := by
  induction restarts generalizing walk with
  | zero =>
      rw [schedulesLog, schedules]
      simp
  | succ restarts induction =>
      rw [schedulesLog, schedules]
      dsimp only
      split
      · exact annealer.length_scheduleLog _ _ _ walk
      · rw [List.length_append, length_scheduleLog, induction, ← Nat.add_mul]

theorem length_log :
    annealer.log.length = annealer.run.1 * annealer.config.annealing.movesPerStep :=
  annealer.length_schedulesLog maxRestarts annealer.start

end Annealer

end Floorplanner
