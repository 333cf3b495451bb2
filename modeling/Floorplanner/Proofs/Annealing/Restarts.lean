import Mathlib
import Floorplanner.Proofs.Annealing.HardBlocks

/-!
How long a run lasts.

A run is a loop over temperature steps that goes back to the first one when the last is made and the
best layout is still too large. It counts how often it did, and so comes to an end: what it makes are
whole schedules, each from the initial temperature, and one more than it restarted. Where no layout
that it can come to fits, it restarts as often as it may.
-/

namespace Floorplanner

structure Stage (α σ : Type) where
  step : Nat
  temperature : α
  restarts : Nat
  walk : Walk α σ

namespace Annealer

variable {α σ : Type} [Number α]

section Loop

variable (annealer : Annealer α σ)

def begun (restarts : Nat) (walk : Walk α σ) : Stage α σ :=
  ⟨1, annealer.calibration.temperature, restarts, walk⟩

/-- Whether a schedule is made again: it is over, its best layout is too large, and it still may. -/
def restartsAt (stage : Stage α σ) : Bool :=
  decide (annealer.config.annealing.steps < stage.step) &&
    !annealer.problem.fits stage.walk.best.layout.size && decide (stage.restarts < maxRestarts)

def restart (stage : Stage α σ) : Stage α σ :=
  if annealer.restartsAt stage then annealer.begun (stage.restarts + 1) stage.walk else stage

def cool (temperature : α) : α := temperature * annealer.coolingRate

variable [IndexSource σ] [FractionSource σ α]

def temperatureStep (stage : Stage α σ) : Stage α σ where
  step := stage.step + 1
  temperature := annealer.cool stage.temperature
  restarts := stage.restarts
  walk := annealer.iterations stage.step stage.temperature annealer.config.annealing.movesPerStep
    stage.walk

/-- One round of the loop; nothing after its end. -/
def advance (stage : Stage α σ) : Stage α σ :=
  if stage.step ≤ annealer.config.annealing.steps then
    annealer.restart (annealer.temperatureStep stage)
  else stage

def stageAt (count : Nat) : Stage α σ := annealer.advance^[count] (annealer.begun 0 annealer.start)

def stageLog (stage : Stage α σ) : List (Iteration α σ) :=
  annealer.stepLog stage.step stage.temperature annealer.config.annealing.movesPerStep stage.walk

def wholeSchedule (walk : Walk α σ) : Walk α σ :=
  annealer.schedule annealer.config.annealing.steps 1 annealer.calibration.temperature walk

/-- Where a schedule ends, before it is decided whether it is made again. -/
def ended (restarts : Nat) (walk : Walk α σ) : Stage α σ where
  step := 1 + annealer.config.annealing.steps
  temperature := annealer.cool^[annealer.config.annealing.steps] annealer.calibration.temperature
  restarts := restarts
  walk := annealer.wholeSchedule walk

end Loop

section Schedule

variable {annealer : Annealer α σ} {stage : Stage α σ} {restarts : Nat} {walk : Walk α σ}

theorem restart_of_running (running : stage.step ≤ annealer.config.annealing.steps) :
    annealer.restart stage = stage := by
  simp [restart, restartsAt, running.not_gt]

variable [IndexSource σ] [FractionSource σ α]

theorem restartsAt_ended :
    annealer.restartsAt (annealer.ended restarts walk) = true ↔
      restarts < maxRestarts ∧
        annealer.problem.fits (annealer.wholeSchedule walk).best.layout.size = false := by
  have past : annealer.config.annealing.steps < (annealer.ended restarts walk).step :=
    Nat.lt_add_of_pos_left Nat.one_pos
  rw [restartsAt, Bool.and_eq_true, Bool.and_eq_true, decide_eq_true_iff, decide_eq_true_iff,
    Bool.not_eq_true']
  exact ⟨fun ⟨⟨_, tooLarge⟩, may⟩ => ⟨may, tooLarge⟩, fun ⟨may, tooLarge⟩ => ⟨⟨past, tooLarge⟩, may⟩⟩

theorem iterate_temperatureStep (count : Nat) (stage : Stage α σ) :
    annealer.temperatureStep^[count] stage =
      ⟨stage.step + count, annealer.cool^[count] stage.temperature, stage.restarts,
        annealer.schedule count stage.step stage.temperature stage.walk⟩ := by
  induction count generalizing stage with
  | zero => rfl
  | succ count induction =>
      rw [Function.iterate_succ_apply, induction]
      simp only [temperatureStep, Nat.add_assoc, Nat.add_comm 1, Function.iterate_succ_apply]
      rfl

theorem advance_of_inside (inside : stage.step < annealer.config.annealing.steps) :
    annealer.advance stage = annealer.temperatureStep stage := by
  rw [advance, if_pos inside.le]
  exact restart_of_running inside

/-- Within a schedule the loop only makes temperature steps. -/
theorem iterate_advance (count : Nat)
    (inside : stage.step + count ≤ annealer.config.annealing.steps) :
    annealer.advance^[count] stage = annealer.temperatureStep^[count] stage := by
  induction count generalizing stage with
  | zero => rfl
  | succ count induction =>
      have next : (annealer.temperatureStep stage).step + count ≤ annealer.config.annealing.steps :=
        show stage.step + 1 + count ≤ _ by omega
      rw [Function.iterate_succ_apply, advance_of_inside (by omega), induction next,
        Function.iterate_succ_apply]

theorem iterate_advance_whole (positive : 1 ≤ annealer.config.annealing.steps) :
    annealer.advance^[annealer.config.annealing.steps] (annealer.begun restarts walk) =
      annealer.restart (annealer.ended restarts walk) := by
  obtain ⟨last, steps⟩ := Nat.exists_eq_add_of_le' positive
  have begun : annealer.advance^[last] (annealer.begun restarts walk) =
      annealer.temperatureStep^[last] (annealer.begun restarts walk) :=
    iterate_advance last (show 1 + last ≤ _ by omega)
  have running : (annealer.temperatureStep^[last] (annealer.begun restarts walk)).step ≤
      annealer.config.annealing.steps := by
    rw [iterate_temperatureStep]
    exact (show 1 + last ≤ _ by omega)
  calc
    annealer.advance^[annealer.config.annealing.steps] (annealer.begun restarts walk)
      = annealer.advance (annealer.temperatureStep^[last] (annealer.begun restarts walk)) := by
        rw [steps, Function.iterate_succ_apply', begun]
    _ = annealer.restart (annealer.temperatureStep^[last + 1] (annealer.begun restarts walk)) := by
        rw [advance, if_pos running, Function.iterate_succ_apply']
    _ = annealer.restart (annealer.ended restarts walk) := by
        rw [← steps, iterate_temperatureStep]
        rfl

theorem scheduleLog_eq (count : Nat) (stage : Stage α σ) :
    annealer.scheduleLog count stage.step stage.temperature stage.walk =
      (List.range count).flatMap fun index =>
        annealer.stageLog (annealer.temperatureStep^[index] stage) := by
  induction count generalizing stage with
  | zero => rfl
  | succ count induction =>
      rw [List.range_succ_eq_map, List.flatMap_cons, List.flatMap_map, scheduleLog]
      exact congrArg _ (induction (annealer.temperatureStep stage))

/-- A run makes one schedule more than the number of restarts, and stops short only if one fits. -/
theorem schedules_eq (left : Nat) (walk : Walk α σ) :
    ∃ restarts ≤ left,
      annealer.schedules left walk =
          ((restarts + 1) * annealer.config.annealing.steps,
            annealer.wholeSchedule^[restarts + 1] walk) ∧
        annealer.schedulesLog left walk = ((List.range (restarts + 1)).flatMap fun index =>
          annealer.scheduleLog annealer.config.annealing.steps 1 annealer.calibration.temperature
            (annealer.wholeSchedule^[index] walk)) ∧
        (∀ index < restarts, annealer.problem.fits
          (annealer.wholeSchedule^[index + 1] walk).best.layout.size = false) ∧
        (restarts < left → annealer.problem.fits
          (annealer.wholeSchedule^[restarts + 1] walk).best.layout.size = true) := by
  induction left generalizing walk with
  | zero =>
      refine ⟨0, le_rfl, ?_, ?_, nofun, nofun⟩
      · rw [schedules]
        simp [wholeSchedule]
      · rw [schedulesLog]
        simp
  | succ left induction =>
      rw [schedules, schedulesLog]
      dsimp only
      split
      next fits => exact ⟨0, Nat.zero_le _, by simp [wholeSchedule], by simp, nofun, fun _ => fits⟩
      next tooLarge =>
        obtain ⟨restarts, within, schedules, log, before, stops⟩ :=
          induction (annealer.wholeSchedule walk)
        refine ⟨restarts + 1, Nat.succ_le_succ within, ?_, ?_, ?_, ?_⟩
        · rw [← wholeSchedule, schedules, ← Function.iterate_succ_apply, Nat.succ_mul (restarts + 1),
            Nat.add_comm (annealer.config.annealing.steps)]
        · rw [List.range_succ_eq_map, List.flatMap_cons, List.flatMap_map, ← wholeSchedule, log]
          rfl
        · rintro (_ | index) less
          · exact Bool.eq_false_iff.mpr tooLarge
          · exact before index (Nat.lt_of_succ_lt_succ less)
        · exact fun less => stops (Nat.lt_of_succ_lt_succ less)

end Schedule

section Stages

variable [IndexSource σ] [FractionSource σ α]

/--
A run that restarts a number of times, as the stages of its loop show it. All its iterations are
those of the stages, each of which has its place in one of the schedules.
-/
structure RestartsTimes (annealer : Annealer α σ) (restarts : Nat) : Prop where
  within : restarts ≤ maxRestarts
  count : annealer.run.1 = (1 + restarts) * annealer.config.annealing.steps
  running : ∀ count,
    (annealer.stageAt count).step ≤ annealer.config.annealing.steps ↔ count < annealer.run.1
  position : ∀ count < annealer.run.1,
    (annealer.stageAt count).step = count % annealer.config.annealing.steps + 1 ∧
      (annealer.stageAt count).restarts = count / annealer.config.annealing.steps ∧
      (annealer.stageAt count).temperature =
        annealer.cool^[count % annealer.config.annealing.steps] annealer.calibration.temperature
  decides : ∀ schedule ≤ restarts, schedule < restarts ↔
    schedule < maxRestarts ∧ annealer.problem.fits (annealer.stageAt
      ((schedule + 1) * annealer.config.annealing.steps)).walk.best.layout.size = false
  final : (annealer.stageAt annealer.run.1).restarts = restarts ∧
    (annealer.stageAt annealer.run.1).walk = annealer.finish
  log : annealer.log = (List.range annealer.run.1).flatMap fun count =>
    annealer.stageLog (annealer.stageAt count)

variable {annealer : Annealer α σ} {restarts : Nat}

theorem stageAt_add (count more : Nat) :
    annealer.stageAt (count + more) = annealer.advance^[more] (annealer.stageAt count) := by
  rw [stageAt, stageAt, Nat.add_comm, Function.iterate_add_apply]

variable (positive : 1 ≤ annealer.config.annealing.steps) (within : restarts ≤ maxRestarts)
  (tooLarge : ∀ index < restarts, annealer.problem.fits
    (annealer.wholeSchedule^[index + 1] annealer.start).best.layout.size = false)
include positive within tooLarge

/-- After each schedule whose best layout is too large another begins. -/
theorem stageAt_begun {index : Nat} (made : index ≤ restarts) :
    annealer.stageAt (index * annealer.config.annealing.steps) =
      annealer.begun index (annealer.wholeSchedule^[index] annealer.start) := by
  induction index with
  | zero => rw [Nat.zero_mul]; rfl
  | succ index induction =>
      have again : annealer.restartsAt (annealer.ended index
          (annealer.wholeSchedule^[index] annealer.start)) = true := by
        rw [restartsAt_ended, ← Function.iterate_succ_apply' annealer.wholeSchedule]
        exact ⟨made.trans within, tooLarge index made⟩
      rw [Nat.succ_mul, stageAt_add, induction (Nat.le_of_succ_le made),
        iterate_advance_whole positive, restart, if_pos again, ended, Function.iterate_succ_apply']

theorem stageAt_inside {index count : Nat} (made : index ≤ restarts)
    (inside : count < annealer.config.annealing.steps) :
    annealer.stageAt (index * annealer.config.annealing.steps + count) =
      annealer.temperatureStep^[count]
        (annealer.begun index (annealer.wholeSchedule^[index] annealer.start)) := by
  rw [stageAt_add, stageAt_begun positive within tooLarge made]
  exact iterate_advance count (show 1 + count ≤ _ by omega)

theorem stageAt_ended {index : Nat} (made : index ≤ restarts) :
    (annealer.stageAt ((index + 1) * annealer.config.annealing.steps)).walk =
      annealer.wholeSchedule^[index + 1] annealer.start := by
  rw [Nat.succ_mul, stageAt_add, stageAt_begun positive within tooLarge made,
    iterate_advance_whole positive, restart, Function.iterate_succ_apply']
  split
  · rfl
  · rfl

theorem position_inside {count : Nat}
    (less : count < (1 + restarts) * annealer.config.annealing.steps) :
    annealer.stageAt count =
      annealer.temperatureStep^[count % annealer.config.annealing.steps]
        (annealer.begun (count / annealer.config.annealing.steps)
          (annealer.wholeSchedule^[count / annealer.config.annealing.steps] annealer.start)) := by
  have made : count / annealer.config.annealing.steps ≤ restarts := by
    rw [← Nat.lt_succ_iff, Nat.div_lt_iff_lt_mul positive, Nat.succ_eq_one_add]
    exact less
  have inside := stageAt_inside positive within tooLarge made
    (Nat.mod_lt count positive)
  rwa [Nat.div_add_mod'] at inside

theorem flatMap_stageLog {index : Nat} (made : index ≤ restarts) :
    (annealer.scheduleLog annealer.config.annealing.steps 1 annealer.calibration.temperature
        (annealer.wholeSchedule^[index] annealer.start)) =
      (List.range annealer.config.annealing.steps).flatMap fun count => annealer.stageLog
        (annealer.stageAt (index * annealer.config.annealing.steps + count)) := by
  refine (scheduleLog_eq _ (annealer.begun index _)).trans ?_
  apply List.flatMap_congr
  intro count member
  rw [stageAt_inside positive within tooLarge made (List.mem_range.mp member)]

variable (stops : restarts < maxRestarts → annealer.problem.fits
    (annealer.wholeSchedule^[restarts + 1] annealer.start).best.layout.size = true)
include stops

theorem stageAt_past (more : Nat) :
    annealer.stageAt ((1 + restarts) * annealer.config.annealing.steps + more) =
      annealer.ended restarts (annealer.wholeSchedule^[restarts] annealer.start) := by
  have last : annealer.restartsAt (annealer.ended restarts
      (annealer.wholeSchedule^[restarts] annealer.start)) = false := by
    rw [Bool.eq_false_iff, Ne, restartsAt_ended, ← Function.iterate_succ_apply' annealer.wholeSchedule]
    rintro ⟨may, large⟩
    exact Bool.false_ne_true (large.symm.trans (stops may))
  induction more with
  | zero =>
      rw [Nat.add_zero, Nat.add_comm, Nat.succ_mul, stageAt_add,
        stageAt_begun positive within tooLarge le_rfl, iterate_advance_whole positive, restart, last]
      rfl
  | succ more induction =>
      rw [← Nat.add_assoc, stageAt_add, induction]
      exact if_neg (Nat.lt_add_of_pos_left Nat.one_pos).not_ge

end Stages

theorem flatMap_range_mul {β : Type} (count size : Nat) (f : Nat → List β) :
    (List.range (count * size)).flatMap f =
      (List.range count).flatMap fun index =>
        (List.range size).flatMap fun offset => f (index * size + offset) := by
  induction count with
  | zero => simp
  | succ count induction =>
      rw [Nat.succ_mul, List.range_add, List.flatMap_append, induction, List.range_succ,
        List.flatMap_append, List.flatMap_map, List.flatMap_singleton]

section Run

variable [IndexSource σ] [FractionSource σ α] {annealer : Annealer α σ}

theorem exists_restartsTimes (positive : 1 ≤ annealer.config.annealing.steps) :
    ∃ restarts, annealer.RestartsTimes restarts ∧ (restarts < maxRestarts →
      annealer.problem.fits annealer.finish.best.layout.size = true) := by
  obtain ⟨restarts, within, schedules, log, tooLarge, stops⟩ :=
    annealer.schedules_eq maxRestarts annealer.start
  have count : annealer.run.1 = (1 + restarts) * annealer.config.annealing.steps := by
    rw [Nat.add_comm]
    exact congrArg Prod.fst schedules
  have finish : annealer.finish = annealer.wholeSchedule^[restarts + 1] annealer.start :=
    congrArg Prod.snd schedules
  have inside {count : Nat} (less : count < (1 + restarts) * annealer.config.annealing.steps) :=
    position_inside positive within tooLarge less
  have past := stageAt_past positive within tooLarge stops
  have ended := past 0
  refine ⟨restarts, ?_, fun may => finish ▸ stops may⟩
  constructor
  case within => exact within
  case count => exact count
  case running =>
    intro made
    rw [count]
    constructor
    · intro running
      by_contra notLess
      obtain ⟨more, rfl⟩ := Nat.exists_eq_add_of_le (Nat.not_lt.mp notLess)
      rw [past more] at running
      exact (Nat.lt_add_of_pos_left Nat.one_pos).not_ge running
    · intro less
      rw [inside less, iterate_temperatureStep]
      exact Nat.one_add_le_iff.mpr (Nat.mod_lt made positive)
  case position =>
    intro made less
    rw [inside (count ▸ less), iterate_temperatureStep]
    exact ⟨Nat.add_comm 1 _, rfl, rfl⟩
  case decides =>
    intro schedule made
    rw [stageAt_ended positive within tooLarge made]
    constructor
    · exact fun less => ⟨less.trans_le within, tooLarge schedule less⟩
    · rintro ⟨may, large⟩
      rcases made.lt_or_eq with less | rfl
      · exact less
      · exact absurd (stops may) (Bool.eq_false_iff.mp large)
  case final =>
    rw [count, ← Nat.add_zero ((1 + restarts) * _), ended, finish, Function.iterate_succ_apply']
    exact ⟨rfl, rfl⟩
  case log =>
    rw [Annealer.log, log, count, Nat.add_comm 1, flatMap_range_mul]
    apply List.flatMap_congr
    intro index member
    exact flatMap_stageLog positive within tooLarge (Nat.lt_succ_iff.mp (List.mem_range.mp member))

/-- The layouts that an annealer can come to by moves and shrinks, whatever is drawn. -/
inductive MayReach (annealer : Annealer α σ) : Layout α → Prop where
  | here : MayReach annealer annealer.layout
  | move {layout : Layout α} (reached : MayReach annealer layout) (source : σ) :
      MayReach annealer (annealer.propose layout source).1.2
  | shrink {layout : Layout α} (reached : MayReach annealer layout) :
      MayReach annealer (annealer.shrinkSoft layout)

theorem Iterates.mayReach {step : Nat} {temperature : α} {walk next : Walk α σ}
    (iterates : annealer.Iterates step temperature walk next)
    (reached : annealer.MayReach walk.current.layout ∧ annealer.MayReach walk.best.layout) :
    annealer.MayReach next.current.layout ∧ annealer.MayReach next.best.layout := by
  have candidate : annealer.MayReach (annealer.candidate walk).layout := reached.1.move walk.source
  cases iterates with
  | reject => exact reached
  | accept => exact ⟨candidate, reached.2⟩
  | improve => exact ⟨candidate, candidate⟩
  | shrink => exact ⟨candidate.shrink, candidate.shrink⟩

theorem IsCoherent.mayReach_best (coherent : annealer.IsCoherent) :
    annealer.MayReach annealer.finish.best.layout :=
  (coherent.invariant ⟨.here, .here⟩ fun iterates => iterates.mayReach).2.2

/--
A run of an annealer makes all temperature steps of its first schedule and of each restart. After
the last step of a schedule it restarts just when the best layout is too large and a restart is left,
and each schedule goes from the first step and the initial temperature. Where no layout that moves
and shrinks lead to fits, it restarts as often as it may.
-/
theorem run_makes_whole_schedules (problem : Problem α) (config : Config α) (coolingRate : α)
    (source : σ) (operations : List (Operation α)) (positive : 1 ≤ config.annealing.steps) :
    let annealer := reached problem config coolingRate source operations
    ∃ restarts, annealer.RestartsTimes restarts ∧
      ((∀ layout, annealer.MayReach layout → problem.fits layout.size = false) →
        restarts = maxRestarts) := by
  intro annealer
  have unchanged := unchanged_performAll (new problem config coolingRate source) operations
  have sameProblem : annealer.problem = problem := unchanged.1
  have sameConfig : annealer.config = config := unchanged.2
  have coherent : annealer.IsCoherent := isCoherent_reached _ _ _ _ _
  rw [← sameConfig] at positive
  obtain ⟨restarts, times, stops⟩ := exists_restartsTimes positive
  refine ⟨restarts, times, fun none => ?_⟩
  by_contra fewer
  have fits := stops (times.within.lt_of_ne fewer)
  have large := none annealer.finish.best.layout coherent.mayReach_best
  rw [← sameProblem] at large
  exact Bool.false_ne_true (large.symm.trans fits)

end Run

noncomputable section TooLarge

namespace TooLarge

def problem (side : ℝ) : Problem ℝ :=
  { Problem.ofOutline ⟨1, 1⟩ with blocks := [.hard "rom" (side * side) 1 [⟨side, side⟩]] }

def annealer (side : ℝ) : Annealer ℝ WordScript :=
  reached (problem side) .default 1 WordScript.exhausted []

theorem eq_layout_of_mayReach {side : ℝ} {layout : Layout ℝ}
    (reached : (annealer side).MayReach layout) : layout = (annealer side).layout := by
  have coherent : (annealer side).IsCoherent := isCoherent_reached _ _ _ _ _
  induction reached with
  | here => rfl
  | move _ source same =>
      rw [same]
      exact coherent.ofArrangement_eq
  | shrink _ same =>
      rw [same]
      exact coherent.ofArrangement_eq

open Packing in
theorem size_layout {side : ℝ} (positive : 0 < side) :
    (annealer side).layout.size = ⟨side, side⟩ := by
  have rank : rank [⟨0⟩] ⟨0⟩ = 0 := by decide
  have index : (⟨0⟩ : BlockRef).index = 0 := by decide
  change (pack (problem side).blocks ⟨[⟨0⟩], [⟨0⟩]⟩).2 = _
  simp [problem, Block.hard, pack, Sweep.run, Sweep.place, raiseFrom, raise, Sweep.reach, rank, index,
    positive]

end TooLarge

/-- A block that is larger than the outline makes a run of 300 steps restart twice. -/
theorem run_makes_whole_schedules_too_large :
    (TooLarge.annealer 2).RestartsTimes 2 ∧ (TooLarge.annealer 2).run.1 = 900 := by
  obtain ⟨restarts, times, most⟩ :=
    run_makes_whole_schedules (TooLarge.problem 2) .default 1 WordScript.exhausted [] (by decide)
  have two : restarts = 2 := by
    apply most
    intro layout reached
    rw [TooLarge.eq_layout_of_mayReach reached, TooLarge.size_layout two_pos]
    norm_num [Problem.fits, TooLarge.problem, Problem.ofOutline, Number.ratio]
  rw [two] at times
  exact ⟨times, times.count⟩

end TooLarge

end Annealer

end Floorplanner
