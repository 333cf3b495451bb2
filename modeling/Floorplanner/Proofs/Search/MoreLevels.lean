import Mathlib
import Floorplanner.Proofs.Search.Levels
import Floorplanner.Proofs.Search.Success

/-!
A level does not depend on how many come after it.

More levels take more seeds, but they take them behind those that were drawn before, and neither the
sampler nor a worker reads how many levels there are. So a search of more levels begins with the
levels of a search of fewer.
-/

namespace Floorplanner

variable {α σ : Type}

def Config.withLevels (config : Config α) (levels : Nat) : Config α :=
  { config with parallel := { config.parallel with levels } }

namespace Annealer

def withLevels (annealer : Annealer α σ) (levels : Nat) : Annealer α σ :=
  { annealer with config := annealer.config.withLevels levels }

variable [Number α] [IndexSource σ] [FractionSource σ α] (annealer : Annealer α σ) (levels : Nat)

theorem wander_withLevels (count : Nat) (layout : Layout α) (source : σ) :
    (annealer.withLevels levels).wander count layout source =
      annealer.wander count layout source := by
  induction count generalizing layout source with
  | zero => rfl
  | succ count induction =>
      rw [wander, wander]
      simp only [induction]
      rfl

theorem iterations_withLevels (step : Nat) (temperature : α) (count : Nat) (walk : Walk α σ) :
    (annealer.withLevels levels).iterations step temperature count walk =
      annealer.iterations step temperature count walk := by
  induction count generalizing walk with
  | zero => rfl
  | succ count induction =>
      rw [iterations, iterations, induction]
      rfl

theorem schedule_withLevels (left step : Nat) (temperature : α) (walk : Walk α σ) :
    (annealer.withLevels levels).schedule left step temperature walk =
      annealer.schedule left step temperature walk := by
  induction left generalizing step temperature walk with
  | zero => rfl
  | succ left induction =>
      rw [schedule, schedule, induction, iterations_withLevels]
      rfl

theorem schedules_withLevels (restarts : Nat) (walk : Walk α σ) :
    (annealer.withLevels levels).schedules restarts walk = annealer.schedules restarts walk := by
  induction restarts generalizing walk with
  | zero =>
      rw [schedules, schedules, schedule_withLevels]
      rfl
  | succ restarts induction =>
      rw [schedules, schedules, schedule_withLevels]
      simp only [induction]
      rfl

theorem sample_withLevels :
    (annealer.withLevels levels).sample = annealer.sample.withLevels levels := by
  rw [sample, wander_withLevels]
  rfl

theorem run_withLevels :
    (annealer.withLevels levels).run = (annealer.run.1, annealer.run.2.withLevels levels) := by
  rw [run, schedules_withLevels]
  rfl

end Annealer

namespace Search

theorem drawSeeds_eq_take [SeededSource σ] {few many : Nat} (bound : few ≤ many) (source : σ) :
    drawSeeds few source = (drawSeeds many source).take few := by
  induction few generalizing many source with
  | zero => rfl
  | succ few induction =>
      obtain ⟨many, rfl⟩ := Nat.exists_eq_succ_of_ne_zero (Nat.ne_zero_of_lt bound)
      have rest := induction (Nat.le_of_succ_le_succ bound) (SeededSource.seed source).2
      exact congrArg ((SeededSource.seed source).1 :: ·) rest

theorem hasRoom_withLevels {config : Config α} {shorter longer : Nat} (bound : shorter ≤ longer)
    (room : HasRoom (config.withLevels longer)) : HasRoom (config.withLevels shorter) := by
  apply room.of_length_le
  intro list
  cases list with
  | seeds => exact Nat.add_le_add_right (Nat.mul_le_mul_right _ bound) (1 + spareSeeds)
  | samples => exact Nat.le_refl _
  | coolingRates => exact Nat.le_refl _
  | summaries => exact bound
  | outcomes =>
      by_cases none : shorter = 0
      · simp [Reservation.length, Config.withLevels, none]
      · have some : longer ≠ 0 := by omega
        simp [Reservation.length, Config.withLevels, none, some]

section Seeds

variable [SeededSource σ] (config : Config α) {shorter longer : Nat} (bound : shorter ≤ longer)
include bound

theorem seeds_withLevels_eq_take :
    seeds σ (config.withLevels shorter) =
      (seeds σ (config.withLevels longer)).take (shorter * config.parallel.workers + 11) := by
  apply drawSeeds_eq_take
  exact Nat.add_le_add_right (Nat.mul_le_mul_right _ bound) 11

theorem getD_seeds_withLevels {index : Nat}
    (read : index < (seeds σ (config.withLevels shorter)).length) :
    (seeds σ (config.withLevels shorter)).getD index 0 =
      (seeds σ (config.withLevels longer)).getD index 0 := by
  have taken : index < shorter * config.parallel.workers + 11 := read.trans_eq (length_seeds σ _)
  rw [seeds_withLevels_eq_take config bound, List.getD_eq_getElem?_getD,
    List.getElem?_take_of_lt taken, ← List.getD_eq_getElem?_getD]

end Seeds

variable [Number α] [SeededSource σ] [IndexSource σ] [FractionSource σ α]
  (problem : Problem α) (config : Config α)

theorem sample_withLevels (levels : Nat) (seed : UInt64) :
    sample σ problem (config.withLevels levels) seed = sample σ problem config seed := by
  let annealer := Annealer.new problem config config.parallel.coolingRateMax
    (SeededSource.ofSeed seed : σ)
  have sampled : (annealer.randomizeShapes.withLevels levels).sample =
    annealer.randomizeShapes.sample.withLevels levels := Annealer.sample_withLevels _ _
  exact congrArg (fun annealer => (annealer.outcome, annealer.calibration)) sampled

theorem anneal_withLevels (levels : Nat) (calibration : Calibration α) (start : Arrangement α)
    (coolingRate : α) (seed : UInt64) :
    anneal σ problem (config.withLevels levels) calibration start coolingRate seed =
      anneal σ problem config calibration start coolingRate seed := by
  let annealer := ((Annealer.new problem config coolingRate
    (SeededSource.ofSeed seed : σ)).calibrate calibration).setState start
  have run : (annealer.withLevels levels).run =
    (annealer.run.1, annealer.run.2.withLevels levels) := annealer.run_withLevels levels
  exact congrArg (·.2.outcome) run

variable {shorter longer : Nat} (bound : shorter ≤ longer)
include bound

theorem sampled_withLevels :
    sampled σ problem (config.withLevels shorter) =
      sampled σ problem (config.withLevels longer) := by
  have head (seeds : List UInt64) : seeds.headD 0 = seeds.getD 0 0 := by cases seeds <;> rfl
  have some : 0 < (seeds σ (config.withLevels shorter)).length := by
    rw [length_seeds]
    exact Nat.succ_pos _
  rw [sampled, sampled, sample_withLevels, sample_withLevels, head, head,
    getD_seeds_withLevels config bound some]

theorem runLevel_withLevels {level : Nat} (levelBound : level < shorter)
    (calibration : Calibration α) (start : Arrangement α) :
    runLevel σ problem (config.withLevels shorter) (seeds σ (config.withLevels shorter))
        calibration level start =
      runLevel σ problem (config.withLevels longer) (seeds σ (config.withLevels longer))
        calibration level start := by
  rw [runLevel, runLevel]
  apply List.map_congr_left
  rintro ⟨coolingRate, worker⟩ member
  have workerBound : worker < config.parallel.workers := by
    rw [← length_coolingRates]
    exact List.snd_lt_of_mem_zipIdx member
  have read : seedIndex (config.withLevels shorter) level worker <
      (seeds σ (config.withLevels shorter)).length := seedIndex_lt levelBound workerBound
  dsimp only
  rw [getD_seeds_withLevels config bound read, anneal_withLevels, anneal_withLevels]
  rfl

variable {problem config} in
/-- What the first levels come to does not depend on how many are left after them. -/
theorem levelsFrom_withLevels {norms : Terms α} {left more level : Nat}
    (within : level + left ≤ shorter) {heat : Heat α} {best last : Outcome α}
    {summaries : List (LevelSummary α)}
    (went : levelsFrom σ problem (config.withLevels longer) (seeds σ (config.withLevels longer))
      norms (left + more) level heat best = .ok (last, summaries)) :
    ∃ winner,
      levelsFrom σ problem (config.withLevels shorter) (seeds σ (config.withLevels shorter))
        norms left level heat best = .ok (winner, summaries.take left) := by
  induction left generalizing level heat best last summaries with
  | zero => exact ⟨best, rfl⟩
  | succ left induction =>
      have levelBound : level < shorter := by omega
      rw [Nat.add_right_comm] at went
      obtain ⟨winner, rest, wins, others, rfl⟩ := levelsFrom_succ_eq_ok_iff.mp went
      rw [← runLevel_withLevels problem config bound levelBound] at wins
      obtain ⟨final, first⟩ := induction (by omega) others
      exact ⟨final, levelsFrom_succ_eq_ok_iff.mpr ⟨winner, _, wins, first, rfl⟩⟩

theorem levels_withLevels {start winner : Outcome α} {calibration : Calibration α}
    {summaries : List (LevelSummary α)}
    (went : levels σ problem (config.withLevels longer) (seeds σ (config.withLevels longer)) start
      calibration = .ok (winner, summaries)) :
    ∃ first,
      levels σ problem (config.withLevels shorter) (seeds σ (config.withLevels shorter)) start
        calibration = .ok (first, summaries.take shorter) := by
  obtain ⟨more, split⟩ := Nat.exists_eq_add_of_le bound
  have all : (config.withLevels longer).parallel.levels = shorter + more := split
  rw [levels, all] at went
  exact levelsFrom_withLevels bound (Nat.zero_add _).le went

end Search

variable [Number α] [NumberText α] [SeededSource σ] [IndexSource σ] [FractionSource σ α]

/--
A search of fewer levels samples the same, and if a search of more levels gives a plan, so does it:
its levels are the first of theirs.
-/
theorem levels_keep_earlier (problem : Problem α) (config : Config α) {shorter longer : Nat}
    (bound : shorter ≤ longer) :
    Search.sampled σ problem (config.withLevels shorter) =
        Search.sampled σ problem (config.withLevels longer) ∧
      ∀ (journal otherJournal : Journal) (plan : Plan α),
        (floorplan σ problem (config.withLevels longer) journal).result = .ok plan →
          ∃ first, (floorplan σ problem (config.withLevels shorter) otherJournal).result =
              .ok first ∧
            first.levels = plan.levels.take shorter := by
  have sampled := Search.sampled_withLevels (σ := σ) problem config bound
  refine ⟨sampled, ?_⟩
  intro journal otherJournal plan planned
  obtain ⟨nonempty, room, winner, summaries, went, rfl⟩ := levels_of_result_floorplan planned
  rw [← sampled] at went
  obtain ⟨first, went⟩ := Search.levels_withLevels problem config bound went
  exact ⟨_, result_floorplan nonempty (Search.hasRoom_withLevels bound room) went otherJournal, rfl⟩

theorem levels_keep_earlier_three :
    let _ : NumberText ℝ :=
      ⟨fun a => toString ⌊a⌋, fun _ a => toString ⌊a⌋, fun a => some (toString ⌊a⌋)⟩
    let problem : Problem ℝ :=
      { Problem.ofOutline ⟨3, 2⟩ with
        blocks := [.soft "core" 4 [⟨1, 4⟩], .hard "rom" 6 1 [⟨3, 2⟩, ⟨2, 3⟩]] }
    let config : Config ℝ := .default
    1 ≤ 3 ∧ ∃ plan first,
      (floorplan Generator problem (config.withLevels 3) .empty).result = .ok plan ∧
      (floorplan Generator problem (config.withLevels 1) .empty).result = .ok first ∧
      first.levels = plan.levels.take 1 := by
  intro _ problem config
  have bound : 1 ≤ 3 := by decide
  have nonempty : problem.blocks ≠ [] := List.cons_ne_nil _ _
  have workers : 0 < (config.withLevels 3).parallel.workers := Nat.succ_pos 3
  obtain ⟨plan, planned, _⟩ := exists_plan (σ := Generator) nonempty workers (by decide) .empty
  obtain ⟨_, keeps⟩ := levels_keep_earlier (σ := Generator) problem config bound
  obtain ⟨first, planned', same⟩ := keeps .empty .empty plan planned
  exact ⟨bound, plan, first, planned, planned', same⟩

end Floorplanner
