import Mathlib
import Floorplanner.Proofs.Annealing.HardBlocks
import Floorplanner.Proofs.Search.Levels
import Floorplanner.Proofs.Search.Success

/-!
Costs from level to level.

Every worker of a level puts the arrangement that the level starts from back in its places, at the
cost that it had, for the constants are those of the whole search. Without soft blocks no worker ends
dearer than that, so neither does the winner, and the costs of the levels only fall.
-/

namespace Floorplanner

namespace Search

variable {α σ : Type} [Number α] (σ) [SeededSource σ] [IndexSource σ] [FractionSource σ α]
  (problem : Problem α) (config : Config α) (seeds : List UInt64) (calibration : Calibration α)
  (first : Outcome α)

/-- The levels that a search from an outcome comes to, whichever seeds it is given. -/
inductive Reaches : Nat → Heat α → Outcome α → Prop where
  | first : Reaches 0 ⟨calibration.temperature, 1⟩ first
  | next {level : Nat} {heat : Heat α} {start winner : Outcome α} (reaches : Reaches level heat start)
      (wins : cheapest? (runLevel σ problem config seeds
        ⟨calibration.norms, (heat.next config.parallel.heatRate).temperature⟩ level
        start.arrangement) = some winner) :
      Reaches (level + 1) (heat.next config.parallel.heatRate) winner

def workerOf (start : Arrangement α) (coolingRate : α) (seed : UInt64) : Annealer α σ :=
  ((Annealer.new problem config coolingRate (SeededSource.ofSeed seed : σ)).calibrate
    calibration).setState start

def ComparesCosts (level : Nat) (start : Outcome α) : Prop :=
  ∀ worker coolingRate seed, (coolingRates config.parallel)[worker]? = some coolingRate →
    seeds[seedIndex config level worker]? = some seed →
    ∀ state ∈ (workerOf σ problem config calibration start.arrangement coolingRate seed).compared,
      state.cost ≤ state.cost

/-- A level is won by the first of its cheapest workers, at no more than what it started from. -/
structure LevelIsWon (level : Nat) (start winner : Outcome α) : Prop where
  count : (runLevel σ problem config seeds calibration level start.arrangement).length =
    config.parallel.workers
  outcomes : ∀ worker < config.parallel.workers, ∃ coolingRate seed,
    (coolingRates config.parallel)[worker]? = some coolingRate ∧
      seeds[seedIndex config level worker]? = some seed ∧
      (runLevel σ problem config seeds calibration level start.arrangement)[worker]? = some
        (workerOf σ problem config calibration start.arrangement coolingRate seed).run.2.outcome
  won : ∃ worker, IsFirstCheapest
    (runLevel σ problem config seeds calibration level start.arrangement) worker winner
  descends : winner.cost ≤ start.cost

variable {σ problem config seeds calibration first}

structure IsHardAt (problem : Problem α) (config : Config α) (norms : Terms α)
    (outcome : Outcome α) : Prop where
  hard : Block.AreHard outcome.arrangement.blocks
  cost : outcome.cost =
    (Layout.ofArrangement problem config outcome.arrangement).terms.cost norms config.weights

variable {start winner : Outcome α} {level : Nat} {heat : Heat α}

section Worker

variable (calibration) (coolingRate : α) (seed : UInt64)
  (sound : IsHardAt problem config calibration.norms start)
include sound

omit [IndexSource σ] [FractionSource σ α] in
theorem areHard_workerOf :
    Block.AreHard (workerOf σ problem config calibration start.arrangement coolingRate
      seed).layout.arrangement.blocks :=
  sound.hard.of_map_stock_eq (Block.map_stock_pack _ _)

/-- Packing an outcome anew brings back its places, so it is put back at its cost. -/
theorem isHardAt_outcome : IsHardAt problem config calibration.norms
    (workerOf σ problem config calibration start.arrangement coolingRate seed).run.2.outcome := by
  let annealer := workerOf σ problem config calibration start.arrangement coolingRate seed
  have coherent : annealer.IsCoherent := Annealer.isCoherent_settle _ _
  have layout : Layout.ofArrangement problem config annealer.run.2.layout.arrangement =
    annealer.run.2.layout := coherent.run.ofArrangement_eq
  constructor
  · exact coherent.isHard_run (areHard_workerOf calibration _ _ sound)
  · exact congrArg (·.terms.cost calibration.norms config.weights) layout.symm

theorem cost_outcome_le [Number.ComparesLawfully α]
    (comparable : ∀ state ∈ (workerOf σ problem config calibration start.arrangement coolingRate
      seed).compared, state.cost ≤ state.cost) :
    (workerOf σ problem config calibration start.arrangement coolingRate seed).run.2.outcome.cost ≤
      start.cost := by
  let annealer := workerOf σ problem config calibration start.arrangement coolingRate seed
  have coherent : annealer.IsCoherent := Annealer.isCoherent_settle _ _
  rw [sound.cost]
  exact coherent.cost_run_le_of_hard (areHard_workerOf calibration _ _ sound) comparable

end Worker

theorem Reaches.isHardAt (sound : IsHardAt problem config calibration.norms first)
    (reaches : Reaches σ problem config seeds calibration first level heat start) :
    IsHardAt problem config calibration.norms start := by
  induction reaches with
  | first => exact sound
  | @next level heat start winner _ wins sound =>
      obtain ⟨coolingRate, seed, rfl⟩ := exists_anneal_of_cheapest? σ problem _ _ wins
      let temperature := (heat.next config.parallel.heatRate).temperature
      exact isHardAt_outcome ⟨calibration.norms, temperature⟩ coolingRate seed sound

section Levels

variable (workers : 0 < config.parallel.workers)
include workers

/-- With workers in each level there is a winner of it, and the next level starts from that. -/
theorem levelsFrom_eq_ok (left : Nat)
    (reaches : Reaches σ problem config seeds calibration first level heat start) :
    ∃ last summaries,
      levelsFrom σ problem config seeds calibration.norms left level heat start =
          .ok (last, summaries) ∧
        summaries.length = left ∧
        ∀ index < left, ∃ heat before winner,
          Reaches σ problem config seeds calibration first (level + index) heat before ∧
            cheapest? (runLevel σ problem config seeds
              ⟨calibration.norms, (heat.next config.parallel.heatRate).temperature⟩ (level + index)
              before.arrangement) = some winner ∧
            summaries[index]? = some (summarize calibration.norms (level + index) winner) ∧
            (start.cost :: summaries.map (·.cost))[index]? = some before.cost := by
  induction left generalizing level heat start with
  | zero => exact ⟨start, [], rfl, rfl, nofun⟩
  | succ left induction =>
      let temperature := (heat.next config.parallel.heatRate).temperature
      have several : 0 < (runLevel σ problem config seeds ⟨calibration.norms, temperature⟩ level
          start.arrangement).length := by
        rwa [length_runLevel]
      obtain ⟨winner, wins⟩ := exists_cheapest? several
      obtain ⟨last, rest, went, length, each⟩ := induction (reaches.next wins)
      refine ⟨last, summarize calibration.norms level winner :: rest,
        levelsFrom_succ_eq_ok_iff.mpr ⟨winner, rest, wins, went, rfl⟩,
        congrArg (· + 1) length, ?_⟩
      rintro (_ | index) bound
      · exact ⟨heat, start, winner, reaches, wins, rfl, rfl⟩
      · obtain ⟨heat, before, winner, found⟩ := each index (Nat.lt_of_succ_lt_succ bound)
        rw [Nat.add_right_comm] at found
        exact ⟨heat, before, winner, found⟩

variable (σ problem seeds calibration first) in
theorem levels_eq_ok :
    ∃ last summaries,
      levels σ problem config seeds first calibration = .ok (last, summaries) ∧
        summaries.length = config.parallel.levels ∧
        ∀ level < config.parallel.levels, ∃ heat start winner,
          Reaches σ problem config seeds calibration first level heat start ∧
            cheapest? (runLevel σ problem config seeds
              ⟨calibration.norms, (heat.next config.parallel.heatRate).temperature⟩ level
              start.arrangement) = some winner ∧
            summaries[level]? = some (summarize calibration.norms level winner) ∧
            (first.cost :: summaries.map (·.cost))[level]? = some start.cost := by
  have reached : Reaches σ problem config seeds calibration first 0 _ first := .first
  obtain ⟨last, summaries, went, length, each⟩ :=
    levelsFrom_eq_ok workers config.parallel.levels reached
  simp only [Nat.zero_add] at each
  exact ⟨last, summaries, went, length, each⟩

end Levels

variable [Number.SortsTotally α] [Number.ComparesLawfully α]

theorem levelIsWon (sound : IsHardAt problem config calibration.norms start)
    (supplied : 1 + config.parallel.levels * config.parallel.workers ≤ seeds.length)
    (levelBound : level < config.parallel.levels)
    (comparable : ComparesCosts σ problem config seeds calibration level start)
    (wins : cheapest? (runLevel σ problem config seeds calibration level start.arrangement) =
      some winner) :
    LevelIsWon σ problem config seeds calibration level start winner := by
  have outcomes (worker : Nat) (workerBound : worker < config.parallel.workers) :=
    getElem?_runLevel σ problem calibration start.arrangement workerBound
      ((seedIndex_lt_of_lt levelBound workerBound).trans_le supplied)
  have won := isFirstCheapest_of_cheapest? wins
  refine ⟨length_runLevel _ _ _ _ _ _ _, outcomes, won, ?_⟩
  obtain ⟨worker, cheapest⟩ := won
  have workerBound : worker < config.parallel.workers := by
    rw [← length_runLevel σ problem config seeds calibration level start.arrangement]
    exact cheapest.lt_length
  obtain ⟨coolingRate, seed, rate, read, outcome⟩ := outcomes worker workerBound
  cases Option.some.inj (cheapest.place.symm.trans outcome)
  exact cost_outcome_le calibration coolingRate seed sound
    (comparable worker coolingRate seed rate read)

section Descent

variable (workers : 0 < config.parallel.workers)
  (supplied : 1 + config.parallel.levels * config.parallel.workers ≤ seeds.length)
  (sound : IsHardAt problem config calibration.norms first)
  (comparable : ∀ level < config.parallel.levels, ∀ heat start,
    Reaches σ problem config seeds calibration first level heat start →
      ComparesCosts σ problem config seeds
        ⟨calibration.norms, (heat.next config.parallel.heatRate).temperature⟩ level start)
include workers supplied sound comparable

/--
Without soft blocks, a search from an outcome at its cost goes through all levels. Each of them is
won by the first of its cheapest workers, and costs no more than the ones before it and the start.
-/
theorem level_costs_descend :
    ∃ last summaries,
      levels σ problem config seeds first calibration = .ok (last, summaries) ∧
        summaries.length = config.parallel.levels ∧
        (∀ level < config.parallel.levels, ∃ heat start winner,
          Reaches σ problem config seeds calibration first level heat start ∧
            summaries[level]? = some (summarize calibration.norms level winner) ∧
            LevelIsWon σ problem config seeds
              ⟨calibration.norms, (heat.next config.parallel.heatRate).temperature⟩ level start
              winner) ∧
        (first.cost :: summaries.map (·.cost)).Pairwise fun earlier later => later ≤ earlier := by
  obtain ⟨last, summaries, went, length, each⟩ :=
    levels_eq_ok σ problem seeds calibration first workers
  have isWon (level : Nat) (bound : level < config.parallel.levels) :
      ∃ heat start winner,
        Reaches σ problem config seeds calibration first level heat start ∧
          summaries[level]? = some (summarize calibration.norms level winner) ∧
          LevelIsWon σ problem config seeds
            ⟨calibration.norms, (heat.next config.parallel.heatRate).temperature⟩ level start winner ∧
          (first.cost :: summaries.map (·.cost))[level]? = some start.cost := by
    obtain ⟨heat, start, winner, reaches, wins, summary, cost⟩ := each level bound
    refine ⟨heat, start, winner, reaches, summary, ?_, cost⟩
    have started : IsHardAt problem config calibration.norms start := reaches.isHardAt sound
    exact levelIsWon started supplied bound (comparable level bound heat start reaches) wins
  refine ⟨last, summaries, went, length, ?_, ?_⟩
  · intro level bound
    obtain ⟨heat, start, winner, reaches, summary, won, _⟩ := isWon level bound
    exact ⟨heat, start, winner, reaches, summary, won⟩
  · let descends (earlier later : α) : Prop := later ≤ earlier
    have transitive : Trans descends descends descends :=
      ⟨fun first second => Number.ComparesLawfully.le_trans second first⟩
    change List.Pairwise descends _
    rw [← List.isChain_iff_pairwise, List.isChain_iff_getElem]
    intro level bound
    rw [List.length_cons, List.length_map, length] at bound
    obtain ⟨_, start, winner, _, summary, won, cost⟩ := isWon level (Nat.lt_of_succ_lt_succ bound)
    have next : (first.cost :: summaries.map (·.cost))[level + 1]? = some winner.cost := by
      rw [List.getElem?_cons_succ, List.getElem?_map, summary]
      rfl
    rw [(List.getElem_eq_iff _).mpr cost, (List.getElem_eq_iff _).mpr next]
    exact won.descends

end Descent

theorem level_costs_descend_pair :
    let problem : Problem ℝ :=
      { Problem.ofOutline ⟨4, 4⟩ with
        blocks := [.hard "rom" 6 1 [⟨3, 2⟩, ⟨2, 3⟩], .hard "ram" 4 1 [⟨2, 2⟩]] }
    let config : Config ℝ := .default
    let seeds : List UInt64 := List.replicate 17 3
    let calibration : Calibration ℝ := ⟨.replicate 1, 2⟩
    let layout := Layout.ofArrangement problem config ⟨problem.blocks, .identity 2⟩
    let first : Outcome ℝ := ⟨layout.arrangement, layout.terms,
      layout.terms.cost calibration.norms config.weights⟩
    IsHardAt problem config calibration.norms first ∧
      ∃ last summaries, levels Generator problem config seeds first calibration =
          .ok (last, summaries) ∧
        summaries.length = 4 ∧
        (first.cost :: summaries.map (·.cost)).Pairwise fun earlier later => later ≤ earlier := by
  intro problem config seeds calibration layout first
  have workers : 0 < config.parallel.workers := Nat.succ_pos 3
  have supplied : 1 + config.parallel.levels * config.parallel.workers ≤ seeds.length := by
    decide
  have sound : IsHardAt problem config calibration.norms first := by
    constructor
    · apply Block.AreHard.of_map_stock_eq _ (Block.map_stock_pack _ _)
      simp [Block.AreHard, problem, Block.hard, Block.isHard, Block.isSoft]
    · have coherent : layout.IsCoherent problem config :=
        Layout.isCoherent_ofArrangement problem config _
      exact congrArg (·.terms.cost calibration.norms config.weights) coherent.ofArrangement_eq.symm
  refine ⟨sound, ?_⟩
  obtain ⟨last, summaries, went, length, _, costs⟩ :=
    level_costs_descend (σ := Generator) workers supplied sound
      (fun _ _ _ _ _ _ _ _ _ _ _ _ => le_refl _)
  exact ⟨last, summaries, went, length, costs⟩

end Search

end Floorplanner
