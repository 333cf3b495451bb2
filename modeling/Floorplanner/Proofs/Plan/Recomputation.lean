import Mathlib
import Floorplanner.Proofs.Alignment.HardBlocks
import Floorplanner.Proofs.Annealing.HardBlocks
import Floorplanner.Proofs.Packing.BoundingSize
import Floorplanner.Proofs.Search.Levels
import Floorplanner.Proofs.Search.Success

/-!
A plan that is measured anew agrees with its winner.

Alignment may move hard blocks, so a plan does not take over what the annealer knew of its layout. But
where no hard block moves, the size measured on the blocks is the size that packing gave them, bit for
bit. Everything else in a plan is computed from blocks and size alone, so it is what it was.
-/

namespace Floorplanner

variable {α : Type} [Number α]

namespace Alignment

def LeavesHard (outline : Size α) (blocks : List (Block α)) : Prop :=
  List.Forall₂ (fun before after => before.isHard = true → after.x = before.x ∧ after.y = before.y)
    blocks (alignHard outline blocks).blocks

variable {outline : Size α} {blocks : List (Block α)}

theorem leavesHard_of_soft (soft : ∀ block ∈ blocks, block.isHard = false) :
    LeavesHard outline blocks := by
  have aligned := (alignHard_relocates outline blocks).1
  refine ((List.forall₂_and_left _ _).mpr ⟨soft, aligned⟩).imp ?_
  rintro before after ⟨isSoft, -⟩ isHard
  exact absurd (isHard.symm.trans isSoft) Bool.noConfusion

theorem soft_pack (soft : ∀ block ∈ blocks, block.isHard = false) (pair : SequencePair) :
    ∀ block ∈ (pack blocks pair).1, block.isHard = false := by
  intro block member
  have image : block.atOrigin ∈ blocks.map (·.atOrigin) := by
    rw [← map_atOrigin_pack blocks pair]
    exact List.mem_map_of_mem member
  obtain ⟨original, originalMember, same⟩ := List.mem_map.mp image
  rw [← isHard_of_atOrigin_eq same]
  exact soft original originalMember

theorem Relocates.eq {before after : Block α} (relocates : Relocates before after)
    (leaves : before.isHard = true → after.x = before.x ∧ after.y = before.y) : after = before := by
  cases isHard : before.isHard with
  | false => exact relocates.2 ((Bool.not_eq_false' _).mp isHard)
  | true =>
      obtain ⟨x, y⟩ := leaves isHard
      calc
        after = after.atOrigin.moveTo after.x after.y := rfl
        _ = before.atOrigin.moveTo before.x before.y := by rw [relocates.1, x, y]
        _ = before := rfl

/-- What stays of a hard block is its shape, so one that also stays in its place is the same. -/
theorem LeavesHard.blocks_eq (leaves : LeavesHard outline blocks) :
    (alignHard outline blocks).blocks = blocks := by
  have aligned := (alignHard_relocates outline blocks).1
  rw [LeavesHard] at leaves
  generalize (alignHard outline blocks).blocks = others at leaves aligned
  induction leaves with
  | nil => rfl
  | cons here _ induction =>
      cases aligned with
      | cons relocates rest => rw [relocates.eq here, induction rest]

end Alignment

structure Outcome.IsPacked (outcome : Outcome α) (problem : Problem α) (config : Config α)
    (norms : Terms α) (blocks : List (Block α)) (pair : SequencePair) : Prop where
  placed : outcome.arrangement.blocks = (pack blocks pair).1
  terms : outcome.terms =
    Cost.evaluate problem config.notching (pack blocks pair).1 (pack blocks pair).2
  cost : outcome.cost = outcome.terms.cost norms config.weights

namespace Plan

/-- A plan that has the size of a layout and says of it what an outcome does. -/
structure Confirms (plan : Plan α) (problem : Problem α) (norms : Terms α) (outcome : Outcome α)
    (size : Size α) : Prop where
  measured : plan.size = size
  feasible : plan.feasible = problem.fits size
  terms : plan.terms = outcome.terms
  normalized : plan.normalized = outcome.terms.normalized norms
  cost : plan.cost = outcome.cost

variable [Number.AddsOutward α] {problem : Problem α} {config : Config α} {winner : Outcome α}
  {calibration : Calibration α} {blocks : List (Block α)} {pair : SequencePair}

theorem confirms_finish (packed : winner.IsPacked problem config calibration.norms blocks pair)
    (valid : pair.isValid blocks.length = true)
    (nonneg : ∀ block ∈ blocks, ∀ axis, 0 ≤ block.extent axis)
    (leaves : Alignment.LeavesHard problem.outline winner.arrangement.blocks)
    (levels : List (LevelSummary α)) :
    (finish problem config winner calibration levels).Confirms problem calibration.norms winner
      (pack blocks pair).2 := by
  have aligned : (alignHard problem.outline winner.arrangement.blocks).blocks = (pack blocks pair).1 :=
    leaves.blocks_eq.trans packed.placed
  have measured : (finish problem config winner calibration levels).size = (pack blocks pair).2 := by
    rw [← boundingSize_pack valid nonneg, ← aligned]
    rfl
  have terms : (finish problem config winner calibration levels).terms = winner.terms := by
    rw [packed.terms, ← measured, ← aligned]
    rfl
  constructor
  case measured => exact measured
  case feasible => exact congrArg problem.fits measured
  case terms => exact terms
  case normalized => exact congrArg (·.normalized calibration.norms) terms
  case cost =>
    rw [packed.cost, ← terms]
    rfl

end Plan

namespace Search

variable {σ : Type} [SeededSource σ] [IndexSource σ] [FractionSource σ α] {problem : Problem α}
  {config : Config α} {seeds : List UInt64} {norms : Terms α} {left level : Nat} {heat : Heat α}
  {best last : Outcome α} {summaries : List (LevelSummary α)}

theorem isPacked_anneal (problem : Problem α) (config : Config α) (calibration : Calibration α)
    (start : Arrangement α) (coolingRate : α) (seed : UInt64) :
    let outcome := anneal σ problem config calibration start coolingRate seed
    outcome.IsPacked problem config calibration.norms outcome.arrangement.blocks
      outcome.arrangement.pair := by
  intro outcome
  have coherent : (((Annealer.new problem config coolingRate
      (SeededSource.ofSeed seed : σ)).calibrate calibration).setState start).run.2.IsCoherent :=
    Annealer.IsCoherent.run (Annealer.isCoherent_settle _ start)
  have packed : pack outcome.arrangement.blocks outcome.arrangement.pair = _ := coherent.packed
  constructor
  case placed =>
    rw [packed]
    rfl
  case terms =>
    rw [packed]
    exact coherent.evaluated
  case cost => rfl

/-- The last winner is what some worker came to, and the last summary is of it. -/
theorem getLast?_of_levelsFrom (several : 0 < left)
    (went : levelsFrom σ problem config seeds norms left level heat best = .ok (last, summaries)) :
    (∃ temperature start coolingRate seed,
      last = anneal σ problem config ⟨norms, temperature⟩ start coolingRate seed) ∧
      ∃ number, summaries.getLast? = some (summarize norms number last) := by
  induction left generalizing level heat best summaries with
  | zero => cases several
  | succ left induction =>
      obtain ⟨winner, rest, wins, goesOn, rfl⟩ := levelsFrom_succ_eq_ok_iff.mp went
      cases left with
      | zero =>
          cases goesOn
          obtain ⟨coolingRate, seed, worker⟩ := exists_anneal_of_cheapest? σ problem _ _ wins
          exact ⟨⟨_, _, coolingRate, seed, worker⟩, level, rfl⟩
      | succ left =>
          obtain ⟨worker, number, summary⟩ := induction left.succ_pos goesOn
          refine ⟨worker, number, ?_⟩
          rw [List.getLast?_cons, summary]
          rfl

end Search

namespace Annealer

variable {σ : Type} [IndexSource σ] [FractionSource σ α] {annealer : Annealer α σ}

/-- One block has no move to make, and while it fits nothing makes it shrink. -/
theorem layout_run_of_single (coherent : annealer.IsCoherent)
    (single : annealer.layout.arrangement.blocks.length < 2) (fits : annealer.isFeasible = true) :
    annealer.run.2.layout = annealer.layout := by
  let stays (walk : Walk α σ) : Prop :=
    walk.current.layout = annealer.layout ∧ walk.best.layout = annealer.layout
  have finish : stays annealer.finish := by
    refine (coherent.invariant ⟨rfl, rfl⟩ ?_).2
    intro step temperature walk next iterates ⟨current, best⟩
    have unmoved : Move.perturb annealer.problem.outline (.ofProbabilities annealer.config.moves)
        annealer.layout.arrangement walk.source =
          ((.none, annealer.layout.arrangement), walk.source) := if_pos single
    have candidate : (annealer.candidate walk).layout = annealer.layout := by
      rw [Annealer.candidate, current, propose_of_perturb unmoved]
      exact coherent.ofArrangement_eq
    cases iterates with
    | reject => exact ⟨current, best⟩
    | accept => exact ⟨candidate, best⟩
    | improve => exact ⟨candidate, candidate⟩
    | shrink _ _ shrinks =>
        rw [candidate, shrinksAt, ← isFeasible, fits, Bool.not_true, Bool.and_false] at shrinks
        cases shrinks
  rw [layout_run]
  split
  · exact finish.2
  · exact finish.1

end Annealer

theorem Search.arrangement_anneal_of_single {σ : Type} [SeededSource σ] [IndexSource σ]
    [FractionSource σ α] {problem : Problem α} {start : Arrangement α}
    (single : start.blocks.length < 2) (fits : problem.fits (pack start.blocks start.pair).2 = true)
    (config : Config α) (calibration : Calibration α) (coolingRate : α) (seed : UInt64) :
    (anneal σ problem config calibration start coolingRate seed).arrangement = start.packed := by
  have coherent : (((Annealer.new problem config coolingRate
      (SeededSource.ofSeed seed : σ)).calibrate calibration).setState start).IsCoherent :=
    Annealer.isCoherent_settle _ start
  have length : (pack start.blocks start.pair).1.length < 2 := by rwa [length_pack]
  exact congrArg Layout.arrangement (Annealer.layout_run_of_single coherent length fits)

variable [Number.AddsOutward α]

/--
If alignment moves no hard block, as where there are none, a plan has the size that packing gave its
winner and fits if that does, and its terms and its cost are those of the winner, bit for bit. After
some levels they are those of the last summary.
-/
theorem finish_confirms_packing :
    (∀ (problem : Problem α) (config : Config α) (winner : Outcome α) (calibration : Calibration α)
      (levels : List (LevelSummary α)) (blocks : List (Block α)) (pair : SequencePair),
      winner.IsPacked problem config calibration.norms blocks pair →
      pair.isValid blocks.length = true → (∀ block ∈ blocks, ∀ axis, 0 ≤ block.extent axis) →
      (Alignment.LeavesHard problem.outline winner.arrangement.blocks ∨
        ∀ block ∈ blocks, block.isHard = false) →
      (Plan.finish problem config winner calibration levels).Confirms problem calibration.norms winner
        (pack blocks pair).2) ∧
    ∀ (σ : Type) [SeededSource σ] [IndexSource σ] [FractionSource σ α] (problem : Problem α)
      (config : Config α) (seeds : List UInt64) (start winner : Outcome α)
      (calibration : Calibration α) (levels : List (LevelSummary α)),
      Search.levels σ problem config seeds start calibration = .ok (winner, levels) →
      0 < config.parallel.levels →
      winner.arrangement.pair.isValid winner.arrangement.blocks.length = true →
      (∀ block ∈ winner.arrangement.blocks, ∀ axis, 0 ≤ block.extent axis) →
      (Alignment.LeavesHard problem.outline winner.arrangement.blocks ∨
        ∀ block ∈ winner.arrangement.blocks, block.isHard = false) →
      let plan := Plan.finish problem config winner calibration levels
      ∃ last, levels.getLast? = some last ∧ plan.terms = last.terms ∧
        plan.normalized = last.normalized ∧ plan.cost = last.cost := by
  constructor
  · intro problem config winner calibration levels blocks pair packed valid nonneg unmoved
    refine Plan.confirms_finish packed valid nonneg ?_ levels
    rcases unmoved with leaves | soft
    · exact leaves
    · apply Alignment.leavesHard_of_soft
      rw [packed.placed]
      exact Alignment.soft_pack soft pair
  · intro σ _ _ _ problem config seeds start winner calibration levels went several valid nonneg
      unmoved plan
    obtain ⟨⟨temperature, first, coolingRate, seed, rfl⟩, number, summary⟩ :=
      Search.getLast?_of_levelsFrom several went
    have packed := Search.isPacked_anneal (σ := σ) problem config ⟨calibration.norms, temperature⟩
      first coolingRate seed
    have confirms : plan.Confirms problem calibration.norms _ _ :=
      Plan.confirms_finish packed valid nonneg (unmoved.elim id Alignment.leavesHard_of_soft) levels
    exact ⟨_, summary, confirms.terms, confirms.normalized, confirms.cost⟩

namespace Rounded

def core : Block Float := .soft "core" 6 [⟨1, 1⟩]

def problem : Problem Float := { Problem.ofOutline ⟨10, 10⟩ with blocks := [core] }

def config : Config Float :=
  { Config.default with parallel := { Config.Parallel.default with levels := 1 } }

def start : Outcome Float := ⟨⟨[core], .identity 1⟩, .zero, 0⟩

def calibration : Calibration Float := ⟨.replicate 1, 1⟩

theorem fits_pack : problem.fits (pack [core] (.identity 1)).2 = true := by decide +kernel

theorem nonneg_pack : ∀ block ∈ (pack [core] (.identity 1)).1, ∀ axis, 0 ≤ block.extent axis := by
  have both : ∀ block ∈ (pack [core] (.identity 1)).1, 0 ≤ block.width ∧ 0 ≤ block.height := by
    decide +kernel
  rintro block member (_ | _)
  · exact (both block member).1
  · exact (both block member).2

theorem soft_pack : ∀ block ∈ (pack [core] (.identity 1)).1, block.isHard = false := by
  decide +kernel

end Rounded

open Rounded in
/-- A search on floating point that places one block. -/
theorem finish_confirms_packing_core :
    ∃ winner levels last,
      Search.levels Generator problem config [] start calibration = .ok (winner, levels) ∧
        levels.getLast? = some last ∧
        let plan := Plan.finish problem config winner calibration levels
        plan.size = (pack [core] (.identity 1)).2 ∧ plan.feasible = true ∧ plan.cost = last.cost := by
  let heat : Search.Heat Float := .next ⟨calibration.temperature, 1⟩ config.parallel.heatRate
  have workers : 0 < (Search.runLevel Generator problem config []
      ⟨calibration.norms, heat.temperature⟩ 0 start.arrangement).length := by
    rw [Search.length_runLevel]
    decide
  obtain ⟨winner, wins⟩ := Search.exists_cheapest? workers
  have went : Search.levels Generator problem config [] start calibration =
      .ok (winner, [Search.summarize calibration.norms 0 winner]) :=
    Search.levelsFrom_succ_eq_ok_iff.mpr ⟨winner, [], wins, rfl, rfl⟩
  obtain ⟨coolingRate, seed, worker⟩ := Search.exists_anneal_of_cheapest? Generator problem _ _ wins
  have arrangement : winner.arrangement = ⟨(pack [core] (.identity 1)).1, .identity 1⟩ := by
    rw [worker]
    exact Search.arrangement_anneal_of_single (by decide) fits_pack _ _ _ _
  have blocks : winner.arrangement.blocks = (pack [core] (.identity 1)).1 :=
    congrArg Arrangement.blocks arrangement
  have valid : winner.arrangement.pair.isValid winner.arrangement.blocks.length = true := by
    rw [arrangement, length_pack]
    decide
  have packed : winner.IsPacked problem config calibration.norms winner.arrangement.blocks
      winner.arrangement.pair := by
    rw [worker]
    exact Search.isPacked_anneal _ _ _ _ _ _
  obtain ⟨confirming, repeating⟩ := finish_confirms_packing (α := Float)
  have nonneg : ∀ block ∈ winner.arrangement.blocks, ∀ axis, 0 ≤ block.extent axis := by
    rw [blocks]
    exact nonneg_pack
  have soft : ∀ block ∈ winner.arrangement.blocks, block.isHard = false := by
    rw [blocks]
    exact soft_pack
  have confirms := confirming problem config winner calibration
    [Search.summarize calibration.norms 0 winner] _ _ packed valid nonneg (.inr soft)
  obtain ⟨last, found, -, -, cost⟩ := repeating Generator problem config [] start winner calibration
    _ went (by decide) valid nonneg (.inr soft)
  have size : (pack winner.arrangement.blocks winner.arrangement.pair).2 =
      (pack [core] (.identity 1)).2 := by
    rw [arrangement, pack_pack]
  refine ⟨winner, _, last, went, found, confirms.measured.trans size, ?_, cost⟩
  rw [confirms.feasible, size]
  exact fits_pack

end Floorplanner
