import Mathlib
import Floorplanner.Proofs.Annealing.FinalCost
import Floorplanner.Proofs.Annealing.Shrinking
import Floorplanner.Proofs.Design.WellFormed
import Floorplanner.Proofs.Search.Success

/-!
How a search shrinks the soft blocks.

A level adds the shrinks of its winner to those of the levels before, and what the other workers
shrank is lost with them. So in a plan all soft blocks have shrunk equally often, and no more often
than the limit allows in each level.
-/

namespace Floorplanner

variable {α σ : Type} [ExactNumber α]

namespace Annealer

theorem shrinkLimit_le [FloorSemiring α] [ExactNumber.HasWholeParts α]
    (shrinking : Config.Shrinking α) : shrinkLimit shrinking ≤ ⌊1 / shrinking.frequency⌋₊ := by
  rw [shrinkLimit, ExactNumber.HasWholeParts.wholePart_eq]
  exact min_le_left _ _

end Annealer

variable [ExactNumber.HasRoots α]

namespace Search

variable [SeededSource σ] [IndexSource σ] [FractionSource σ α] [UnitSource σ α]
  {problem : Problem α} {config : Config α}

section Legal

variable (legal : ∀ block ∈ problem.blocks, block.form.Allows block)
include legal

theorem isShrunk_sampled :
    (sampled σ problem config).1.arrangement.IsShrunk problem.blocks config.shrinking.factor 0 := by
  have new : (sampler σ problem config).layout.arrangement.IsShrunk problem.blocks
      config.shrinking.factor 0 := by
    refine ⟨Annealer.isLegal_new legal config _ _, ?_⟩
    simp only [Block.stockAfter_zero]
    exact Block.map_stock_pack _ _
  have shaped : (sampler σ problem config).randomizeShapes.layout.arrangement.IsShrunk
      problem.blocks config.shrinking.factor 0 := by
    apply Arrangement.IsShrunk.packed
    refine ⟨⟨new.legal.pair, new.legal.blocks.randomizeAll _⟩, ?_⟩
    exact (Block.map_stock_randomizeAll _ _).trans new.stock
  refine Annealer.wander_invariant _ (·.arrangement.IsShrunk _ _ _) ?_ _ shaped _
  exact fun _ source shrunk => Annealer.isShrunk_propose shrunk source

/-- Each level shrinks the soft blocks as often as its winner did. -/
theorem Enters.isShrunk (positive : 0 < config.shrinking.factor) {level : Nat} {heat : Heat α}
    {start : Outcome α} (enters : Enters σ problem config level heat start) :
    ∃ times ≤ level * (Annealer.shrinkLimit config.shrinking + 1),
      start.arrangement.IsShrunk problem.blocks config.shrinking.factor times := by
  induction enters with
  | first => exact ⟨0, Nat.zero_le _, isShrunk_sampled legal⟩
  | @next level heat start winner _ wins shrunk =>
      obtain ⟨times, bound, shrunk⟩ := shrunk
      obtain ⟨coolingRate, seed, rfl⟩ := exists_anneal_of_cheapest? σ problem _ _ wins
      let annealer := annealerOf σ problem config (heat.next config.parallel.heatRate).temperature
        start coolingRate seed
      have coherent : annealer.IsCoherent := isCoherent_annealerOf σ problem config _ _ _ _
      refine ⟨times + annealer.finish.shrinks, ?_, coherent.isShrunk_run positive shrunk.packed⟩
      rw [Nat.succ_mul]
      exact Nat.add_le_add bound annealer.shrinks_finish_le

end Legal

end Search

namespace Design

namespace BlockDescription

omit [ExactNumber.HasRoots α]

def stockAfter (factor : α) (times : Nat) (description : BlockDescription α) :
    String × Bool × α :=
  (description.name, decide (0 < description.macros),
    if 0 < description.macros then description.designArea
    else description.designArea * factor ^ (2 * times))

theorem stockAfter_block (factor : α) (times : Nat) (description : BlockDescription α) :
    description.block.stockAfter factor times = description.stockAfter factor times := by
  rw [BlockDescription.block, stockAfter]
  split
  next positive =>
    rw [decide_eq_true positive]
    rfl
  next zero =>
    rw [decide_eq_false zero]
    rfl

end BlockDescription

end Design

section Plan

variable [FloorSemiring α] [ExactNumber.HasWholeParts α] [NumberText α] [SeededSource σ]
  [WordSource σ] {design : Design α} {problem : Problem α} {config : Config α}

/--
In the plan of a design, all soft blocks have shrunk equally often, hard blocks not at all, and a
run shrinks them no more often than the limit allows, over all of its restarts.
-/
theorem soft_blocks_shrink_together (resolved : design.resolve = .ok problem)
    (checked : config.check = .ok ()) (journal : Journal) :
    (∃ times ≤ config.parallel.levels * (⌊1 / config.shrinking.frequency⌋₊ + 1),
      (Search.HasRoom config → ∃ plan, (floorplan σ problem config journal).result = .ok plan) ∧
      ∀ plan, (floorplan σ problem config journal).result = .ok plan →
        plan.blocks.map (fun block => (block.name, block.isHard, block.area)) =
          design.blocks.map (·.stockAfter config.shrinking.factor times)) ∧
    ∀ annealer : Annealer α σ, annealer.config = config →
      annealer.log.countP annealer.shrinksIn ≤ ⌊1 / config.shrinking.frequency⌋₊ + 1 := by
  have limit := Nat.succ_le_succ (Annealer.shrinkLimit_le config.shrinking)
  constructor
  · obtain ⟨_, _, _, shrinking, parallel, _⟩ := Config.check_eq_ok_iff.mp checked
    have positive := (Config.Shrinking.check_eq_ok_iff.mp shrinking).1.1
    have workers := Config.Parallel.workers_pos parallel
    have entered : Search.Enters σ problem config 0 _ _ := .first
    obtain ⟨_, winner, summaries, went, enters, _⟩ :=
      Search.levelsFrom_succeeds workers config.parallel.levels entered
    obtain ⟨times, bound, shrunk⟩ :=
      enters.isShrunk (Design.allows_of_mem_resolve resolved) positive
    rw [Nat.zero_add] at bound
    have planned (room : Search.HasRoom config) :=
      result_floorplan (Design.nonempty_of_resolve resolved) room went journal
    refine ⟨times, bound.trans (Nat.mul_le_mul_left _ limit), fun room => ⟨_, planned room⟩, ?_⟩
    intro plan given
    obtain ⟨_, room, _⟩ := levels_of_result_floorplan given
    cases (planned room).symm.trans given
    calc
      ((alignHard problem.outline winner.arrangement.blocks).blocks.map PlacedBlock.ofBlock).map
          (fun block => (block.name, block.isHard, block.area))
        = (alignHard problem.outline winner.arrangement.blocks).blocks.map (·.stock) :=
          List.map_map
      _ = winner.arrangement.blocks.map (·.stock) := Block.map_stock_alignHard _ _
      _ = problem.blocks.map (·.stockAfter config.shrinking.factor times) := shrunk.stock
      _ = design.blocks.map (·.stockAfter config.shrinking.factor times) := by
        rw [Design.blocks_of_resolve resolved, List.map_map]
        exact List.map_congr_left fun _ _ => Design.BlockDescription.stockAfter_block _ _ _
  · rintro annealer rfl
    rw [← annealer.shrinks_finish_eq]
    exact annealer.shrinks_finish_le.trans limit

end Plan

open Annealer.Dearer in
theorem soft_blocks_shrink_together_dearer :
    let _ : NumberText ℝ :=
      ⟨fun a => toString ⌊a⌋, fun _ a => toString ⌊a⌋, fun a => some (toString ⌊a⌋)⟩
    let factor : ℝ := 995 / 1000
    design.resolve = .ok problem ∧ (Config.default : Config ℝ).check = .ok () ∧
      ∃ plan times, (floorplan Generator problem .default .empty).result = .ok plan ∧
        times ≤ 44 ∧
        plan.blocks.map (fun block => (block.name, block.isHard, block.area)) =
          [("rom", true, 2), ("core", false, 16 * factor ^ (2 * times))] := by
  intro _ factor
  refine ⟨resolve_design, Config.check_default, ?_⟩
  obtain ⟨⟨times, bound, succeeds, stock⟩, _⟩ :=
    soft_blocks_shrink_together (σ := Generator) resolve_design Config.check_default .empty
  obtain ⟨plan, planned⟩ := succeeds (by decide)
  have limit : ⌊1 / (Config.default : Config ℝ).shrinking.frequency⌋₊ = 10 := by
    norm_num [Config.default, Config.Shrinking.default, Number.ratio]
  refine ⟨plan, times, planned, ?_, ?_⟩
  · rw [limit] at bound
    exact bound
  · rw [stock plan planned]
    norm_num [design, Design.BlockDescription.stockAfter, Design.BlockDescription.designArea,
      Config.default, Config.Shrinking.default, Number.ratio, factor]

end Floorplanner
