import Mathlib
import Floorplanner.Proofs.Annealing.FinalCost
import Floorplanner.Proofs.Block.Stock
import Floorplanner.Proofs.TotalOrder

/-!
Runs of hard blocks only.

Without soft blocks there is nothing to shrink: a shrunk layout is the layout again, so the best
layout of a walk never becomes dearer. Then a run ends no dearer than it started, on any numbers
that compare lawfully, as long as all costs do compare.
-/

namespace Floorplanner

variable {α σ : Type}

namespace Block

def AreHard (blocks : List (Block α)) : Prop := ∀ block ∈ blocks, block.isHard = true

variable {blocks others : List (Block α)}

theorem AreHard.of_map_stock_eq (hard : AreHard blocks)
    (same : others.map (·.stock) = blocks.map (·.stock)) : AreHard others := by
  intro block member
  have stock : block.stock ∈ blocks.map (·.stock) := by
    rw [← same]
    exact List.mem_map_of_mem member
  obtain ⟨original, originalMember, equality⟩ := List.mem_map.mp stock
  calc
    block.isHard = original.isHard := congrArg (·.2.1) equality.symm
    _ = true := hard original originalMember

theorem AreHard.map_shrink [Number α] (hard : AreHard blocks) (factor : α) :
    blocks.map (·.shrink factor) = blocks := by
  rw [List.map_congr_left fun block member => shrink_of_isHard (hard block member) factor]
  exact List.map_id' blocks

end Block

variable [Number α]

theorem areOrdered_of_comparable [Number.ComparesLawfully α] {costs : List α}
    (comparable : ∀ cost ∈ costs, cost ≤ cost) : AreOrdered costs where
  asymm _ _ _ _ less :=
    Number.ComparesLawfully.not_lt_of_le (Number.ComparesLawfully.le_of_lt less)
  trans a aMember b bMember c cMember first second := by
    have second := Number.ComparesLawfully.le_of_not_lt (comparable c cMember)
      (comparable b bMember) second
    have first := Number.ComparesLawfully.le_of_not_lt (comparable b bMember)
      (comparable a aMember) first
    exact Number.ComparesLawfully.not_lt_of_le (Number.ComparesLawfully.le_trans second first)

/-- Packing and evaluating a coherent layout anew gives it back. -/
theorem Layout.IsCoherent.ofArrangement_eq {problem : Problem α} {config : Config α}
    {layout : Layout α} (coherent : layout.IsCoherent problem config) :
    ofArrangement problem config layout.arrangement = layout := by
  obtain ⟨⟨blocks, pair⟩, size, terms⟩ := layout
  obtain ⟨packed, evaluated⟩ := coherent
  dsimp only at packed evaluated
  rw [ofArrangement, packed, evaluated]

structure Walk.IsHard (walk : Walk α σ) : Prop where
  current : Block.AreHard walk.current.layout.arrangement.blocks
  best : Block.AreHard walk.best.layout.arrangement.blocks

namespace Annealer

variable {annealer : Annealer α σ} {layout : Layout α}

theorem shrunk_of_hard (coherent : layout.IsCoherent annealer.problem annealer.config)
    (hard : Block.AreHard layout.arrangement.blocks) :
    annealer.shrunk layout = annealer.snapshot layout := by
  have same : annealer.shrinkSoft layout = layout := by
    rw [shrinkSoft]
    dsimp only
    rw [hard.map_shrink]
    exact coherent.ofArrangement_eq
  rw [shrunk, same]

variable [IndexSource σ] [FractionSource σ α]

theorem map_stock_candidate (walk : Walk α σ) :
    (annealer.candidate walk).layout.arrangement.blocks.map (·.stock) =
      walk.current.layout.arrangement.blocks.map (·.stock) :=
  (Block.map_stock_pack _ _).trans (Move.Step.map_stock (Move.step_perturb rfl))

/-- Without soft blocks a shrink changes nothing, so that an improvement is all that is left. -/
theorem shrunk_candidate {walk : Walk α σ}
    (hard : Block.AreHard walk.current.layout.arrangement.blocks) :
    annealer.shrunk (annealer.candidate walk).layout = annealer.candidate walk :=
  shrunk_of_hard (annealer.isCoherent_candidate walk).layout
    (hard.of_map_stock_eq (map_stock_candidate walk))

theorem Iterates.isHard {step : Nat} {temperature : α} {walk next : Walk α σ}
    (iterates : annealer.Iterates step temperature walk next) (hard : walk.IsHard) : next.IsHard := by
  have candidate := hard.current.of_map_stock_eq (annealer.map_stock_candidate walk)
  cases iterates with
  | reject => exact ⟨hard.current, hard.best⟩
  | accept => exact ⟨candidate, hard.best⟩
  | improve => exact ⟨candidate, candidate⟩
  | shrink =>
      have same := annealer.shrunk_candidate hard.current
      constructor
      · rwa [same]
      · rwa [same]

theorem IsCoherent.isHard_run (coherent : annealer.IsCoherent)
    (hard : Block.AreHard annealer.layout.arrangement.blocks) :
    Block.AreHard annealer.run.2.layout.arrangement.blocks := by
  have start : annealer.start.IsHard := ⟨hard, hard⟩
  obtain ⟨_, finish⟩ := coherent.invariant start fun iterates => iterates.isHard
  exact annealer.holds_layout_run (Block.AreHard ·.arrangement.blocks) finish.best finish.current

variable [Number.ComparesLawfully α]

theorem Iterates.cost_best_le {step : Nat} {temperature : α} {walk next : Walk α σ} {limit : α}
    (iterates : annealer.Iterates step temperature walk next) (hard : walk.IsHard)
    (within : walk.best.cost ≤ limit) : next.best.cost ≤ limit := by
  cases iterates with
  | reject => exact within
  | accept => exact within
  | improve _ better =>
      exact Number.ComparesLawfully.le_trans (Number.ComparesLawfully.le_of_lt better) within
  | shrink _ better =>
      rw [annealer.shrunk_candidate hard.current]
      exact Number.ComparesLawfully.le_trans (Number.ComparesLawfully.le_of_lt better) within

/-- A run of hard blocks ends no dearer than it started, if all the costs that it compares do. -/
theorem IsCoherent.cost_run_le_of_hard (coherent : annealer.IsCoherent)
    (hard : Block.AreHard annealer.layout.arrangement.blocks)
    (comparable : ∀ state ∈ annealer.compared, state.cost ≤ state.cost) :
    annealer.run.2.cost ≤ annealer.cost := by
  have ordered : AreOrdered (annealer.compared.map (·.cost)) := by
    apply areOrdered_of_comparable
    rw [List.forall_mem_map]
    exact comparable
  have keeps := coherent.keepsBest ordered
  have best := comparable _ (mem_compared_of_mem_sinceReset keeps.best)
  have current := comparable _ (mem_compared_of_mem_sinceReset keeps.current)
  let holds (walk : Walk α σ) : Prop := walk.IsHard ∧ walk.best.cost ≤ annealer.cost
  have start : holds annealer.start := ⟨⟨hard, hard⟩, comparable _ List.mem_cons_self⟩
  have finish : holds annealer.finish := by
    refine (coherent.invariant start ?_).2
    rintro _ _ _ _ iterates ⟨hard, within⟩
    exact ⟨iterates.isHard hard, iterates.cost_best_le hard within⟩
  rw [← cost_kept coherent, kept]
  split
  next => exact finish.2
  next tied =>
    have notDearer := Number.ComparesLawfully.le_of_not_lt current best tied
    exact Number.ComparesLawfully.le_trans notDearer finish.2

end Annealer

end Floorplanner
