import Mathlib
import Floorplanner.Proofs.Annealing.BestLayout
import Floorplanner.Proofs.Annealing.Legality
import Floorplanner.Proofs.Block.Stock

/-!
How a run shrinks the soft blocks.

All soft blocks shrink at once, and the run counts how often. The walk and its best layout have
shrunk equally often at every moment, so whichever of them the run leaves behind, its count says what
became of the areas. The count survives restarts, and it only rises while it is within its limit.
-/

namespace Floorplanner

variable {α σ : Type}

namespace Annealer

section Count

variable [Number α] (annealer : Annealer α σ)

/-- A walk goes on without a shrink, or with one that was still allowed. -/
def ShrinksWithin (walk next : Walk α σ) : Prop :=
  next.shrinks = walk.shrinks ∨
    next.shrinks = walk.shrinks + 1 ∧ walk.shrinks ≤ shrinkLimit annealer.config.shrinking

theorem shrinksWithin_accept (step : Nat) (next : Snapshot α) (walk : Walk α σ) :
    annealer.ShrinksWithin walk (annealer.accept step next walk) := by
  rw [accept]
  split
  · split
    next shrinks =>
      rw [shrinksAt, Bool.and_eq_true, Bool.and_eq_true, decide_eq_true_eq] at shrinks
      exact .inr ⟨rfl, shrinks.1.1⟩
    next => exact .inl rfl
  · exact .inl rfl

variable [IndexSource σ] [FractionSource σ α]

theorem shrinksWithin_after (iteration : Iteration α σ) :
    annealer.ShrinksWithin iteration.walk (annealer.after iteration) := by
  rw [after, iterate_eq]
  dsimp only
  split
  · exact annealer.shrinksWithin_accept _ _ _
  · exact .inl rfl

theorem shrinks_finish_le : annealer.finish.shrinks ≤ shrinkLimit annealer.config.shrinking + 1 := by
  let isWithin (walk : Walk α σ) : Prop := walk.shrinks ≤ shrinkLimit annealer.config.shrinking + 1
  have keeps (iteration : Iteration α σ) (within : isWithin iteration.walk) :
      isWithin (annealer.after iteration) := by
    rcases annealer.shrinksWithin_after iteration with kept | ⟨risen, allowed⟩
    · exact kept.trans_le within
    · exact risen.trans_le (Nat.succ_le_succ allowed)
  exact (annealer.chain_log.invariant (Nat.zero_le _) keeps).2

theorem Chain.shrinks_eq {annealer : Annealer α σ} {first last : Walk α σ}
    {log : List (Iteration α σ)} (chain : annealer.Chain first log last) :
    last.shrinks = first.shrinks + log.countP annealer.shrinksIn := by
  induction chain with
  | nil => rfl
  | cons iteration chain induction =>
      rw [induction, List.countP_cons, shrinksIn]
      rcases annealer.shrinksWithin_after iteration with kept | ⟨risen, _⟩
      · simp [kept]
      · simp [risen]
        omega

theorem shrinks_finish_eq : annealer.finish.shrinks = annealer.log.countP annealer.shrinksIn := by
  rw [annealer.chain_log.shrinks_eq]
  exact Nat.zero_add _

end Count

end Annealer

variable [ExactNumber α] {originals : List (Block α)} {factor : α} {times : Nat}

theorem Block.AreReshaped.map_stock_shrink {blocks : List (Block α)}
    (reshaped : AreReshaped originals blocks)
    (same : blocks.map (·.stock) = originals.map (·.stockAfter factor times)) :
    (blocks.map (·.shrink factor)).map (·.stock) =
      originals.map (·.stockAfter factor (times + 1)) := by
  induction reshaped with
  | nil => rfl
  | cons allows _ induction =>
      simp only [List.map_cons, List.cons.injEq] at same ⊢
      exact ⟨stock_shrink allows same.1, induction same.2⟩

structure Arrangement.IsShrunk (originals : List (Block α)) (factor : α) (times : Nat)
    (arrangement : Arrangement α) : Prop where
  legal : arrangement.IsLegal originals
  stock : arrangement.blocks.map (·.stock) = originals.map (·.stockAfter factor times)

namespace Arrangement.IsShrunk

variable {arrangement next : Arrangement α}

theorem packed (shrunk : arrangement.IsShrunk originals factor times) :
    arrangement.packed.IsShrunk originals factor times where
  legal := shrunk.legal.packed
  stock := (Block.map_stock_pack _ _).trans shrunk.stock

theorem shrink (shrunk : arrangement.IsShrunk originals factor times) (positive : 0 < factor) :
    Arrangement.IsShrunk originals factor (times + 1)
      ⟨arrangement.blocks.map (·.shrink factor), arrangement.pair⟩ where
  legal := ⟨shrunk.legal.pair, shrunk.legal.blocks.shrink positive⟩
  stock := shrunk.legal.blocks.map_stock_shrink shrunk.stock

variable [ExactNumber.HasRoots α] [IndexSource σ] [FractionSource σ α] [UnitSource σ α]

theorem step {outline : Size α} {move : Move α} (shrunk : arrangement.IsShrunk originals factor times)
    (step : Move.Step σ outline arrangement move next) : next.IsShrunk originals factor times where
  legal := shrunk.legal.step step
  stock := step.map_stock.trans shrunk.stock

end Arrangement.IsShrunk

structure Walk.IsShrunk (originals : List (Block α)) (factor : α) (times : Nat) (walk : Walk α σ) :
    Prop where
  current : walk.current.layout.arrangement.IsShrunk originals factor (times + walk.shrinks)
  best : walk.best.layout.arrangement.IsShrunk originals factor (times + walk.shrinks)

namespace Annealer

variable {annealer : Annealer α σ} {layout : Layout α}

theorem isShrunk_shrunk (positive : 0 < annealer.config.shrinking.factor)
    (shrunk : layout.arrangement.IsShrunk originals annealer.config.shrinking.factor times) :
    (annealer.shrunk layout).layout.arrangement.IsShrunk originals
      annealer.config.shrinking.factor (times + 1) :=
  (shrunk.shrink positive).packed

variable [ExactNumber.HasRoots α] [IndexSource σ] [FractionSource σ α] [UnitSource σ α]

theorem isShrunk_propose (shrunk : layout.arrangement.IsShrunk originals factor times) (source : σ) :
    (annealer.propose layout source).1.2.arrangement.IsShrunk originals factor times :=
  Arrangement.IsShrunk.packed (shrunk.step (Move.step_perturb rfl))

theorem Iterates.isShrunk {step : Nat} {temperature : α} {walk next : Walk α σ}
    (iterates : annealer.Iterates step temperature walk next)
    (positive : 0 < annealer.config.shrinking.factor)
    (shrunk : walk.IsShrunk originals annealer.config.shrinking.factor times) :
    next.IsShrunk originals annealer.config.shrinking.factor times := by
  have candidate : (annealer.candidate walk).layout.arrangement.IsShrunk originals
      annealer.config.shrinking.factor (times + walk.shrinks) :=
    isShrunk_propose shrunk.current walk.source
  cases iterates with
  | reject => exact ⟨shrunk.current, shrunk.best⟩
  | accept => exact ⟨candidate, shrunk.best⟩
  | improve => exact ⟨candidate, candidate⟩
  | shrink => exact ⟨isShrunk_shrunk positive candidate, isShrunk_shrunk positive candidate⟩

theorem IsCoherent.isShrunk_run (coherent : annealer.IsCoherent)
    (positive : 0 < annealer.config.shrinking.factor)
    (shrunk : annealer.layout.arrangement.IsShrunk originals annealer.config.shrinking.factor times) :
    annealer.run.2.layout.arrangement.IsShrunk originals annealer.config.shrinking.factor
      (times + annealer.finish.shrinks) := by
  have start : annealer.start.IsShrunk originals annealer.config.shrinking.factor times :=
    ⟨shrunk, shrunk⟩
  obtain ⟨_, finish⟩ := coherent.invariant start fun iterates => iterates.isShrunk positive
  exact annealer.holds_layout_run (·.arrangement.IsShrunk _ _ _) finish.best finish.current

end Annealer

end Floorplanner
