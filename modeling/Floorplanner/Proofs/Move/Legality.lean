import Mathlib
import Floorplanner.Proofs.Block.Shape
import Floorplanner.Proofs.Move.Undo
import Floorplanner.Proofs.Pointwise
import Floorplanner.Proofs.SequencePair.Order

/-!
Arrangements that a search may be in.

A legal arrangement has two orders of the same blocks and a shape for each of them that it may have.
Packing and every random move lead from one legal arrangement to another.
-/

namespace Floorplanner

namespace SequencePair

/-- A pair of two orders of the first `count` blocks. -/
structure Rearranges (count : Nat) (pair : SequencePair) : Prop where
  positive : pair.positive.Perm (identity count).positive
  negative : pair.negative.Perm (identity count).negative

theorem enumerates_identity {count : Nat} (bound : count ≤ 2 ^ 32) :
    Enumerates (identity count).positive count := by
  have indices : ∀ index ∈ List.range count, (Entity.Ref.ofIndex index : BlockRef).index = index :=
    fun index member => Entity.Ref.index_ofIndex ((List.mem_range.mp member).trans_le bound)
  rw [Enumerates, identity, List.map_map]
  exact List.Perm.of_eq ((List.map_congr_left indices).trans (List.map_id' _))

namespace Rearranges

variable {count : Nat} {pair next : SequencePair}

theorem identity (count : Nat) : Rearranges count (identity count) := ⟨.refl _, .refl _⟩

/-- Blocks are referred to by 32 bits, so these are orders as long as there are no more of them. -/
theorem isValid (rearranges : Rearranges count pair) (bound : count ≤ 2 ^ 32) :
    pair.isValid count = true := by
  have row := enumerates_identity bound
  rw [isValid_iff_enumerates]
  constructor
  · exact (rearranges.positive.map _).trans row
  · exact (rearranges.negative.map _).trans row

theorem exchangePositive (rearranges : Rearranges count pair) (i j : Nat) :
    Rearranges count (pair.exchangePositive i j) :=
  ⟨(exchange_perm i j _).trans rearranges.positive, rearranges.negative⟩

theorem exchangeNegative (rearranges : Rearranges count pair) (i j : Nat) :
    Rearranges count (pair.exchangeNegative i j) :=
  ⟨rearranges.positive, (exchange_perm i j _).trans rearranges.negative⟩

theorem swap {α : Type} {kind : Move.Swap} {i j : Nat} {move : Move α}
    (rearranges : Rearranges count pair) (swapped : Move.swap kind pair i j = (move, next)) :
    Rearranges count next := by
  cases kind with
  | positive =>
      cases swapped
      exact rearranges.exchangePositive i j
  | negative =>
      cases swapped
      exact rearranges.exchangeNegative i j
  | double =>
      rw [Move.swap, Move.swapBoth] at swapped
      split at swapped
      · cases swapped
        exact (rearranges.exchangePositive i j).exchangeNegative _ _
      · cases swapped
        exact rearranges.exchangePositive i j

end Rearranges

end SequencePair

variable {α σ : Type} [ExactNumber α]

namespace Block

theorem Form.Allows.reshape [ExactNumber.HasRoots α] [IndexSource σ] [FractionSource σ α]
    [UnitSource σ α] {form : Form α} {outline : Size α} {blocks : List (Block α)}
    {block reshaped : Block α} {source after : σ} (allows : form.Allows block)
    (equality : Move.reshape outline blocks block source = (some reshaped, after)) :
    form.Allows reshaped := by
  rw [Move.reshape] at equality
  split at equality
  · cases equality
    exact allows.switchOption source
  · dsimp only at equality
    split at equality
    · cases equality
      exact allows.randomRatio _
    next direction _ =>
      obtain ⟨target, _, rfl⟩ := Option.map_eq_some_iff.mp (congrArg Prod.fst equality)
      cases direction.axis with
      | x => exact allows.changeWidth target
      | y => exact allows.changeHeight target

def AreReshaped (originals blocks : List (Block α)) : Prop :=
  List.Forall₂ (fun original block => original.form.Allows block) originals blocks

namespace AreReshaped

variable {originals blocks : List (Block α)}

theorem pack (reshaped : AreReshaped originals blocks) (pair : SequencePair) :
    AreReshaped originals (Floorplanner.pack blocks pair).1 := by
  have atOrigin : AreReshaped originals (blocks.map (·.atOrigin)) := by
    rw [AreReshaped, List.forall₂_map_right_iff]
    exact reshaped.imp fun original block allows => allows.moveTo 0 0
  rw [← map_atOrigin_pack blocks pair, AreReshaped, List.forall₂_map_right_iff] at atOrigin
  exact atOrigin.imp fun original block allows => allows.moveTo block.x block.y

theorem set {index : Nat} {block other : Block α} (reshaped : AreReshaped originals blocks)
    (found : blocks[index]? = some block)
    (keeps : ∀ form : Form α, form.Allows block → form.Allows other) :
    AreReshaped originals (blocks.set index other) :=
  forall₂_set_right reshaped found fun original => keeps original.form

theorem shrink (reshaped : AreReshaped originals blocks) {factor : α} (positive : 0 < factor) :
    AreReshaped originals (blocks.map (·.shrink factor)) := by
  rw [AreReshaped, List.forall₂_map_right_iff]
  exact reshaped.imp fun original block allows => allows.shrink positive

variable [ExactNumber.HasRoots α] [IndexSource σ] [FractionSource σ α] [UnitSource σ α]

theorem randomizeAll (reshaped : AreReshaped originals blocks) (source : σ) :
    AreReshaped originals (Block.randomizeAll blocks source).1 := by
  induction reshaped generalizing source with
  | nil => exact .nil
  | cons allows rest induction => exact .cons (allows.randomize source) (induction _)

end AreReshaped

end Block

structure Arrangement.IsLegal (originals : List (Block α)) (arrangement : Arrangement α) :
    Prop where
  pair : arrangement.pair.Rearranges originals.length
  blocks : Block.AreReshaped originals arrangement.blocks

namespace Arrangement.IsLegal

variable {originals : List (Block α)} {arrangement next : Arrangement α}

theorem packed (legal : arrangement.IsLegal originals) : arrangement.packed.IsLegal originals where
  pair := legal.pair
  blocks := legal.blocks.pack _

variable [ExactNumber.HasRoots α] [IndexSource σ] [FractionSource σ α] [UnitSource σ α]
  {outline : Size α} {move : Move α}

theorem step (legal : arrangement.IsLegal originals)
    (step : Move.Step σ outline arrangement move next) : next.IsLegal originals := by
  cases step with
  | none => exact legal
  | resize found equality =>
      refine ⟨legal.pair, legal.blocks.set found ?_⟩
      exact fun form allows => allows.reshape equality
  | swap equality => exact ⟨legal.pair.swap equality, legal.blocks⟩

end Arrangement.IsLegal

end Floorplanner
