import Mathlib
import Floorplanner.Proofs.Alignment.HardBlocks
import Floorplanner.Proofs.Block.Shape
import Floorplanner.Proofs.Move.Undo

/-!
What no change of shape or place touches.

A block keeps its name, its kind and its area through every move, through packing and through
alignment. Only shrinking takes something off the area, and only off that of a soft block.
-/

namespace Floorplanner

variable {α σ : Type}

namespace Block

def stock (block : Block α) : String × Bool × α := (block.name, block.isHard, block.area)

theorem stock_withShape (block : Block α) (shape : Shape α) :
    (block.withShape shape).stock = block.stock := by
  cases block with
  | mk name area form => cases form <;> rfl

theorem IsReshaping.stock_eq {block other : Block α} (reshaping : block.IsReshaping other) :
    other.stock = block.stock := by
  calc
    other.stock = (other.withShape block.shape).stock := (stock_withShape other _).symm
    _ = block.stock := congrArg stock reshaping

section Places

variable [Number α] {blocks others : List (Block α)}

theorem map_stock_of_map_atOrigin_eq (same : blocks.map (·.atOrigin) = others.map (·.atOrigin)) :
    blocks.map (·.stock) = others.map (·.stock) := by
  have stocks := congrArg (List.map stock) same
  rwa [List.map_map, List.map_map] at stocks

theorem map_stock_pack (blocks : List (Block α)) (pair : SequencePair) :
    (pack blocks pair).1.map (·.stock) = blocks.map (·.stock) :=
  map_stock_of_map_atOrigin_eq (map_atOrigin_pack blocks pair)

theorem map_stock_alignHard (outline : Size α) (blocks : List (Block α)) :
    (alignHard outline blocks).blocks.map (·.stock) = blocks.map (·.stock) := by
  apply map_stock_of_map_atOrigin_eq
  rw [← List.forall₂_eq_eq_eq, List.forall₂_map_left_iff, List.forall₂_map_right_iff]
  exact (Alignment.alignHard_relocates outline blocks).1.flip.imp fun _ _ relocates => relocates.1

end Places

theorem map_stock_set {blocks : List (Block α)} {index : Nat} {block other : Block α}
    (found : blocks[index]? = some block) (same : other.stock = block.stock) :
    (blocks.set index other).map (·.stock) = blocks.map (·.stock) := by
  induction blocks generalizing index with
  | nil => cases found
  | cons first rest induction =>
      cases index with
      | zero =>
          cases found
          simp [same]
      | succ index =>
          rw [List.set_cons_succ, List.map_cons, List.map_cons, induction found]

section Random

variable [Number α] [IndexSource σ] [FractionSource σ α]

theorem isReshaping_randomize (block : Block α) (source : σ) :
    block.IsReshaping (block.randomize source).1 := by
  rw [randomize]
  split
  · exact isReshaping_randomRatio block source
  · split
    · exact isReshaping_self block
    · exact isReshaping_chooseOption block _

theorem map_stock_randomizeAll (blocks : List (Block α)) (source : σ) :
    (randomizeAll blocks source).1.map (·.stock) = blocks.map (·.stock) := by
  induction blocks generalizing source with
  | nil => rfl
  | cons block rest induction =>
      have first : (block.randomize source).1.stock = block.stock :=
        (isReshaping_randomize block source).stock_eq
      rw [randomizeAll, List.map_cons, List.map_cons, first, induction]

end Random

section Shrinking

theorem shrink_of_isHard [Number α] {block : Block α} (isHard : block.isHard = true) (factor : α) :
    block.shrink factor = block := by
  cases block with
  | mk name area form =>
      cases form with
      | soft => cases isHard
      | hard => rfl

variable [ExactNumber α]

/-- What is left of a block after some shrinks: all of it if it is hard. -/
def stockAfter (factor : α) (times : Nat) (block : Block α) : String × Bool × α :=
  (block.name, block.isHard, if block.isHard then block.area else block.area * factor ^ (2 * times))

theorem stockAfter_zero (factor : α) (block : Block α) : block.stockAfter factor 0 = block.stock := by
  simp [stockAfter, stock]

theorem stock_shrink {form : Form α} {block original : Block α} {factor : α} {times : Nat}
    (allows : form.Allows block) (same : block.stock = original.stockAfter factor times) :
    (block.shrink factor).stock = original.stockAfter factor (times + 1) := by
  obtain ⟨name, kind, area⟩ : block.name = original.name ∧ block.isHard = original.isHard ∧
      block.area = if original.isHard then original.area
        else original.area * factor ^ (2 * times) := by
    simpa [stock, stockAfter] using same
  cases allows with
  | hard form size =>
      have isHard : block.isHard = true := by rw [Block.isHard, isSoft, form]; rfl
      rw [← kind, if_pos isHard] at area
      rw [shrink_of_isHard isHard, stock, stockAfter, ← kind, if_pos isHard, name, area]
  | soft ranges limits positive sides ratio =>
      have isSoft : block.isHard = false := by rw [Block.isHard, Block.isSoft, limits]; rfl
      have shrunk : (block.shrink factor).stock =
          (block.name, false, block.width * factor * (block.height * factor)) := by
        rw [shrink, limits]
        rfl
      rw [← kind, isSoft, if_neg Bool.false_ne_true] at area
      have factored : block.width * factor * (block.height * factor) =
          original.area * factor ^ (2 * (times + 1)) := by
        rw [mul_mul_mul_comm, sides, area]
        ring
      rw [shrunk, stockAfter, ← kind, isSoft, if_neg Bool.false_ne_true, name, factored]

end Shrinking

end Block

theorem Move.Step.map_stock [Number α] [IndexSource σ] [FractionSource σ α] {outline : Size α}
    {arrangement next : Arrangement α} {move : Move α}
    (step : Move.Step σ outline arrangement move next) :
    next.blocks.map (·.stock) = arrangement.blocks.map (·.stock) := by
  cases step with
  | none => rfl
  | resize found equality =>
      exact Block.map_stock_set found (isReshaping_reshape equality).stock_eq
  | swap => rfl

end Floorplanner
