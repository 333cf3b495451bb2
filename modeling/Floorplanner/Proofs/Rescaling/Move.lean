import Mathlib
import Floorplanner.Proofs.Rescaling.Block

/-!
Random moves in another unit of length.

A move of a rescaled arrangement asks for the same draws as that of the other and compares the same
numbers, so it is the rescaled move and leads to the rescaled arrangement.
-/

namespace Floorplanner

variable {α σ : Type} [ExactNumber α] (unit : Rescaling α)

@[simps] def Arrangement.rescale (arrangement : Arrangement α) : Arrangement α :=
  ⟨arrangement.blocks.map (Block.rescale unit), arrangement.pair⟩

namespace Move

def rescale : Move α → Move α
  | resize index previous => resize index (previous.rescale unit)
  | positiveSwap i j => positiveSwap i j
  | negativeSwap i j => negativeSwap i j
  | doubleSwap positive negative => doubleSwap positive negative
  | none => none

@[simp] theorem undo_rescale (move : Move α) (arrangement : Arrangement α) :
    (move.rescale unit).undo (arrangement.rescale unit) =
      (move.undo arrangement).rescale unit := by
  cases move with
  | resize index previous =>
      simp only [undo, rescale, Arrangement.rescale, Arrangement.mk.injEq, and_true]
      apply List.ext_getElem?
      intro position
      simp only [List.getElem?_modify, List.getElem?_map]
      cases arrangement.blocks[position]? with
      | none => rfl
      | some block => by_cases same : index = position <;> simp [same]
  | positiveSwap i j => rfl
  | negativeSwap i j => rfl
  | doubleSwap positive negative => rfl
  | none => rfl

@[simp] theorem rescale_swap (kind : Swap) (pair : SequencePair) (i j : Nat) :
    (swap (α := α) kind pair i j).1.rescale unit = (swap kind pair i j).1 := by
  cases kind with
  | positive => rfl
  | negative => rfl
  | double =>
      simp only [swap, swapBoth]
      split <;> rfl

@[simp] theorem stretchTo_rescale (block : Block α) (axis : Axis) (length : α) :
    stretchTo (block.rescale unit) axis (unit.length length) =
      (stretchTo block axis length).rescale unit := by
  cases axis <;> simp [stretchTo]

@[simp] theorem resizable_rescale (blocks : List (Block α)) :
    resizable (blocks.map (Block.rescale unit)) = resizable blocks := by
  simp [resizable, List.zipIdx_map, List.filter_map, Function.comp_def]

variable [IndexSource σ] [FractionSource σ α] (outline : Size α) (thresholds : Thresholds α)
  (blocks : List (Block α)) (arrangement : Arrangement α) (source : σ)

@[simp] theorem reshape_rescale (block : Block α) :
    reshape (outline.rescale unit) (blocks.map (Block.rescale unit)) (block.rescale unit) source =
      (reshape outline blocks block source).map (Option.map (Block.rescale unit)) id := by
  simp only [reshape, Block.isHard_rescale, Block.switchOption_rescale,
    Block.randomRatio_rescale, Block.stretchTarget_rescale]
  split
  · rfl
  · split
    · rfl
    · simp [Function.comp_def]

@[simp] theorem resizeAt_rescale (index : Nat) :
    resizeAt (outline.rescale unit) (blocks.map (Block.rescale unit)) index source =
      (resizeAt outline blocks index source).map
        (Prod.map (rescale unit) (List.map (Block.rescale unit))) id := by
  simp only [resizeAt, List.getElem?_map]
  cases blocks[index]? with
  | none => rfl
  | some block =>
      simp only [Option.map_some, reshape_rescale]
      cases reshape outline blocks block source with
      | mk result source => cases result <;> simp [rescale]

theorem drawKind_rescale :
    drawKind thresholds (blocks.map (Block.rescale unit)) source =
      drawKind thresholds blocks source := by
  simp only [drawKind, resizable_rescale]

@[simp] theorem perturb_rescale :
    perturb (outline.rescale unit) thresholds (arrangement.rescale unit) source =
      (perturb outline thresholds arrangement source).map
        (Prod.map (rescale unit) (Arrangement.rescale unit)) id := by
  simp only [perturb, Arrangement.rescale, List.length_map, drawKind_rescale]
  split
  · rfl
  · cases drawKind thresholds arrangement.blocks source with
    | mk kind source =>
        cases kind with
        | resize index =>
            simp only [resizeAt_rescale]
            rfl
        | swap kind =>
            simp only [Prod.map_apply, rescale_swap]
            rfl

end Move

end Floorplanner
