import Floorplanner.Block.Reshape

/-!
What a change of shape leaves alone.

However a block is given another width and height or another option, its former shape puts it back
as it was.
-/

namespace Floorplanner

namespace Block

variable {α σ : Type}

def IsReshaping (block other : Block α) : Prop := other.withShape block.shape = block

theorem isReshaping_self (block : Block α) : block.IsReshaping block := block.withShape_shape

theorem isReshaping_resized (block : Block α) (width height : α) :
    block.IsReshaping { block with width, height } := by
  cases block with
  | mk name area form => cases form <;> rfl

@[simp] theorem moveTo_withShape (block : Block α) (shape : Shape α) (x y : α) :
    (block.moveTo x y).withShape shape = (block.withShape shape).moveTo x y := by
  cases block with
  | mk name area form => cases form <;> rfl

theorem isReshaping_chooseOption (block : Block α) (index : Nat) :
    block.IsReshaping (block.chooseOption index) := by
  cases block with
  | mk name area form width height x y =>
      cases form with
      | soft => exact isReshaping_self _
      | hard macros options current =>
          simp only [chooseOption]
          split
          · exact isReshaping_self _
          · rfl

theorem isReshaping_switchOption [IndexSource σ] (block : Block α) (source : σ) :
    block.IsReshaping (block.switchOption source).1 := by
  rw [switchOption]
  split
  · exact isReshaping_self block
  · split
    · exact isReshaping_self block
    · exact isReshaping_chooseOption block _

variable [Number α]

theorem isReshaping_withRatio (block : Block α) (ratio : α) :
    block.IsReshaping (block.withRatio ratio) :=
  isReshaping_resized block _ _

theorem isReshaping_changeWidth (block : Block α) (wanted : α) :
    block.IsReshaping (block.changeWidth wanted) := by
  rw [changeWidth]
  split
  · exact isReshaping_self block
  · split
    · exact isReshaping_resized block _ _
    · exact isReshaping_self block

theorem isReshaping_changeHeight (block : Block α) (wanted : α) :
    block.IsReshaping (block.changeHeight wanted) := by
  rw [changeHeight]
  split
  · exact isReshaping_self block
  · split
    · exact isReshaping_resized block _ _
    · exact isReshaping_self block

variable [IndexSource σ] [FractionSource σ α]

theorem isReshaping_randomRatio (block : Block α) (source : σ) :
    block.IsReshaping (block.randomRatio source).1 := by
  rw [randomRatio]
  split
  · exact isReshaping_self block
  · split
    · exact isReshaping_self block
    · simp only
      split
      · exact isReshaping_self block
      · split <;> exact isReshaping_withRatio block _

end Block

end Floorplanner
