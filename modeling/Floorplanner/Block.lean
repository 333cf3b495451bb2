import Floorplanner.Geometry

/-!
Placeable blocks.

A soft block has an area and a free aspect ratio (height over width) within one or more ranges. A
hard block is a group of macros that takes one of a list of sizes.
-/

namespace Floorplanner

variable {α : Type}

namespace Block

inductive Form (α : Type) where
  | soft (ratios widths heights : List (Interval α))
  /-- The number of macros, the sizes to choose from and the position of the chosen one. -/
  | hard (macros : Nat) (options : List (Size α)) (current : Nat)
  deriving Repr, DecidableEq

/-- What a change of shape can alter in a block. The option of a soft block is zero. -/
structure Shape (α : Type) where
  width : α
  height : α
  option : Nat
  deriving Repr, DecidableEq

inductive Direction where
  | right
  | left
  | top
  | bottom
  deriving Repr, DecidableEq

def Direction.axis : Direction → Axis
  | right | left => .x
  | top | bottom => .y

def Direction.isForward : Direction → Bool
  | right | top => true
  | left | bottom => false

end Block

structure Block (α : Type) where
  name : String
  area : α
  form : Block.Form α
  width : α
  height : α
  x : α
  y : α
  deriving Repr, DecidableEq

namespace Block

def isSoft (block : Block α) : Bool :=
  match block.form with
  | .soft .. => true
  | .hard .. => false

def isHard (block : Block α) : Bool := !block.isSoft

def macros (block : Block α) : Nat :=
  match block.form with
  | .soft .. => 0
  | .hard macros .. => macros

def isResizable (block : Block α) : Bool :=
  match block.form with
  | .soft .. => true
  | .hard _ options _ => decide (1 < options.length)

def shape (block : Block α) : Shape α :=
  match block.form with
  | .soft .. => ⟨block.width, block.height, 0⟩
  | .hard _ _ current => ⟨block.width, block.height, current⟩

def withShape (block : Block α) (shape : Shape α) : Block α :=
  match block.form with
  | .soft .. => { block with width := shape.width, height := shape.height }
  | .hard macros options _ =>
      { block with
        width := shape.width
        height := shape.height
        form := .hard macros options shape.option }

def moveTo (block : Block α) (x y : α) : Block α := { block with x, y }

@[simp] theorem withShape_shape (block : Block α) : block.withShape block.shape = block := by
  cases block with
  | mk name area form width height x y => cases form <;> rfl

@[simp] theorem shape_moveTo (block : Block α) (x y : α) :
    (block.moveTo x y).shape = block.shape := by
  cases block with
  | mk name area form width height x₀ y₀ => cases form <;> rfl

variable [Number α]

def footprint (block : Block α) : Rect α :=
  .ofOrigin block.x block.y block.width block.height

def center (block : Block α) : Point α :=
  ⟨block.x + block.width / (2 : Nat), block.y + block.height / (2 : Nat)⟩

def heightRange (area : α) (ratios : Interval α) : Interval α :=
  ⟨Number.sqrt (area * ratios.low), Number.sqrt (area * ratios.high)⟩

def widthRange (area : α) (ratios : Interval α) : Interval α :=
  ⟨area / (heightRange area ratios).high, area / (heightRange area ratios).low⟩

def Form.ofRatios (area : α) (ratios : List (Interval α)) : Form α :=
  .soft ratios (ratios.map (widthRange area)) (ratios.map (heightRange area))

def withRatio (block : Block α) (ratio : α) : Block α :=
  let height := Number.sqrt (block.area * ratio)
  { block with height, width := block.area / height }

def rangeSortsBefore (r s : Interval α) : Bool :=
  if Number.sortsBefore r.low s.low && Number.sortsBefore s.low r.low then
    Number.sortsBefore r.high s.high
  else
    Number.sortsBefore r.low s.low

/--
A soft block. Its ranges are kept in order of their lower ends, and it starts with the lowest ratio
of the first.
-/
def soft (name : String) (area : α) (ratios : List (Interval α)) : Block α :=
  let sorted := ratios.mergeSort rangeSortsBefore
  let block : Block α :=
    { name, area, form := .ofRatios area sorted, width := 0, height := 0, x := 0, y := 0 }
  block.withRatio (sorted.head?.elim 1 Interval.low)

def hard (name : String) (area : α) (macros : Nat) (options : List (Size α)) : Block α :=
  let size := options.headD .zero
  { name, area, form := .hard macros options 0,
    width := size.width, height := size.height, x := 0, y := 0 }

end Block

end Floorplanner
