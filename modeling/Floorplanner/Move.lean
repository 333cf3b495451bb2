import Floorplanner.Block.Reshape
import Floorplanner.Block.Stretch
import Floorplanner.Config
import Floorplanner.SequencePair

/-!
Random moves on an arrangement of blocks, and how each is taken back.

A move either reshapes one block or exchanges two blocks in one of the orders or in both. It leaves
a record of what it changed. Places are not part of a move: they follow from shapes and orders.
-/

namespace Floorplanner

structure Arrangement (α : Type) where
  blocks : List (Block α)
  pair : SequencePair
  deriving Repr, DecidableEq

inductive Move (α : Type) where
  /-- The index of a block and the shape that it had. -/
  | resize (block : Nat) (previous : Block.Shape α)
  | positiveSwap (i j : Nat)
  | negativeSwap (i j : Nat)
  /-- The positions of the same two blocks in both sequences. -/
  | doubleSwap (positive negative : Nat × Nat)
  | none
  deriving Repr, DecidableEq

namespace Move

variable {α σ : Type}

inductive Swap where
  | positive
  | negative
  | double
  deriving Repr, DecidableEq

/-- The largest draws that still mean a resize, a positive swap and a negative swap. -/
structure Thresholds (α : Type) where
  resize : α
  positiveSwap : α
  negativeSwap : α
  deriving Repr, DecidableEq

def undo (move : Move α) (arrangement : Arrangement α) : Arrangement α :=
  let { blocks, pair } := arrangement
  match move with
  | resize index previous => ⟨blocks.modify index (·.withShape previous), pair⟩
  | positiveSwap i j => ⟨blocks, pair.exchangePositive i j⟩
  | negativeSwap i j => ⟨blocks, pair.exchangeNegative i j⟩
  | doubleSwap (i, j) (k, l) => ⟨blocks, (pair.exchangeNegative k l).exchangePositive i j⟩
  | none => arrangement

/--
Exchanges the blocks at two positive positions in both sequences. If one of them is missing from
the negative sequence, only the positive one changes.
-/
def swapBoth (pair : SequencePair) (i j : Nat) : Move α × SequencePair :=
  let swapped := pair.exchangePositive i j
  match swapped.positive[i]?.bind swapped.negativePosition?,
      swapped.positive[j]?.bind swapped.negativePosition? with
  | some k, some l => (doubleSwap (i, j) (k, l), swapped.exchangeNegative k l)
  | _, _ => (positiveSwap i j, swapped)

def swap (kind : Swap) (pair : SequencePair) (i j : Nat) : Move α × SequencePair :=
  match kind with
  | .positive => (positiveSwap i j, pair.exchangePositive i j)
  | .negative => (negativeSwap i j, pair.exchangeNegative i j)
  | .double => swapBoth pair i j

variable [Number α]

def Thresholds.ofProbabilities (moves : Config.Moves α) : Thresholds α :=
  let positiveSwap := moves.resize + moves.positiveSwap
  { resize := moves.resize, positiveSwap, negativeSwap := positiveSwap + moves.negativeSwap }

def Thresholds.swapKind (thresholds : Thresholds α) (draw : α) : Swap :=
  if draw ≤ thresholds.positiveSwap then .positive
  else if draw ≤ thresholds.negativeSwap then .negative
  else .double

inductive Reshaping where
  | ratio
  | stretch (direction : Block.Direction)
  deriving Repr, DecidableEq

/-- A fifth of the draws each for a new ratio and the four directions. -/
def Reshaping.ofDraw (draw : α) : Reshaping :=
  if draw ≤ Number.ratio 2 10 then ratio
  else if draw ≤ Number.ratio 4 10 then stretch .right
  else if draw ≤ Number.ratio 6 10 then stretch .left
  else if draw ≤ Number.ratio 8 10 then stretch .top
  else stretch .bottom

def stretchTo (block : Block α) (axis : Axis) (length : α) : Block α :=
  match axis with
  | .x => block.changeWidth length
  | .y => block.changeHeight length

variable [IndexSource σ] [FractionSource σ α]

/--
A swap in the place of a resize that no block can make. The kinds of swap keep their weights among
themselves; if they have none, all are as probable.
-/
def Thresholds.redraw (thresholds : Thresholds α) (source : σ) : Swap × σ :=
  let mass := 1 - thresholds.resize
  if mass ≤ 0 then
    let (index, source) := IndexSource.smallIndex 3 source
    match index with
    | 0 => (.positive, source)
    | 1 => (.negative, source)
    | _ => (.double, source)
  else
    let (fraction, source) := FractionSource.fraction source
    (thresholds.swapKind (thresholds.resize + mass * fraction), source)

def distinctPair (count : Nat) (source : σ) : (Nat × Nat) × σ :=
  let (i, source) := IndexSource.index count source
  let (j, source) := IndexSource.index (count - 1) source
  ((i, Block.skip i j), source)

def reshape (outline : Size α) (blocks : List (Block α)) (block : Block α) (source : σ) :
    Option (Block α) × σ :=
  if block.isHard then
    let (block, source) := block.switchOption source
    (some block, source)
  else
    let (draw, source) := FractionSource.fraction source
    match Reshaping.ofDraw (draw : α) with
    | .ratio =>
        let (block, source) := block.randomRatio source
        (some block, source)
    | .stretch direction =>
        ((block.stretchTarget blocks outline direction).map (stretchTo block direction.axis),
          source)

def resizeAt (outline : Size α) (blocks : List (Block α)) (index : Nat) (source : σ) :
    (Move α × List (Block α)) × σ :=
  match blocks[index]? with
  | .none => ((none, blocks), source)
  | some block =>
      match reshape outline blocks block source with
      | (.none, source) => ((none, blocks), source)
      | (some reshaped, source) => ((resize index block.shape, blocks.set index reshaped), source)

def resizable (blocks : List (Block α)) : List Nat :=
  (blocks.zipIdx.filter (·.1.isResizable)).map (·.2)

inductive Kind where
  | resize (index : Nat)
  | swap (kind : Swap)
  deriving Repr, DecidableEq

def drawKind (thresholds : Thresholds α) (blocks : List (Block α)) (source : σ) : Kind × σ :=
  let (draw, source) := FractionSource.fraction source
  if draw ≤ thresholds.resize then
    let candidates := resizable blocks
    if candidates.isEmpty then
      let (kind, source) := thresholds.redraw source
      (.swap kind, source)
    else
      let (index, source) := IndexSource.index candidates.length source
      (.resize (candidates.getD index 0), source)
  else (.swap (thresholds.swapKind draw), source)

/--
Makes one random move. The blocks have to be in their places, because stretches look at those of
the others. Fewer than two blocks have no move.
-/
def perturb (outline : Size α) (thresholds : Thresholds α) (arrangement : Arrangement α)
    (source : σ) : (Move α × Arrangement α) × σ :=
  let { blocks, pair } := arrangement
  if blocks.length < 2 then ((none, arrangement), source)
  else
    match drawKind thresholds blocks source with
    | (.resize index, source) =>
        let ((move, blocks), source) := resizeAt outline blocks index source
        ((move, ⟨blocks, pair⟩), source)
    | (.swap kind, source) =>
        let ((i, j), source) := distinctPair blocks.length source
        let (move, pair) := swap kind pair i j
        ((move, ⟨blocks, pair⟩), source)

end Move

end Floorplanner
