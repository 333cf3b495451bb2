import Floorplanner.Block
import Floorplanner.SequencePair

/-!
Packing a sequence pair.

Every block goes as far left and as far down as the pair lets it. Each axis takes one sweep over
the positive sequence, forwards for `x` and backwards for `y`. The sweep keeps one slot for each
position of the negative sequence: how far the blocks met so far reach that stand at that position
or before it. The slots never decrease from left to right, so raising them to a new reach can stop
at the first that is already as high.
-/

namespace Floorplanner

namespace Packing

variable {α : Type}

/--
The last position of a block in the negative sequence, and zero for a block that is not in it.
-/
def rank (negative : List BlockRef) (ref : BlockRef) : Nat :=
  negative.length - 1 - negative.reverse.idxOf ref

structure Sweep (α : Type) where
  slots : List α
  coordinates : List α

variable [Number α]

/-- Raises slots to `reach`, up to the first that is already as high. -/
def raise (reach : α) : List α → List α
  | [] => []
  | slot :: rest => if slot < reach then reach :: raise reach rest else slot :: rest

def raiseFrom (rank : Nat) (reach : α) (slots : List α) : List α :=
  slots.take rank ++ raise reach (slots.drop rank)

def Sweep.place (extents : List α) (negative : List BlockRef) (sweep : Sweep α)
    (ref : BlockRef) : Sweep α :=
  match extents[ref.index]? with
  | none => sweep
  | some extent =>
      let position := rank negative ref
      let start := sweep.slots.getD position 0
      { slots := raiseFrom position (start + extent) sweep.slots
        coordinates := sweep.coordinates.set ref.index start }

def Sweep.run (extents coordinates : List α) (sequence negative : List BlockRef) : Sweep α :=
  sequence.foldl (Sweep.place extents negative)
    ⟨List.replicate extents.length 0, coordinates⟩

def Sweep.reach (sweep : Sweep α) : α := sweep.slots.getLastD 0

end Packing

open Packing

variable {α : Type} [Number α]

/--
Sets every block of the pair in its place and returns the size of the layout. A block that the
pair leaves out stays where it is.
-/
def pack (blocks : List (Block α)) (pair : SequencePair) : List (Block α) × Size α :=
  let across := Sweep.run (blocks.map (·.width)) (blocks.map (·.x)) pair.positive pair.negative
  let upward := Sweep.run (blocks.map (·.height)) (blocks.map (·.y)) pair.positive.reverse
    pair.negative
  let corners := across.coordinates.zip upward.coordinates
  (List.zipWith (fun block (x, y) => block.moveTo x y) blocks corners,
    ⟨across.reach, upward.reach⟩)

end Floorplanner
