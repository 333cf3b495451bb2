import Floorplanner.Entity

/-!
Sequence pairs.

A pair of orders of the same blocks fixes how every two of them lie to each other: a block that
comes first in both orders lies to the left of the other, and one that comes first in the negative
order only lies below it.
-/

namespace Floorplanner

structure SequencePair where
  positive : List BlockRef
  negative : List BlockRef
  deriving Repr, DecidableEq

namespace SequencePair

def identity (count : Nat) : SequencePair :=
  let row := (List.range count).map Entity.Ref.ofIndex
  ⟨row, row⟩

def length (pair : SequencePair) : Nat := pair.positive.length

def isEmpty (pair : SequencePair) : Bool := pair.positive.isEmpty

def distinctBelow (count : Nat) : List BlockRef → List BlockRef → Bool
  | _, [] => true
  | seen, ref :: rest =>
      decide (ref.index < count) && !seen.contains ref && distinctBelow count (ref :: seen) rest

def isOrder (count : Nat) (sequence : List BlockRef) : Bool :=
  sequence.length == count && distinctBelow count [] sequence

def isValid (pair : SequencePair) (count : Nat) : Bool :=
  isOrder count pair.positive && isOrder count pair.negative

def negativePosition? (pair : SequencePair) (ref : BlockRef) : Option Nat :=
  pair.negative.findIdx? (· == ref)

/-- Exchanges the entries at two positions; a position past the end changes nothing. -/
def exchange (i j : Nat) (sequence : List BlockRef) : List BlockRef :=
  match sequence[i]?, sequence[j]? with
  | some first, some second => (sequence.set i second).set j first
  | _, _ => sequence

def exchangePositive (pair : SequencePair) (i j : Nat) : SequencePair :=
  { pair with positive := exchange i j pair.positive }

def exchangeNegative (pair : SequencePair) (i j : Nat) : SequencePair :=
  { pair with negative := exchange i j pair.negative }

@[simp] theorem length_exchange (i j : Nat) (sequence : List BlockRef) :
    (exchange i j sequence).length = sequence.length := by
  unfold exchange
  split <;> simp

@[simp] theorem length_identity (count : Nat) : (identity count).length = count := by
  simp [identity, length]

end SequencePair

end Floorplanner
