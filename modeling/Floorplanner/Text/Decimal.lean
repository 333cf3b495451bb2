import Floorplanner.Binary64

/-!
Decimal numerals of binary numbers.

The shortest numeral of a number lies on the coarsest grid of powers of ten with a point that reads
back as the number. The points to look at are the two around the number itself: if any point of the
grid reads back, one of these does.
-/

namespace Floorplanner

structure Decimal where
  digits : Nat
  exponent : Int
  deriving Repr, DecidableEq

namespace Decimal

inductive Tie where
  | even
  | up
  deriving Repr, DecidableEq

/-- A positive number and the numbers around it, in quarters of its last binary place. -/
structure Neighborhood where
  low : Nat
  value : Nat
  high : Nat
  /-- Whether the ends read back as the number too. -/
  closed : Bool
  exponent : Int

/--
The neighbourhood of a mantissa times a power of two. The number below is nearer if the mantissa is
the least of its exponent.
-/
def Neighborhood.of (mantissa : Nat) (exponent : Int) : Neighborhood where
  low := if mantissa = Binary64.hiddenBit ∧ Binary64.leastExponent < exponent then 4 * mantissa - 1
    else 4 * mantissa - 2
  value := 4 * mantissa
  high := 4 * mantissa + 2
  closed := mantissa % 2 = 0
  exponent := exponent - 2

def gridPoint? (tie : Tie) (around : Neighborhood) (grid : Int) : Option Nat :=
  let binary := fun quarters => quarters <<< around.exponent.toNat * Nat.pow 10 (-grid).toNat
  let decimal := fun point => point <<< (-around.exponent).toNat * Nat.pow 10 grid.toNat
  let value := binary around.value
  let readsBack := fun point =>
    if around.closed then
      decide (binary around.low ≤ decimal point) && decide (decimal point ≤ binary around.high)
    else
      decide (binary around.low < decimal point) && decide (decimal point < binary around.high)
  let below := value / decimal 1
  let above := below + 1
  match decide (0 < below) && readsBack below, readsBack above with
  | true, true =>
      let toBelow := value - decimal below
      let toAbove := decimal above - value
      if toBelow < toAbove then some below
      else if toAbove < toBelow then some above
      else
        match tie with
        | .even => some (below + below % 2)
        | .up => some above
  | true, false => some below
  | false, true => some above
  | false, false => none

/-- Looks through the grids from a coarse one down; `left` of them, then the last as it comes. -/
def search (tie : Tie) (around : Neighborhood) : (left : Nat) → (grid : Int) → Decimal
  | 0, grid => ⟨(gridPoint? tie around grid).getD 0, grid⟩
  | left + 1, grid =>
      match gridPoint? tie around grid with
      | some point => ⟨point, grid⟩
      | none => search tie around left (grid - 1)

/-- The number of grids to look through: seventeen digits tell all numbers apart. -/
def gridCount : Nat := 24

def shortest (tie : Tie) (mantissa : Nat) (exponent : Int) : Decimal :=
  if mantissa = 0 then ⟨0, 0⟩
  else
    let magnitude : Int := (Nat.log2 mantissa : Int) + exponent
    search tie (.of mantissa exponent) gridCount (magnitude * 30103 / 100000 + 1)

def inPlaces (places mantissa : Nat) (exponent : Int) : Nat :=
  let (num, den) := Binary64.scale mantissa 2 exponent
  Binary64.divideHalfEven (num * Nat.pow 10 places) den

/-- The largest power of ten that is looked at in full: what lies beyond is infinite or zero. -/
def exponentLimit : Int := 400

def toFloat (numeral : Decimal) : Float :=
  let { digits, exponent } := numeral
  let size : Int := (Nat.log2 digits : Int) * 30103 / 100000
  if digits = 0 then 0.0
  else if exponentLimit < size + exponent then Float.ofBits 0x7ff0000000000000
  else if size + exponent < -exponentLimit then 0.0
  else
    let (num, den) := Binary64.scale digits 10 exponent
    Binary64.ofQuotient num den

end Decimal

end Floorplanner
