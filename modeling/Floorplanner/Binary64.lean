import Floorplanner.Number

/-!
Binary floating point of 64 bits.

A finite number is a whole mantissa times a power of two. Numbers are taken apart and put together
exactly; a quotient of whole numbers is rounded to the nearest number, half to the even mantissa.
-/

namespace Floorplanner

namespace Binary64

def signBit : Nat := 1 <<< 63

def hiddenBit : Nat := 1 <<< 52

/-- The smaller number; a NaN gives way to the other operand, and of equal operands the first stays. -/
def min (a b : Float) : Float :=
  if a.isNaN then b else if b < a then b else a

def max (a b : Float) : Float :=
  if a.isNaN then b else if b > a then b else a

/--
Position of a number in the total order by bit pattern: negative numbers count down from their
magnitude, so `-0` sorts before `0` and every NaN to the end of its sign.
-/
def sortKey (x : Float) : Int :=
  let bits := x.toBits.toNat
  if bits < signBit then bits else -((bits : Int) - signBit) - 1

def ofCount (count : Nat) : Float :=
  if count < UInt64.size then count.toUInt64.toFloat else Float.ofNat count

def wholePart (x : Float) : Nat := x.toUInt64.toNat

inductive Parts where
  | finite (negative : Bool) (mantissa : Nat) (exponent : Int)
  | infinite (negative : Bool)
  | nan
  deriving Repr, DecidableEq

def leastExponent : Int := -1074

def parts (x : Float) : Parts :=
  let bits : Nat := x.toBits.toNat
  let negative := decide (signBit ≤ bits)
  let biased : Nat := bits / hiddenBit % 2048
  let fraction : Nat := bits % hiddenBit
  if biased = 2047 then (if fraction = 0 then .infinite negative else .nan)
  else if biased = 0 then .finite negative fraction leastExponent
  else .finite negative (hiddenBit + fraction) (leastExponent + biased - 1)

def divideHalfEven (num den : Nat) : Nat :=
  let floor := num / den
  let rest := 2 * (num % den)
  if rest < den then floor
  else if den < rest then floor + 1
  else floor + floor % 2

def scale (value base : Nat) (exponent : Int) : Nat × Nat :=
  (value * base.pow exponent.toNat, base.pow (-exponent).toNat)

/--
The number nearest to a positive quotient. The mantissa is the quotient over the power of two that
leaves it 53 bits, or over the least one. A mantissa that rounds up to 54 bits carries into the
exponent, and what lies beyond the largest exponent is infinite.
-/
def ofQuotient (num den : Nat) : Float :=
  let wide : Int := (Nat.log2 num : Int) - Nat.log2 den - 53
  let (wideNum, wideDen) := scale 1 2 (-wide)
  let exponent :=
    if num * wideNum / (den * wideDen) < 2 * hiddenBit then wide else wide + 1
  let exponent := if exponent < leastExponent then leastExponent else exponent
  let (shiftNum, shiftDen) := scale 1 2 (-exponent)
  let mantissa := divideHalfEven (num * shiftNum) (den * shiftDen)
  let bits := (exponent - leastExponent + 1).toNat * hiddenBit + mantissa - hiddenBit
  Float.ofBits (Nat.min bits 0x7ff0000000000000).toUInt64

end Binary64

instance : Number Float where
  zero := 0.0
  one := 1.0
  natCast := Binary64.ofCount
  min := Binary64.min
  max := Binary64.max
  decLe := inferInstance
  decLt := inferInstance
  abs := Float.abs
  sqrt := Float.sqrt
  exp := Float.exp
  log := Float.log
  isFinite := Float.isFinite
  sortsBefore a b := decide (Binary64.sortKey a ≤ Binary64.sortKey b)
  wholePart := Binary64.wholePart

end Floorplanner
