import Floorplanner.Text.Decimal
import Floorplanner.Text.Json

/-!
The numbers that JSON numerals stand for.

A numeral without fraction and exponent is whole, as long as it fits 64 bits. All others are binary
floating point: of their digits as many count as fit 64 bits, and the result is scaled by powers of
ten in one or more roundings, so it can be a little off the nearest number. A numeral beyond the
largest number stands for none.
-/

namespace Floorplanner

namespace Json

inductive Numeral where
  | whole (value : Int)
  | real (value : Float)

namespace Numeral

def wordLimit : Nat := UInt64.size - 1

def exponentLimit : Nat := 0x7fffffff

def digitValue (c : Char) : Nat := c.toNat - 48

structure Significand where
  value : Nat
  dropped : Nat

/-- Takes a digit in, unless digits have been left out or it makes the number too large. -/
def Significand.push (significand : Significand) (digit : Nat) : Significand :=
  let value := significand.value * 10 + digit
  if significand.dropped = 0 ∧ value ≤ wordLimit then ⟨value, 0⟩
  else { significand with dropped := significand.dropped + 1 }

def Significand.ofDigits (start : Significand) (digits : List Char) : Significand :=
  (digits.map digitValue).foldl push start

def powerOfTen (exponent : Nat) : Float := Decimal.toFloat ⟨1, exponent⟩

/-- Divides by the largest power of ten again and again, while the exponent is below it. -/
def lower : (steps : Nat) → Float → Nat → Float
  | 0, value, _ => value
  | steps + 1, value, exponent =>
      if exponent ≤ 308 then value / powerOfTen exponent
      else if value == 0.0 then value
      else lower steps (value / powerOfTen 308) (exponent - 308)

def scaled? (significand : Nat) (exponent : Int) : Option Float :=
  let value := significand.toUInt64.toFloat
  if exponent < 0 then some (lower 8 value exponent.natAbs)
  else if exponent ≤ 308 then
    let product := value * powerOfTen exponent.toNat
    if product.isInf then none else some product
  else if value == 0.0 then some value
  else none

structure Parts where
  negative : Bool
  whole : List Char
  fraction : List Char
  exponentNegative : Bool
  exponent : List Char

def isExponentMark (c : Char) : Bool := c == 'e' || c == 'E'

def Parts.ofLexeme (lexeme : List Char) : Parts :=
  let negative := lexeme.head? == some '-'
  let unsigned := if negative then lexeme.tail else lexeme
  let mantissa := unsigned.takeWhile (!isExponentMark ·)
  let exponent := (unsigned.dropWhile (!isExponentMark ·)).tail
  { negative
    whole := mantissa.takeWhile (·.isDigit)
    fraction := (mantissa.dropWhile (·.isDigit)).tail
    exponentNegative := exponent.head? == some '-'
    exponent := exponent.dropWhile (!·.isDigit) }

/--
The exponent of a numeral, given that of its digits. One that does not fit 32 bits is beyond every
number; what the digits say is then of no account, unless they are all zero.
-/
def Parts.power (parts : Parts) (start : Int) : Option Int :=
  let written := parts.exponent.foldl (fun value c => value * 10 + digitValue c) 0
  if exponentLimit < written then none
  else if parts.exponentNegative then some (max (start - written) (-exponentLimit - 1))
  else some (min (start + written) exponentLimit)

def signed (negative : Bool) (value : Float) : Float := if negative then -value else value

def Parts.real? (parts : Parts) : Option Numeral :=
  let whole := Significand.ofDigits ⟨0, 0⟩ parts.whole
  let all := Significand.ofDigits ⟨whole.value, 0⟩ parts.fraction
  let kept : Int := (parts.fraction.length - all.dropped : Nat)
  let start : Int := whole.dropped - kept
  match parts.power start with
  | some power => (scaled? all.value power).map fun value => .real (signed parts.negative value)
  | none =>
      if all.value ≠ 0 ∧ !parts.exponentNegative then none
      else some (.real (signed parts.negative 0.0))

/-- The number of a numeral, if there is one. The negated zero is no whole number. -/
def ofLexeme? (lexeme : List Char) : Option Numeral :=
  let parts := Parts.ofLexeme lexeme
  let whole := Significand.ofDigits ⟨0, 0⟩ parts.whole
  if parts.fraction.isEmpty && parts.exponent.isEmpty && whole.dropped == 0 then
    if !parts.negative then some (.whole whole.value)
    else if 0 < whole.value ∧ Int64.minValue.toInt ≤ -whole.value then some (.whole (-whole.value))
    else some (.real (-whole.value.toUInt64.toFloat))
  else parts.real?

end Numeral

end Json

end Floorplanner
