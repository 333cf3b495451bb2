import Floorplanner.Text.Decimal

/-!
How numbers are written.

In plain text a number has the fewest digits that read back as it, and no exponent; in JSON, numbers
that are very large or small have one. Reports give numbers a fixed number of places.
-/

namespace Floorplanner

class NumberText (α : Type) where
  /-- The fewest digits that read back as the number, without an exponent. -/
  plain : α → String
  fixed : Nat → α → String
  /-- The fewest digits that read back, in the notation of JSON; nothing where JSON has no text. -/
  json? : α → Option String

namespace Decimal

def zeros (count : Nat) : String := String.ofList (List.replicate count '0')

/--
A numeral without an exponent. The point follows the digits before it, and a zero stands before a
point that no digit comes before.
-/
def positional (numeral : Decimal) : String :=
  let digits := toString numeral.digits
  let places := (-numeral.exponent).toNat
  if places = 0 then digits ++ zeros numeral.exponent.toNat
  else if places < digits.length then
    (digits.take (digits.length - places)).toString ++ "." ++
      (digits.drop (digits.length - places)).toString
  else "0." ++ zeros (places - digits.length) ++ digits

def scientific (numeral : Decimal) : String :=
  let digits := toString numeral.digits
  let power := numeral.exponent + (digits.length - 1 : Nat)
  let fraction := if digits.length = 1 then "" else "." ++ (digits.drop 1).toString
  (digits.take 1).toString ++ fraction ++ (if power < 0 then "e-" else "e+") ++
    toString power.natAbs

/--
The notation of JSON. Numbers from `10 ^ -5` to below `10 ^ 16` have no exponent, and a digit after
the point at least.
-/
def json (numeral : Decimal) : String :=
  let power := numeral.exponent + ((toString numeral.digits).length - 1 : Nat)
  if -5 ≤ power ∧ power ≤ 15 then
    if 0 ≤ numeral.exponent then numeral.positional ++ ".0" else numeral.positional
  else numeral.scientific

def withPlaces (places units : Nat) : String :=
  if places = 0 then toString units
  else
    let fraction := toString (units % Nat.pow 10 places)
    toString (units / Nat.pow 10 places) ++ "." ++ zeros (places - fraction.length) ++ fraction

end Decimal

namespace Binary64

def signText (negative : Bool) : String := if negative then "-" else ""

def plainText (x : Float) : String :=
  match parts x with
  | .nan => "NaN"
  | .infinite negative => signText negative ++ "inf"
  | .finite negative mantissa exponent =>
      signText negative ++ (Decimal.shortest .up mantissa exponent).positional

def fixedText (places : Nat) (x : Float) : String :=
  match parts x with
  | .nan => "NaN"
  | .infinite negative => signText negative ++ "inf"
  | .finite negative mantissa exponent =>
      signText negative ++
        Decimal.withPlaces places (Decimal.inPlaces places mantissa exponent)

def jsonText? (x : Float) : Option String :=
  match parts x with
  | .nan => none
  | .infinite _ => none
  | .finite negative mantissa exponent =>
      some (signText negative ++ (Decimal.shortest .even mantissa exponent).json)

end Binary64

instance : NumberText Float where
  plain := Binary64.plainText
  fixed := Binary64.fixedText
  json? := Binary64.jsonText?

end Floorplanner
