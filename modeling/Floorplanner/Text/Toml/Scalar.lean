import Floorplanner.Text.Data
import Floorplanner.Text.Decimal
import Floorplanner.Text.Json

/-!
Scalars of TOML texts: strings, numbers and dates.

Each reader takes the scalar that a text starts with and returns it with the rest of the text.
-/

namespace Floorplanner

namespace Toml

/-! Blanks and ends of lines. -/

def isBlank (c : Char) : Bool := c == ' ' || c == '\t'

def skipBlanks (text : List Char) : List Char := text.dropWhile isBlank

def isPlain (c : Char) : Bool := c == '\t' || (decide (32 ≤ c.toNat) && c.toNat != 127)

def newline? : List Char → Option (List Char)
  | '\n' :: rest => some rest
  | '\r' :: '\n' :: rest => some rest
  | _ => none

/-! Strings. -/

def letterEscape? (c : Char) : Option Char :=
  match c with
  | 'b' => some '\x08'
  | 't' => some '\t'
  | 'n' => some '\n'
  | 'f' => some '\x0c'
  | 'r' => some '\r'
  | '"' => some '"'
  | '\\' => some '\\'
  | _ => none

/-- The character of a code; surrogates and numbers beyond the last character have none. -/
def charOfCode? (code : Nat) : Option Char :=
  if h : code.isValidChar then some (Char.ofNatAux code h) else none

def charOfDigits? (digits : List Char) : Option Char := do
  let values ← digits.mapM Json.hexValue?
  charOfCode? (values.foldl (fun code value => code * 16 + value) 0)

abbrev Split := Option (List Char × List Char)

def Split.push (c : Char) (split : Split) : Split :=
  split.map fun (text, rest) => (c :: text, rest)

def Split.pushSome (c : Option Char) (split : Split) : Split := c.bind split.push

def splitBasic : List Char → Split
  | [] => none
  | '"' :: rest => some ([], rest)
  | '\\' :: 'u' :: a :: b :: c :: d :: rest =>
      Split.pushSome (charOfDigits? [a, b, c, d]) (splitBasic rest)
  | '\\' :: 'U' :: a :: b :: c :: d :: e :: f :: g :: h :: rest =>
      Split.pushSome (charOfDigits? [a, b, c, d, e, f, g, h]) (splitBasic rest)
  | '\\' :: c :: rest => Split.pushSome (letterEscape? c) (splitBasic rest)
  | c :: rest => if isPlain c then (splitBasic rest).push c else none

def splitLiteral : List Char → Split
  | [] => none
  | '\'' :: rest => some ([], rest)
  | c :: rest => if isPlain c then (splitLiteral rest).push c else none

/--
What a run of quotes means in a string between three of them: fewer than three are content, from
three to five close the string and are content but for three, and more are an error.
-/
inductive Quotes where
  | content
  | closing (content : Nat)
  | excess
  deriving Repr, DecidableEq

def Quotes.ofCount (count : Nat) : Quotes :=
  if count < 3 then content else if count ≤ 5 then closing (count - 3) else excess

def quotesAt (quote : Char) (text : List Char) : Quotes :=
  .ofCount (text.takeWhile (· == quote)).length

/--
A string between three double quotes, behind the opening ones. A backslash at the end of a line joins
it to the next character that is no blank and no end of a line; `joining` says whether it is looked
for.
-/
def splitMultiBasic : (joining : Bool) → List Char → Split
  | _, [] => none
  | joining, '\r' :: '\n' :: rest =>
      if joining then splitMultiBasic true rest else (splitMultiBasic false rest).push '\n'
  | joining, '\n' :: rest =>
      if joining then splitMultiBasic true rest else (splitMultiBasic false rest).push '\n'
  | _, '"' :: rest =>
      match quotesAt '"' ('"' :: rest) with
      | .content => (splitMultiBasic false rest).push '"'
      | .closing count => some (List.replicate count '"', rest.drop (count + 2))
      | .excess => none
  | _, '\\' :: 'u' :: a :: b :: c :: d :: rest =>
      Split.pushSome (charOfDigits? [a, b, c, d]) (splitMultiBasic false rest)
  | _, '\\' :: 'U' :: a :: b :: c :: d :: e :: f :: g :: h :: rest =>
      Split.pushSome (charOfDigits? [a, b, c, d, e, f, g, h]) (splitMultiBasic false rest)
  | _, '\\' :: c :: rest =>
      if (newline? (skipBlanks (c :: rest))).isSome then splitMultiBasic true (c :: rest)
      else Split.pushSome (letterEscape? c) (splitMultiBasic false rest)
  | joining, c :: rest =>
      if joining && isBlank c then splitMultiBasic true rest
      else if isPlain c then (splitMultiBasic false rest).push c
      else none
  termination_by _ text => text.length

def splitMultiLiteral : List Char → Split
  | [] => none
  | '\r' :: '\n' :: rest => (splitMultiLiteral rest).push '\n'
  | '\n' :: rest => (splitMultiLiteral rest).push '\n'
  | '\'' :: rest =>
      match quotesAt '\'' ('\'' :: rest) with
      | .content => (splitMultiLiteral rest).push '\''
      | .closing count => some (List.replicate count '\'', rest.drop (count + 2))
      | .excess => none
  | c :: rest => if isPlain c then (splitMultiLiteral rest).push c else none

/-- The end of a line right behind the opening quotes is no content. -/
def dropNewline (text : List Char) : List Char := (newline? text).getD text

def splitString : List Char → Split
  | '"' :: '"' :: '"' :: rest => splitMultiBasic false (dropNewline rest)
  | '"' :: rest => splitBasic rest
  | '\'' :: '\'' :: '\'' :: rest => splitMultiLiteral (dropNewline rest)
  | '\'' :: rest => splitLiteral rest
  | _ => none

/-! Numbers. -/

/-- Digits after the first; one underscore may stand between two of them and is left out. -/
def splitDigits (isDigit : Char → Bool) : List Char → List Char × List Char
  | '_' :: c :: rest =>
      if isDigit c then
        let (digits, rest) := splitDigits isDigit rest
        (c :: digits, rest)
      else ([], '_' :: c :: rest)
  | c :: rest =>
      if isDigit c then
        let (digits, rest) := splitDigits isDigit rest
        (c :: digits, rest)
      else ([], c :: rest)
  | [] => ([], [])

def splitDigits1 (isDigit : Char → Bool) : List Char → Split
  | [] => none
  | c :: rest =>
      if isDigit c then
        let (digits, rest) := splitDigits isDigit rest
        some (c :: digits, rest)
      else none

def splitWhole : List Char → Split
  | '0' :: rest => some (['0'], rest)
  | text => splitDigits1 Char.isDigit text

def splitSign : List Char → Bool × List Char
  | '+' :: rest => (false, rest)
  | '-' :: rest => (true, rest)
  | rest => (false, rest)

def digitsValue (base : Nat) (digits : List Char) : Nat :=
  digits.foldl (fun value c => value * base + (Json.hexValue? c).getD 0) 0

def integer? (value : Int) : Option Data :=
  if Int64.minValue.toInt ≤ value ∧ value ≤ Int64.maxValue.toInt then some (.integer value) else none

def isOctalDigit (c : Char) : Bool := decide ('0' ≤ c) && decide (c ≤ '7')

def isBinaryDigit (c : Char) : Bool := c == '0' || c == '1'

def isHexDigit (c : Char) : Bool := (Json.hexValue? c).isSome

abbrev Reading := Option (Data × List Char)

def readDigits (base : Nat) (isDigit : Char → Bool) (text : List Char) : Reading := do
  let (digits, rest) ← splitDigits1 isDigit text
  let value ← integer? (digitsValue base digits)
  return (value, rest)

def readInteger : List Char → Reading
  | '0' :: 'x' :: rest => readDigits 16 isHexDigit rest
  | '0' :: 'o' :: rest => readDigits 8 isOctalDigit rest
  | '0' :: 'b' :: rest => readDigits 2 isBinaryDigit rest
  | text => do
      let (negative, rest) := splitSign text
      let (digits, rest) ← splitWhole rest
      let magnitude : Int := digitsValue 10 digits
      let value ← integer? (if negative then -magnitude else magnitude)
      return (value, rest)

def splitFraction : List Char → Split
  | '.' :: rest => splitDigits1 Char.isDigit rest
  | rest => some ([], rest)

def splitExponent : List Char → Option (Int × List Char)
  | [] => some (0, [])
  | c :: rest =>
      if c == 'e' || c == 'E' then do
        let (negative, rest) := splitSign rest
        let (digits, rest) ← splitDigits1 Char.isDigit rest
        let magnitude : Int := digitsValue 10 digits
        return (if negative then -magnitude else magnitude, rest)
      else some (0, c :: rest)

def signed (negative : Bool) (value : Float) : Float := if negative then -value else value

def startsDecimals : List Char → Bool
  | [] => false
  | c :: _ => c == '.' || c == 'e' || c == 'E'

/-- A number with a fraction or an exponent. One that rounds to positive infinity is refused. -/
def readDecimal (text : List Char) : Reading := do
  let (negative, rest) := splitSign text
  let (whole, rest) ← splitWhole rest
  if startsDecimals rest then
    let (fraction, rest) ← splitFraction rest
    let (exponent, rest) ← splitExponent rest
    let numeral : Decimal :=
      ⟨digitsValue 10 (whole ++ fraction), exponent - fraction.length⟩
    let value := numeral.toFloat
    if value.isInf && !negative then none
    else return (.real (signed negative value), rest)
  else none

def infinity : Float := Float.ofBits 0x7ff0000000000000

def notANumber : Float := Float.ofBits 0x7ff8000000000000

def readSpecial (text : List Char) : Reading :=
  match splitSign text with
  | (negative, 'i' :: 'n' :: 'f' :: rest) => some (.real (signed negative infinity), rest)
  | (negative, 'n' :: 'a' :: 'n' :: rest) => some (.real (signed negative notANumber), rest)
  | _ => none

/-! Dates. -/

def splitField (count least greatest : Nat) (text : List Char) : Option (Nat × List Char) :=
  let digits := text.take count
  let value := digitsValue 10 digits
  if digits.length = count ∧ digits.all Char.isDigit ∧ least ≤ value ∧ value ≤ greatest then
    some (value, text.drop count)
  else none

def expect (c : Char) : List Char → Option (List Char)
  | [] => none
  | first :: rest => if first == c then some rest else none

def isLeapYear (year : Nat) : Bool := year % 4 == 0 && (year % 100 != 0 || year % 400 == 0)

def daysInMonth (year month : Nat) : Nat :=
  if month = 2 then (if isLeapYear year then 29 else 28)
  else if month = 4 ∨ month = 6 ∨ month = 9 ∨ month = 11 then 30
  else 31

def padded (count value : Nat) : String :=
  let digits := toString value
  String.ofList (List.replicate (count - digits.length) '0') ++ digits

abbrev Spelling := Option (String × List Char)

def readDay (text : List Char) : Spelling := do
  let (year, rest) ← splitField 4 0 9999 text
  let (month, rest) ← splitField 2 1 12 (← expect '-' rest)
  let (day, rest) ← splitField 2 1 (daysInMonth year month) (← expect '-' rest)
  return (padded 4 year ++ "-" ++ padded 2 month ++ "-" ++ padded 2 day, rest)

/-- A fraction of a second: nine digits count, and zeros at the end are not written. -/
def readSubsecond : List Char → Spelling
  | '.' :: rest =>
      let digits := rest.takeWhile Char.isDigit
      if digits.isEmpty then none
      else
        let kept := ((digits.take 9).reverse.dropWhile (· == '0')).reverse
        some (if kept.isEmpty then "" else "." ++ String.ofList kept,
          rest.dropWhile Char.isDigit)
  | rest => some ("", rest)

def readTime (text : List Char) : Spelling := do
  let (hour, rest) ← splitField 2 0 23 text
  let (minute, rest) ← splitField 2 0 59 (← expect ':' rest)
  let (second, rest) ← splitField 2 0 60 (← expect ':' rest)
  let (fraction, rest) ← readSubsecond rest
  return (padded 2 hour ++ ":" ++ padded 2 minute ++ ":" ++ padded 2 second ++ fraction, rest)

/-- The offset of a time, if one comes. No offset is spelled as a negative one of zero. -/
def readOffset : List Char → Spelling
  | [] => some ("", [])
  | c :: rest =>
      if c == 'Z' || c == 'z' then some ("Z", rest)
      else if c == '+' || c == '-' then do
        let (hour, rest) ← splitField 2 0 23 rest
        let (minute, rest) ← splitField 2 0 59 (← expect ':' rest)
        let sign := if c == '-' && 0 < hour + minute then "-" else "+"
        return (sign ++ padded 2 hour ++ ":" ++ padded 2 minute, rest)
      else some ("", c :: rest)

def readTimeOfDay (text : List Char) : Spelling :=
  match text with
  | [] => some ("", [])
  | c :: rest =>
      if c == 'T' || c == 't' || c == ' ' then
        match readTime rest with
        | none => some ("", text)
        | some (time, rest) => (readOffset rest).map fun (offset, rest) =>
            ("T" ++ time ++ offset, rest)
      else some ("", text)

def readDate (text : List Char) : Reading :=
  match readDay text with
  | some (day, rest) =>
      (readTimeOfDay rest).map fun (time, rest) => (.date (day ++ time), rest)
  | none => (readTime text).map fun (time, rest) => (.date time, rest)

def readScalar (text : List Char) : Reading :=
  match text with
  | 't' :: 'r' :: 'u' :: 'e' :: rest => some (.bool true, rest)
  | 'f' :: 'a' :: 'l' :: 's' :: 'e' :: rest => some (.bool false, rest)
  | '"' :: _ => (splitString text).map fun (chars, rest) => (.text (String.ofList chars), rest)
  | '\'' :: _ => (splitString text).map fun (chars, rest) => (.text (String.ofList chars), rest)
  | _ =>
      (readDate text).orElse fun _ =>
        (readDecimal text).orElse fun _ =>
          (readSpecial text).orElse fun _ => readInteger text

end Toml

end Floorplanner
