import Floorplanner.Text.Json

/-!
Reading JSON texts.

The reader takes the grammar of JSON and nothing beyond it. What numbers and strings stand for is
left to whoever needs them.
-/

namespace Floorplanner

namespace Json

def isBlank (c : Char) : Bool := c == ' ' || c == '\n' || c == '\t' || c == '\r'

def skipBlanks (text : List Char) : List Char := text.dropWhile isBlank

def isHexDigit (c : Char) : Bool := (hexValue? c).isSome

def splitString : List Char → Option (List Char × List Char)
  | [] => none
  | '"' :: rest => some ([], rest)
  | '\\' :: 'u' :: a :: b :: c :: d :: rest =>
      if isHexDigit a && isHexDigit b && isHexDigit c && isHexDigit d then
        (splitString rest).map fun (lexeme, rest) =>
          ('\\' :: 'u' :: a :: b :: c :: d :: lexeme, rest)
      else none
  | '\\' :: c :: rest =>
      if (letterEscape? c).isSome then
        (splitString rest).map fun (lexeme, rest) => ('\\' :: c :: lexeme, rest)
      else none
  | c :: rest =>
      if c.toNat < 32 || c == '\\' then none
      else (splitString rest).map fun (lexeme, rest) => (c :: lexeme, rest)

def splitDigits (text : List Char) : List Char × List Char :=
  (text.takeWhile (·.isDigit), text.dropWhile (·.isDigit))

/-- The digits of a number before its point: no zero leads others. -/
def splitWhole (text : List Char) : Option (List Char × List Char) :=
  match splitDigits text with
  | ([], _) => none
  | ('0' :: _ :: _, _) => none
  | split => some split

def splitFraction : List Char → Option (List Char × List Char)
  | '.' :: text =>
      match splitDigits text with
      | ([], _) => none
      | (digits, rest) => some ('.' :: digits, rest)
  | text => some ([], text)

def splitSign : List Char → List Char × List Char
  | '+' :: rest => (['+'], rest)
  | '-' :: rest => (['-'], rest)
  | rest => ([], rest)

def splitExponent : List Char → Option (List Char × List Char)
  | [] => some ([], [])
  | c :: text =>
      if c == 'e' || c == 'E' then
        let (sign, rest) := splitSign text
        match splitDigits rest with
        | ([], _) => none
        | (digits, rest) => some (c :: sign ++ digits, rest)
      else some ([], c :: text)

def splitNumber (text : List Char) : Option (List Char × List Char) := do
  let (sign, rest) := match text with
    | '-' :: rest => (['-'], rest)
    | rest => ([], rest)
  let (whole, rest) ← splitWhole rest
  let (fraction, rest) ← splitFraction rest
  let (exponent, rest) ← splitExponent rest
  return (sign ++ whole ++ fraction ++ exponent, rest)

mutual

/-- Reads a value and what follows it. The fuel bounds the nesting and the items together. -/
def readValue : Nat → List Char → Option (Json × List Char)
  | 0, _ => none
  | fuel + 1, text =>
      match skipBlanks text with
      | 'n' :: 'u' :: 'l' :: 'l' :: rest => some (null, rest)
      | 't' :: 'r' :: 'u' :: 'e' :: rest => some (bool true, rest)
      | 'f' :: 'a' :: 'l' :: 's' :: 'e' :: rest => some (bool false, rest)
      | '"' :: rest => (splitString rest).map fun (lexeme, rest) => (string lexeme, rest)
      | '[' :: rest =>
          match skipBlanks rest with
          | ']' :: rest => some (array [], rest)
          | _ => (readItems fuel rest).map fun (items, rest) => (array items, rest)
      | '{' :: rest =>
          match skipBlanks rest with
          | '}' :: rest => some (object [], rest)
          | _ => (readMembers fuel rest).map fun (members, rest) => (object members, rest)
      | text => (splitNumber text).map fun (lexeme, rest) => (number lexeme, rest)

def readItems : Nat → List Char → Option (List Json × List Char)
  | 0, _ => none
  | fuel + 1, text =>
      match readValue fuel text with
      | none => none
      | some (item, rest) =>
          match skipBlanks rest with
          | ']' :: rest => some ([item], rest)
          | ',' :: rest => (readItems fuel rest).map fun (items, rest) => (item :: items, rest)
          | _ => none

def readMembers : Nat → List Char → Option (List (List Char × Json) × List Char)
  | 0, _ => none
  | fuel + 1, text =>
      match readMember fuel text with
      | none => none
      | some (member, rest) =>
          match skipBlanks rest with
          | '}' :: rest => some ([member], rest)
          | ',' :: rest =>
              (readMembers fuel rest).map fun (members, rest) => (member :: members, rest)
          | _ => none

def readMember : Nat → List Char → Option ((List Char × Json) × List Char)
  | 0, _ => none
  | fuel + 1, text =>
      match skipBlanks text with
      | '"' :: rest =>
          match splitString rest with
          | none => none
          | some (key, rest) =>
              match skipBlanks rest with
              | ':' :: rest =>
                  (readValue fuel rest).map fun (value, rest) => ((key, value), rest)
              | _ => none
      | _ => none

end

/-- Each value, item and member takes up a character at least, and uses fuel once in each role. -/
def fuelFor (text : List Char) : Nat := 3 * text.length + 3

def read? (text : String) : Option Json := do
  let chars := text.toList
  let (json, rest) ← readValue (fuelFor chars) chars
  if (skipBlanks rest).isEmpty then some json else none

end Json

end Floorplanner
