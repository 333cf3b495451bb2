/-!
JSON texts.

A tree keeps numbers and strings as they are written, so that a text can be read that holds numbers
too large for any type, or escapes that stand for no character. `Json.escape` writes the characters
of a string between its quotes and `Json.unescape` reads them back.
-/

namespace Floorplanner

inductive Json where
  | null
  | bool (value : Bool)
  | number (lexeme : List Char)
  /-- What is written between the quotes of a string. -/
  | string (lexeme : List Char)
  | array (items : List Json)
  /-- Members in the order they are written, with what stands between the quotes of each key. -/
  | object (members : List (List Char × Json))
  deriving Repr

namespace Json

/-! Characters of strings. -/

def hexDigit (value : Nat) : Char :=
  if value < 10 then Char.ofNat (48 + value) else Char.ofNat (87 + value)

def hexValue? (c : Char) : Option Nat :=
  if '0' ≤ c ∧ c ≤ '9' then some (c.toNat - 48)
  else if 'a' ≤ c ∧ c ≤ 'f' then some (c.toNat - 87)
  else if 'A' ≤ c ∧ c ≤ 'F' then some (c.toNat - 55)
  else none

def hexWord? (a b c d : Char) : Option Nat :=
  match hexValue? a, hexValue? b, hexValue? c, hexValue? d with
  | some a, some b, some c, some d => some (((a * 16 + b) * 16 + c) * 16 + d)
  | _, _, _, _ => none

/-- Only quotes, backslashes and control characters are escaped. -/
def escapeChar (c : Char) : List Char :=
  if c = '"' then ['\\', '"']
  else if c = '\\' then ['\\', '\\']
  else if c = '\x08' then ['\\', 'b']
  else if c = '\x0c' then ['\\', 'f']
  else if c = '\n' then ['\\', 'n']
  else if c = '\r' then ['\\', 'r']
  else if c = '\t' then ['\\', 't']
  else if c.toNat < 32 then
    ['\\', 'u', '0', '0', hexDigit (c.toNat / 16), hexDigit (c.toNat % 16)]
  else [c]

def escape (text : List Char) : List Char := text.flatMap escapeChar

def letterEscape? (c : Char) : Option Char :=
  if c = '"' ∨ c = '\\' ∨ c = '/' then some c
  else if c = 'b' then some '\x08'
  else if c = 'f' then some '\x0c'
  else if c = 'n' then some '\n'
  else if c = 'r' then some '\r'
  else if c = 't' then some '\t'
  else none

def isLowSurrogate (word : Nat) : Bool := decide (0xdc00 ≤ word) && decide (word < 0xe000)

def isHighSurrogate (word : Nat) : Bool := decide (0xd800 ≤ word) && decide (word < 0xdc00)

/--
The characters that a lexeme stands for, if every escape in it stands for one. A surrogate does so
only in a pair, the high one first.
-/
def unescape : List Char → Option (List Char)
  | [] => some []
  | '\\' :: 'u' :: a :: b :: c :: d :: rest =>
      match hexWord? a b c d with
      | none => none
      | some word =>
          if isLowSurrogate word then none
          else if isHighSurrogate word then
            match rest with
            | '\\' :: 'u' :: e :: f :: g :: h :: rest =>
                match hexWord? e f g h with
                | none => none
                | some low =>
                    if isLowSurrogate low then
                      let code := 0x10000 + (word - 0xd800) * 0x400 + (low - 0xdc00)
                      (unescape rest).map (Char.ofNat code :: ·)
                    else none
            | _ => none
          else (unescape rest).map (Char.ofNat word :: ·)
  | '\\' :: c :: rest =>
      match letterEscape? c with
      | none => none
      | some c => (unescape rest).map (c :: ·)
  | c :: rest => (unescape rest).map (c :: ·)

/-! Building. -/

def ofText (text : String) : Json := string (escape text.toList)

def ofNumeral (numeral : String) : Json := number numeral.toList

def ofNat (n : Nat) : Json := ofNumeral (toString n)

def ofMembers (members : List (String × Json)) : Json :=
  object (members.map fun (key, value) => (escape key.toList, value))

/-! Writing. -/

mutual

def render : Json → List Char
  | null => ['n', 'u', 'l', 'l']
  | bool true => ['t', 'r', 'u', 'e']
  | bool false => ['f', 'a', 'l', 's', 'e']
  | number lexeme => lexeme
  | string lexeme => '"' :: lexeme ++ ['"']
  | array [] => ['[', ']']
  | array (first :: rest) => '[' :: render first ++ renderItems rest
  | object [] => ['{', '}']
  | object ((key, value) :: rest) =>
      '{' :: '"' :: key ++ '"' :: ':' :: render value ++ renderMembers rest

def renderItems : List Json → List Char
  | [] => [']']
  | item :: rest => ',' :: render item ++ renderItems rest

def renderMembers : List (List Char × Json) → List Char
  | [] => ['}']
  | (key, value) :: rest =>
      ',' :: '"' :: key ++ '"' :: ':' :: render value ++ renderMembers rest

end

def newline (indent : Nat) : List Char := '\n' :: List.replicate (2 * indent) ' '

mutual

def renderLines (indent : Nat) : Json → List Char
  | null => ['n', 'u', 'l', 'l']
  | bool true => ['t', 'r', 'u', 'e']
  | bool false => ['f', 'a', 'l', 's', 'e']
  | number lexeme => lexeme
  | string lexeme => '"' :: lexeme ++ ['"']
  | array [] => ['[', ']']
  | array (first :: rest) =>
      '[' :: newline (indent + 1) ++ renderLines (indent + 1) first ++ itemLines indent rest
  | object [] => ['{', '}']
  | object ((key, value) :: rest) =>
      '{' :: newline (indent + 1) ++ '"' :: key ++ '"' :: ':' :: ' ' ::
        renderLines (indent + 1) value ++ memberLines indent rest

def itemLines (indent : Nat) : List Json → List Char
  | [] => newline indent ++ [']']
  | item :: rest =>
      ',' :: newline (indent + 1) ++ renderLines (indent + 1) item ++ itemLines indent rest

def memberLines (indent : Nat) : List (List Char × Json) → List Char
  | [] => newline indent ++ ['}']
  | (key, value) :: rest =>
      ',' :: newline (indent + 1) ++ '"' :: key ++ '"' :: ':' :: ' ' ::
        renderLines (indent + 1) value ++ memberLines indent rest

end

def compact (json : Json) : String := String.ofList json.render

def pretty (json : Json) : String := String.ofList (json.renderLines 0)

end Json

end Floorplanner
