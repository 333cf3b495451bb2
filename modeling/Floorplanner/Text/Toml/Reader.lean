import Floorplanner.Text.Toml.Scalar
import Floorplanner.Text.Toml.Table

/-!
Reading TOML texts.

A document is a sequence of lines: comments, headers of tables, and keys with their values. Arrays
may run over several lines, inline tables may not.
-/

namespace Floorplanner

namespace Toml

/-- Arrays and inline tables may be nested to less than this, and so many parts has no key. -/
def nestingLimit : Nat := 80

def skipComment : List Char → List Char
  | '#' :: rest => rest.dropWhile isPlain
  | text => text

def endLine (text : List Char) : Option (List Char) :=
  match skipComment (skipBlanks text) with
  | [] => some []
  | text => newline? text

def skipSpace : List Char → List Char
  | [] => []
  | '\r' :: '\n' :: rest => skipSpace rest
  | '#' :: rest => skipSpace (rest.dropWhile isPlain)
  | c :: rest => if isBlank c || c == '\n' then skipSpace rest else c :: rest
  termination_by text => text.length
  decreasing_by
    · simp only [List.length_cons]
      omega
    · have := (List.dropWhile_suffix isPlain (l := rest)).length_le
      simp only [List.length_cons]
      omega
    · simp

/-! Keys. -/

def isBareKey (c : Char) : Bool := c.isAlphanum || c == '_' || c == '-'

def splitKeyPart (text : List Char) : Split :=
  match text with
  | '"' :: rest => splitBasic rest
  | '\'' :: rest => splitLiteral rest
  | _ =>
      let part := text.takeWhile isBareKey
      if part.isEmpty then none else some (part, text.dropWhile isBareKey)

def readKeyParts : (fuel : Nat) → List Char → Option (List String × List Char)
  | 0, _ => none
  | fuel + 1, text => do
      let (part, rest) ← splitKeyPart (skipBlanks text)
      match skipBlanks rest with
      | '.' :: rest =>
          let (parts, rest) ← readKeyParts fuel rest
          return (String.ofList part :: parts, rest)
      | rest => return ([String.ofList part], rest)

def readKey (text : List Char) : Option (List String × String × List Char) := do
  let (parts, rest) ← readKeyParts nestingLimit text
  if nestingLimit ≤ parts.length then none
  else return (parts.dropLast, ← parts.getLast?, rest)

/-! Values. -/

mutual

def readValue : (fuel depth : Nat) → List Char → Reading
  | 0, _, _ => none
  | fuel + 1, depth, text =>
      match text with
      | '[' :: rest =>
          if nestingLimit ≤ depth + 1 then none
          else
            match skipSpace rest with
            | ']' :: rest => some (.list [], rest)
            | rest => (readItems fuel (depth + 1) rest).map fun (items, rest) =>
                (.list items, rest)
      | '{' :: rest =>
          if nestingLimit ≤ depth + 1 then none
          else
            match skipBlanks rest with
            | '}' :: rest => some (.table [], rest)
            | rest => (readInline fuel (depth + 1) rest []).map fun (entries, rest) =>
                (.table (entriesToData entries), rest)
      | text => readScalar text

/-- Reads the items of an array from the first on. A comma may stand behind the last. -/
def readItems : (fuel depth : Nat) → List Char → Option (List Data × List Char)
  | 0, _, _ => none
  | fuel + 1, depth, text => do
      let (item, rest) ← readValue fuel depth text
      match skipSpace rest with
      | ']' :: rest => return ([item], rest)
      | ',' :: rest =>
          match skipSpace rest with
          | ']' :: rest => return ([item], rest)
          | rest =>
              let (items, rest) ← readItems fuel depth rest
              return (item :: items, rest)
      | _ => none

def readInline : (fuel depth : Nat) → List Char → Entries → Option (Entries × List Char)
  | 0, _, _, _ => none
  | fuel + 1, depth, text, entries => do
      let (path, key, rest) ← readKey text
      let rest ← expect '=' rest
      let (value, rest) ← readValue fuel depth (skipBlanks rest)
      let entries ← entries.assign path key (.value value)
      match skipBlanks rest with
      | '}' :: rest => return (entries, rest)
      | ',' :: rest => readInline fuel depth rest entries
      | _ => none

end

/-! Lines. -/

inductive Line where
  | blank
  | table (path : List String)
  | repeated (path : List String)
  | entry (path : List String) (key : String) (value : Data)

def readLine (text : List Char) : Option (Line × List Char) := do
  match skipBlanks text with
  | '[' :: '[' :: rest =>
      let (path, key, rest) ← readKey rest
      let rest ← expect ']' (← expect ']' rest)
      return (.repeated (path ++ [key]), ← endLine rest)
  | '[' :: rest =>
      let (path, key, rest) ← readKey rest
      return (.table (path ++ [key]), ← endLine (← expect ']' rest))
  | text =>
      match endLine text with
      | some rest => return (.blank, rest)
      | none =>
          let (path, key, rest) ← readKey text
          let rest ← expect '=' rest
          let (value, rest) ← readValue (2 * rest.length + 2) 0 (skipBlanks rest)
          return (.entry path key value, ← endLine rest)

def Draft.add (draft : Draft) : Line → Option Draft
  | .blank => some draft
  | .table path => draft.openTable path
  | .repeated path => draft.openRepeated path
  | .entry path key value => draft.assign path key value

/-- Reads the lines of a text; each takes a character at least. -/
def readLines : (fuel : Nat) → Draft → List Char → Option Draft
  | _, draft, [] => some draft
  | 0, _, _ => none
  | fuel + 1, draft, text => do
      let (line, rest) ← readLine text
      readLines fuel (← draft.add line) rest

def dropByteOrderMark : List Char → List Char
  | '\ufeff' :: rest => rest
  | text => text

def read? (text : String) : Option (List (String × Data)) := do
  let chars := dropByteOrderMark text.toList
  let draft ← readLines (chars.length + 1) .empty chars
  return entriesToData (← draft.complete)

end Toml

end Floorplanner
