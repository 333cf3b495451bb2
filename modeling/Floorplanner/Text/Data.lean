/-!
Documents.

What a JSON or TOML text says once its notation is gone: a tree of scalars, lists and tables. The
readers of this module take values out of a tree; a value of another kind than the one asked for is
none.
-/

namespace Floorplanner

inductive Data where
  | null
  | bool (value : Bool)
  | integer (value : Int)
  | real (value : Float)
  | text (value : String)
  /-- A date or a time of day, or both, in its normal spelling. -/
  | date (spelling : String)
  | list (items : List Data)
  | table (entries : List (String × Data))

namespace Data

/-! Scalars. -/

def realOfInt (value : Int) : Float :=
  let magnitude := value.natAbs.toUInt64.toFloat
  if value < 0 then -magnitude else magnitude

def real? : Data → Option Float
  | real value => some value
  | integer value => some (realOfInt value)
  | _ => none

def natBelow? (bound : Nat) : Data → Option Nat
  | integer value => if 0 ≤ value ∧ value.toNat < bound then some value.toNat else none
  | _ => none

/-- A text; a date counts as its spelling. -/
def text? : Data → Option String
  | text value => some value
  | date spelling => some spelling
  | _ => none

/-! Lists and records. -/

def listOf? {β : Type} (item? : Data → Option β) : Data → Option (List β)
  | list items => items.mapM item?
  | _ => none

def pairOf? {β γ : Type} (item? : Data → Option β) (make : β → β → γ) : Data → Option γ
  | list [first, second] => do return make (← item? first) (← item? second)
  | _ => none

/-- The last entry under a key. -/
def lookup? (key : String) : List (String × Data) → Option Data
  | [] => none
  | (name, value) :: rest =>
      match lookup? key rest with
      | some later => some later
      | none => if name == key then some value else none

def required? {β : Type} (item? : Data → Option β) (entries : List (String × Data))
    (key : String) : Option β :=
  (lookup? key entries).bind item?

def optional? {β : Type} (item? : Data → Option β) (default : β)
    (entries : List (String × Data)) (key : String) : Option β :=
  match lookup? key entries with
  | some value => item? value
  | none => some default

def entries? : Data → Option (List (String × Data))
  | table entries => some entries
  | _ => none

/-- The entries of a record. It is a table, or a list of its first fields in order. -/
def record? (fields : List String) : Data → Option (List (String × Data))
  | table entries => some entries
  | list items => if items.length ≤ fields.length then some (fields.zip items) else none
  | _ => none

end Data

end Floorplanner
