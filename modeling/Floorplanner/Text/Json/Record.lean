import Floorplanner.Text.Data
import Floorplanner.Text.Json.Numeral
import Floorplanner.Text.NumberText

/-!
Values in JSON trees.

The readers of this module take single values and records out of a tree. A number is null where JSON
has no text for it, and is not read back from there.
-/

namespace Floorplanner

namespace Json

def text? (lexeme : List Char) : Option String := (unescape lexeme).map String.ofList

def asText? : Json → Option String
  | string lexeme => text? lexeme
  | _ => none

def asReal? : Json → Option Float
  | number lexeme =>
      match Numeral.ofLexeme? lexeme with
      | some (.whole value) => some (Data.realOfInt value)
      | some (.real value) => some value
      | none => none
  | _ => none

def asNatBelow? (bound : Nat) : Json → Option Nat
  | number lexeme =>
      match Numeral.ofLexeme? lexeme with
      | some (.whole value) =>
          if 0 ≤ value ∧ value.toNat < bound then some value.toNat else none
      | _ => none
  | _ => none

def asListOf? {β : Type} (item? : Json → Option β) : Json → Option (List β)
  | array items => items.mapM item?
  | _ => none

/-- One of a few values that have names. The name may also be the key of a null. -/
def asNamed? {β : Type} (values : List β) (name : β → String) : Json → Option β
  | string lexeme => (text? lexeme).bind find
  | object [(key, null)] => (text? key).bind find
  | _ => none
where
  find (text : String) : Option β := values.find? fun value => name value == text

def namedMembers? (members : List (List Char × Json)) : Option (List (String × Json)) :=
  members.mapM fun (key, value) => (text? key).map fun key => (key, value)

/--
The members of a record. It is an object that has no field twice, or a list of its first fields in
order.
-/
def asRecord? (fields : List String) : Json → Option (List (String × Json))
  | object members => do
      let members ← namedMembers? members
      if fields.all fun field => decide (members.countP (·.1 == field) ≤ 1) then some members
      else none
  | array items => if items.length ≤ fields.length then some (fields.zip items) else none
  | _ => none

def required? {β : Type} (item? : Json → Option β) (members : List (String × Json))
    (key : String) : Option β :=
  (members.lookup key).bind item?

def optional? {β : Type} (item? : Json → Option β) (default : β)
    (members : List (String × Json)) (key : String) : Option β :=
  match members.lookup key with
  | some value => item? value
  | none => some default

def ofNumber {α : Type} [NumberText α] (value : α) : Json :=
  match NumberText.json? value with
  | some numeral => ofNumeral numeral
  | none => null

def ofTexts (texts : List String) : Json := array (texts.map ofText)

end Json

end Floorplanner
