import Floorplanner.Text.Json.Reader
import Floorplanner.Text.Json.Record

/-!
Documents in JSON.

Every number of a document has to be in range, every string has to be one of characters, and arrays
and objects may be nested to a limit.
-/

namespace Floorplanner

namespace Json

def depthLimit : Nat := 127

def Numeral.toData : Numeral → Data
  | whole value => .integer value
  | real value => .real value

mutual

/-- What a tree says; nothing if it is nested more deeply than `depth`. -/
def toData? (depth : Nat) : Json → Option Data
  | null => some .null
  | bool value => some (.bool value)
  | number lexeme => (Numeral.ofLexeme? lexeme).map Numeral.toData
  | string lexeme => (text? lexeme).map .text
  | array items =>
      match depth with
      | 0 => none
      | depth + 1 => (itemsToData? depth items).map .list
  | object members =>
      match depth with
      | 0 => none
      | depth + 1 => (membersToData? depth members).map .table

def itemsToData? (depth : Nat) : List Json → Option (List Data)
  | [] => some []
  | item :: rest =>
      match toData? depth item, itemsToData? depth rest with
      | some item, some rest => some (item :: rest)
      | _, _ => none

def membersToData? (depth : Nat) : List (List Char × Json) → Option (List (String × Data))
  | [] => some []
  | (key, value) :: rest =>
      match text? key, toData? depth value, membersToData? depth rest with
      | some key, some value, some rest => some ((key, value) :: rest)
      | _, _, _ => none

end

def readData? (text : String) : Option Data := (read? text).bind (toData? depthLimit)

end Json

end Floorplanner
