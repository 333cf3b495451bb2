import Floorplanner.Text.Toml.Scalar

/-!
Dates in the form of tables.

A table whose first key is the one kept for this purpose stands for the date that the text under it
says, and its other entries say nothing. The text is spelled as the date would be without a table.
-/

namespace Floorplanner

namespace Toml

def dateKey : String := "$__toml_private_datetime"

/-- What a table says as a date: the value under its first key, if that is the one for dates. -/
def tagged? : List (String × Data) → Option Data
  | [] => none
  | (key, value) :: _ => if key == dateKey then some value else none

def dateOf? : Data → Option Data
  | .text value =>
      match readDate value.toList with
      | some (date, []) => some date
      | _ => none
  | _ => none

mutual

/-- Puts dates in the place of tables that stand for them; nothing if one of these says no date. -/
def withDates? : Data → Option Data
  | .list items => (itemsWithDates? items).map .list
  | .table entries =>
      match tagged? entries with
      | some value => dateOf? value
      | none => (entriesWithDates? entries).map .table
  | data => some data

def itemsWithDates? : List Data → Option (List Data)
  | [] => some []
  | item :: rest =>
      match withDates? item, itemsWithDates? rest with
      | some item, some rest => some (item :: rest)
      | _, _ => none

def entriesWithDates? : List (String × Data) → Option (List (String × Data))
  | [] => some []
  | (key, value) :: rest =>
      match withDates? value, entriesWithDates? rest with
      | some value, some rest => some ((key, value) :: rest)
      | _, _ => none

end

end Toml

end Floorplanner
