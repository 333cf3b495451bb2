import Floorplanner.Diagnostic
import Floorplanner.Text.Json.Reader
import Floorplanner.Text.Json.Record

/-! Diagnostics in JSON. Lists without entries are left out. -/

namespace Floorplanner

namespace Diagnostic

namespace Code

def toJson (code : Code) : Json := .ofMembers [
  ("category", .ofText code.category.name), ("number", .ofNat code.number.toNat)]

def ofJson? (json : Json) : Option Code := do
  let members ← json.asRecord? ["category", "number"]
  let number ← Json.required? (Json.asNatBelow? UInt16.size) members "number"
  return {
    category := ← Json.required? (Json.asNamed? Category.all Category.name) members "category"
    number := number.toUInt16 }

end Code

/-- A list of texts as a member, unless it is empty. -/
def linesMember (key : String) (lines : List String) : List (String × Json) :=
  if lines.isEmpty then [] else [(key, .ofTexts lines)]

def toJson (diagnostic : Diagnostic) : Json := .ofMembers (
  [("severity", .ofText diagnostic.severity.label), ("code", diagnostic.code.toJson),
    ("message", .ofText diagnostic.message)] ++
    linesMember "notes" diagnostic.notes ++ linesMember "help" diagnostic.help)

def ofJson? (json : Json) : Option Diagnostic := do
  let members ← json.asRecord? ["severity", "code", "message", "notes", "help"]
  return {
    severity := ← Json.required? (Json.asNamed? Severity.all Severity.label) members "severity"
    code := ← Json.required? Code.ofJson? members "code"
    message := ← Json.required? Json.asText? members "message"
    notes := ← Json.optional? (Json.asListOf? Json.asText?) [] members "notes"
    help := ← Json.optional? (Json.asListOf? Json.asText?) [] members "help" }

def read? (text : String) : Option Diagnostic := (Json.read? text).bind ofJson?

end Diagnostic

end Floorplanner
