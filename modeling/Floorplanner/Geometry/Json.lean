import Floorplanner.Geometry
import Floorplanner.Text.Json.Reader
import Floorplanner.Text.Json.Record

/-! Rectangles in JSON. -/

namespace Floorplanner

namespace Rect

def toJson {α : Type} [NumberText α] (rect : Rect α) : Json := .ofMembers [
  ("lx", .ofNumber rect.lx), ("ly", .ofNumber rect.ly), ("ux", .ofNumber rect.ux),
  ("uy", .ofNumber rect.uy)]

def ofJson? (json : Json) : Option (Rect Float) := do
  let members ← json.asRecord? ["lx", "ly", "ux", "uy"]
  return {
    lx := ← Json.required? Json.asReal? members "lx"
    ly := ← Json.required? Json.asReal? members "ly"
    ux := ← Json.required? Json.asReal? members "ux"
    uy := ← Json.required? Json.asReal? members "uy" }

def read? (text : String) : Option (Rect Float) := (Json.read? text).bind ofJson?

end Rect

end Floorplanner
