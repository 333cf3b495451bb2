import Floorplanner.Plan
import Floorplanner.Text.Json.Record

/-! Reports of a plan: a table with the terms of the cost, and all of it in JSON. -/

namespace Floorplanner

variable {α : Type} [NumberText α]

namespace Terms

def toJson (terms : Terms α) : Json := .ofMembers [
  ("area", .ofNumber terms.area), ("wirelength", .ofNumber terms.wirelength),
  ("outline", .ofNumber terms.outline), ("boundary", .ofNumber terms.boundary),
  ("macro_blockage", .ofNumber terms.macroBlockage), ("location", .ofNumber terms.location),
  ("notch", .ofNumber terms.notch)]

end Terms

namespace LevelSummary

def toJson (summary : LevelSummary α) : Json := .ofMembers [
  ("level", .ofNat summary.level), ("cost", .ofNumber summary.cost),
  ("terms", summary.terms.toJson), ("normalized", summary.normalized.toJson)]

end LevelSummary

namespace PlacedBlock

def toJson (block : PlacedBlock α) : Json := .ofMembers [
  ("name", .ofText block.name), ("x", .ofNumber block.x), ("y", .ofNumber block.y),
  ("width", .ofNumber block.width), ("height", .ofNumber block.height),
  ("area", .ofNumber block.area), ("hard", .bool block.isHard)]

end PlacedBlock

namespace Plan

def toJson (plan : Plan α) : Json := .ofMembers [
  ("blocks", .array (plan.blocks.map (·.toJson))),
  ("width", .ofNumber plan.size.width), ("height", .ofNumber plan.size.height),
  ("outline", .ofMembers [
    ("width", .ofNumber plan.outline.width), ("height", .ofNumber plan.outline.height)]),
  ("feasible", .bool plan.feasible), ("cost", .ofNumber plan.cost),
  ("terms", plan.terms.toJson), ("normalized", plan.normalized.toJson),
  ("levels", .array (plan.levels.map (·.toJson)))]

def padRight (width : Nat) (text : String) : String :=
  text ++ String.ofList (List.replicate (width - text.length) ' ')

def padLeft (width : Nat) (text : String) : String :=
  String.ofList (List.replicate (width - text.length) ' ') ++ text

def tableLine (name kind : String) (numbers : List String) : String :=
  " ".intercalate (padRight 20 name :: padLeft 4 kind :: numbers.map (padLeft 10)) ++ "\n"

def blockLine (block : PlacedBlock α) : String :=
  tableLine block.name (if block.isHard then "hard" else "soft")
    ([block.x, block.y, block.width, block.height].map (NumberText.fixed 3))

def costLine (label : String) (places : Nat) (value : α) : String :=
  padRight 12 label ++ NumberText.fixed places value ++ "\n"

def table (plan : Plan α) : String :=
  tableLine "block" "kind" ["x", "y", "width", "height"] ++
    String.join (plan.blocks.map blockLine) ++ "\n" ++
    costLine "cost" 6 plan.cost ++
    costLine "area" 3 plan.terms.area ++
    costLine "wirelength" 3 plan.terms.wirelength ++
    costLine "outline" 3 plan.terms.outline ++
    costLine "boundary" 3 plan.terms.boundary ++
    costLine "blockage" 3 plan.terms.macroBlockage ++
    costLine "location" 3 plan.terms.location ++
    costLine "notch" 3 plan.terms.notch

end Plan

end Floorplanner
