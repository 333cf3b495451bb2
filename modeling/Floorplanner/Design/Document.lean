import Floorplanner.Design.Resolution
import Floorplanner.Input
import Floorplanner.Path
import Floorplanner.Text.Json.Document
import Floorplanner.Text.Toml.Reader
import Floorplanner.Text.Toml.TaggedDate

/-!
Design documents.

A design is written in JSON or TOML. Entries under unknown keys are passed over. Every record may be
written as a list of its fields, except nets and location guides, whose fields have no order.
-/

namespace Floorplanner

namespace Design

open Data

def count? : Data → Option Nat := natBelow? UInt32.size

def outline? (data : Data) : Option (Size Float) := do
  let entries ← record? ["width", "height"] data
  return {
    width := ← required? real? entries "width"
    height := ← required? real? entries "height" }

def corners? (entries : List (String × Data)) : Option (Rect Float) := do
  return {
    lx := ← required? real? entries "lx"
    ly := ← required? real? entries "ly"
    ux := ← required? real? entries "ux"
    uy := ← required? real? entries "uy" }

def rect? (data : Data) : Option (Rect Float) := do
  let entries ← record? ["lx", "ly", "ux", "uy"] data
  corners? entries

def area? : Data → Option (Option Float)
  | .null => some none
  | data => (real? data).map some

def block? (data : Data) : Option (BlockDescription Float) := do
  let entries ← record? ["name", "area", "num_macro", "aspect_ratios", "shapes"] data
  return {
    name := ← required? text? entries "name"
    area := ← optional? area? none entries "area"
    macros := ← optional? count? 0 entries "num_macro"
    ratios := ← optional? (listOf? (pairOf? real? Interval.mk)) [] entries "aspect_ratios"
    shapes := ← optional? (listOf? (pairOf? real? Size.mk)) [] entries "shapes" }

def terminal? (data : Data) : Option (Terminal Float) := do
  let entries ← record? ["name", "x", "y"] data
  return {
    name := ← required? text? entries "name"
    x := ← required? real? entries "x"
    y := ← required? real? entries "y" }

def sink? (data : Data) : Option Sink := do
  let entries ← record? ["name", "weight"] data
  return {
    name := ← required? text? entries "name"
    weight := ← optional? count? 1 entries "weight" }

def fanout? (entries : List (String × Data)) : Option NetDescription := do
  return .fanout (← required? text? entries "source") (← required? (listOf? sink?) entries "sinks")

def explicit? (entries : List (String × Data)) : Option NetDescription := do
  return .explicit
    (← optional? (listOf? text?) [] entries "blocks")
    (← optional? (listOf? text?) [] entries "terminals")
    (← optional? count? 1 entries "weight")

/-- A net of one form or the other. What cannot be read as a fanout is tried as explicit. -/
def net? (data : Data) : Option NetDescription := do
  let entries ← entries? data
  match fanout? entries with
  | some net => some net
  | none => explicit? entries

def guide? (data : Data) : Option (Guide Float) := do
  let entries ← entries? data
  return { block := ← required? text? entries "block", rect := ← corners? entries }

def ofEntries? (entries : List (String × Data)) : Option (Design Float) := do
  return {
    outline := ← required? outline? entries "outline"
    blocks := ← optional? (listOf? block?) [] entries "blocks"
    terminals := ← optional? (listOf? terminal?) [] entries "terminals"
    nets := ← optional? (listOf? net?) [] entries "nets"
    regions := ← optional? (listOf? rect?) [] entries "regions"
    guides := ← optional? (listOf? guide?) [] entries "locations" }

inductive Format where
  | toml
  | json
  deriving Repr, DecidableEq

def Format.ofPath (path : String) : Format :=
  match (Path.ofText path).extension? with
  | some extension => if extension.toLower == "json" then json else toml
  | none => toml

/-- The entries of a document. A JSON text that is no object has none. -/
def Format.entries? (format : Format) (text : String) : Option (List (String × Data)) :=
  match format with
  | toml => (Toml.read? text).bind Toml.entriesWithDates?
  | json => (Json.readData? text).map fun data => (Data.entries? data).getD []

def read (format : Format) (text : String) : Except (InputError Float) (Design Float) :=
  match format.entries? text with
  | none => .error .malformed
  | some entries =>
      match lookup? "outline" entries with
      | none => .error (.missing "outline")
      | some _ =>
          match ofEntries? entries with
          | none => .error .malformed
          | some design =>
              if design.outline.isPositive then .ok design
              else .error (.outline design.outline)

end Design

end Floorplanner
