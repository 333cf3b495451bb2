import Floorplanner.Alignment
import Floorplanner.Search

/-! The result of a search: every block in its final place, and how good the layout is. -/

namespace Floorplanner

/-- A block as it was placed. Its area may be less than the design's, if it shrank. -/
structure PlacedBlock (α : Type) where
  name : String
  x : α
  y : α
  width : α
  height : α
  area : α
  isHard : Bool
  deriving Repr, DecidableEq

structure Plan (α : Type) where
  blocks : List (PlacedBlock α)
  size : Size α
  outline : Size α
  feasible : Bool
  cost : α
  terms : Terms α
  normalized : Terms α
  levels : List (LevelSummary α)
  deriving Repr, DecidableEq

variable {α : Type}

def PlacedBlock.ofBlock (block : Block α) : PlacedBlock α where
  name := block.name
  x := block.x
  y := block.y
  width := block.width
  height := block.height
  area := block.area
  isHard := block.isHard

namespace Plan

def find? (plan : Plan α) (name : String) : Option (PlacedBlock α) :=
  plan.blocks.find? (·.name == name)

def hardCount (plan : Plan α) : Nat := plan.blocks.countP (·.isHard)

variable [Number α]

def boundingSize (blocks : List (Block α)) : Size α :=
  blocks.foldl
    (fun size block => ⟨max size.width block.footprint.ux, max size.height block.footprint.uy⟩)
    .zero

def finish (problem : Problem α) (config : Config α) (winner : Outcome α)
    (calibration : Calibration α) (levels : List (LevelSummary α)) : Plan α :=
  let blocks := (alignHard problem.outline winner.arrangement.blocks).blocks
  let size := boundingSize blocks
  let terms := Cost.evaluate problem config.notching blocks size
  { blocks := blocks.map .ofBlock
    size
    outline := problem.outline
    feasible := problem.fits size
    cost := terms.cost calibration.norms config.weights
    terms
    normalized := terms.normalized calibration.norms
    levels }

end Plan

end Floorplanner
