import Floorplanner.Cost.Notch
import Floorplanner.Cost.Terms
import Floorplanner.Problem

/-! The terms of the cost of a layout. -/

namespace Floorplanner

namespace Cost

variable {α : Type} [Number α]

def boundingBox? : List (Point α) → Option (Rect α)
  | [] => none
  | first :: rest =>
      some (rest.foldl
        (fun box point =>
          ⟨min box.lx point.x, min box.ly point.y, max box.ux point.x, max box.uy point.y⟩)
        ⟨first.x, first.y, first.x, first.y⟩)

/-- The pins of a net: the centers of its blocks and the places of its terminals. -/
def pins (problem : Problem α) (blocks : List (Block α)) (net : Net) : List (Point α) :=
  net.blocks.filterMap (fun ref => blocks[ref.index]?.map (·.center)) ++
    net.terminals.filterMap (fun ref =>
      problem.terminals[ref.index]?.map fun terminal => ⟨terminal.x, terminal.y⟩)

/-- Adds up the lengths of the nets: half the perimeter of the box around the pins, by weight. -/
def wirelength (problem : Problem α) (blocks : List (Block α)) : α :=
  problem.nets.foldl
    (fun total net =>
      match boundingBox? (pins problem blocks net) with
      | none => total
      | some box => total + ((box.ux - box.lx) + (box.uy - box.ly)) * (net.weight : α))
    0

def outlinePenalty (outline size : Size α) : α :=
  let width := max outline.width size.width
  let height := max outline.height size.height
  max (width * height - outline.area) 0

def edgeDistance (outline : Size α) (rect : Rect α) : α :=
  min (min (min rect.lx (Number.abs (outline.width - rect.ux))) rect.ly)
    (Number.abs (outline.height - rect.uy))

/-- The squared distances of the hard blocks to the outline, by the squares of their macro counts. -/
def boundaryPenalty (outline : Size α) (blocks : List (Block α)) : α :=
  Number.sum ((blocks.filter (·.isHard)).map fun block =>
    let distance := edgeDistance outline block.footprint
    distance * distance * (block.macros : α) * (block.macros : α))

def macroBlockage (problem : Problem α) (blocks : List (Block α)) : α :=
  problem.regions.foldl
    (fun total region =>
      (blocks.filter (·.isHard)).foldl
        (fun total block => total + block.footprint.overlapArea region) total)
    0

/-- The gap between a block and its location on the axis where they are nearer. -/
def locationGap (block : Block α) (rect : Rect α) : α :=
  let halfWidth := (block.width + rect.width) / (2 : Nat)
  let halfHeight := (block.height + rect.height) / (2 : Nat)
  let across := max (Number.abs (block.center.x - rect.center.x) - halfWidth) 0
  let upward := max (Number.abs (block.center.y - rect.center.y) - halfHeight) 0
  min across upward

def locationPenalty (problem : Problem α) (blocks : List (Block α)) : α :=
  problem.locations.foldl
    (fun total location =>
      match blocks[location.block.index]? with
      | none => total
      | some block => total + locationGap block location.rect)
    0

def evaluate (problem : Problem α) (notching : Config.Notching α) (blocks : List (Block α))
    (size : Size α) : Terms α where
  area := size.area
  wirelength := wirelength problem blocks
  outline := outlinePenalty problem.outline size
  boundary := boundaryPenalty problem.outline blocks
  macroBlockage := macroBlockage problem blocks
  location := locationPenalty problem blocks
  notch := Notch.penalty problem.outline size blocks (notching.thresholds problem.outline)

end Cost

/-- Whether a layout fits the outline, which it may exceed by a thousandth on either side. -/
def Problem.fits {α : Type} [Number α] (problem : Problem α) (size : Size α) : Bool :=
  decide (size.width ≤ problem.outline.width * Number.ratio 1001 1000) &&
    decide (size.height ≤ problem.outline.height * Number.ratio 1001 1000)

end Floorplanner
