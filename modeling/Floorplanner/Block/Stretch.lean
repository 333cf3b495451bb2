import Floorplanner.Block

/-!
How far a block can be stretched.

Along one axis a block spans from its lower to its upper edge. Stretched forward, the upper edge
goes on to the next upper edge of any block, or to the outline; stretched backward, it comes back to
the last upper edge that lies within the span.
-/

namespace Floorplanner

namespace Block

variable {α : Type} [Number α]

/-- Length of a span whose upper edge moves on to the next of `edges`, no further than `limit`. -/
def stretchForward (span : Interval α) (edges : List α) (limit : α) : Option α :=
  if limit ≤ span.low then none
  else
    let ahead := edges.filter fun edge => decide (span.high < edge) && decide (edge < limit)
    some (ahead.foldl min limit - span.low)

/-- Length of a span whose upper edge moves back to the last of `edges` inside it. -/
def stretchBackward (span : Interval α) (edges : List α) : Option α :=
  let behind := edges.filter fun edge => decide (edge < span.high) && decide (span.low < edge)
  let edge := behind.foldl max span.low
  if span.low < edge then some (edge - span.low) else none

def stretchTarget (blocks : List (Block α)) (outline : Size α) (block : Block α)
    (direction : Direction) : Option α :=
  let axis := direction.axis
  let span := block.footprint.span axis
  let edges := blocks.map fun other => (other.footprint.span axis).high
  if direction.isForward then stretchForward span edges (outline.along axis)
  else stretchBackward span edges

end Block

end Floorplanner
