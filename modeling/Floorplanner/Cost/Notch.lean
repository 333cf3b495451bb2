import Floorplanner.Block

/-!
Notches: narrow gaps between hard blocks.

Lines along all edges of the hard blocks cut the outline into cells. A cell that no hard block
covers is a notch if enough of its neighbours are covered and it is narrow or low.
-/

namespace Floorplanner

namespace Notch

variable {α : Type} [Number α]

def dropRepeats : List α → List α
  | [] => []
  | line :: rest =>
      match dropRepeats rest with
      | [] => [line]
      | next :: others => if line == next then line :: others else line :: next :: others

def gridLines (edges : List α) (extent : α) : List α :=
  dropRepeats ((edges ++ [0, extent]).mergeSort Number.sortsBefore)

def strips : List α → List (Interval α)
  | low :: high :: rest => ⟨low, high⟩ :: strips (high :: rest)
  | _ => []

/-- The strip in which a span starts; the first if there is none. -/
def firstStrip (grid : List (Interval α)) (low : α) : Nat :=
  (grid.findIdx? fun strip => decide (strip.low ≤ low) && decide (low < strip.high)).getD 0

/-- The strip in which a span ends; the last if there is none. -/
def lastStrip (grid : List (Interval α)) (high : α) : Nat :=
  let fromEnd := grid.reverse.findIdx? fun strip =>
    decide (strip.low < high) && decide (high ≤ strip.high)
  grid.length - 1 - fromEnd.getD 0

structure Grid (α : Type) where
  columns : List (Interval α)
  rows : List (Interval α)

structure Patch where
  firstColumn : Nat
  lastColumn : Nat
  firstRow : Nat
  lastRow : Nat
  deriving Repr, DecidableEq

def Patch.contains (patch : Patch) (column row : Nat) : Bool :=
  decide (patch.firstColumn ≤ column) && decide (column ≤ patch.lastColumn) &&
    decide (patch.firstRow ≤ row) && decide (row ≤ patch.lastRow)

def Grid.ofRects (outline : Size α) (rects : List (Rect α)) : Grid α where
  columns := strips (gridLines (rects.flatMap fun rect => [rect.lx, rect.ux]) outline.width)
  rows := strips (gridLines (rects.flatMap fun rect => [rect.ly, rect.uy]) outline.height)

def Grid.patch (grid : Grid α) (rect : Rect α) : Patch :=
  let firstColumn := firstStrip grid.columns rect.lx
  let firstRow := firstStrip grid.rows rect.ly
  { firstColumn, lastColumn := max (lastStrip grid.columns rect.ux) firstColumn
    firstRow, lastRow := max (lastStrip grid.rows rect.uy) firstRow }

def isCovered (patches : List Patch) (column row : Nat) : Bool :=
  patches.any (·.contains column row)

def beside (count index : Nat) : List Nat :=
  (if 0 < index then [index - 1] else []) ++ (if index + 1 < count then [index + 1] else [])

def Grid.neighbors (grid : Grid α) (column row : Nat) : List (Nat × Nat) :=
  (beside grid.columns.length column).map (·, row) ++
    (beside grid.rows.length row).map (column, ·)

/-- A cell with four neighbours is enclosed by two of them, one at the outline's edge by one. -/
def isEnclosed (grid : Grid α) (patches : List Patch) (column row : Nat) : Bool :=
  let neighbors := grid.neighbors column row
  let needed := if neighbors.length = 4 then 2 else 1
  decide (needed ≤ neighbors.countP fun (i, j) => isCovered patches i j)

def isNotch (grid : Grid α) (patches : List Patch) (thresholds : Size α)
    (column row : Interval α × Nat) : Bool :=
  !isCovered patches column.2 row.2 && isEnclosed grid patches column.2 row.2 &&
    (decide (column.1.length ≤ thresholds.width) || decide (row.1.length ≤ thresholds.height))

def weight (outline : Size α) (column row : Interval α) : α :=
  Number.sqrt (column.length * row.length / outline.area)

def total (outline thresholds : Size α) (rects : List (Rect α)) : α :=
  let grid := Grid.ofRects outline rects
  let patches := rects.map grid.patch
  grid.columns.zipIdx.foldl
    (fun sum column =>
      grid.rows.zipIdx.foldl
        (fun sum row =>
          if isNotch grid patches thresholds column row then
            sum + weight outline column.1 row.1
          else sum)
        sum)
    0

/--
The notches of a layout. A layout that exceeds the outline has no grid; it counts for the root of
the area that covers both, over the outline's.
-/
def penalty (outline size : Size α) (blocks : List (Block α)) (thresholds : Size α) : α :=
  if outline.width < size.width ∨ outline.height < size.height then
    Number.sqrt (max size.width outline.width * max size.height outline.height / outline.area)
  else
    total outline thresholds ((blocks.filter (·.isHard)).map (·.footprint))

end Notch

end Floorplanner
