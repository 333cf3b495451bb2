import Mathlib
import Floorplanner.Cost.Model
import Floorplanner.Proofs.Cost.Terms

/-!
The terms of the cost as sums.

Each of them but the area and the outline penalty adds up what single nets, blocks, regions, locations
or cells count for. With exact numbers the order of the summands does not matter.
-/

namespace Floorplanner

variable {α : Type} [ExactNumber α]

section Sum

variable {ι : Type}

theorem foldl_add_eq_sum (list : List ι) (value : ι → α) (start : α) :
    list.foldl (fun sum item => sum + value item) start = start + (list.map value).sum := by
  induction list generalizing start with
  | nil => simp
  | cons item rest induction =>
      rw [List.foldl_cons, induction, List.map_cons, List.sum_cons, ← add_assoc]

theorem sum_map_filter {list : List ι} {value : ι → α} (keep : ι → Bool)
    (left : ∀ item ∈ list, keep item = false → value item = 0) :
    ((list.filter keep).map value).sum = (list.map value).sum := by
  induction list with
  | nil => rfl
  | cons item rest induction =>
      have others := induction fun item member => left item (.tail _ member)
      cases kept : keep item with
      | true => simp [kept, others]
      | false => simp [kept, others, left item (.head _) kept]

theorem sum_map_zipIdx (list : List ι) (value : ι × Nat → α) :
    (list.zipIdx.map value).sum = ∑ index : Fin list.length, value (list[index], index) := by
  rw [← List.sum_ofFn]
  congr 1
  apply List.ext_getElem <;> simp

end Sum

namespace Cost

variable (problem : Problem α) (outline : Size α) (blocks : List (Block α))

/-- A box goes where its points go if it does so when it grows. -/
theorem boundingBox?_map {place : Point α → Point α} {shape : Rect α → Rect α}
    (single : ∀ point : Point α, shape ⟨point.x, point.y, point.x, point.y⟩ =
      ⟨(place point).x, (place point).y, (place point).x, (place point).y⟩)
    (grows : ∀ (box : Rect α) (point : Point α),
      shape ⟨min box.lx point.x, min box.ly point.y, max box.ux point.x, max box.uy point.y⟩ =
        ⟨min (shape box).lx (place point).x, min (shape box).ly (place point).y,
          max (shape box).ux (place point).x, max (shape box).uy (place point).y⟩)
    (points : List (Point α)) :
    boundingBox? (points.map place) = (boundingBox? points).map shape := by
  cases points with
  | nil => rfl
  | cons first rest =>
      simp only [List.map_cons, boundingBox?, List.foldl_map, Option.map_some, ← single]
      exact congrArg some (List.foldl_hom shape fun box point => (grows box point).symm)

def netLength (net : Net) : α :=
  (boundingBox? (pins problem blocks net)).elim 0 fun box =>
    ((box.ux - box.lx) + (box.uy - box.ly)) * (net.weight : α)

def edgePenalty (block : Block α) : α :=
  let distance := edgeDistance outline block.footprint
  distance * distance * (block.macros : α) * (block.macros : α)

def blockage (region : Rect α) : α :=
  ((blocks.filter (·.isHard)).map (·.footprint.overlapArea region)).sum

def guideGap (location : Location α) : α :=
  blocks[location.block.index]?.elim 0 fun block => locationGap block location.rect

theorem wirelength_eq_sum :
    wirelength problem blocks = (problem.nets.map (netLength problem blocks)).sum := by
  rw [← zero_add (List.sum _), ← foldl_add_eq_sum, wirelength]
  congr
  funext total net
  rw [netLength]
  cases boundingBox? (pins problem blocks net) with
  | none => exact (add_zero total).symm
  | some box => rfl

theorem boundaryPenalty_eq_sum :
    boundaryPenalty outline blocks =
      ((blocks.filter (·.isHard)).map (edgePenalty outline)).sum :=
  Number.sum_eq _

theorem macroBlockage_eq_sum :
    macroBlockage problem blocks = (problem.regions.map (blockage blocks)).sum := by
  simp only [macroBlockage, foldl_add_eq_sum, zero_add]
  rfl

theorem locationPenalty_eq_sum :
    locationPenalty problem blocks = (problem.locations.map (guideGap blocks)).sum := by
  rw [← zero_add (List.sum _), ← foldl_add_eq_sum, locationPenalty]
  congr
  funext total location
  rw [guideGap]
  cases blocks[location.block.index]? with
  | none => exact (add_zero total).symm
  | some block => rfl

end Cost

namespace Notch

variable (outline thresholds : Size α) (rects : List (Rect α))

def cellWeight (grid : Grid α) (column : Fin grid.columns.length) (row : Fin grid.rows.length) : α :=
  if isNotch grid (rects.map grid.patch) thresholds (grid.columns[column], column)
      (grid.rows[row], row) then
    weight outline grid.columns[column] grid.rows[row]
  else 0

theorem total_eq_sum_cells :
    total outline thresholds rects =
      ∑ column, ∑ row, cellWeight outline thresholds rects (Grid.ofRects outline rects) column row := by
  have step (holds : Bool) (sum value : α) :
      (if holds then sum + value else sum) = sum + if holds then value else 0 := by
    cases holds <;> simp
  simp only [total, step, foldl_add_eq_sum, zero_add, sum_map_zipIdx]
  rfl

end Notch

end Floorplanner
