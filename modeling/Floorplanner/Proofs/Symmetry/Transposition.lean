import Mathlib
import Floorplanner.Proofs.Cost.Raster

/-!
Layouts with their axes exchanged.

A problem and a layout are transposed together, with the shapes that blocks may take. What the cost
adds up is the same for each net, block, region, location and cell.
-/

namespace Floorplanner

variable {α : Type}

@[simps] def Size.transpose (size : Size α) : Size α := ⟨size.height, size.width⟩

@[simps] def Point.transpose (point : Point α) : Point α := ⟨point.y, point.x⟩

@[simps] def Rect.transpose (rect : Rect α) : Rect α := ⟨rect.ly, rect.lx, rect.uy, rect.ux⟩

@[simps] def Terminal.transpose (terminal : Terminal α) : Terminal α :=
  ⟨terminal.name, terminal.y, terminal.x⟩

@[simps] def Location.transpose (location : Location α) : Location α :=
  ⟨location.block, location.rect.transpose⟩

variable [ExactNumber α]

namespace Block

/-- The ratio of height to width is inverted, and so is the order of the ratios. -/
def Form.transpose : Form α → Form α
  | .soft ratios widths heights =>
      .soft (ratios.map fun range => ⟨1 / range.high, 1 / range.low⟩) heights widths
  | .hard macros options current => .hard macros (options.map Size.transpose) current

@[simps] def transpose (block : Block α) : Block α where
  name := block.name
  area := block.area
  form := block.form.transpose
  width := block.height
  height := block.width
  x := block.y
  y := block.x

variable (block : Block α)

@[simp] theorem isSoft_transpose : block.transpose.isSoft = block.isSoft := by
  cases block with
  | mk name area form => cases form <;> rfl

@[simp] theorem isHard_transpose : block.transpose.isHard = block.isHard := by
  simp [isHard]

@[simp] theorem macros_transpose : block.transpose.macros = block.macros := by
  cases block with
  | mk name area form => cases form <;> rfl

@[simp] theorem footprint_transpose : block.transpose.footprint = block.footprint.transpose := rfl

@[simp] theorem center_transpose : block.transpose.center = block.center.transpose := rfl

theorem filter_isHard_transpose (blocks : List (Block α)) :
    (blocks.map transpose).filter (·.isHard) = (blocks.filter (·.isHard)).map transpose := by
  simp [List.filter_map, Function.comp_def]

end Block

@[simps] def Problem.transpose (problem : Problem α) : Problem α where
  outline := problem.outline.transpose
  blocks := problem.blocks.map Block.transpose
  nets := problem.nets
  terminals := problem.terminals.map Terminal.transpose
  regions := problem.regions.map Rect.transpose
  locations := problem.locations.map Location.transpose

@[simp] theorem Size.area_transpose (size : Size α) : size.transpose.area = size.area :=
  mul_comm _ _

namespace Rect

variable (r s : Rect α)

@[simp] theorem width_transpose : r.transpose.width = r.height := rfl

@[simp] theorem height_transpose : r.transpose.height = r.width := rfl

@[simp] theorem center_transpose : r.transpose.center = r.center.transpose := rfl

@[simp] theorem overlapArea_transpose : r.transpose.overlapArea s.transpose = r.overlapArea s :=
  if_congr or_comm rfl (mul_comm _ _)

end Rect

@[simp] theorem Config.thresholds_transpose (notching : Notching α) (outline : Size α) :
    notching.thresholds outline.transpose = (notching.thresholds outline).transpose := rfl

namespace Cost

variable (problem : Problem α) (blocks : List (Block α)) (net : Net) (outline size : Size α)

@[simp] theorem boundingBox?_transpose (points : List (Point α)) :
    boundingBox? (points.map Point.transpose) = (boundingBox? points).map Rect.transpose :=
  boundingBox?_map (fun _ => rfl) (fun _ _ => rfl) points

@[simp] theorem pins_transpose :
    pins problem.transpose (blocks.map Block.transpose) net =
      (pins problem blocks net).map Point.transpose := by
  simp [pins, List.map_filterMap, Function.comp_def, Point.transpose]

@[simp] theorem netLength_transpose :
    netLength problem.transpose (blocks.map Block.transpose) = netLength problem blocks := by
  funext net
  simp only [netLength, pins_transpose, boundingBox?_transpose]
  cases boundingBox? (pins problem blocks net) with
  | none => rfl
  | some box => exact congrArg (· * (net.weight : α)) (add_comm _ _)

@[simp] theorem outlinePenalty_transpose :
    outlinePenalty outline.transpose size.transpose = outlinePenalty outline size := by
  simp [outlinePenalty, mul_comm]

@[simp] theorem edgeDistance_transpose (rect : Rect α) :
    edgeDistance outline.transpose rect.transpose = edgeDistance outline rect := by
  simp only [edgeDistance, Rect.transpose, Size.transpose]
  rw [min_assoc, min_comm, ← min_assoc]

@[simp] theorem edgePenalty_transpose (block : Block α) :
    edgePenalty outline.transpose block.transpose = edgePenalty outline block := by
  simp [edgePenalty]

@[simp] theorem blockage_transpose (region : Rect α) :
    blockage (blocks.map Block.transpose) region.transpose = blockage blocks region := by
  simp [blockage, Block.filter_isHard_transpose, Function.comp_def]

@[simp] theorem locationGap_transpose (block : Block α) (rect : Rect α) :
    locationGap block.transpose rect.transpose = locationGap block rect :=
  min_comm _ _

@[simp] theorem guideGap_transpose (location : Location α) :
    guideGap (blocks.map Block.transpose) location.transpose = guideGap blocks location := by
  simp only [guideGap, Location.transpose, List.getElem?_map]
  cases blocks[location.block.index]? with
  | none => rfl
  | some block => exact locationGap_transpose block location.rect

end Cost

namespace Notch

@[simps] def Patch.transpose (patch : Patch) : Patch :=
  ⟨patch.firstRow, patch.lastRow, patch.firstColumn, patch.lastColumn⟩

@[simps] def Grid.transpose {α : Type} (grid : Grid α) : Grid α := ⟨grid.rows, grid.columns⟩

variable (outline size thresholds : Size α) (rects : List (Rect α)) (grid : Grid α)

@[simp] theorem ofRects_transpose :
    Grid.ofRects outline.transpose (rects.map Rect.transpose) =
      (Grid.ofRects outline rects).transpose := by
  simp [Grid.ofRects, Grid.transpose, List.flatMap_map]

@[simp] theorem patch_transpose (rect : Rect α) :
    grid.transpose.patch rect.transpose = (grid.patch rect).transpose := rfl

omit [ExactNumber α] in
theorem neighbors_transpose (column row : Nat) :
    (grid.transpose.neighbors row column).Perm ((grid.neighbors column row).map Prod.swap) := by
  simp only [Grid.neighbors, Grid.transpose, List.map_append, List.map_map]
  exact List.perm_append_comm

theorem contains_transpose (patch : Patch) (column row : Nat) :
    patch.transpose.contains row column = patch.contains column row := by
  rw [Bool.eq_iff_iff, Patch.contains_iff, Patch.contains_iff]
  exact and_comm

@[simp] theorem isCovered_transpose (patches : List Patch) (column row : Nat) :
    isCovered (patches.map Patch.transpose) row column = isCovered patches column row := by
  simp only [isCovered, List.any_map, Function.comp_def, contains_transpose]

omit [ExactNumber α] in
@[simp] theorem isEnclosed_transpose (patches : List Patch) (column row : Nat) :
    isEnclosed grid.transpose (patches.map Patch.transpose) row column =
      isEnclosed grid patches column row := by
  have neighbors := neighbors_transpose grid column row
  simp only [isEnclosed, neighbors.length_eq, neighbors.countP_eq, List.length_map, List.countP_map,
    Function.comp_def, Prod.fst_swap, Prod.snd_swap, isCovered_transpose]

@[simp] theorem isNotch_transpose (patches : List Patch) (column row : Interval α × Nat) :
    isNotch grid.transpose (patches.map Patch.transpose) thresholds.transpose row column =
      isNotch grid patches thresholds column row := by
  simp only [isNotch, isCovered_transpose, isEnclosed_transpose, Size.transpose]
  exact congrArg _ (Bool.or_comm _ _)

theorem weight_transpose (column row : Interval α) :
    weight outline.transpose row column = weight outline column row := by
  rw [weight, weight, Size.area_transpose, mul_comm]

theorem cellWeight_transpose (column : Fin grid.columns.length) (row : Fin grid.rows.length) :
    cellWeight outline.transpose thresholds.transpose (rects.map Rect.transpose) grid.transpose row
        column =
      cellWeight outline thresholds rects grid column row := by
  have patches : (rects.map Rect.transpose).map grid.transpose.patch =
      (rects.map grid.patch).map Patch.transpose := by
    simp
  unfold cellWeight
  rw [patches, weight_transpose]
  exact if_congr (iff_of_eq (congrArg (· = true) (isNotch_transpose _ _ _ _ _))) rfl rfl

theorem total_transpose :
    total outline.transpose thresholds.transpose (rects.map Rect.transpose) =
      total outline thresholds rects := by
  rw [total_eq_sum_cells, total_eq_sum_cells, Finset.sum_comm, ofRects_transpose]
  refine Finset.sum_congr rfl fun column _ => Finset.sum_congr rfl fun row _ => ?_
  exact cellWeight_transpose outline thresholds rects (Grid.ofRects outline rects) column row

@[simp] theorem penalty_transpose (blocks : List (Block α)) :
    penalty outline.transpose size.transpose (blocks.map Block.transpose) thresholds.transpose =
      penalty outline size blocks thresholds := by
  have rects : ((blocks.map Block.transpose).filter (·.isHard)).map (·.footprint) =
      ((blocks.filter (·.isHard)).map (·.footprint)).map Rect.transpose := by
    simp [Block.filter_isHard_transpose]
  rw [penalty, penalty, rects, total_transpose, Size.area_transpose]
  refine if_congr or_comm ?_ rfl
  exact congrArg (fun area => Number.sqrt (area / outline.area)) (mul_comm _ _)

end Notch

/-- The terms of a transposed layout of the transposed problem are the same. -/
theorem Cost.evaluate_transpose (problem : Problem α) (notching : Config.Notching α)
    (blocks : List (Block α)) (size : Size α) :
    evaluate problem.transpose notching (blocks.map Block.transpose) size.transpose =
      evaluate problem notching blocks size := by
  simp [evaluate, wirelength_eq_sum, boundaryPenalty_eq_sum, macroBlockage_eq_sum,
    locationPenalty_eq_sum, Block.filter_isHard_transpose, Function.comp_def]

end Floorplanner
