import Mathlib
import Floorplanner.Cost.Model
import Floorplanner.Proofs.Cost.Sums
import Floorplanner.Proofs.Rescaling.Block

/-!
The cost in another unit of length.

Of the terms, some are lengths and some are areas, and the notches have no unit. A term over its
constant has none, so cost and normalized terms are the same in every unit. That the terms change
with the unit as they should takes the cap of the notch thresholds to do so too: it is the one length
in a configuration.
-/

namespace Floorplanner

variable {α : Type} [ExactNumber α] (unit : Rescaling α)

namespace Terms

@[simps] def rescale (terms : Terms α) : Terms α where
  area := unit.area terms.area
  wirelength := unit.length terms.wirelength
  outline := unit.area terms.outline
  boundary := unit.area terms.boundary
  macroBlockage := unit.area terms.macroBlockage
  location := unit.length terms.location
  notch := terms.notch

variable (value norm weight : α) (terms norms weights : Terms α)

@[simp] theorem share?_length :
    share? (unit.length value) (unit.length norm) weight = share? value norm weight := by
  simp only [share?, Rescaling.length_pos, mul_comm weight, unit.length_mul _ weight,
    Rescaling.length_div_length]

@[simp] theorem share?_area :
    share? (unit.area value) (unit.area norm) weight = share? value norm weight := by
  simp only [share?, Rescaling.area_pos, mul_comm weight, unit.area_mul _ weight,
    Rescaling.area_div_area]

@[simp] theorem cost_rescale :
    (terms.rescale unit).cost (norms.rescale unit) weights = terms.cost norms weights := by
  simp [cost, zipWith, toList]

@[simp] theorem normalized_rescale :
    (terms.rescale unit).normalized (norms.rescale unit) = terms.normalized norms := by
  simp [normalized, zipWith]

@[simp] theorem rescale_zero : (zero : Terms α).rescale unit = zero := by
  simp [zero, replicate, rescale]

theorem zipWith_add_rescale :
    zipWith (· + ·) (terms.rescale unit) (norms.rescale unit) =
      (zipWith (· + ·) terms norms).rescale unit := by
  simp [zipWith, rescale]

theorem foldl_add_rescale (samples : List (Terms α)) (sum : Terms α) :
    (samples.map (rescale unit)).foldl (zipWith (· + ·)) (sum.rescale unit) =
      (samples.foldl (zipWith (· + ·)) sum).rescale unit := by
  rw [List.foldl_map]
  exact List.foldl_hom (rescale unit) fun sum terms => zipWith_add_rescale unit sum terms

@[simp] theorem mean_rescale (samples : List (Terms α)) :
    mean (samples.map (rescale unit)) = (mean samples).rescale unit := by
  have sums := foldl_add_rescale unit samples zero
  rw [rescale_zero] at sums
  rw [mean, mean, List.isEmpty_map, List.length_map, sums]
  split
  · exact (rescale_zero unit).symm
  · simp [map, rescale, Rescaling.length_div, Rescaling.area_div]

end Terms

@[simps] def Config.rescale (config : Config α) : Config α :=
  { config with
    notching := { config.notching with maxThreshold := unit.length config.notching.maxThreshold } }

@[simp] theorem Config.thresholds_rescale (config : Config α) (outline : Size α) :
    (config.rescale unit).notching.thresholds (outline.rescale unit) =
      (config.notching.thresholds outline).rescale unit := by
  simp [Notching.thresholds, Size.rescale, Rescaling.length_mul]

@[simps] def Terminal.rescale (terminal : Terminal α) : Terminal α :=
  ⟨terminal.name, unit.length terminal.x, unit.length terminal.y⟩

def Location.rescale (location : Location α) : Location α :=
  ⟨location.block, location.rect.rescale unit⟩

namespace Problem

@[simps] def rescale (problem : Problem α) : Problem α where
  outline := problem.outline.rescale unit
  blocks := problem.blocks.map (Block.rescale unit)
  nets := problem.nets
  terminals := problem.terminals.map (Terminal.rescale unit)
  regions := problem.regions.map (Rect.rescale unit)
  locations := problem.locations.map (Location.rescale unit)

theorem ofOutline_rescale (outline : Size α) :
    (ofOutline outline).rescale unit = ofOutline (outline.rescale unit) := by
  simp [ofOutline, rescale, Terminal.standard, Terminal.onEdge, Terminal.rescale,
    Rescaling.length_mul, Rescaling.length_div]

@[simp] theorem fits_rescale (problem : Problem α) (size : Size α) :
    (problem.rescale unit).fits (size.rescale unit) = problem.fits size := by
  simp [fits, Rescaling.length_mul]

end Problem

namespace Cost

variable (problem : Problem α) (blocks : List (Block α)) (net : Net) (outline size : Size α)

@[simp] theorem boundingBox?_rescale (points : List (Point α)) :
    boundingBox? (points.map (Point.rescale unit)) =
      (boundingBox? points).map (Rect.rescale unit) :=
  boundingBox?_map (fun _ => rfl) (fun box point => by simp [Rect.rescale]) points

@[simp] theorem pins_rescale :
    pins (problem.rescale unit) (blocks.map (Block.rescale unit)) net =
      (pins problem blocks net).map (Point.rescale unit) := by
  simp [pins, List.map_filterMap, Point.rescale, Function.comp_def]

@[simp] theorem wirelength_rescale :
    wirelength (problem.rescale unit) (blocks.map (Block.rescale unit)) =
      unit.length (wirelength problem blocks) := by
  refine unit.foldl_length problem.nets fun total net => ?_
  simp only [pins_rescale, boundingBox?_rescale]
  cases boundingBox? (pins problem blocks net) with
  | none => rfl
  | some box => simp [unit.length_mul _ (net.weight : α)]

@[simp] theorem outlinePenalty_rescale :
    outlinePenalty (outline.rescale unit) (size.rescale unit) =
      unit.area (outlinePenalty outline size) := by
  simp [outlinePenalty]

@[simp] theorem edgeDistance_rescale (rect : Rect α) :
    edgeDistance (outline.rescale unit) (rect.rescale unit) =
      unit.length (edgeDistance outline rect) := by
  simp [edgeDistance]

theorem sum_area (terms : List α) :
    Number.sum (terms.map unit.area) = unit.area (Number.sum terms) := by
  have sum := List.sum_map_mul_left terms id (unit.factor * unit.factor)
  rw [List.map_id] at sum
  rw [Number.sum_eq, Number.sum_eq]
  exact sum

@[simp] theorem boundaryPenalty_rescale :
    boundaryPenalty (outline.rescale unit) (blocks.map (Block.rescale unit)) =
      unit.area (boundaryPenalty outline blocks) := by
  rw [boundaryPenalty, boundaryPenalty, ← sum_area, Block.filter_isHard_rescale]
  simp [Rescaling.area_mul, Function.comp_def]

@[simp] theorem macroBlockage_rescale :
    macroBlockage (problem.rescale unit) (blocks.map (Block.rescale unit)) =
      unit.area (macroBlockage problem blocks) := by
  simp only [macroBlockage, Problem.rescale_regions, List.foldl_map, Block.filter_isHard_rescale]
  refine unit.foldl_area problem.regions fun total region => ?_
  exact List.foldl_hom unit.area fun total block => by simp

@[simp] theorem locationGap_rescale (block : Block α) (rect : Rect α) :
    locationGap (block.rescale unit) (rect.rescale unit) = unit.length (locationGap block rect) := by
  simp [locationGap, Rescaling.length_div]

@[simp] theorem locationPenalty_rescale :
    locationPenalty (problem.rescale unit) (blocks.map (Block.rescale unit)) =
      unit.length (locationPenalty problem blocks) := by
  simp only [locationPenalty, Problem.rescale_locations, List.foldl_map]
  refine unit.foldl_length problem.locations fun total location => ?_
  simp only [Location.rescale, List.getElem?_map]
  cases blocks[location.block.index]? with
  | none => rfl
  | some block => simp

end Cost

namespace Notch

variable (line low high extent : α) (lines edges : List α) (strips : List (Interval α))

@[simp] theorem dropRepeats_rescale :
    dropRepeats (lines.map unit.length) = (dropRepeats lines).map unit.length := by
  induction lines with
  | nil => rfl
  | cons line rest induction =>
      simp only [List.map_cons, dropRepeats, induction]
      cases dropRepeats rest with
      | nil => rfl
      | cons next others =>
          simp only [List.map_cons, Rescaling.length_beq_length]
          split <;> rfl

@[simp] theorem gridLines_rescale :
    gridLines (edges.map unit.length) (unit.length extent) =
      (gridLines edges extent).map unit.length := by
  have lines : edges.map unit.length ++ [0, unit.length extent] =
      (edges ++ [0, extent]).map unit.length := by
    simp
  rw [gridLines, gridLines, lines, ← dropRepeats_rescale]
  refine congrArg dropRepeats (List.map_mergeSort fun a _ b _ => ?_).symm
  exact decide_eq_decide.mpr (unit.length_le_length a b).symm

@[simp] theorem strips_rescale :
    Notch.strips (lines.map unit.length) = (Notch.strips lines).map (Interval.rescale unit) := by
  induction lines with
  | nil => rfl
  | cons first rest induction =>
      cases rest with
      | nil => rfl
      | cons second rest => exact congrArg _ induction

@[simp] theorem firstStrip_rescale :
    firstStrip (strips.map (Interval.rescale unit)) (unit.length low) = firstStrip strips low := by
  simp [firstStrip, List.findIdx?_map, Function.comp_def]

@[simp] theorem lastStrip_rescale :
    lastStrip (strips.map (Interval.rescale unit)) (unit.length high) = lastStrip strips high := by
  simp [lastStrip, ← List.map_reverse, List.findIdx?_map, Function.comp_def]

@[simps] def Grid.rescale (grid : Grid α) : Grid α :=
  ⟨grid.columns.map (Interval.rescale unit), grid.rows.map (Interval.rescale unit)⟩

variable (outline size thresholds : Size α) (rects : List (Rect α)) (grid : Grid α)

@[simp] theorem ofRects_rescale :
    Grid.ofRects (outline.rescale unit) (rects.map (Rect.rescale unit)) =
      (Grid.ofRects outline rects).rescale unit := by
  have across : (rects.map (Rect.rescale unit)).flatMap (fun rect => [rect.lx, rect.ux]) =
      (rects.flatMap fun rect => [rect.lx, rect.ux]).map unit.length := by
    simp [List.flatMap_map, List.map_flatMap]
  have upward : (rects.map (Rect.rescale unit)).flatMap (fun rect => [rect.ly, rect.uy]) =
      (rects.flatMap fun rect => [rect.ly, rect.uy]).map unit.length := by
    simp [List.flatMap_map, List.map_flatMap]
  simp [Grid.ofRects, Grid.rescale, across, upward]

@[simp] theorem patch_rescale (rect : Rect α) :
    (grid.rescale unit).patch (rect.rescale unit) = grid.patch rect := by
  simp [Grid.patch]

@[simp] theorem neighbors_rescale (column row : Nat) :
    (grid.rescale unit).neighbors column row = grid.neighbors column row := by
  simp [Grid.neighbors]

@[simp] theorem isNotch_rescale (patches : List Patch) (column row : Interval α × Nat) :
    isNotch (grid.rescale unit) patches (thresholds.rescale unit)
        (column.map (Interval.rescale unit) id) (row.map (Interval.rescale unit) id) =
      isNotch grid patches thresholds column row := by
  simp [isNotch, isEnclosed]

@[simp] theorem weight_rescale (column row : Interval α) :
    weight (outline.rescale unit) (column.rescale unit) (row.rescale unit) =
      weight outline column row := by
  simp [weight]

@[simp] theorem total_rescale :
    total (outline.rescale unit) (thresholds.rescale unit) (rects.map (Rect.rescale unit)) =
      total outline thresholds rects := by
  simp [total, List.zipIdx_map, List.foldl_map, Function.comp_def]

@[simp] theorem penalty_rescale (blocks : List (Block α)) :
    penalty (outline.rescale unit) (size.rescale unit) (blocks.map (Block.rescale unit))
        (thresholds.rescale unit) =
      penalty outline size blocks thresholds := by
  have rects : ((blocks.map (Block.rescale unit)).filter (·.isHard)).map (·.footprint) =
      ((blocks.filter (·.isHard)).map (·.footprint)).map (Rect.rescale unit) := by
    rw [Block.filter_isHard_rescale]
    simp
  rw [penalty, penalty, rects, total_rescale]
  simp

end Notch

/-- The terms of a rescaled layout of the rescaled problem are the rescaled terms. -/
@[simp] theorem Cost.evaluate_rescale (problem : Problem α) (config : Config α)
    (blocks : List (Block α)) (size : Size α) :
    evaluate (problem.rescale unit) (config.rescale unit).notching
        (blocks.map (Block.rescale unit)) (size.rescale unit) =
      (evaluate problem config.notching blocks size).rescale unit := by
  simp only [evaluate, Size.area_rescale, wirelength_rescale, Problem.rescale_outline,
    outlinePenalty_rescale, boundaryPenalty_rescale, macroBlockage_rescale,
    locationPenalty_rescale, Config.thresholds_rescale, Notch.penalty_rescale]
  rfl

end Floorplanner
