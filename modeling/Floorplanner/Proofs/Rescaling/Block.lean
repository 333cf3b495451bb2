import Mathlib
import Floorplanner.Move
import Floorplanner.Proofs.Rescaling.Geometry

/-!
Blocks in another unit of length.

A block has its sides, its place and its limits in lengths and its area in areas, while its aspect
ratios have no unit. Every way to give it a shape, random ones included, gives the rescaled block the
rescaled shape from the same draws.
-/

namespace Floorplanner

variable {α σ : Type} [ExactNumber α] (unit : Rescaling α)

namespace Block

def Form.rescale : Form α → Form α
  | .soft ratios widths heights =>
      .soft ratios (widths.map (Interval.rescale unit)) (heights.map (Interval.rescale unit))
  | .hard macros options current => .hard macros (options.map (Size.rescale unit)) current

def Shape.rescale (shape : Shape α) : Shape α :=
  ⟨unit.length shape.width, unit.length shape.height, shape.option⟩

@[simps] def rescale (block : Block α) : Block α where
  name := block.name
  area := unit.area block.area
  form := block.form.rescale unit
  width := unit.length block.width
  height := unit.length block.height
  x := unit.length block.x
  y := unit.length block.y

section Parts

variable (block : Block α)

@[simp] theorem isSoft_rescale : (block.rescale unit).isSoft = block.isSoft := by
  cases block with
  | mk name area form => cases form <;> rfl

@[simp] theorem isHard_rescale : (block.rescale unit).isHard = block.isHard := by
  rw [isHard, isHard, isSoft_rescale]

@[simp] theorem filter_isHard_rescale (blocks : List (Block α)) :
    (blocks.map (rescale unit)).filter (·.isHard) =
      (blocks.filter (·.isHard)).map (rescale unit) := by
  simp [List.filter_map, Function.comp_def]

@[simp] theorem macros_rescale : (block.rescale unit).macros = block.macros := by
  cases block with
  | mk name area form => cases form <;> rfl

@[simp] theorem isResizable_rescale : (block.rescale unit).isResizable = block.isResizable := by
  cases block with
  | mk name area form => cases form <;> simp [isResizable, rescale, Form.rescale]

@[simp] theorem shape_rescale : (block.rescale unit).shape = block.shape.rescale unit := by
  cases block with
  | mk name area form => cases form <;> rfl

@[simp] theorem withShape_rescale (shape : Shape α) :
    (block.rescale unit).withShape (shape.rescale unit) =
      (block.withShape shape).rescale unit := by
  cases block with
  | mk name area form => cases form <;> rfl

@[simp] theorem moveTo_rescale (x y : α) :
    (block.rescale unit).moveTo (unit.length x) (unit.length y) =
      (block.moveTo x y).rescale unit := rfl

@[simp] theorem footprint_rescale :
    (block.rescale unit).footprint = block.footprint.rescale unit :=
  Rect.ofOrigin_rescale unit _ _ _ _

@[simp] theorem center_rescale : (block.rescale unit).center = block.center.rescale unit := by
  simp [center, Point.rescale, Rescaling.length_div]

end Parts

section Making

variable (area : α) (range : Interval α)

@[simp] theorem heightRange_rescale :
    heightRange (unit.area area) range = (heightRange area range).rescale unit := by
  simp [heightRange, Interval.rescale, Rescaling.area_mul]

@[simp] theorem widthRange_rescale :
    widthRange (unit.area area) range = (widthRange area range).rescale unit := by
  simp [widthRange, Interval.rescale]

@[simp] theorem ofRatios_rescale (ratios : List (Interval α)) :
    Form.ofRatios (unit.area area) ratios = (Form.ofRatios area ratios).rescale unit := by
  simp [Form.ofRatios, Form.rescale]

@[simp] theorem withRatio_rescale (block : Block α) (ratio : α) :
    (block.rescale unit).withRatio ratio = (block.withRatio ratio).rescale unit := by
  simp [withRatio, rescale, Rescaling.area_mul]

/-- In another unit, a soft block is made from another area and the same ratios. -/
theorem soft_rescale (name : String) (area : α) (ratios : List (Interval α)) :
    (soft name area ratios).rescale unit = soft name (unit.area area) ratios := by
  simp only [soft, ← withRatio_rescale]
  simp [rescale]

theorem hard_rescale (name : String) (area : α) (macros : Nat) (options : List (Size α)) :
    (hard name area macros options).rescale unit =
      hard name (unit.area area) macros (options.map (Size.rescale unit)) := by
  cases options with
  | nil => simp [hard, rescale, Form.rescale, Size.zero]
  | cons first rest => simp [hard, rescale, Form.rescale]

end Making

section Resizing

variable (value low high wanted factor : α) (range first last : Interval α)
  (neighbour : Option (Interval α)) (ranges : List (Interval α)) (block : Block α)

@[simp] theorem nearerEnd_rescale :
    nearerEnd (unit.length value) (unit.length low) (unit.length high) =
      unit.length (nearerEnd value low high) := by
  simp only [nearerEnd, Rescaling.length_sub, Rescaling.length_lt_length]
  split <;> rfl

@[simp] theorem widthBelow_rescale :
    widthBelow (neighbour.map (Interval.rescale unit)) (range.rescale unit) (unit.length wanted) =
      unit.length (widthBelow neighbour range wanted) := by
  cases neighbour with
  | none => exact unit.min_length _ _
  | some above =>
      simp only [widthBelow, Option.map_some, Interval.rescale, Rescaling.length_le_length,
        Rescaling.min_length, nearerEnd_rescale]
      split <;> rfl

@[simp] theorem heightAbove_rescale :
    heightAbove (neighbour.map (Interval.rescale unit)) (range.rescale unit) (unit.length wanted) =
      unit.length (heightAbove neighbour range wanted) := by
  cases neighbour with
  | none => exact unit.max_length _ _
  | some below =>
      simp only [heightAbove, Option.map_some, Interval.rescale, Rescaling.length_le_length,
        Rescaling.max_length, nearerEnd_rescale]
      split <;> rfl

theorem widthAmong_rescale :
    widthAmong (neighbour.map (Interval.rescale unit)) (unit.length wanted)
        (ranges.map (Interval.rescale unit)) =
      unit.length (widthAmong neighbour wanted ranges) := by
  induction ranges generalizing neighbour with
  | nil => rfl
  | cons range rest induction =>
      cases rest with
      | nil => exact widthBelow_rescale unit wanted range neighbour
      | cons next rest =>
          simp only [List.map_cons, widthAmong, Interval.rescale_low, Rescaling.length_le_length]
          split
          · exact widthBelow_rescale unit wanted range neighbour
          · exact induction (some range)

theorem heightAmong_rescale :
    heightAmong (neighbour.map (Interval.rescale unit)) (unit.length wanted)
        (ranges.map (Interval.rescale unit)) =
      unit.length (heightAmong neighbour wanted ranges) := by
  induction ranges generalizing neighbour with
  | nil => rfl
  | cons range rest induction =>
      cases rest with
      | nil => exact heightAbove_rescale unit wanted range neighbour
      | cons next rest =>
          simp only [List.map_cons, heightAmong, Interval.rescale_high, Rescaling.length_le_length]
          split
          · exact heightAbove_rescale unit wanted range neighbour
          · exact induction (some range)

theorem nearestWidth_rescale :
    nearestWidth (first.rescale unit) (last.rescale unit) (ranges.map (Interval.rescale unit))
        (unit.length wanted) =
      unit.length (nearestWidth first last ranges wanted) := by
  have among := widthAmong_rescale unit wanted none ranges
  rw [Option.map_none] at among
  simp only [nearestWidth, Interval.rescale_low, Interval.rescale_high,
    Rescaling.length_le_length, among]
  split
  · rfl
  · split <;> rfl

theorem nearestHeight_rescale :
    nearestHeight (first.rescale unit) (last.rescale unit) (ranges.map (Interval.rescale unit))
        (unit.length wanted) =
      unit.length (nearestHeight first last ranges wanted) := by
  have among := heightAmong_rescale unit wanted none ranges
  rw [Option.map_none] at among
  simp only [nearestHeight, Interval.rescale_low, Interval.rescale_high,
    Rescaling.length_le_length, among]
  split
  · rfl
  · split <;> rfl

@[simp] theorem changeWidth_rescale :
    (block.rescale unit).changeWidth (unit.length wanted) =
      (block.changeWidth wanted).rescale unit := by
  cases block with
  | mk name area form width height x y =>
      cases form with
      | hard => rfl
      | soft ratios widths heights =>
          simp only [changeWidth, rescale, Form.rescale, List.head?_map, List.getLast?_map]
          cases widths.head? with
          | none => rfl
          | some first =>
              cases widths.getLast? with
              | none => rfl
              | some last =>
                  simp [nearestWidth_rescale]

@[simp] theorem changeHeight_rescale :
    (block.rescale unit).changeHeight (unit.length wanted) =
      (block.changeHeight wanted).rescale unit := by
  cases block with
  | mk name area form width height x y =>
      cases form with
      | hard => rfl
      | soft ratios widths heights =>
          simp only [changeHeight, rescale, Form.rescale, List.head?_map, List.getLast?_map]
          cases heights.head? with
          | none => rfl
          | some first =>
              cases heights.getLast? with
              | none => rfl
              | some last =>
                  simp [nearestHeight_rescale]

@[simp] theorem shrink_rescale :
    (block.rescale unit).shrink factor = (block.shrink factor).rescale unit := by
  cases block with
  | mk name area form width height x y =>
      cases form with
      | hard => rfl
      | soft =>
          simp only [shrink, rescale, Form.rescale, unit.length_mul _ factor,
            Rescaling.length_mul_length, ofRatios_rescale]

@[simp] theorem chooseOption_rescale (index : Nat) :
    (block.rescale unit).chooseOption index = (block.chooseOption index).rescale unit := by
  cases block with
  | mk name area form width height x y =>
      cases form with
      | soft => rfl
      | hard macros options current =>
          simp only [chooseOption, rescale, Form.rescale, List.getElem?_map]
          cases options[index]? <;> rfl

end Resizing

section Drawing

variable [IndexSource σ] (block : Block α) (source : σ)

@[simp] theorem switchOption_rescale :
    (block.rescale unit).switchOption source =
      (block.switchOption source).map (rescale unit) id := by
  cases block with
  | mk name area form width height x y =>
      cases form with
      | soft => rfl
      | hard macros options current =>
          have choose := chooseOption_rescale unit
            ⟨name, area, .hard macros options current, width, height, x, y⟩
          simp only [switchOption, rescale_form, Form.rescale, List.length_map, choose]
          split <;> rfl

variable [FractionSource σ α]

@[simp] theorem randomRatio_rescale :
    (block.rescale unit).randomRatio source =
      (block.randomRatio source).map (rescale unit) id := by
  cases block with
  | mk name area form width height x y =>
      cases form with
      | hard => rfl
      | soft ratios widths heights =>
          simp only [randomRatio, rescale_form, Form.rescale, withRatio_rescale]
          split
          · rfl
          · split
            · rfl
            · split <;> rfl

@[simp] theorem randomize_rescale :
    (block.rescale unit).randomize source = (block.randomize source).map (rescale unit) id := by
  have ratio := randomRatio_rescale unit block source
  have choose := chooseOption_rescale unit block
  rw [randomize, randomize, rescale_form]
  cases block.form with
  | soft => exact ratio
  | hard macros options current =>
      simp only [Form.rescale, List.isEmpty_map, List.length_map, choose]
      split <;> rfl

@[simp] theorem randomizeAll_rescale (blocks : List (Block α)) :
    randomizeAll (blocks.map (rescale unit)) source =
      (randomizeAll blocks source).map (List.map (rescale unit)) id := by
  induction blocks generalizing source with
  | nil => rfl
  | cons block rest induction =>
      simp only [List.map_cons, randomizeAll, randomize_rescale, Prod.map_fst, Prod.map_snd, id,
        induction]
      rfl

end Drawing

section Stretching

variable (span : Interval α) (edges : List α) (limit : α)

@[simp] theorem stretchForward_rescale :
    stretchForward (span.rescale unit) (edges.map unit.length) (unit.length limit) =
      (stretchForward span edges limit).map unit.length := by
  simp only [stretchForward, Interval.rescale_low, Interval.rescale_high,
    Rescaling.length_le_length, List.filter_map, Function.comp_def, Rescaling.length_lt_length,
    Rescaling.foldl_min_length, Rescaling.length_sub]
  split <;> rfl

@[simp] theorem stretchBackward_rescale :
    stretchBackward (span.rescale unit) (edges.map unit.length) =
      (stretchBackward span edges).map unit.length := by
  simp only [stretchBackward, Interval.rescale_low, Interval.rescale_high, List.filter_map,
    Function.comp_def, Rescaling.length_lt_length, Rescaling.foldl_max_length,
    Rescaling.length_sub]
  split <;> rfl

@[simp] theorem stretchTarget_rescale (blocks : List (Block α)) (outline : Size α)
    (block : Block α) (direction : Direction) :
    stretchTarget (blocks.map (rescale unit)) (outline.rescale unit) (block.rescale unit)
        direction =
      (stretchTarget blocks outline block direction).map unit.length := by
  have edges : (blocks.map (rescale unit)).map
      (fun other => (other.footprint.span direction.axis).high) =
        (blocks.map fun other => (other.footprint.span direction.axis).high).map unit.length := by
    simp
  simp only [stretchTarget, edges, footprint_rescale, Rect.span_rescale, Size.along_rescale,
    stretchForward_rescale, stretchBackward_rescale]
  split <;> rfl

end Stretching

end Block

end Floorplanner
