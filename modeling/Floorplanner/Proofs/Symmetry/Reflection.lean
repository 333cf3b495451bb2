import Mathlib
import Floorplanner.Proofs.Symmetry.Transposition

/-!
Layouts reflected about a centre line of the outline.

A reflection exchanges the two ends of every span, and with them the two sides of every strip of the
raster. The raster looks up the ends of a span in different ways, so that a span without an extent
takes up the strip after it: only blocks with an extent are reflected with their cells. About the
horizontal centre line nothing has to be proved again, as that is the vertical one of the transposed
layout.
-/

namespace Floorplanner

variable {α : Type} [ExactNumber α]

section Mirror

variable (outline : Size α)

@[simps] def Interval.mirror (extent : α) (interval : Interval α) : Interval α :=
  ⟨extent - interval.high, extent - interval.low⟩

/-- Coordinates along an axis are counted from the other end of the outline. -/
def Point.mirror : Axis → Point α → Point α
  | .x, point => ⟨outline.width - point.x, point.y⟩
  | .y, point => ⟨point.x, outline.height - point.y⟩

def Rect.mirror : Axis → Rect α → Rect α
  | .x, rect => ⟨outline.width - rect.ux, rect.ly, outline.width - rect.lx, rect.uy⟩
  | .y, rect => ⟨rect.lx, outline.height - rect.uy, rect.ux, outline.height - rect.ly⟩

def Terminal.mirror (axis : Axis) (terminal : Terminal α) : Terminal α :=
  let point := Point.mirror outline axis ⟨terminal.x, terminal.y⟩
  ⟨terminal.name, point.x, point.y⟩

def Location.mirror (axis : Axis) (location : Location α) : Location α :=
  ⟨location.block, location.rect.mirror outline axis⟩

def Block.mirror (axis : Axis) (block : Block α) : Block α :=
  Alignment.slide axis (outline.along axis - block.high axis) block

def Problem.mirror (axis : Axis) (problem : Problem α) : Problem α where
  outline := problem.outline
  blocks := problem.blocks.map (Block.mirror problem.outline axis)
  nets := problem.nets
  terminals := problem.terminals.map (Terminal.mirror problem.outline axis)
  regions := problem.regions.map (Rect.mirror problem.outline axis)
  locations := problem.locations.map (Location.mirror problem.outline axis)

theorem Problem.transpose_mirror (problem : Problem α) :
    (problem.mirror .y).transpose = problem.transpose.mirror .x := by
  simp only [transpose, mirror, List.map_map]
  rfl

end Mirror

namespace Block

variable (outline : Size α) (block : Block α)

@[simp] theorem isHard_mirror (axis : Axis) : (block.mirror outline axis).isHard = block.isHard := by
  cases axis <;> rfl

@[simp] theorem macros_mirror (axis : Axis) : (block.mirror outline axis).macros = block.macros := by
  cases axis <;> rfl

@[simp] theorem footprint_mirror :
    (block.mirror outline .x).footprint = block.footprint.mirror outline .x := by
  simp [mirror, footprint, Alignment.slide, Rect.ofOrigin, Rect.mirror, high, low, extent, Size.along]
  ring

@[simp] theorem center_mirror :
    (block.mirror outline .x).center = block.center.mirror outline .x := by
  simp [mirror, center, Alignment.slide, Point.mirror, high, low, extent, Size.along]
  ring

theorem filter_isHard_mirror (axis : Axis) (blocks : List (Block α)) :
    (blocks.map (mirror outline axis)).filter (·.isHard) =
      (blocks.filter (·.isHard)).map (mirror outline axis) := by
  simp [List.filter_map, Function.comp_def]

end Block

namespace Rect

variable (outline : Size α) (r s : Rect α)

@[simp] theorem width_mirror : (r.mirror outline .x).width = r.width := by
  simp [mirror, width]

@[simp] theorem height_mirror : (r.mirror outline .x).height = r.height := rfl

@[simp] theorem area_mirror : (r.mirror outline .x).area = r.area := by
  simp [area]

theorem IsProper.mirror {r : Rect α} (proper : r.IsProper) : (r.mirror outline .x).IsProper := by
  intro axis
  cases axis with
  | x => exact sub_lt_sub_left (proper .x) outline.width
  | y => exact proper .y

@[simp] theorem center_mirror : (r.mirror outline .x).center = r.center.mirror outline .x := by
  simp [mirror, center, Point.mirror]
  ring

@[simp] theorem overlapArea_mirror :
    (r.mirror outline .x).overlapArea (s.mirror outline .x) = r.overlapArea s := by
  have width : min (outline.width - r.lx) (outline.width - s.lx) -
      max (outline.width - r.ux) (outline.width - s.ux) = min r.ux s.ux - max r.lx s.lx := by
    rw [min_sub_sub_left, max_sub_sub_left]
    ring
  simp only [overlapArea, mirror, width]

end Rect

namespace Cost

variable (problem : Problem α) (blocks : List (Block α)) (net : Net) (outline size : Size α)

@[simp] theorem boundingBox?_mirror (points : List (Point α)) :
    boundingBox? (points.map (Point.mirror outline .x)) =
      (boundingBox? points).map (Rect.mirror outline .x) := by
  refine boundingBox?_map (fun _ => rfl) (fun box point => ?_) points
  simp [Rect.mirror, Point.mirror, min_sub_sub_left, max_sub_sub_left]

@[simp] theorem pins_mirror :
    pins (problem.mirror .x) (blocks.map (Block.mirror problem.outline .x)) net =
      (pins problem blocks net).map (Point.mirror problem.outline .x) := by
  simp [pins, List.map_filterMap, Function.comp_def, Problem.mirror, Terminal.mirror]

@[simp] theorem netLength_mirror :
    netLength (problem.mirror .x) (blocks.map (Block.mirror problem.outline .x)) =
      netLength problem blocks := by
  funext net
  simp only [netLength, pins_mirror, boundingBox?_mirror]
  cases boundingBox? (pins problem blocks net) with
  | none => rfl
  | some box => simp [Rect.mirror]

/-- The edges of the outline are equally far from a reflected rectangle, if it is inside them. -/
theorem edgeDistance_mirror {rect : Rect α} (left : 0 ≤ rect.lx) (right : rect.ux ≤ outline.width) :
    edgeDistance outline (rect.mirror outline .x) = edgeDistance outline rect := by
  have exchanged : Number.abs (outline.width - (outline.width - rect.lx)) = rect.lx := by
    rw [sub_sub_cancel]
    exact abs_of_nonneg left
  have stays : Number.abs (outline.width - rect.ux) = outline.width - rect.ux :=
    abs_of_nonneg (sub_nonneg.mpr right)
  simp only [edgeDistance, Rect.mirror, exchanged, stays]
  rw [min_comm (outline.width - rect.ux)]

theorem edgePenalty_mirror {block : Block α} (within : block.IsWithin outline) :
    edgePenalty outline (block.mirror outline .x) = edgePenalty outline block := by
  have distance : edgeDistance outline (block.footprint.mirror outline .x) = _ :=
    edgeDistance_mirror outline (within .x).1 (within .x).2
  simp only [edgePenalty, Block.footprint_mirror, Block.macros_mirror, distance]

@[simp] theorem blockage_mirror (region : Rect α) :
    blockage (blocks.map (Block.mirror outline .x)) (region.mirror outline .x) =
      blockage blocks region := by
  simp [blockage, Block.filter_isHard_mirror, Function.comp_def]

@[simp] theorem locationGap_mirror (block : Block α) (rect : Rect α) :
    locationGap (block.mirror outline .x) (rect.mirror outline .x) = locationGap block rect := by
  have across (a b : α) : Number.abs (outline.width - a - (outline.width - b)) =
      Number.abs (a - b) := by
    rw [sub_sub_sub_cancel_left]
    exact abs_sub_comm b a
  simp only [locationGap, Block.center_mirror, Rect.center_mirror, Rect.width_mirror,
    Rect.height_mirror, Point.mirror, across]
  rfl

@[simp] theorem guideGap_mirror (location : Location α) :
    guideGap (blocks.map (Block.mirror outline .x)) (location.mirror outline .x) =
      guideGap blocks location := by
  simp only [guideGap, Location.mirror, List.getElem?_map]
  cases blocks[location.block.index]? with
  | none => rfl
  | some block => exact locationGap_mirror outline block location.rect

end Cost

namespace Notch

section Lines

variable {edges : List α} {extent : α} {lines : List α}

theorem AreLines.mirror (areLines : AreLines edges extent lines) :
    AreLines (edges.map (extent - ·)) extent (lines.map (extent - ·)).reverse where
  increasing := by
    rw [List.pairwise_reverse, List.pairwise_map]
    exact areLines.increasing.imp fun less => sub_lt_sub_left less extent
  mem_iff line := by
    have mirrored {values : List α} : line ∈ values.map (extent - ·) ↔ extent - line ∈ values := by
      rw [List.mem_map]
      exact ⟨fun ⟨value, member, same⟩ => by rwa [← same, sub_sub_cancel],
        fun member => ⟨_, member, sub_sub_cancel _ _⟩⟩
    rw [List.mem_reverse, mirrored, mirrored, areLines.mem_iff, sub_eq_zero, sub_eq_self,
      eq_comm (a := extent)]
    tauto

theorem strips_reverse_mirror (extent : α) (lines : List α) :
    strips (lines.map (extent - ·)).reverse =
      ((strips lines).map (Interval.mirror extent)).reverse := by
  simp only [strips_eq_zipWith]
  apply List.ext_getElem
  · simp
  · intro index bound _
    have first : lines.length - 1 - index = lines.length - 1 - 1 - index + 1 := by
      simp at bound
      omega
    simp [Interval.mirror, first]

end Lines

variable (outline thresholds : Size α) (rects : List (Rect α)) (grid : Grid α)

namespace Grid

/-- The strips from left to right are those from right to left, each reflected. -/
@[simps] def mirror (width : α) (grid : Grid α) : Grid α :=
  ⟨(grid.columns.map (Interval.mirror width)).reverse, grid.rows⟩

theorem ofRects_mirror :
    ofRects outline (rects.map (Rect.mirror outline .x)) =
      (ofRects outline rects).mirror outline.width := by
  have columns : gridLines ((rects.map (Rect.mirror outline .x)).flatMap
        fun rect => [rect.lx, rect.ux]) outline.width =
      ((gridLines (rects.flatMap fun rect => [rect.lx, rect.ux]) outline.width).map
        (outline.width - ·)).reverse := by
    refine (areLines_gridLines _ _).eq_of_mem_iff (areLines_gridLines _ _).mirror fun line => ?_
    simp only [List.flatMap_map, List.map_flatMap, List.mem_flatMap, List.map_cons, List.map_nil,
      List.mem_pair, Rect.mirror, or_comm]
  rw [ofRects, columns, strips_reverse_mirror, List.flatMap_map]
  rfl

def mirrorCell (width : α) : grid.Cell ≃ (grid.mirror width).Cell :=
  (Fin.revPerm.trans (finCongr (by simp [mirror]))).prodCongr (Equiv.refl _)

variable {grid} {cell other : grid.Cell} {width : α}

theorem column_mirrorCell :
    (grid.mirrorCell width cell).1.val = grid.columns.length - 1 - cell.1.val :=
  Nat.sub_add_eq _ _ _ ▸ congrArg (grid.columns.length - ·) (Nat.add_comm _ _)

theorem row_mirrorCell : (grid.mirrorCell width cell).2 = cell.2 := rfl

theorem rect_mirrorCell :
    (grid.mirror outline.width).rect (grid.mirrorCell outline.width cell) =
      (grid.rect cell).mirror outline .x := by
  have index : grid.columns.length - 1 - (grid.columns.length - 1 - cell.1.val) = cell.1.val := by
    have := cell.1.isLt
    omega
  simp [rect, Rect.mirror, column_mirrorCell, row_mirrorCell, index]
  exact ⟨rfl, rfl⟩

theorem isBeside_mirrorCell :
    IsBeside (grid.mirrorCell width cell) (grid.mirrorCell width other) ↔ IsBeside cell other := by
  have bound := cell.1.isLt
  have otherBound := other.1.isLt
  simp only [IsBeside, column_mirrorCell, row_mirrorCell, Fin.ext_iff]
  omega

theorem isInside_mirror {inner outer : Rect α} :
    (inner.mirror outline .x).IsInside (outer.mirror outline .x) ↔ inner.IsInside outer := by
  simp only [Rect.isInside_iff, Rect.mirror, sub_le_sub_iff_left]
  tauto

theorem isCovered_mirrorCell :
    (grid.mirror outline.width).IsCovered (rects.map (Rect.mirror outline .x))
        (grid.mirrorCell outline.width cell) ↔ grid.IsCovered rects cell := by
  simp [IsCovered, rect_mirrorCell, isInside_mirror]

open Classical in
theorem isNotch_mirrorCell :
    (grid.mirror outline.width).IsNotch (rects.map (Rect.mirror outline .x)) thresholds
        (grid.mirrorCell outline.width cell) ↔ grid.IsNotch rects thresholds cell := by
  have neighbors : Finset.univ.filter (IsBeside (grid.mirrorCell outline.width cell)) =
      (Finset.univ.filter (IsBeside cell)).map (grid.mirrorCell outline.width).toEmbedding := by
    ext other
    obtain ⟨other, rfl⟩ := (grid.mirrorCell outline.width).surjective other
    simp [isBeside_mirrorCell]
  have covered : ((Finset.univ.filter (IsBeside cell)).map
        (grid.mirrorCell outline.width).toEmbedding).filter
          ((grid.mirror outline.width).IsCovered (rects.map (Rect.mirror outline .x))) =
      ((Finset.univ.filter (IsBeside cell)).filter (grid.IsCovered rects)).map
        (grid.mirrorCell outline.width).toEmbedding := by
    rw [Finset.filter_map]
    simp [isCovered_mirrorCell]
  simp only [IsNotch, neighbors, covered, Finset.card_map, isCovered_mirrorCell, rect_mirrorCell,
    Rect.width_mirror, Rect.height_mirror]

end Grid

open Classical in
theorem total_mirror {rects : List (Rect α)} (proper : ∀ rect ∈ rects, rect.IsProper) :
    total outline thresholds (rects.map (Rect.mirror outline .x)) =
      total outline thresholds rects := by
  have properMirror : ∀ rect ∈ rects.map (Rect.mirror outline .x), rect.IsProper :=
    List.forall_mem_map.mpr fun rect member => (proper rect member).mirror outline
  rw [total_eq_sum proper, total_eq_sum properMirror, Grid.ofRects_mirror]
  refine (Finset.sum_equiv (Grid.mirrorCell _ outline.width) (fun cell => ?_) fun cell _ => ?_).symm
  · simp [Grid.isNotch_mirrorCell]
  · simp [Grid.rect_mirrorCell]

theorem penalty_mirror {blocks : List (Block α)} (size : Size α)
    (sizes : ∀ block ∈ blocks, block.isHard = true → ∀ axis, 0 < block.extent axis) :
    penalty outline size (blocks.map (Block.mirror outline .x)) thresholds =
      penalty outline size blocks thresholds := by
  have rects : ((blocks.map (Block.mirror outline .x)).filter (·.isHard)).map (·.footprint) =
      ((blocks.filter (·.isHard)).map (·.footprint)).map (Rect.mirror outline .x) := by
    simp [Block.filter_isHard_mirror]
  have proper : ∀ rect ∈ (blocks.filter (·.isHard)).map (·.footprint), rect.IsProper := by
    refine List.forall_mem_map.mpr fun block isHard => ?_
    obtain ⟨member, isHard⟩ := List.mem_filter.mp isHard
    exact Block.isProper_footprint (sizes block member isHard)
  rw [penalty, penalty, rects, total_mirror outline thresholds proper]

end Notch

namespace Cost

variable {problem : Problem α} {blocks : List (Block α)}

theorem boundaryPenalty_mirror {outline : Size α}
    (within : ∀ block ∈ blocks, block.isHard = true → block.IsWithin outline) :
    boundaryPenalty outline (blocks.map (Block.mirror outline .x)) =
      boundaryPenalty outline blocks := by
  rw [boundaryPenalty_eq_sum, boundaryPenalty_eq_sum, Block.filter_isHard_mirror, List.map_map]
  refine congrArg List.sum (List.map_congr_left fun block isHard => ?_)
  obtain ⟨member, isHard⟩ := List.mem_filter.mp isHard
  exact edgePenalty_mirror outline (within block member isHard)

theorem evaluate_mirror_x (notching : Config.Notching α) (size : Size α)
    (within : ∀ block ∈ blocks, block.isHard = true → block.IsWithin problem.outline)
    (sizes : ∀ block ∈ blocks, block.isHard = true → ∀ axis, 0 < block.extent axis) :
    evaluate (problem.mirror .x) notching (blocks.map (Block.mirror problem.outline .x)) size =
      evaluate problem notching blocks size := by
  have boundary := boundaryPenalty_mirror within
  have notch := Notch.penalty_mirror problem.outline (notching.thresholds problem.outline) size sizes
  have lengths : wirelength (problem.mirror .x) (blocks.map (Block.mirror problem.outline .x)) =
      wirelength problem blocks := by
    rw [wirelength_eq_sum, wirelength_eq_sum, netLength_mirror]
    rfl
  have blockages : macroBlockage (problem.mirror .x) (blocks.map (Block.mirror problem.outline .x)) =
      macroBlockage problem blocks := by
    simp [macroBlockage_eq_sum, Problem.mirror, Function.comp_def]
  have gaps : locationPenalty (problem.mirror .x) (blocks.map (Block.mirror problem.outline .x)) =
      locationPenalty problem blocks := by
    simp [locationPenalty_eq_sum, Problem.mirror, Function.comp_def]
  rw [evaluate, lengths, blockages, gaps]
  exact congrArg₂ (fun boundary notch => (⟨_, _, _, boundary, _, _, notch⟩ : Terms α)) boundary notch

/-- The terms of a reflected layout of the reflected problem are the same. -/
theorem evaluate_mirror (axis : Axis) (notching : Config.Notching α) (size : Size α)
    (within : ∀ block ∈ blocks, block.isHard = true → block.IsWithin problem.outline)
    (sizes : ∀ block ∈ blocks, block.isHard = true → ∀ axis, 0 < block.extent axis) :
    evaluate (problem.mirror axis) notching (blocks.map (Block.mirror problem.outline axis)) size =
      evaluate problem notching blocks size := by
  cases axis with
  | x => exact evaluate_mirror_x notching size within sizes
  | y =>
      have blocksMirror : (blocks.map (Block.mirror problem.outline .y)).map Block.transpose =
          (blocks.map Block.transpose).map (Block.mirror problem.transpose.outline .x) := by
        rw [List.map_map, List.map_map]
        rfl
      have turned := @evaluate_mirror_x _ _ problem.transpose (blocks.map Block.transpose) notching
        size.transpose ?_ ?_
      · rw [← evaluate_transpose, Problem.transpose_mirror, blocksMirror, turned, evaluate_transpose]
      · refine List.forall_mem_map.mpr fun block member isHard axis => ?_
        rw [Block.isHard_transpose] at isHard
        cases axis with
        | x => exact within block member isHard .y
        | y => exact within block member isHard .x
      · refine List.forall_mem_map.mpr fun block member isHard axis => ?_
        rw [Block.isHard_transpose] at isHard
        cases axis with
        | x => exact sizes block member isHard .y
        | y => exact sizes block member isHard .x

end Cost

end Floorplanner
