import Mathlib
import Floorplanner.Proofs.Alignment.Legality
import Floorplanner.Proofs.Cost.Range
import Floorplanner.Proofs.Cost.Sums
import Floorplanner.Proofs.TotalOrder

/-!
The raster of the notches is geometrically exact.

The lines of a raster are the ends of the outline and the edges of the hard blocks, each of them
once. Every edge is a line, so a hard block covers a cell whole or leaves it alone, and the strips in
which its span is found to start and end are the first and the last of those that it covers.
-/

namespace Floorplanner

namespace Notch

variable {α : Type} [ExactNumber α]

section Lines

variable {lines : List α} {line low high : α}

theorem mem_dropRepeats : line ∈ dropRepeats lines ↔ line ∈ lines := by
  induction lines with
  | nil => rfl
  | cons first rest induction =>
      rw [dropRepeats, List.mem_cons, ← induction]
      split
      next nothing => simp [nothing]
      next next others kept =>
        rw [kept]
        split
        next same =>
          rw [beq_iff_eq.mp same]
          simp
        next => exact List.mem_cons

theorem pairwise_lt_dropRepeats (sorted : lines.Pairwise (· ≤ ·)) :
    (dropRepeats lines).Pairwise (· < ·) := by
  induction lines with
  | nil => exact .nil
  | cons first rest induction =>
      obtain ⟨least, sorted⟩ := List.pairwise_cons.mp sorted
      have increasing := induction sorted
      rw [dropRepeats]
      split
      next => exact List.pairwise_singleton _ _
      next next others kept =>
        rw [kept] at increasing
        obtain ⟨nextLess, increasing⟩ := List.pairwise_cons.mp increasing
        have leNext : first ≤ next := least next (mem_dropRepeats.mp (by simp [kept]))
        split
        next same =>
          rw [beq_iff_eq.mp same]
          exact List.pairwise_cons.mpr ⟨nextLess, increasing⟩
        next different =>
          have less : first < next := leNext.lt_of_ne fun same => different (beq_iff_eq.mpr same)
          refine List.pairwise_cons.mpr ⟨fun other member => ?_, .cons nextLess increasing⟩
          rcases List.mem_cons.mp member with rfl | later
          · exact less
          · exact less.trans (nextLess other later)

/-- Lines in order, without repeats, at the ends of an extent and at some edges. -/
structure AreLines (edges : List α) (extent : α) (lines : List α) : Prop where
  increasing : lines.Pairwise (· < ·)
  mem_iff (line : α) : line ∈ lines ↔ line = 0 ∨ line = extent ∨ line ∈ edges

theorem areLines_gridLines (edges : List α) (extent : α) :
    AreLines edges extent (gridLines edges extent) where
  increasing := by
    apply pairwise_lt_dropRepeats
    have sorted : ((edges ++ [0, extent]).mergeSort Number.sortsBefore).Pairwise
        fun a b => Number.sortsBefore a b = true := by
      apply List.pairwise_mergeSort
      · exact fun _ _ _ => Number.SortsTotally.trans
      · exact fun a b => Bool.or_eq_true_iff.mpr (Number.SortsTotally.total a b)
    exact sorted.imp of_decide_eq_true
  mem_iff line := by
    rw [gridLines, mem_dropRepeats, List.mem_mergeSort, List.mem_append, List.mem_pair]
    tauto

theorem AreLines.eq_of_mem_iff {edges others second : List α} {extent : α}
    (first : AreLines edges extent lines) (again : AreLines others extent second)
    (same : ∀ line, line ∈ edges ↔ line ∈ others) : lines = second := by
  have nodup {lines : List α} (increasing : lines.Pairwise (· < ·)) : lines.Nodup :=
    increasing.imp fun less => less.ne
  have perm : lines.Perm second := by
    rw [List.perm_ext_iff_of_nodup (nodup first.increasing) (nodup again.increasing)]
    intro line
    rw [first.mem_iff, again.mem_iff, same]
  exact perm.eq_of_pairwise (fun _ _ _ _ less more => absurd more less.not_gt) first.increasing
    again.increasing

omit [ExactNumber α] in
theorem strips_eq_zipWith (lines : List α) :
    strips lines = List.zipWith Interval.mk lines lines.tail := by
  induction lines with
  | nil => rfl
  | cons first rest induction =>
      cases rest with
      | nil => rfl
      | cons second rest => rw [strips, induction, List.tail_cons, List.tail_cons,
          List.zipWith_cons_cons]

omit [ExactNumber α] in
theorem getElem?_strips {index : Nat} {strip : Interval α}
    (found : (strips lines)[index]? = some strip) :
    lines[index]? = some strip.low ∧ lines[index + 1]? = some strip.high := by
  rw [strips_eq_zipWith, List.getElem?_zipWith_eq_some, List.getElem?_tail] at found
  obtain ⟨low, high, atLow, atHigh, rfl⟩ := found
  exact ⟨atLow, atHigh⟩

omit [ExactNumber α] in
theorem exists_strip {index : Nat} (bound : index + 1 < lines.length) :
    ∃ strip, (strips lines)[index]? = some strip := by
  rw [strips_eq_zipWith]
  exact ⟨_, List.getElem?_eq_getElem (by simp; omega)⟩

theorem strips_ne_nil (edges : List α) {extent : α} (positive : 0 < extent)
    (areLines : AreLines edges extent lines) : strips lines ≠ [] := by
  have zero := (areLines.mem_iff 0).mpr (.inl rfl)
  have other := (areLines.mem_iff extent).mpr (.inr (.inl rfl))
  match lines with
  | [] => cases zero
  | [line] =>
      rw [List.mem_singleton] at zero other
      exact absurd (other.trans zero.symm) positive.ne'
  | _ :: _ :: _ => exact List.cons_ne_nil _ _

variable (increasing : lines.Pairwise (· < ·))

include increasing

theorem getElem?_lt_iff {first second : Nat} (atLow : lines[first]? = some low)
    (atHigh : lines[second]? = some high) : low < high ↔ first < second := by
  obtain ⟨firstBound, rfl⟩ := List.getElem?_eq_some_iff.mp atLow
  obtain ⟨secondBound, rfl⟩ := List.getElem?_eq_some_iff.mp atHigh
  exact increasing.sortedLT.strictMono_get.lt_iff_lt (a := ⟨first, firstBound⟩)
    (b := ⟨second, secondBound⟩)

theorem getElem?_le_iff {first second : Nat} (atLow : lines[first]? = some low)
    (atHigh : lines[second]? = some high) : low ≤ high ↔ first ≤ second := by
  rw [← not_lt, getElem?_lt_iff increasing atHigh atLow, Nat.not_lt]

variable {start stop index : Nat} {strip : Interval α}

theorem firstStrip_eq (atLow : lines[start]? = some low)
    (found : (strips lines)[start]? = some strip) :
    firstStrip (strips lines) low = start := by
  obtain ⟨bound, rfl⟩ := List.getElem?_eq_some_iff.mp found
  have isFirst : (strips lines).findIdx? (fun strip =>
      decide (strip.low ≤ low) && decide (low < strip.high)) = some start := by
    rw [List.findIdx?_eq_some_iff_getElem]
    refine ⟨bound, ?_, fun earlier less => ?_⟩
    · obtain ⟨atStart, atNext⟩ := getElem?_strips found
      rw [Bool.and_eq_true, decide_eq_true_eq, decide_eq_true_eq,
        getElem?_le_iff increasing atStart atLow, getElem?_lt_iff increasing atLow atNext]
      exact ⟨le_refl _, Nat.lt_succ_self _⟩
    · have isStrip := List.getElem?_eq_getElem (less.trans bound)
      rw [Bool.and_eq_true, decide_eq_true_eq, decide_eq_true_eq,
        getElem?_lt_iff increasing atLow (getElem?_strips isStrip).2]
      omega
  rw [firstStrip, isFirst, Option.getD_some]

theorem lastStrip_eq (atHigh : lines[stop + 1]? = some high)
    (found : (strips lines)[stop]? = some strip) : lastStrip (strips lines) high = stop := by
  have bound := (List.getElem?_eq_some_iff.mp found).1
  have isLast : (strips lines).reverse.findIdx? (fun strip =>
      decide (strip.low < high) && decide (high ≤ strip.high)) =
        some ((strips lines).length - 1 - stop) := by
    rw [List.findIdx?_eq_some_iff_getElem]
    refine ⟨by rw [List.length_reverse]; omega, ?_, fun earlier less => ?_⟩
    · rw [List.getElem_reverse]
      have isStrip := List.getElem?_eq_getElem (show (strips lines).length - 1 -
        ((strips lines).length - 1 - stop) < (strips lines).length by omega)
      obtain ⟨atStart, atNext⟩ := getElem?_strips isStrip
      rw [Bool.and_eq_true, decide_eq_true_eq, decide_eq_true_eq,
        getElem?_lt_iff increasing atStart atHigh, getElem?_le_iff increasing atHigh atNext]
      omega
    · rw [List.getElem_reverse]
      have isStrip := List.getElem?_eq_getElem
        (show (strips lines).length - 1 - earlier < (strips lines).length by omega)
      rw [Bool.and_eq_true, decide_eq_true_eq, decide_eq_true_eq,
        getElem?_lt_iff increasing (getElem?_strips isStrip).1 atHigh]
      omega
  rw [lastStrip, isLast, Option.getD_some]
  omega

/-- A span between two lines takes up the strips that lie inside it, and is clear of the others. -/
theorem strip_inside_or_apart (lowLine : low ∈ lines) (highLine : high ∈ lines) (less : low < high)
    (found : (strips lines)[index]? = some strip) :
    (firstStrip (strips lines) low ≤ index ∧
          index ≤ max (lastStrip (strips lines) high) (firstStrip (strips lines) low) ↔
        low ≤ strip.low ∧ strip.high ≤ high) ∧
      (low ≤ strip.low ∧ strip.high ≤ high ∨ strip.high ≤ low ∨ high ≤ strip.low) := by
  obtain ⟨start, atLow⟩ := List.mem_iff_getElem?.mp lowLine
  obtain ⟨stop, atHigh⟩ := List.mem_iff_getElem?.mp highLine
  obtain ⟨atStrip, atNext⟩ := getElem?_strips found
  have inOrder := (getElem?_lt_iff increasing atLow atHigh).mp less
  have stopBound := (List.getElem?_eq_some_iff.mp atHigh).1
  obtain ⟨last, rfl⟩ := Nat.exists_eq_succ_of_ne_zero (Nat.ne_zero_of_lt inOrder)
  obtain ⟨first, firstFound⟩ : ∃ strip, (strips lines)[start]? = some strip :=
    exists_strip (by omega)
  obtain ⟨ending, endingFound⟩ := exists_strip stopBound
  rw [firstStrip_eq increasing atLow firstFound, lastStrip_eq increasing atHigh endingFound,
    getElem?_le_iff increasing atLow atStrip, getElem?_le_iff increasing atNext atHigh,
    getElem?_le_iff increasing atNext atLow, getElem?_le_iff increasing atHigh atStrip]
  omega

end Lines

def AreCut (edges : List α) (extent : α) (cells : List (Interval α)) : Prop :=
  ∃ lines, AreLines edges extent lines ∧ cells = strips lines

theorem AreCut.inside_or_apart {edges : List α} {extent low high : α} {cells : List (Interval α)}
    (cut : AreCut edges extent cells) (lowEdge : low ∈ edges) (highEdge : high ∈ edges)
    (less : low < high) (index : Fin cells.length) :
    (firstStrip cells low ≤ index ∧ index.val ≤ max (lastStrip cells high) (firstStrip cells low) ↔
        low ≤ cells[index].low ∧ cells[index].high ≤ high) ∧
      (low ≤ cells[index].low ∧ cells[index].high ≤ high ∨
        cells[index].high ≤ low ∨ high ≤ cells[index].low) := by
  obtain ⟨lines, areLines, rfl⟩ := cut
  have lowLine := (areLines.mem_iff low).mpr (.inr (.inr lowEdge))
  have highLine := (areLines.mem_iff high).mpr (.inr (.inr highEdge))
  exact strip_inside_or_apart areLines.increasing lowLine highLine less
    (List.getElem?_eq_getElem index.isLt)

theorem Patch.contains_iff {patch : Patch} {column row : Nat} :
    patch.contains column row = true ↔
      (patch.firstColumn ≤ column ∧ column ≤ patch.lastColumn) ∧
        patch.firstRow ≤ row ∧ row ≤ patch.lastRow := by
  simp only [Patch.contains, Bool.and_eq_true, decide_eq_true_eq, and_assoc]

theorem mem_beside {count index other : Nat} (bound : index < count) :
    other ∈ beside count index ↔ other < count ∧ (other + 1 = index ∨ index + 1 = other) := by
  rw [beside]
  split <;> split <;> simp <;> omega

theorem nodup_beside {count index : Nat} : (beside count index).Nodup := by
  rw [beside]
  split <;> split <;> simp

theorem ne_of_mem_beside {count index other : Nat} (member : other ∈ beside count index) :
    other ≠ index := by
  rw [beside] at member
  split at member <;> split at member <;> simp at member <;> omega

namespace Grid

abbrev Cell (grid : Grid α) := Fin grid.columns.length × Fin grid.rows.length

def rect (grid : Grid α) (cell : grid.Cell) : Rect α :=
  ⟨grid.columns[cell.1].low, grid.rows[cell.2].low, grid.columns[cell.1].high,
    grid.rows[cell.2].high⟩

def IsBeside {grid : Grid α} (cell other : grid.Cell) : Prop :=
  cell.2 = other.2 ∧ (cell.1.val + 1 = other.1.val ∨ other.1.val + 1 = cell.1.val) ∨
    cell.1 = other.1 ∧ (cell.2.val + 1 = other.2.val ∨ other.2.val + 1 = cell.2.val)

def IsCovered (grid : Grid α) (rects : List (Rect α)) (cell : grid.Cell) : Prop :=
  ∃ rect ∈ rects, (grid.rect cell).IsInside rect

open Classical in
/--
An uncovered cell that two of its four neighbours enclose, or one if it has fewer, and that is
narrow or low.
-/
def IsNotch (grid : Grid α) (rects : List (Rect α)) (thresholds : Size α) (cell : grid.Cell) :
    Prop :=
  let neighbors := Finset.univ.filter (IsBeside cell)
  ¬ grid.IsCovered rects cell ∧
    (if neighbors.card = 4 then 2 else 1) ≤ (neighbors.filter (grid.IsCovered rects)).card ∧
    ((grid.rect cell).width ≤ thresholds.width ∨ (grid.rect cell).height ≤ thresholds.height)

structure IsCutBy (grid : Grid α) (outline : Size α) (rects : List (Rect α)) : Prop where
  columns : AreCut (rects.flatMap fun rect => [rect.lx, rect.ux]) outline.width grid.columns
  rows : AreCut (rects.flatMap fun rect => [rect.ly, rect.uy]) outline.height grid.rows

theorem isCutBy_ofRects (outline : Size α) (rects : List (Rect α)) :
    (Grid.ofRects outline rects).IsCutBy outline rects :=
  ⟨⟨_, areLines_gridLines _ _, rfl⟩, ⟨_, areLines_gridLines _ _, rfl⟩⟩

section Cut

variable {grid : Grid α} {outline thresholds : Size α} {rects : List (Rect α)} {rect : Rect α}

/-- A rectangle takes up the cells inside it and is clear of all others. -/
theorem IsCutBy.contains_or_apart (cut : grid.IsCutBy outline rects) (member : rect ∈ rects)
    (proper : rect.IsProper) (cell : grid.Cell) :
    ((grid.patch rect).contains cell.1 cell.2 = true ↔ (grid.rect cell).IsInside rect) ∧
      ((grid.rect cell).IsInside rect ∨ (grid.rect cell).Apart rect) := by
  have left : rect.lx ∈ rects.flatMap fun rect => [rect.lx, rect.ux] :=
    List.mem_flatMap.mpr ⟨rect, member, by simp⟩
  have right : rect.ux ∈ rects.flatMap fun rect => [rect.lx, rect.ux] :=
    List.mem_flatMap.mpr ⟨rect, member, by simp⟩
  have bottom : rect.ly ∈ rects.flatMap fun rect => [rect.ly, rect.uy] :=
    List.mem_flatMap.mpr ⟨rect, member, by simp⟩
  have top : rect.uy ∈ rects.flatMap fun rect => [rect.ly, rect.uy] :=
    List.mem_flatMap.mpr ⟨rect, member, by simp⟩
  have across := cut.columns.inside_or_apart left right (proper .x) cell.1
  have upward := cut.rows.inside_or_apart bottom top (proper .y) cell.2
  rw [Patch.contains_iff, Rect.isInside_iff]
  refine ⟨and_congr across.1 upward.1, ?_⟩
  rcases across.2 with inColumn | apart
  · rcases upward.2 with inRow | apart
    · exact .inl ⟨inColumn, inRow⟩
    · exact .inr ⟨.y, apart⟩
  · exact .inr ⟨.x, apart⟩

theorem IsCutBy.isCovered_iff (cut : grid.IsCutBy outline rects)
    (proper : ∀ rect ∈ rects, rect.IsProper) (cell : grid.Cell) :
    isCovered (rects.map grid.patch) cell.1 cell.2 = true ↔ grid.IsCovered rects cell := by
  simp only [isCovered, List.any_map, List.any_eq_true, Function.comp_apply, IsCovered]
  refine exists_congr fun rect => and_congr_right fun member => ?_
  exact (cut.contains_or_apart member (proper rect member) cell).1

theorem IsCutBy.overlaps_eq_false (cut : grid.IsCutBy outline rects)
    (proper : ∀ rect ∈ rects, rect.IsProper) {cell : grid.Cell}
    (uncovered : ¬ grid.IsCovered rects cell) (member : rect ∈ rects) :
    (grid.rect cell).overlaps rect = false := by
  have outside : ¬ (grid.rect cell).IsInside rect := fun inside => uncovered ⟨rect, member, inside⟩
  obtain ⟨axis, below | above⟩ :=
    (cut.contains_or_apart member (proper rect member) cell).2.resolve_left outside
  · rw [Rect.overlaps, Rect.overlapArea_eq_zero axis below]
    exact decide_eq_false (lt_irrefl 0)
  · rw [Rect.overlaps, Rect.overlapArea_comm, Rect.overlapArea_eq_zero axis above]
    exact decide_eq_false (lt_irrefl 0)

end Cut

section Neighbors

variable {grid : Grid α}

def Cell.position (grid : Grid α) : grid.Cell ↪ Nat × Nat where
  toFun cell := (cell.1, cell.2)
  inj' first second same := by
    rw [Prod.mk.injEq] at same
    exact Prod.ext (Fin.ext same.1) (Fin.ext same.2)

omit [ExactNumber α] in
theorem mem_neighbors (cell : grid.Cell) (position : Nat × Nat) :
    position ∈ grid.neighbors cell.1 cell.2 ↔
      ∃ other, IsBeside cell other ∧ Cell.position grid other = position := by
  obtain ⟨column, row⟩ := cell
  obtain ⟨i, j⟩ := position
  rw [neighbors, List.mem_append, List.mem_map, List.mem_map]
  simp only [mem_beside column.isLt, mem_beside row.isLt]
  constructor
  · rintro (⟨_, ⟨bound, next⟩, rfl, rfl⟩ | ⟨_, ⟨bound, next⟩, rfl, rfl⟩)
    · exact ⟨(⟨i, bound⟩, row), .inl ⟨rfl, next.symm⟩, rfl⟩
    · exact ⟨(column, ⟨j, bound⟩), .inr ⟨rfl, next.symm⟩, rfl⟩
  · rintro ⟨other, ⟨rfl, next⟩ | ⟨rfl, next⟩, rfl, rfl⟩
    · exact .inl ⟨other.1, ⟨other.1.isLt, next.symm⟩, rfl⟩
    · exact .inr ⟨other.2, ⟨other.2.isLt, next.symm⟩, rfl⟩

omit [ExactNumber α] in
theorem nodup_neighbors (grid : Grid α) (column row : Nat) : (grid.neighbors column row).Nodup := by
  rw [neighbors, List.nodup_append]
  refine ⟨nodup_beside.map fun _ _ same => (Prod.mk.inj same).1,
    nodup_beside.map fun _ _ same => (Prod.mk.inj same).2, ?_⟩
  rintro first inRow _ inColumn rfl
  obtain ⟨other, beside, rfl⟩ := List.mem_map.mp inRow
  obtain ⟨_, _, same⟩ := List.mem_map.mp inColumn
  exact ne_of_mem_beside beside (Prod.mk.inj same).1.symm

omit [ExactNumber α] in
open Classical in
theorem countP_neighbors (cell : grid.Cell) (counts : Nat × Nat → Bool) (holds : grid.Cell → Prop)
    (same : ∀ other, counts (Cell.position grid other) = true ↔ holds other) :
    (grid.neighbors cell.1 cell.2).countP counts =
      ((Finset.univ.filter (IsBeside cell)).filter holds).card := by
  have nodup := (nodup_neighbors grid cell.1 cell.2).filter counts
  rw [List.countP_eq_length_filter, ← List.toFinset_card_of_nodup nodup,
    ← Finset.card_map (Cell.position grid)]
  congr 1
  ext position
  simp only [List.mem_toFinset, List.mem_filter, mem_neighbors, Finset.mem_map, Finset.mem_filter,
    Finset.mem_univ, true_and, ← same]
  constructor
  · rintro ⟨⟨other, beside, rfl⟩, counted⟩
    exact ⟨other, ⟨beside, counted⟩, rfl⟩
  · rintro ⟨other, ⟨beside, counted⟩, rfl⟩
    exact ⟨⟨other, beside, rfl⟩, counted⟩

end Neighbors

open Classical in
theorem IsCutBy.isNotch_iff {grid : Grid α} {outline thresholds : Size α} {rects : List (Rect α)}
    (cut : grid.IsCutBy outline rects) (proper : ∀ rect ∈ rects, rect.IsProper)
    (cell : grid.Cell) :
    isNotch grid (rects.map grid.patch) thresholds (grid.columns[cell.1], cell.1)
        (grid.rows[cell.2], cell.2) = true ↔
      grid.IsNotch rects thresholds cell := by
  have covered := cut.isCovered_iff proper
  have all : (grid.neighbors cell.1 cell.2).length = (Finset.univ.filter (IsBeside cell)).card := by
    have counted := countP_neighbors cell (fun _ => true) (fun _ => True) (by simp)
    simpa using counted
  have some := countP_neighbors cell
    (fun position => isCovered (rects.map grid.patch) position.1 position.2)
    (grid.IsCovered rects) covered
  have enclosed : isEnclosed grid (rects.map grid.patch) cell.1 cell.2 = true ↔
      (if (Finset.univ.filter (IsBeside cell)).card = 4 then 2 else 1) ≤
        ((Finset.univ.filter (IsBeside cell)).filter (grid.IsCovered rects)).card := by
    rw [isEnclosed, decide_eq_true_eq, all]
    exact iff_of_eq (congrArg _ some)
  rw [isNotch, IsNotch, Bool.and_eq_true, Bool.and_eq_true, Bool.or_eq_true, decide_eq_true_eq,
    decide_eq_true_eq, enclosed, Bool.not_eq_true', ← Bool.not_eq_true, covered, and_assoc]
  rfl

end Grid

open Classical in
theorem total_eq_sum {outline thresholds : Size α} {rects : List (Rect α)}
    (proper : ∀ rect ∈ rects, rect.IsProper) :
    let grid := Grid.ofRects outline rects
    total outline thresholds rects =
      ∑ cell with grid.IsNotch rects thresholds cell,
        Number.sqrt ((grid.rect cell).area / outline.area) := by
  intro grid
  have cut := Grid.isCutBy_ofRects outline rects
  rw [total_eq_sum_cells, Finset.sum_filter, Fintype.sum_prod_type]
  refine Finset.sum_congr rfl fun column _ => Finset.sum_congr rfl fun row _ => ?_
  exact if_congr (cut.isNotch_iff proper (column, row)) rfl rfl

open Classical in
/--
A layout within an outline with positive sides has a raster along the edges of its hard blocks, and
every cell that is looked up is one of it. A cell is marked as covered just when a hard block
contains it, and has no area in common with any otherwise. The penalty is the sum over the notches
of the roots of their shares of the outline. The geometry is exact: rounded, the far edge of a block
that is thin next to its distance from the origin can fall on its near edge, and the raster has no
cell for the inside of such a block.
-/
theorem penalty_eq_sum_notches {outline size thresholds : Size α} {blocks : List (Block α)}
    (width : 0 < outline.width) (height : 0 < outline.height)
    (within : ∀ axis, size.along axis ≤ outline.along axis)
    (sizes : ∀ block ∈ blocks, block.isHard = true → ∀ axis, 0 < block.extent axis) :
    let rects := (blocks.filter (·.isHard)).map (·.footprint)
    let grid := Grid.ofRects outline rects
    grid.IsCutBy outline rects ∧
      (grid.columns ≠ [] ∧ grid.rows ≠ [] ∧ (∀ rect ∈ rects, grid.Holds (grid.patch rect)) ∧
        ∀ cell : grid.Cell, ∀ other ∈ grid.neighbors cell.1 cell.2,
          other.1 < grid.columns.length ∧ other.2 < grid.rows.length) ∧
      (∀ cell : grid.Cell,
        (isCovered (rects.map grid.patch) cell.1 cell.2 = true ↔ grid.IsCovered rects cell) ∧
        (isCovered (rects.map grid.patch) cell.1 cell.2 = false →
          ∀ rect ∈ rects, (grid.rect cell).overlaps rect = false)) ∧
      penalty outline size blocks thresholds =
        ∑ cell with grid.IsNotch rects thresholds cell,
          Number.sqrt ((grid.rect cell).area / outline.area) := by
  intro rects grid
  have proper : ∀ rect ∈ rects, rect.IsProper := by
    intro rect member
    obtain ⟨block, isHard, rfl⟩ := List.mem_map.mp member
    obtain ⟨member, isHard⟩ := List.mem_filter.mp isHard
    exact Block.isProper_footprint (sizes block member isHard)
  have cut : grid.IsCutBy outline rects := Grid.isCutBy_ofRects outline rects
  have columns : grid.columns ≠ [] := strips_ne_nil _ width (areLines_gridLines _ _)
  have rows : grid.rows ≠ [] := strips_ne_nil _ height (areLines_gridLines _ _)
  have inRange := grid.isInRange rects
  refine ⟨cut, ⟨columns, rows, inRange.patches columns rows, fun cell =>
    inRange.neighbors cell.1 cell.1.isLt cell.2 cell.2.isLt⟩, fun cell => ?_, ?_⟩
  · have covered := cut.isCovered_iff proper cell
    refine ⟨covered, fun uncovered rect member => cut.overlaps_eq_false proper ?_ member⟩
    rw [← covered, uncovered]
    exact Bool.false_ne_true
  · have fits : ¬ (outline.width < size.width ∨ outline.height < size.height) :=
      not_or.mpr ⟨not_lt.mpr (within .x), not_lt.mpr (within .y)⟩
    rw [penalty, if_neg fits]
    exact total_eq_sum proper

open Classical in
theorem penalty_eq_sum_notches_pair :
    let blocks : List (Block ℝ) :=
      [.hard "rom" 4 1 [⟨2, 2⟩], (Block.hard "ram" 2 1 [⟨1, 2⟩]).moveTo 3 0]
    let rects := (blocks.filter (·.isHard)).map (·.footprint)
    let grid := Grid.ofRects ⟨4, 2⟩ rects
    penalty ⟨4, 2⟩ ⟨4, 2⟩ blocks ⟨1, 1⟩ =
      ∑ cell with grid.IsNotch rects ⟨1, 1⟩ cell,
        Number.sqrt ((grid.rect cell).area / Size.area ⟨4, 2⟩) := by
  intro blocks rects grid
  have sizes : ∀ block ∈ blocks, block.isHard = true → ∀ axis, 0 < block.extent axis := by
    intro block member _ axis
    simp only [blocks, List.mem_cons, List.not_mem_nil, or_false] at member
    rcases member with rfl | rfl <;> cases axis <;>
      norm_num [Block.extent, Block.hard, Block.moveTo]
  obtain ⟨_, _, _, sum⟩ := @penalty_eq_sum_notches ℝ _ ⟨4, 2⟩ ⟨4, 2⟩ ⟨1, 1⟩ blocks (by norm_num)
    (by norm_num) (fun _ => le_refl _) sizes
  exact sum

end Notch

end Floorplanner
