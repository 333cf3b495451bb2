import Floorplanner.Cost.Model

/-!
The cost of a layout looks up only what is there.

Nets and locations refer to blocks and terminals of the problem, and the cells of the notch grid
that blocks cover or that lie beside a cell are cells of the grid. The grid may have no cells, if an
outline has no extent on some numbers; then no cell is looked at.
-/

namespace Floorplanner

variable {α : Type}

namespace Notch

/-- The patch of a rectangle does not end before it starts, and ends within the grid. -/
structure Grid.Holds (grid : Grid α) (patch : Patch) : Prop where
  columns : patch.firstColumn ≤ patch.lastColumn ∧ patch.lastColumn < grid.columns.length
  rows : patch.firstRow ≤ patch.lastRow ∧ patch.lastRow < grid.rows.length

variable [Number α]

structure Grid.IsInRange (grid : Grid α) (rects : List (Rect α)) : Prop where
  patches : grid.columns ≠ [] → grid.rows ≠ [] → ∀ rect ∈ rects, grid.Holds (grid.patch rect)
  neighbors : ∀ column < grid.columns.length, ∀ row < grid.rows.length,
    ∀ cell ∈ grid.neighbors column row, cell.1 < grid.columns.length ∧ cell.2 < grid.rows.length

variable {strips : List (Interval α)}

theorem dropRepeats_ne_nil {lines : List α} (nonempty : lines ≠ []) : dropRepeats lines ≠ [] := by
  cases lines with
  | nil => exact absurd rfl nonempty
  | cons line rest =>
      rw [dropRepeats]
      split
      · exact List.cons_ne_nil _ _
      · split <;> exact List.cons_ne_nil _ _

/-- The ends of the outline are lines, so the strips are one fewer than the lines. -/
theorem gridLines_ne_nil (edges : List α) (extent : α) : gridLines edges extent ≠ [] := by
  apply dropRepeats_ne_nil
  rw [← List.length_pos_iff, List.length_mergeSort, List.length_append]
  exact Nat.succ_pos _

theorem firstStrip_lt (nonempty : strips ≠ []) (low : α) :
    firstStrip strips low < strips.length := by
  rw [firstStrip]
  cases found : strips.findIdx? fun strip =>
    decide (strip.low ≤ low) && decide (low < strip.high) with
  | none => exact List.length_pos_iff.mpr nonempty
  | some index => exact (List.findIdx?_eq_some_iff_getElem.mp found).1

theorem lastStrip_lt (nonempty : strips ≠ []) (high : α) :
    lastStrip strips high < strips.length := by
  have positive := List.length_pos_iff.mpr nonempty
  rw [lastStrip]
  omega

theorem lt_of_mem_beside {count index other : Nat} (bound : index < count)
    (member : other ∈ beside count index) : other < count := by
  rw [beside] at member
  split at member <;> split at member <;> simp at member <;> omega

theorem Grid.isInRange (grid : Grid α) (rects : List (Rect α)) : grid.IsInRange rects where
  patches columns rows rect _ := by
    have firstColumn := firstStrip_lt columns rect.lx
    have lastColumn := lastStrip_lt columns rect.ux
    have firstRow := firstStrip_lt rows rect.ly
    have lastRow := lastStrip_lt rows rect.uy
    exact ⟨⟨Nat.le_max_right _ _, Nat.max_lt.mpr ⟨lastColumn, firstColumn⟩⟩,
      ⟨Nat.le_max_right _ _, Nat.max_lt.mpr ⟨lastRow, firstRow⟩⟩⟩
  neighbors column columnBound row rowBound cell member := by
    rcases List.mem_append.mp member with across | along
    · obtain ⟨other, beside, rfl⟩ := List.mem_map.mp across
      exact ⟨lt_of_mem_beside columnBound beside, rowBound⟩
    · obtain ⟨other, beside, rfl⟩ := List.mem_map.mp along
      exact ⟨columnBound, lt_of_mem_beside rowBound beside⟩

end Notch

structure Net.IsWithin (net : Net) (blocks terminals : Nat) : Prop where
  blocks : ∀ ref ∈ net.blocks, ref.index < blocks
  terminals : ∀ ref ∈ net.terminals, ref.index < terminals

structure Problem.IsClosed (problem : Problem α) : Prop where
  nets : ∀ net ∈ problem.nets, net.IsWithin problem.blocks.length problem.terminals.length
  locations : ∀ location ∈ problem.locations, location.block.index < problem.blocks.length

structure Cost.IsInRange [Number α] (problem : Problem α) (blocks : List (Block α)) : Prop where
  nets : ∀ net ∈ problem.nets, net.IsWithin blocks.length problem.terminals.length
  locations : ∀ location ∈ problem.locations, location.block.index < blocks.length
  lines : let rects := (blocks.filter (·.isHard)).map (·.footprint)
    Notch.gridLines (rects.flatMap fun rect => [rect.lx, rect.ux]) problem.outline.width ≠ [] ∧
      Notch.gridLines (rects.flatMap fun rect => [rect.ly, rect.uy]) problem.outline.height ≠ []
  cells : let rects := (blocks.filter (·.isHard)).map (·.footprint)
    (Notch.Grid.ofRects problem.outline rects).IsInRange rects

theorem Problem.IsClosed.evaluates [Number α] {problem : Problem α} (closed : problem.IsClosed)
    {blocks : List (Block α)} (length : blocks.length = problem.blocks.length) :
    Cost.IsInRange problem blocks where
  nets := length ▸ closed.nets
  locations := length ▸ closed.locations
  lines := ⟨Notch.gridLines_ne_nil _ _, Notch.gridLines_ne_nil _ _⟩
  cells := Notch.Grid.isInRange _ _

end Floorplanner
