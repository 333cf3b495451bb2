import Mathlib
import Floorplanner.Proofs.Symmetry.Rearrangement
import Floorplanner.Proofs.Symmetry.Reflection

/-!
What the cost does not depend on.

The terms of a layout stay the same if both axes are exchanged, if everything is reflected about a
centre line of the outline, and if what is listed is listed in another order.
-/

namespace Floorplanner

namespace Cost

variable {α : Type} [ExactNumber α]

/--
The terms do not tell the axes, the two directions of an axis or the order of a list from each other.
For a reflection, hard blocks have to lie within the outline and to have an extent on both axes.
-/
theorem evaluate_symmetries (problem : Problem α) (notching : Config.Notching α)
    (blocks : List (Block α)) (size : Size α) :
    (notching.thresholds problem.outline.transpose =
        (notching.thresholds problem.outline).transpose ∧
      evaluate problem.transpose notching (blocks.map Block.transpose) size.transpose =
        evaluate problem notching blocks size) ∧
    ((∀ block ∈ blocks, block.isHard = true → block.IsWithin problem.outline) →
      (∀ block ∈ blocks, block.isHard = true → ∀ axis, 0 < block.extent axis) →
      ∀ axis, evaluate (problem.mirror axis) notching
          (blocks.map (Block.mirror problem.outline axis)) size =
        evaluate problem notching blocks size) ∧
    ∀ (rename : BlockRef → BlockRef) (other : Problem α) (others : List (Block α)),
      problem.Rearranges rename other blocks others →
        evaluate other notching others size = evaluate problem notching blocks size :=
  ⟨⟨Config.thresholds_transpose notching problem.outline,
      evaluate_transpose problem notching blocks size⟩,
    fun within sizes axis => evaluate_mirror axis notching size within sizes,
    fun _ _ _ same => evaluate_rearranged same notching size⟩

section Pair

theorem getElem?_swap {β : Type} (first second : β) (ref : BlockRef) :
    [second, first][(Equiv.swap ⟨0⟩ ⟨1⟩ ref : BlockRef).index]? = [first, second][ref.index]? := by
  by_cases isFirst : ref = ⟨0⟩
  · rw [isFirst, Equiv.swap_apply_left]
    rfl
  by_cases isSecond : ref = ⟨1⟩
  · rw [isSecond, Equiv.swap_apply_right]
    rfl
  have beyond : 2 ≤ ref.index := by
    have notZero : ref.index ≠ 0 := fun same => isFirst (Entity.Ref.index_injective same)
    have notOne : ref.index ≠ 1 := fun same => isSecond (Entity.Ref.index_injective same)
    omega
  rw [Equiv.swap_apply_of_ne_of_ne isFirst isSecond, List.getElem?_eq_none beyond,
    List.getElem?_eq_none beyond]

theorem evaluate_symmetries_pair :
    let rom : Block ℝ := (Block.hard "rom" 6 1 [⟨2, 3⟩]).moveTo 1 0
    let ram : Block ℝ := (Block.hard "ram" 16 2 [⟨4, 4⟩]).moveTo 6 5
    let problem : Problem ℝ :=
      { Problem.ofOutline ⟨10, 10⟩ with
        blocks := [rom, ram]
        nets := [⟨[⟨0⟩, ⟨1⟩], [], 3⟩, ⟨[⟨1⟩], [⟨4⟩, ⟨7⟩], 1⟩]
        regions := [⟨0, 0, 1, 10⟩, ⟨0, 0, 10, 1⟩]
        locations := [⟨⟨1⟩, ⟨0, 0, 4, 4⟩⟩] }
    let other : Problem ℝ :=
      { problem with
        blocks := [ram, rom]
        nets := [⟨[⟨0⟩], [⟨7⟩, ⟨4⟩], 1⟩, ⟨[⟨0⟩, ⟨1⟩], [], 3⟩]
        regions := [⟨0, 0, 10, 1⟩, ⟨0, 0, 1, 10⟩]
        locations := [⟨⟨0⟩, ⟨0, 0, 4, 4⟩⟩] }
    let terms := evaluate problem .default [rom, ram] ⟨10, 9⟩
    evaluate problem.transpose .default [rom.transpose, ram.transpose] ⟨9, 10⟩ = terms ∧
      (∀ axis, evaluate (problem.mirror axis) .default
        [rom.mirror problem.outline axis, ram.mirror problem.outline axis] ⟨10, 9⟩ = terms) ∧
      evaluate other .default [ram, rom] ⟨10, 9⟩ = terms := by
  intro rom ram problem other terms
  obtain ⟨⟨_, transposed⟩, mirrored, rearranged⟩ :=
    evaluate_symmetries problem .default [rom, ram] ⟨10, 9⟩
  refine ⟨transposed, mirrored ?_ ?_, rearranged (Equiv.swap ⟨0⟩ ⟨1⟩) other [ram, rom] ?_⟩
  · simp only [List.forall_mem_cons]
    refine ⟨fun _ => ?_, fun _ => ?_, List.forall_mem_nil _⟩
    all_goals
      rintro (_ | _)
      all_goals norm_num [rom, ram, problem, Problem.ofOutline, Block.hard, Block.moveTo, Block.low,
        Block.high, Block.extent, Size.along]
  · simp only [List.forall_mem_cons]
    refine ⟨fun _ => ?_, fun _ => ?_, List.forall_mem_nil _⟩
    all_goals
      rintro (_ | _)
      all_goals norm_num [rom, ram, Block.hard, Block.moveTo, Block.extent]
  · exact {
      outline := rfl
      blocks := .swap _ _ _
      renamed := getElem?_swap rom ram
      nets := ⟨[⟨[⟨0⟩, ⟨1⟩], [], 3⟩, ⟨[⟨0⟩], [⟨7⟩, ⟨4⟩], 1⟩],
        .cons ⟨.swap _ _ _, .refl _, rfl⟩ (.cons ⟨.refl _, .swap _ _ _, rfl⟩ .nil), .swap _ _ _⟩
      terminals := rfl
      regions := .swap _ _ _
      locations := .refl _ }

end Pair

section Wall

open Notch

theorem gridLines_eq {edges lines : List ℝ} {extent : ℝ} (increasing : lines.Pairwise (· < ·))
    (mem_iff : ∀ line, line ∈ lines ↔ line = 0 ∨ line = extent ∨ line ∈ edges) :
    gridLines edges extent = lines :=
  (areLines_gridLines edges extent).eq_of_mem_iff ⟨increasing, mem_iff⟩ fun _ => .rfl

/-- A hard block without a width cuts the outline in two and takes up the part after it. -/
theorem total_wall {place : ℝ} (left : 0 < place) (right : place < 10) :
    total ⟨10, 10⟩ ⟨1, 1⟩ [⟨place, 0, place, 10⟩] =
      if place ≤ 1 then Number.sqrt (place * 10 / 100) else 0 := by
  have columns : gridLines [place, place] 10 = [0, place, 10] := by
    refine gridLines_eq ?_ fun line => ?_
    · simp [left, right]
    · simp
      tauto
  have rows : gridLines [0, 10] (10 : ℝ) = [0, 10] := by
    refine gridLines_eq ?_ fun line => ?_
    · simp
    · simp
      tauto
  have grid : Grid.ofRects ⟨10, 10⟩ [⟨place, 0, place, 10⟩] =
      ⟨[⟨0, place⟩, ⟨place, 10⟩], [⟨0, 10⟩]⟩ := by
    simp [Grid.ofRects, columns, rows, strips]
  have patch : Grid.patch ⟨[⟨0, place⟩, ⟨place, 10⟩], [⟨0, 10⟩]⟩ ⟨place, 0, place, 10⟩ =
      ⟨1, 1, 0, 0⟩ := by
    simp [Grid.patch, firstStrip, lastStrip, left, right, List.findIdx?, List.findIdx?.go]
  rw [total, grid, List.map_singleton, patch]
  norm_num [isNotch, isCovered, isEnclosed, Grid.neighbors, beside, Patch.contains, weight,
    Interval.length, Size.area, List.zipIdx]

theorem notch_wall {problem : Problem ℝ} {wall : Block ℝ} {place : ℝ}
    (outline : problem.outline = ⟨10, 10⟩) (isHard : wall.isHard = true)
    (footprint : wall.footprint = ⟨place, 0, place, 10⟩) (left : 0 < place) (right : place < 10) :
    (evaluate problem .default [wall] ⟨10, 10⟩).notch =
      if place ≤ 1 then Number.sqrt (place * 10 / 100) else 0 := by
  have thresholds : (Config.Notching.default.thresholds ⟨10, 10⟩ : Size ℝ) = ⟨1, 1⟩ := by
    norm_num [Config.Notching.thresholds, Config.Notching.default, Number.ratio]
  rw [← total_wall left right, ← footprint]
  simp only [evaluate, outline, thresholds, penalty, lt_irrefl, or_self, if_false]
  rw [List.filter_cons_of_pos isHard]
  rfl

/-- Such a block leaves a notch before it, but its reflection does not leave one after it. -/
theorem evaluate_mirror_wall_ne :
    let wall : Block ℝ := (Block.hard "rom" 1 1 [⟨0, 10⟩]).moveTo 1 0
    let problem : Problem ℝ := { Problem.ofOutline ⟨10, 10⟩ with blocks := [wall] }
    wall.isHard = true ∧ wall.IsWithin problem.outline ∧
      evaluate (problem.mirror .x) .default [wall.mirror problem.outline .x] ⟨10, 10⟩ ≠
        evaluate problem .default [wall] ⟨10, 10⟩ := by
  intro wall problem
  have footprint : wall.footprint = ⟨1, 0, 1, 10⟩ := by
    norm_num [wall, Block.hard, Block.moveTo, Block.footprint, Rect.ofOrigin]
  have reflected : (wall.mirror problem.outline .x).footprint = ⟨9, 0, 9, 10⟩ := by
    rw [Block.footprint_mirror, footprint]
    norm_num [Rect.mirror, problem, Problem.ofOutline]
  have here : (evaluate problem .default [wall] ⟨10, 10⟩).notch = _ :=
    notch_wall rfl rfl footprint one_pos (by norm_num)
  have there : (evaluate (problem.mirror .x) .default [wall.mirror problem.outline .x]
      ⟨10, 10⟩).notch = _ := notch_wall rfl rfl reflected (by norm_num) (by norm_num)
  refine ⟨rfl, ?_, fun same => ?_⟩
  · rintro (_ | _)
    all_goals norm_num [wall, problem, Problem.ofOutline, Block.hard, Block.moveTo, Block.low,
      Block.high, Block.extent, Size.along]
  · have root : (0 : ℝ) < Number.sqrt (1 * 10 / 100) := Real.sqrt_pos.mpr (by norm_num)
    rw [if_pos le_rfl] at here
    rw [if_neg (by norm_num)] at there
    rw [same, here] at there
    exact root.ne' there

end Wall

end Cost

end Floorplanner
