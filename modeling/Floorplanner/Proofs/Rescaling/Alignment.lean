import Mathlib
import Floorplanner.Alignment
import Floorplanner.Proofs.Rescaling.Block

/-!
Alignment in another unit of length.

How near an edge has to be is a share of the outline or a side of a block, so the same blocks snap
and spread in every unit, and they go to the rescaled places.
-/

namespace Floorplanner

variable {α : Type} [ExactNumber α] (unit : Rescaling α)

namespace Alignment

section Moves

variable (axis : Axis) (value extent bound : α) (outline reach : Size α) (block : Block α)
  (blocks : List (Block α)) (span other : Interval α)

@[simp] theorem slide_rescale :
    slide axis (unit.length value) (block.rescale unit) =
      (slide axis value block).rescale unit := by
  cases axis <;> rfl

@[simp] theorem reach_rescale :
    Alignment.reach (outline.rescale unit) (blocks.map (Block.rescale unit)) =
      (Alignment.reach outline blocks).rescale unit := by
  have widths : (blocks.map (Block.rescale unit)).map (·.width) =
      (blocks.map (·.width)).map unit.length := by
    simp
  have heights : (blocks.map (Block.rescale unit)).map (·.height) =
      (blocks.map (·.height)).map unit.length := by
    simp
  simp only [Alignment.reach, widths, heights, Size.rescale, unit.length_div,
    Rescaling.foldl_min_length]

@[simp] theorem snapped_rescale :
    snapped (unit.length extent) (unit.length bound) (span.rescale unit) =
      unit.length (snapped extent bound span) := by
  simp only [snapped, Interval.rescale_low, Interval.rescale_high, Interval.length_rescale,
    Rescaling.length_lt_length, Rescaling.length_sub]
  split
  · exact unit.length_zero.symm
  · split <;> rfl

@[simp] theorem snap_rescale :
    snap (outline.rescale unit) (reach.rescale unit) (block.rescale unit) =
      (snap outline reach block).rescale unit := by
  simp [snap]

@[simp] theorem near_rescale :
    near (unit.length bound) (span.rescale unit) (other.rescale unit) = near bound span other := by
  simp [near]

@[simp] theorem alignedStart_rescale (isUpper : Bool) :
    alignedStart isUpper (unit.length bound) (span.rescale unit) (other.rescale unit) =
      (alignedStart isUpper bound span other).map unit.length := by
  have contains (low high value : α) :
      (⟨unit.length low, unit.length high⟩ : Interval α).contains (unit.length value) =
        (⟨low, high⟩ : Interval α).contains value :=
    Interval.contains_rescale unit ⟨low, high⟩ value
  simp only [alignedStart, Interval.rescale_low, Interval.rescale_high, Interval.length_rescale,
    Rescaling.length_sub, Rescaling.length_add, contains]
  split <;> split
  · rfl
  · split <;> rfl
  · rfl
  · split <;> rfl

@[simp] theorem overlapsOther_rescale (index : Nat) :
    overlapsOther (blocks.map (Block.rescale unit)) index = overlapsOther blocks index := by
  simp only [overlapsOther, List.getElem?_map]
  cases blocks[index]? with
  | none => rfl
  | some block => simp [List.zipIdx_map, List.any_map, Function.comp_def]

end Moves

@[simps] def Pass.rescale (pass : Pass α) : Pass α :=
  ⟨pass.side, pass.outline.rescale unit, pass.reach.rescale unit,
    pass.lanes.map (Interval.rescale unit)⟩

def Spread.rescale (spread : Spread α) : Spread α :=
  ⟨spread.blocks.map (Block.rescale unit), spread.pending, spread.reached⟩

@[simps] def Result.rescale (result : Result α) : Result α :=
  ⟨result.blocks.map (Block.rescale unit), result.rounds⟩

section Passes

variable (pass : Pass α) (blocks : List (Block α)) (source : Rect α)

@[simp] theorem connects_rescale (i j : Nat) :
    (pass.rescale unit).connects i j = pass.connects i j := by
  simp only [Pass.connects, Pass.rescale, List.getElem?_map]
  cases pass.lanes[i]? with
  | none => rfl
  | some first =>
      cases pass.lanes[j]? with
      | none => rfl
      | some second => cases pass.side.axis <;> simp

@[simp] theorem move?_rescale (index : Nat) :
    (pass.rescale unit).move? (source.rescale unit) (blocks.map (Block.rescale unit)) index =
      (pass.move? source blocks index).map (List.map (Block.rescale unit)) := by
  simp only [Pass.move?, Pass.rescale, List.getElem?_map]
  cases blocks[index]? with
  | none => rfl
  | some block =>
      simp only [Option.map_some, Option.bind_eq_bind, Option.bind_some, Size.along_rescale,
        Rect.span_rescale, Block.footprint_rescale, alignedStart_rescale]
      cases alignedStart pass.side.isUpper (pass.reach.along pass.side.axis)
          (source.span pass.side.axis) (block.footprint.span pass.side.axis) with
      | none => rfl
      | some start =>
          simp only [Option.map_some, Option.bind_some, slide_rescale, ← List.map_set]
          rfl

@[simp] theorem spread_rescale (origin : Nat) (pending : List Nat) :
    (pass.rescale unit).spread origin (source.rescale unit) pending
        (blocks.map (Block.rescale unit)) =
      (pass.spread origin source pending blocks).rescale unit := by
  induction pending generalizing blocks with
  | nil => rfl
  | cons index rest induction =>
      have moves : (if pass.connects origin index then
            (pass.move? source blocks index).map (List.map (Block.rescale unit)) else none) =
          (if pass.connects origin index then pass.move? source blocks index else none).map
            (List.map (Block.rescale unit)) := by
        split <;> rfl
      simp only [Pass.spread, connects_rescale, move?_rescale, moves]
      cases if pass.connects origin index then pass.move? source blocks index else none with
      | none =>
          simp only [Option.map_none, induction]
          rfl
      | some moved =>
          simp only [Option.map_some, overlapsOther_rescale, induction]
          split <;> rfl

@[simp] theorem propagate_rescale (queue pending : List Nat) :
    (pass.rescale unit).propagate queue pending (blocks.map (Block.rescale unit)) =
      (pass.propagate queue pending blocks).map (Block.rescale unit) := by
  induction queue, pending, blocks using Pass.propagate.induct pass with
  | case1 pending blocks => rw [Pass.propagate, Pass.propagate]
  | case2 pending blocks origin rest absent induction =>
      rw [Pass.propagate, Pass.propagate, List.getElem?_map]
      simp only [absent, Option.map_none]
      exact induction
  | case3 pending blocks origin rest block found result induction =>
      rw [Pass.propagate, Pass.propagate, List.getElem?_map]
      simp only [found, Option.map_some, Block.footprint_rescale, spread_rescale]
      exact induction

@[simp] theorem touches_rescale (upper : Bool) (block : Block α) :
    (pass.rescale unit).touches upper (block.rescale unit) = pass.touches upper block := by
  simp [Pass.touches]

@[simp] theorem run_rescale :
    (pass.rescale unit).run (blocks.map (Block.rescale unit)) =
      (pass.run blocks).map (Block.rescale unit) := by
  simp [Pass.run, List.zipIdx_map, List.filter_map, Function.comp_def]

end Passes

section Rounds

variable (outline reach : Size α) (blocks hard : List (Block α))

@[simp] theorem round_rescale :
    round (outline.rescale unit) (reach.rescale unit) (blocks.map (Block.rescale unit)) =
      (round outline reach blocks).map (Block.rescale unit) := by
  have lanes (axis : Axis) (blocks : List (Block α)) :
      (blocks.map (Block.rescale unit)).map (·.footprint.span axis) =
        (blocks.map (·.footprint.span axis)).map (Interval.rescale unit) := by
    simp
  have runs (side : Side) (lanes : List (Interval α)) (blocks : List (Block α)) :
      (Pass.mk side (outline.rescale unit) (reach.rescale unit)
          (lanes.map (Interval.rescale unit))).run (blocks.map (Block.rescale unit)) =
        ((Pass.mk side outline reach lanes).run blocks).map (Block.rescale unit) :=
    run_rescale unit ⟨side, outline, reach, lanes⟩ blocks
  have snaps : (blocks.map (Block.rescale unit)).map
      (snap (outline.rescale unit) (reach.rescale unit)) =
        (blocks.map (snap outline reach)).map (Block.rescale unit) := by
    simp
  simp only [round, snaps, lanes, runs]

@[simp] theorem moved_rescale (after : List (Block α)) :
    moved (blocks.map (Block.rescale unit)) (after.map (Block.rescale unit)) =
      moved blocks after := by
  simp [moved, List.zip_map, List.any_map, Function.comp_def]

theorem rounds_rescale (left done : Nat) :
    rounds (outline.rescale unit) (reach.rescale unit) left done
        (blocks.map (Block.rescale unit)) =
      (rounds outline reach left done blocks).rescale unit := by
  induction left generalizing done blocks with
  | zero => rfl
  | succ left induction =>
      simp only [rounds, round_rescale, moved_rescale, induction]
      split <;> rfl

theorem merge_rescale :
    merge (blocks.map (Block.rescale unit)) (hard.map (Block.rescale unit)) =
      (merge blocks hard).map (Block.rescale unit) := by
  induction blocks generalizing hard with
  | nil => rfl
  | cons block rest induction =>
      simp only [List.map_cons, merge, Block.isHard_rescale]
      split
      · cases hard with
        | nil => simp [← induction]
        | cons aligned others => simp [← induction]
      · simp [← induction]

end Rounds

end Alignment

/-- Alignment takes the same number of rounds, and the blocks to the rescaled places. -/
@[simp] theorem alignHard_rescale (outline : Size α) (blocks : List (Block α)) :
    alignHard (outline.rescale unit) (blocks.map (Block.rescale unit)) =
      (alignHard outline blocks).rescale unit := by
  rw [alignHard, alignHard, Block.filter_isHard_rescale]
  simp only [List.isEmpty_map, Alignment.reach_rescale, Alignment.rounds_rescale,
    Alignment.Result.rescale_blocks, Alignment.Result.rescale_rounds, Alignment.merge_rescale]
  split <;> rfl

end Floorplanner
