import Mathlib
import Floorplanner.Proofs.Plan.Overlap

/-!
Hard blocks of a plan over its soft ones.

Alignment looks out for hard blocks only, so it can bring one of them over a soft block. A hard block
that it left in its place is clear of all soft blocks, though, and one that it moved reaches into a
soft block no further than it was moved.
-/

namespace Floorplanner

variable {α : Type} [ExactNumber α]

namespace Rect

/-- How far the spans of two rectangles run along each other; not above zero if they are apart. -/
def common (r s : Rect α) (axis : Axis) : α :=
  min (r.span axis).high (s.span axis).high - max (r.span axis).low (s.span axis).low

theorem overlaps_eq_false_of_common {r s : Rect α} {axis : Axis} (apart : r.common s axis ≤ 0) :
    r.overlaps s = false := by
  rw [← Bool.not_eq_true, overlaps_iff]
  intro meets
  exact not_le.mpr (sub_pos.mpr (meets axis)) apart

end Rect

namespace Alignment

variable {block moved other : Block α}

/-- A block that was apart from another runs along it no further than it was moved. -/
theorem exists_common_le (same : moved.atOrigin = block.atOrigin)
    (apart : block.footprint.Apart other.footprint) :
    ∃ axis, moved.footprint.common other.footprint axis ≤ |moved.low axis - block.low axis| := by
  obtain ⟨axis, apart⟩ := apart
  refine ⟨axis, ?_⟩
  rw [Rect.common]
  rw [Block.span_footprint, Block.span_footprint] at apart ⊢
  rw [extent_of_atOrigin_eq same]
  dsimp only at apart ⊢
  rcases apart with below | above
  · calc
      _ ≤ moved.low axis + block.extent axis - other.low axis :=
        sub_le_sub (min_le_left _ _) (le_max_right _ _)
      _ ≤ moved.low axis - block.low axis := by linarith
      _ ≤ _ := le_abs_self _
  · calc
      _ ≤ other.low axis + other.extent axis - moved.low axis :=
        sub_le_sub (min_le_right _ _) (le_max_left _ _)
      _ ≤ -(moved.low axis - block.low axis) := by linarith
      _ ≤ _ := neg_le_abs _

end Alignment

namespace Plan

open Floorplanner.Alignment

theorem exists_of_forall₂ {β γ : Type} {relates : β → γ → Prop} {before : List β}
    {after : List γ} (all : List.Forall₂ relates before after) {index : Nat} {new : γ}
    (found : after[index]? = some new) : ∃ old, before[index]? = some old ∧ relates old new := by
  induction all generalizing index with
  | nil => cases found
  | cons first _ induction =>
      cases index with
      | zero => cases found; exact ⟨_, rfl, first⟩
      | succ index => exact induction found

variable {problem : Problem α} {config : Config α} {winner : Outcome α}
  {calibration : Calibration α} {levels : List (LevelSummary α)} {index : Nat}
  {placed : PlacedBlock α}

theorem exists_relocates_finish
    (found : (finish problem config winner calibration levels).blocks[index]? = some placed) :
    ∃ block moved, winner.arrangement.blocks[index]? = some block ∧ Relocates block moved ∧
      placed = .ofBlock moved := by
  change ((alignHard problem.outline winner.arrangement.blocks).blocks.map _)[index]? = _ at found
  rw [List.getElem?_map, Option.map_eq_some_iff] at found
  obtain ⟨moved, aligned, rfl⟩ := found
  obtain ⟨block, original, relocates⟩ := exists_of_forall₂ (alignHard_relocates _ _).1 aligned
  exact ⟨block, moved, original, relocates, rfl⟩

variable {blocks : List (Block α)} {pair : SequencePair}

/-- A hard block of a plan reaches into a soft one no further than alignment moved it. -/
theorem common_soft_le_finish (valid : pair.isValid blocks.length = true)
    (packed : winner.arrangement.blocks = (pack blocks pair).1) {i j : Nat}
    {hard soft : PlacedBlock α}
    (first : (finish problem config winner calibration levels).blocks[i]? = some hard)
    (second : (finish problem config winner calibration levels).blocks[j]? = some soft)
    (isHard : hard.isHard = true) (isSoft : soft.isHard = false) :
    ∃ start, (pack blocks pair).1[i]? = some start ∧
      (∃ axis, hard.footprint.common soft.footprint axis ≤
        |(hard.footprint.span axis).low - start.low axis|) ∧
      (hard.x = start.x → hard.y = start.y →
        hard.footprint.overlaps soft.footprint = false) := by
  obtain ⟨start, moved, original, ⟨same, _⟩, rfl⟩ := exists_relocates_finish first
  obtain ⟨other, stays, found, ⟨kind, stay⟩, rfl⟩ := exists_relocates_finish second
  have soft : other.isSoft = true := by
    have isSoft : stays.isHard = false := isSoft
    rw [isHard_of_atOrigin_eq kind, Block.isHard] at isSoft
    simpa using isSoft
  cases stay soft
  rw [packed] at original found
  obtain ⟨this, rfl⟩ := exists_ref_of_getElem? valid original
  obtain ⟨that, rfl⟩ := exists_ref_of_getElem? valid found
  have different : this ≠ that := by
    rintro rfl
    cases original.symm.trans found
    have isHard : moved.isHard = true := isHard
    rw [isHard_of_atOrigin_eq same, Block.isHard, soft] at isHard
    cases isHard
  obtain ⟨axis, common⟩ := exists_common_le same (apart_pack valid different original found)
  refine ⟨start, original, ⟨axis, ?_⟩, ?_⟩
  · cases axis <;> exact common
  · intro x y
    have still : moved.low axis = start.low axis := by
      cases axis with
      | x => exact x
      | y => exact y
    rw [still, sub_self, abs_zero] at common
    exact Rect.overlaps_eq_false_of_common common

section Covered

noncomputable def rom : Block ℝ := .hard "rom" 400 1 [⟨(20 : Nat), (20 : Nat)⟩]

noncomputable def covered : List (Block ℝ) := [.soft "core" 1 [⟨1, 1⟩], rom]

theorem soft_core :
    (Block.soft "core" 1 [⟨1, 1⟩] : Block ℝ) = ⟨"core", 1, .ofRatios 1 [⟨1, 1⟩], 1, 1, 0, 0⟩ := by
  simp [Block.soft, Block.withRatio, Number.sqrt, ExactNumber.sqrt]

open Packing in
theorem pack_covered :
    (pack covered (.identity 2)).1 = [.soft "core" 1 [⟨1, 1⟩], rom.moveTo 1 0] := by
  have row : SequencePair.identity 2 = ⟨[⟨0⟩, ⟨1⟩], [⟨0⟩, ⟨1⟩]⟩ := by decide
  have ranks : rank [⟨0⟩, ⟨1⟩] ⟨0⟩ = 0 ∧ rank [⟨0⟩, ⟨1⟩] ⟨1⟩ = 1 := by decide
  have indices : (⟨0⟩ : BlockRef).index = 0 ∧ (⟨1⟩ : BlockRef).index = 1 := by decide
  norm_num [row, ranks, indices, covered, soft_core, pack, Sweep.run, Sweep.place, raiseFrom,
    raise, rom, Block.hard, Block.moveTo, List.replicate]

theorem round_rom (distance : ℝ) (near : distance < 10) :
    round ⟨100, 100⟩ ⟨10, 10⟩ [rom.moveTo distance 0] = [rom] := by
  have snaps : [rom.moveTo distance 0].map (snap ⟨100, 100⟩ ⟨10, 10⟩) = [rom] := by
    simp [snap, snapped, near, rom, Block.hard, Block.moveTo, Block.footprint, Rect.ofOrigin,
      Rect.span]
  rw [round_eq_map_snap, snaps]
  rw [snaps]
  intro pass _
  rw [List.forall_mem_singleton]
  refine ⟨false, ?_⟩
  cases axis : pass.side.axis with
  | _ => simp [Pass.touches, axis, rom, Block.hard, Block.footprint, Rect.ofOrigin, Rect.span]

theorem alignHard_covered :
    (alignHard ⟨100, 100⟩ [.soft "core" 1 [⟨1, 1⟩], rom.moveTo 1 0]).blocks = covered := by
  have hard : [Block.soft "core" 1 [⟨1, 1⟩], rom.moveTo 1 0].filter (·.isHard) =
    [rom.moveTo 1 0] := rfl
  have near : reach ⟨100, 100⟩ [rom.moveTo 1 0] = ⟨10, 10⟩ := by
    norm_num [reach, rom, Block.hard, Block.moveTo]
  have some : ¬ [rom.moveTo 1 0].isEmpty = true := Bool.false_ne_true
  have aligned : (rounds ⟨100, 100⟩ ⟨10, 10⟩ maxRounds 0 [rom.moveTo 1 0]).blocks = [rom] := by
    apply rounds_of_settled_round (round_rom 1 (by norm_num))
    exact round_rom 0 (by norm_num)
  rw [alignHard, hard, if_neg some, near]
  change merge _ (Alignment.rounds _ _ _ _ _).blocks = _
  rw [aligned]
  rfl

theorem common_soft_le_finish_covered :
    let problem : Problem ℝ := { Problem.ofOutline ⟨100, 100⟩ with blocks := covered }
    let winner : Outcome ℝ := ⟨⟨(pack covered (.identity 2)).1, .identity 2⟩, .zero, 0⟩
    let plan := finish problem .default winner ⟨.zero, 0⟩ []
    ∃ hard soft start, plan.blocks = [soft, hard] ∧ hard.isHard = true ∧ soft.isHard = false ∧
      (pack covered (.identity 2)).1[1]? = some start ∧
      (∃ axis, hard.footprint.common soft.footprint axis ≤
        |(hard.footprint.span axis).low - start.low axis|) ∧
      (hard.x = start.x → hard.y = start.y →
        hard.footprint.overlaps soft.footprint = false) := by
  intro problem winner plan
  have valid : (SequencePair.identity 2).isValid covered.length = true := by decide
  have blocks : plan.blocks = covered.map .ofBlock := by
    rw [← alignHard_covered, ← pack_covered]
    rfl
  have first : plan.blocks[1]? = some (.ofBlock rom) := by rw [blocks]; rfl
  have second : plan.blocks[0]? = some (.ofBlock (.soft "core" 1 [⟨1, 1⟩])) := by rw [blocks]; rfl
  obtain ⟨start, packed, reaches⟩ := common_soft_le_finish valid rfl first second rfl rfl
  exact ⟨_, _, start, blocks, rfl, rfl, packed, reaches⟩

/-- The plan is feasible, but its hard block covers the soft one. -/
theorem feasible_and_covering :
    let problem : Problem ℝ := { Problem.ofOutline ⟨100, 100⟩ with blocks := covered }
    let winner : Outcome ℝ := ⟨⟨(pack covered (.identity 2)).1, .identity 2⟩, .zero, 0⟩
    let plan := finish problem .default winner ⟨.zero, 0⟩ []
    (SequencePair.identity 2).isValid covered.length = true ∧
      (∀ block ∈ covered, 0 < block.width ∧ 0 < block.height) ∧ plan.feasible = true ∧
      ∃ hard ∈ plan.blocks, ∃ soft ∈ plan.blocks, hard.isHard = true ∧ soft.isHard = false ∧
        hard.footprint.overlaps soft.footprint = true := by
  intro problem winner plan
  have aligned : (alignHard problem.outline winner.arrangement.blocks).blocks = covered := by
    rw [← alignHard_covered, ← pack_covered]
    rfl
  have blocks : plan.blocks = covered.map .ofBlock := congrArg (List.map _) aligned
  refine ⟨by decide, ?_, ?_, ?_⟩
  · simp [covered, soft_core, rom, Block.hard]
  · change problem.fits (boundingSize (alignHard _ _).blocks) = true
    rw [aligned]
    norm_num [Problem.fits, boundingSize, covered, soft_core, rom, Block.hard, Block.footprint,
      Rect.ofOrigin, Number.ratio, problem, Problem.ofOutline, Size.zero]
  · rw [blocks]
    refine ⟨_, .tail _ (.head _), _, .head _, rfl, rfl, ?_⟩
    rw [Rect.overlaps_iff]
    rintro (_ | _)
    all_goals norm_num [PlacedBlock.footprint, PlacedBlock.ofBlock, soft_core, rom, Block.hard,
      Rect.ofOrigin, Rect.span]

end Covered

end Plan

end Floorplanner
