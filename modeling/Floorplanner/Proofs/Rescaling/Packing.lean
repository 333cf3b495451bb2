import Mathlib
import Floorplanner.Proofs.Packing.Places
import Floorplanner.Proofs.Rescaling.Block

/-! Packing in another unit of length. -/

namespace Floorplanner

variable {α : Type} [ExactNumber α] (unit : Rescaling α)

namespace Packing

variable (reach : α) (slots : List α)

@[simp] theorem raise_rescale :
    raise (unit.length reach) (slots.map unit.length) = (raise reach slots).map unit.length := by
  induction slots with
  | nil => rfl
  | cons slot rest induction =>
      simp only [List.map_cons, raise, Rescaling.length_lt_length, induction]
      split <;> rfl

@[simp] theorem raiseFrom_rescale (rank : Nat) :
    raiseFrom rank (unit.length reach) (slots.map unit.length) =
      (raiseFrom rank reach slots).map unit.length := by
  simp only [raiseFrom, List.map_append, ← raise_rescale, List.map_take, List.map_drop]

theorem getD_map_length (index : Nat) :
    (slots.map unit.length).getD index 0 = unit.length (slots.getD index 0) := by
  have mapped := List.getD_map slots 0 (n := index) unit.length
  rwa [unit.length_zero] at mapped

namespace Sweep

@[simps] def rescale (sweep : Sweep α) : Sweep α :=
  ⟨sweep.slots.map unit.length, sweep.coordinates.map unit.length⟩

variable (extents coordinates : List α) (sequence negative : List BlockRef) (sweep : Sweep α)

theorem place_rescale (ref : BlockRef) :
    place (extents.map unit.length) negative (sweep.rescale unit) ref =
      (place extents negative sweep ref).rescale unit := by
  simp only [place, List.getElem?_map]
  cases extents[ref.index]? with
  | none => rfl
  | some extent =>
      simp only [Option.map_some, rescale, getD_map_length, Rescaling.length_add,
        raiseFrom_rescale, List.map_set]

theorem run_rescale :
    run (extents.map unit.length) (coordinates.map unit.length) sequence negative =
      (run extents coordinates sequence negative).rescale unit := by
  have start : (⟨List.replicate (extents.map unit.length).length 0,
      coordinates.map unit.length⟩ : Sweep α) =
        (⟨List.replicate extents.length 0, coordinates⟩ : Sweep α).rescale unit := by
    simp [rescale]
  rw [run, start]
  exact List.foldl_hom (rescale unit) fun sweep ref => place_rescale unit extents negative sweep ref

theorem reach_rescale : (sweep.rescale unit).reach = unit.length sweep.reach := by
  have mapped := List.getLastD_map (f := unit.length) (l := sweep.slots) (a := 0)
  rwa [unit.length_zero] at mapped

end Sweep

@[simp] theorem sweep_rescale (blocks : List (Block α)) (pair : SequencePair) (axis : Axis) :
    sweep (blocks.map (Block.rescale unit)) pair axis = (sweep blocks pair axis).rescale unit := by
  rw [sweep, sweep, ← Sweep.run_rescale, List.map_map, List.map_map, List.map_map, List.map_map]
  cases axis <;> rfl

end Packing

open Packing

@[simp] theorem pack_rescale (blocks : List (Block α)) (pair : SequencePair) :
    pack (blocks.map (Block.rescale unit)) pair =
      (pack blocks pair).map (List.map (Block.rescale unit)) (Size.rescale unit) := by
  simp only [pack_eq_sweep, sweep_rescale, Sweep.reach_rescale, Sweep.rescale_coordinates,
    List.zip_map, List.zipWith_map, Prod.map, List.map_zipWith, Size.rescale]
  rfl

end Floorplanner
