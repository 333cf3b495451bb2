import Mathlib
import Floorplanner.Proofs.Monotone
import Floorplanner.Proofs.Packing.Slots

/-!
Smaller blocks never need more room.

Two sweeps that meet the same blocks in the same order raise their slots in step. Where the blocks of
one are no larger, its slots are no higher, slot by slot, although the two may stop raising them at
different slots. So none of its blocks starts later, and the layout ends no later.
-/

namespace Floorplanner

open Number

variable {α : Type} [Number α]

namespace Packing

def IsWithin (slot other : α) : Prop := 0 ≤ slot ∧ slot ≤ other

section Slots

variable [RoundsMonotonically α] {slot other reach further : α} {slots others : List α}

theorem isWithin_zero : IsWithin (0 : α) 0 :=
  ⟨MaxesLawfully.zero_le_zero, MaxesLawfully.zero_le_zero⟩

theorem IsWithin.raised (within : IsWithin slot other) (reaches : 0 < reach → reach ≤ further) :
    IsWithin (raised reach slot) (raised further other) := by
  have self : slot ≤ slot := RoundsMonotonically.le_self_of_le within.1
  have otherSelf : other ≤ other := RoundsMonotonically.le_self_of_le within.2
  refine ⟨ComparesLawfully.le_trans within.1 (le_raised self), ?_⟩
  apply raised_le_raised _ otherSelf within.2
  intro less
  have below := reaches (RoundsMonotonically.pos_of_nonneg_of_lt within.1 less)
  exact ⟨below, RoundsMonotonically.le_self_of_le below⟩

theorem getD_isWithin (within : List.Forall₂ IsWithin slots others) (position : Nat) :
    IsWithin (slots.getD position 0) (others.getD position 0) := by
  induction within generalizing position with
  | nil => exact isWithin_zero
  | cons first _ induction =>
      cases position with
      | zero => exact first
      | succ position => exact induction position

theorem getLastD_isWithin (within : List.Forall₂ IsWithin slots others) :
    IsWithin (slots.getLastD 0) (others.getLastD 0) := by
  have last := getD_isWithin within (slots.length - 1)
  rw [List.getLastD_eq_getLast?, List.getLastD_eq_getLast?, List.getLast?_eq_getElem?,
    List.getLast?_eq_getElem?, ← within.length_eq]
  simpa only [List.getD_eq_getElem?_getD] using last

theorem forall₂_raiseFrom (within : List.Forall₂ IsWithin slots others)
    (ascending : AreAscending slots) (otherAscending : AreAscending others)
    (reaches : 0 < reach → reach ≤ further) (rank : Nat) :
    List.Forall₂ IsWithin (raiseFrom rank reach slots) (raiseFrom rank further others) := by
  rw [ascending.raiseFrom_eq fun _ _ => MaxesLawfully.le_self_of_lt,
    otherAscending.raiseFrom_eq fun _ _ => MaxesLawfully.le_self_of_lt]
  apply List.rel_append (List.forall₂_take rank within)
  rw [List.forall₂_map_left_iff, List.forall₂_map_right_iff]
  exact (List.forall₂_drop rank within).imp fun _ _ first => first.raised reaches

end Slots

namespace Sweep

/-- Two sweeps, of which the first has its slots and the blocks it has met no further out. -/
structure Trails (met : List BlockRef) (first second : Sweep α) : Prop where
  slots : List.Forall₂ IsWithin first.slots second.slots
  start : ∀ ref ∈ met, first.start ref ≤ second.start ref

variable {extents larger coordinates others : List α} {sequence negative met : List BlockRef}
  {first second : Sweep α} {ref : BlockRef}

/-- Extents that are no numbers raise no slot, so it is enough to compare the others. -/
def AreSmaller (extents larger : List α) : Prop :=
  List.Forall₂ (fun extent other => extent ≤ extent → extent ≤ other) extents larger

variable [RoundsMonotonically α]

theorem Trails.place (trails : Trails met first second) (smaller : AreSmaller extents larger)
    (ascending : AreAscending first.slots) (alsoAscending : AreAscending second.slots)
    (length : first.coordinates.length = extents.length)
    (alsoLength : second.coordinates.length = larger.length) (bound : ref.index < extents.length) :
    Trails (met ++ [ref]) (Sweep.place extents negative first ref)
      (Sweep.place larger negative second ref) := by
  have alsoBound : ref.index < larger.length := smaller.length_eq ▸ bound
  have slot := getD_isWithin trails.slots (rank negative ref)
  constructor
  · rw [slots_place, slots_place, List.getElem?_eq_getElem bound,
      List.getElem?_eq_getElem alsoBound]
    apply forall₂_raiseFrom trails.slots ascending alsoAscending
    intro positive
    have compares := RoundsMonotonically.le_self_of_pos_add positive
    exact RoundsMonotonically.add_le_add slot.2 (smaller.get bound alsoBound compares) positive
  · have here : (Sweep.place extents negative first ref).start ref ≤
        (Sweep.place larger negative second ref).start ref := by
      rw [start_place_self length bound, start_place_self alsoLength alsoBound]
      exact slot.2
    rw [List.forall_mem_append, List.forall_mem_singleton]
    refine ⟨fun other member => ?_, here⟩
    by_cases same : other = ref
    · rw [same]
      exact here
    · rw [start_place_of_ne same, start_place_of_ne same]
      exact trails.start other member

theorem trails_run (smaller : AreSmaller extents larger)
    (length : coordinates.length = extents.length) (alsoLength : others.length = larger.length)
    (bounds : ∀ ref ∈ sequence, ref.index < extents.length) :
    Trails sequence (run extents coordinates sequence negative)
      (run larger others sequence negative) := by
  induction sequence using List.reverseRecOn with
  | nil =>
      refine ⟨?_, nofun⟩
      rw [run, run, smaller.length_eq]
      exact List.forall₂_same.mpr fun slot member =>
        List.eq_of_mem_replicate member ▸ isWithin_zero
  | append_singleton met ref induction =>
      rw [List.forall_mem_append, List.forall_mem_singleton] at bounds
      have trails := induction bounds.1
      have ascending := ascending_run extents coordinates met negative
      have alsoAscending := ascending_run larger others met negative
      rw [run] at trails ascending ⊢
      rw [run] at trails alsoAscending ⊢
      rw [List.foldl_concat, List.foldl_concat]
      apply trails.place smaller ascending alsoAscending _ _ bounds.2
      · rw [length_coordinates_foldl, length]
      · rw [length_coordinates_foldl, alsoLength]

end Sweep

end Packing

open Packing

variable {blocks others : List (Block α)} {pair : SequencePair}

def NoLarger (blocks others : List (Block α)) : Prop :=
  List.Forall₂ (fun block other => ∀ axis,
    block.extent axis ≤ block.extent axis → block.extent axis ≤ other.extent axis) blocks others

theorem low_eq_start {ref : BlockRef} {block : Block α}
    (found : (pack blocks pair).1[ref.index]? = some block) (axis : Axis) :
    block.low axis = (sweep blocks pair axis).start ref := by
  rw [getElem?_pack] at found
  obtain ⟨original, _, rfl⟩ := Option.map_eq_some_iff.mp found
  cases axis <;> rfl

namespace NoLarger

variable (smaller : NoLarger blocks others)

include smaller

theorem areSmaller (axis : Axis) :
    Sweep.AreSmaller (blocks.map (·.extent axis)) (others.map (·.extent axis)) := by
  rw [Sweep.AreSmaller, List.forall₂_map_left_iff, List.forall₂_map_right_iff]
  exact smaller.imp fun _ _ extents => extents axis

variable [RoundsMonotonically α] (valid : pair.isValid blocks.length = true)

include valid

theorem trails_sweep (axis : Axis) :
    (sweep blocks pair axis).Trails (pair.order axis) (sweep others pair axis) := by
  apply Sweep.trails_run (smaller.areSmaller axis) (by simp) (by simp)
  intro ref member
  rw [List.length_map]
  exact (SequencePair.order_enumerates valid axis).mem_iff.mp member

theorem along_pack_isWithin (axis : Axis) :
    IsWithin ((pack blocks pair).2.along axis) ((pack others pair).2.along axis) := by
  rw [along_pack, along_pack]
  exact getLastD_isWithin (smaller.trails_sweep valid axis).slots

theorem forall₂_low_pack_le :
    List.Forall₂ (fun block other => ∀ axis, block.low axis ≤ other.low axis)
      (pack blocks pair).1 (pack others pair).1 := by
  rw [List.forall₂_iff_get]
  refine ⟨by simp [smaller.length_eq], fun index bound otherBound axis => ?_⟩
  obtain ⟨ref, member, rfl⟩ :=
    (SequencePair.order_enumerates valid axis).exists_ref (by simpa using bound)
  rw [List.get_eq_getElem, List.get_eq_getElem,
    low_eq_start (List.getElem?_eq_getElem bound) axis,
    low_eq_start (List.getElem?_eq_getElem otherBound) axis]
  exact (smaller.trails_sweep valid axis).start ref member

end NoLarger

end Floorplanner
