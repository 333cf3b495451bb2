import Mathlib
import Floorplanner.Proofs.Packing.Places

/-!
Packing blocks under other references.

A block is packed by where it stands in the two orders and not by what it is called. If the blocks
are listed in another order, and both sequences refer to them where they now are, every slot holds
the same reach after every block, and each block comes to its old place. This holds on any numbers,
rounded ones included.
-/

namespace Floorplanner

variable {α : Type}

def SequencePair.rename (rename : BlockRef → BlockRef) (pair : SequencePair) : SequencePair :=
  ⟨pair.positive.map rename, pair.negative.map rename⟩

theorem SequencePair.order_rename (rename : BlockRef → BlockRef) (pair : SequencePair)
    (axis : Axis) : (pair.rename rename).order axis = (pair.order axis).map rename := by
  cases axis with
  | x => rfl
  | y => exact List.map_reverse.symm

namespace Packing

theorem rank_map {rename : BlockRef → BlockRef} (injective : Function.Injective rename)
    (negative : List BlockRef) (ref : BlockRef) :
    rank (negative.map rename) (rename ref) = rank negative ref := by
  have same : ((· == rename ref) ∘ rename : BlockRef → Bool) = (· == ref) :=
    funext fun other => beq_eq_beq.mpr injective.eq_iff
  rw [rank, rank, ← List.map_reverse, List.length_map, List.idxOf, List.idxOf, List.findIdx_map,
    same]

namespace Sweep

variable [Number α] {rename : BlockRef → BlockRef} {extents others : List α} {ref : BlockRef}
  {sequence negative : List BlockRef} {sweep moved : Sweep α}

/-- Two sweeps that are as far and hold the same coordinates but for the blocks still to come. -/
structure Renames (rename : BlockRef → BlockRef) (extents others : List α)
    (rest : List BlockRef) (sweep moved : Sweep α) : Prop where
  length : sweep.coordinates.length = extents.length
  otherLength : moved.coordinates.length = others.length
  slots : moved.slots = sweep.slots
  coordinates : ∀ ref, ref ∉ rest →
    moved.coordinates[(rename ref).index]? = sweep.coordinates[ref.index]?

variable (injective : Function.Injective rename)
  (renamed : ∀ ref : BlockRef, others[(rename ref).index]? = extents[ref.index]?)

include injective renamed

theorem Renames.place (renames : Renames rename extents others (ref :: sequence) sweep moved) :
    Renames rename extents others sequence (place extents negative sweep ref)
      (place others (negative.map rename) moved (rename ref)) where
  length := by rw [length_coordinates_place, renames.length]
  otherLength := by rw [length_coordinates_place, renames.otherLength]
  slots := by rw [slots_place, slots_place, renamed, rank_map injective, renames.slots]
  coordinates other later := by
    by_cases same : other = ref
    · subst same
      rw [coordinates_place_self _ _ renames.otherLength, coordinates_place_self _ _ renames.length,
        renamed, rank_map injective, renames.slots]
    · have apart : ref.index ≠ other.index := fun equality =>
        same (Entity.Ref.index_injective equality).symm
      have stillApart : (rename ref).index ≠ (rename other).index := fun equality =>
        same (injective (Entity.Ref.index_injective equality)).symm
      rw [coordinates_place_of_ne _ stillApart, coordinates_place_of_ne _ apart]
      refine renames.coordinates other fun member => ?_
      rcases List.mem_cons.mp member with isRef | member
      · exact same isRef
      · exact later member

theorem Renames.foldl (renames : Renames rename extents others sequence sweep moved) :
    Renames rename extents others [] (sequence.foldl (Sweep.place extents negative) sweep)
      ((sequence.map rename).foldl (Sweep.place others (negative.map rename)) moved) := by
  induction sequence generalizing sweep moved with
  | nil => exact renames
  | cons ref rest induction => exact induction (renames.place injective renamed)

end Sweep

end Packing

open Packing

variable {blocks others : List (Block α)} {pair : SequencePair} {rename : BlockRef → BlockRef}

/-- Blocks in another order, each with its extents. Those that the pair leaves out keep their places. -/
structure SweepsAlike (rename : BlockRef → BlockRef) (pair : SequencePair)
    (blocks others : List (Block α)) : Prop where
  injective : Function.Injective rename
  length : others.length = blocks.length
  extents : ∀ (axis : Axis) (ref : BlockRef),
    others[(rename ref).index]?.map (·.extent axis) = blocks[ref.index]?.map (·.extent axis)
  outside : ∀ (axis : Axis), ∀ ref ∉ pair.positive,
    others[(rename ref).index]?.map (·.low axis) = blocks[ref.index]?.map (·.low axis)

/-- Two blocks of the same extents are interchangeable to packing. -/
theorem sweepsAlike_swap {a b : BlockRef} (valid : pair.isValid blocks.length = true)
    (ha : a.index < blocks.length) (hb : b.index < blocks.length)
    (same : ∀ axis, blocks[a.index].extent axis = blocks[b.index].extent axis) :
    SweepsAlike (Equiv.swap a b) pair blocks blocks where
  injective := (Equiv.swap a b).injective
  length := rfl
  extents axis ref := by
    rw [Equiv.swap_apply_def]
    split
    next isFirst => simp [isFirst, ha, hb, same]
    next =>
      split
      next isSecond => simp [isSecond, ha, hb, same]
      next => rfl
  outside axis ref outside := by
    have positive := (SequencePair.isValid_iff_enumerates.mp valid).1
    have notFirst : ref ≠ a := fun isFirst => outside (isFirst ▸ positive.mem_iff.mpr ha)
    have notSecond : ref ≠ b := fun isSecond => outside (isSecond ▸ positive.mem_iff.mpr hb)
    rw [Equiv.swap_apply_of_ne_of_ne notFirst notSecond]

variable [Number α]

theorem map_low_getElem?_pack (blocks : List (Block α)) (pair : SequencePair) (axis : Axis)
    (index : Nat) : (pack blocks pair).1[index]?.map (·.low axis) =
      (sweep blocks pair axis).coordinates[index]? := by
  rw [getElem?_pack, Option.map_map]
  by_cases bound : index < blocks.length
  · cases axis <;> simp [bound, Block.moveTo, Block.low]
  · simp [bound]

namespace SweepsAlike

variable (alike : SweepsAlike rename pair blocks others)

include alike

theorem renames (axis : Axis) :
    Sweep.Renames rename (blocks.map (·.extent axis)) (others.map (·.extent axis)) []
      (sweep blocks pair axis) (sweep others (pair.rename rename) axis) := by
  have renamed : ∀ ref : BlockRef, (others.map (·.extent axis))[(rename ref).index]? =
      (blocks.map (·.extent axis))[ref.index]? := by
    simpa only [List.getElem?_map] using alike.extents axis
  rw [sweep, sweep, Sweep.run, Sweep.run, SequencePair.order_rename]
  apply Sweep.Renames.foldl alike.injective renamed
  constructor
  · simp
  · simp
  · simp [alike.length]
  · intro ref outside
    rw [SequencePair.mem_order] at outside
    simpa only [List.getElem?_map] using alike.outside axis ref outside

theorem size_eq : (pack others (pair.rename rename)).2 = (pack blocks pair).2 := by
  simp only [pack_eq_sweep, Sweep.reach, (alike.renames _).slots]

theorem coordinates_eq (axis : Axis) (ref : BlockRef) :
    (sweep others (pair.rename rename) axis).coordinates[(rename ref).index]? =
      (sweep blocks pair axis).coordinates[ref.index]? :=
  (alike.renames axis).coordinates ref List.not_mem_nil

theorem low_eq (axis : Axis) (ref : BlockRef) :
    (pack others (pair.rename rename)).1[(rename ref).index]?.map (·.low axis) =
      (pack blocks pair).1[ref.index]?.map (·.low axis) := by
  rw [map_low_getElem?_pack, map_low_getElem?_pack, alike.coordinates_eq]

theorem getElem?_eq {ref : BlockRef} (same : others[(rename ref).index]? = blocks[ref.index]?) :
    (pack others (pair.rename rename)).1[(rename ref).index]? =
      (pack blocks pair).1[ref.index]? := by
  simp only [getElem?_pack, same, List.getD_eq_getElem?_getD, alike.coordinates_eq]

end SweepsAlike

/-- Blocks in another order are packed in that order. -/
theorem pack_rename (injective : Function.Injective rename)
    (length : others.length = blocks.length)
    (renamed : ∀ ref : BlockRef, others[(rename ref).index]? = blocks[ref.index]?) :
    (pack others (pair.rename rename)).2 = (pack blocks pair).2 ∧
      ∀ ref : BlockRef, (pack others (pair.rename rename)).1[(rename ref).index]? =
        (pack blocks pair).1[ref.index]? := by
  have alike : SweepsAlike rename pair blocks others :=
    ⟨injective, length, fun _ ref => by rw [renamed ref], fun _ ref _ => by rw [renamed ref]⟩
  exact ⟨alike.size_eq, fun ref => alike.getElem?_eq (renamed ref)⟩

end Floorplanner
