import Floorplanner.Packing
import Floorplanner.Proofs.SequencePair.Order

/-!
What packing changes.

Packing moves the blocks that the pair holds and keeps everything else. Where it moves them depends
on their shapes and their orders alone, on any numbers, rounded ones included: blocks that differ in
those places only are packed alike, and packing twice is packing once.
-/

namespace Floorplanner

variable {α : Type}

namespace Block

def low (block : Block α) : Axis → α
  | .x => block.x
  | .y => block.y

def extent (block : Block α) : Axis → α
  | .x => block.width
  | .y => block.height

@[simp] theorem extent_moveTo (block : Block α) (x y : α) (axis : Axis) :
    (block.moveTo x y).extent axis = block.extent axis := by
  cases axis <;> rfl

@[simp] theorem moveTo_self (block : Block α) : block.moveTo block.x block.y = block := rfl

def atOrigin [Number α] (block : Block α) : Block α := block.moveTo 0 0

end Block

namespace Packing

variable [Number α]

@[simp] theorem length_raise (reach : α) (slots : List α) :
    (raise reach slots).length = slots.length := by
  induction slots with
  | nil => rfl
  | cons slot rest induction =>
      rw [raise]
      split
      · rw [List.length_cons, induction, List.length_cons]
      · rfl

@[simp] theorem length_raiseFrom (rank : Nat) (reach : α) (slots : List α) :
    (raiseFrom rank reach slots).length = slots.length := by
  simp only [raiseFrom, List.length_append, List.length_take, length_raise, List.length_drop]
  omega

namespace Sweep

variable {extents : List α} {sequence negative : List BlockRef}

@[simp] theorem length_slots_place (sweep : Sweep α) (ref : BlockRef) :
    (place extents negative sweep ref).slots.length = sweep.slots.length := by
  rw [place]
  split <;> simp

@[simp] theorem length_coordinates_place (sweep : Sweep α) (ref : BlockRef) :
    (place extents negative sweep ref).coordinates.length = sweep.coordinates.length := by
  rw [place]
  split <;> simp

theorem slots_place (sweep : Sweep α) (ref : BlockRef) :
    (place extents negative sweep ref).slots =
      extents[ref.index]?.elim sweep.slots fun extent =>
        raiseFrom (rank negative ref) (sweep.slots.getD (rank negative ref) 0 + extent)
          sweep.slots := by
  rw [place]
  split <;> simp_all

theorem coordinates_place_self (sweep : Sweep α) (ref : BlockRef)
    (length : sweep.coordinates.length = extents.length) :
    (place extents negative sweep ref).coordinates[ref.index]? =
      extents[ref.index]?.map fun _ => sweep.slots.getD (rank negative ref) 0 := by
  rw [place]
  cases known : extents[ref.index]? with
  | none => simpa [length] using known
  | some extent =>
      have bound : ref.index < sweep.coordinates.length := by
        rw [length]
        exact (List.getElem?_eq_some_iff.mp known).1
      simp [bound]

theorem coordinates_place_of_ne (sweep : Sweep α) {ref : BlockRef} {index : Nat}
    (different : ref.index ≠ index) :
    (place extents negative sweep ref).coordinates[index]? = sweep.coordinates[index]? := by
  rw [place]
  split
  · rfl
  · exact List.getElem?_set_ne different

def start (sweep : Sweep α) (ref : BlockRef) : α := sweep.coordinates.getD ref.index 0

def finish (extents : List α) (sweep : Sweep α) (ref : BlockRef) : α :=
  sweep.start ref + extents.getD ref.index 0

variable {sweep : Sweep α} {ref other : BlockRef}

theorem start_place_self (length : sweep.coordinates.length = extents.length)
    (bound : ref.index < extents.length) :
    (place extents negative sweep ref).start ref = sweep.slots.getD (rank negative ref) 0 := by
  rw [start, List.getD_eq_getElem?_getD, coordinates_place_self sweep ref length]
  simp [bound]

theorem start_place_of_ne (different : other ≠ ref) :
    (place extents negative sweep ref).start other = sweep.start other := by
  have indices : ref.index ≠ other.index := fun equality =>
    different (Entity.Ref.index_injective equality).symm
  rw [start, start, List.getD_eq_getElem?_getD, List.getD_eq_getElem?_getD,
    coordinates_place_of_ne sweep indices]

theorem finish_place_of_ne (different : other ≠ ref) :
    (place extents negative sweep ref).finish extents other = sweep.finish extents other := by
  rw [finish, finish, start_place_of_ne different]

@[simp] theorem length_coordinates_foldl (sweep : Sweep α) :
    (sequence.foldl (place extents negative) sweep).coordinates.length =
      sweep.coordinates.length := by
  induction sequence generalizing sweep with
  | nil => rfl
  | cons ref rest induction => rw [List.foldl_cons, induction, length_coordinates_place]

theorem coordinates_foldl_of_ne {index : Nat} (sweep : Sweep α)
    (different : ∀ ref ∈ sequence, ref.index ≠ index) :
    (sequence.foldl (place extents negative) sweep).coordinates[index]? =
      sweep.coordinates[index]? := by
  induction sequence generalizing sweep with
  | nil => rfl
  | cons ref rest induction =>
      rw [List.foldl_cons, induction _ fun other member => different other (.tail ref member)]
      exact coordinates_place_of_ne sweep (different ref List.mem_cons_self)

/-- A sweep forgets the coordinates that it begins with at the blocks that it meets. -/
theorem foldl_congr {first second : Sweep α} (slots : first.slots = second.slots)
    (firstLength : first.coordinates.length = extents.length)
    (secondLength : second.coordinates.length = extents.length)
    (agree : ∀ index, (∀ ref ∈ sequence, ref.index ≠ index) →
      first.coordinates[index]? = second.coordinates[index]?) :
    sequence.foldl (place extents negative) first =
      sequence.foldl (place extents negative) second := by
  induction sequence generalizing first second with
  | nil =>
      have coordinates : first.coordinates = second.coordinates :=
        List.ext_getElem? fun index => agree index nofun
      obtain ⟨firstSlots, firstCoordinates⟩ := first
      cases slots
      cases coordinates
      rfl
  | cons ref rest induction =>
      rw [List.foldl_cons, List.foldl_cons]
      apply induction
      · rw [slots_place, slots_place, slots]
      · rw [length_coordinates_place, firstLength]
      · rw [length_coordinates_place, secondLength]
      · intro index untouched
        by_cases same : ref.index = index
        · subst same
          rw [coordinates_place_self first ref firstLength,
            coordinates_place_self second ref secondLength, slots]
        · rw [coordinates_place_of_ne first same, coordinates_place_of_ne second same]
          refine agree index fun other member => ?_
          rcases List.mem_cons.mp member with rfl | member
          · exact same
          · exact untouched other member

end Sweep

def sweep (blocks : List (Block α)) (pair : SequencePair) (axis : Axis) : Sweep α :=
  Sweep.run (blocks.map (·.extent axis)) (blocks.map (·.low axis)) (pair.order axis) pair.negative

end Packing

open Packing

variable [Number α] {blocks others : List (Block α)} {pair : SequencePair}

theorem pack_eq_sweep (blocks : List (Block α)) (pair : SequencePair) :
    pack blocks pair =
      (List.zipWith (fun block (corner : α × α) => block.moveTo corner.1 corner.2) blocks
          ((sweep blocks pair .x).coordinates.zip (sweep blocks pair .y).coordinates),
        ⟨(sweep blocks pair .x).reach, (sweep blocks pair .y).reach⟩) := rfl

theorem along_pack (blocks : List (Block α)) (pair : SequencePair) (axis : Axis) :
    (pack blocks pair).2.along axis = (sweep blocks pair axis).reach := by
  cases axis <;> rfl

@[simp] theorem length_sweep (blocks : List (Block α)) (pair : SequencePair) (axis : Axis) :
    (sweep blocks pair axis).coordinates.length = blocks.length := by
  simp [sweep, Sweep.run]

/-- Every block keeps its position in the list and is moved to its coordinates. -/
theorem getElem?_pack (blocks : List (Block α)) (pair : SequencePair) (index : Nat) :
    (pack blocks pair).1[index]? = blocks[index]?.map fun block =>
      block.moveTo ((sweep blocks pair .x).coordinates.getD index 0)
        ((sweep blocks pair .y).coordinates.getD index 0) := by
  by_cases bound : index < blocks.length
  · simp [pack_eq_sweep, bound]
  · simp [pack_eq_sweep, bound]

@[simp] theorem length_pack (blocks : List (Block α)) (pair : SequencePair) :
    (pack blocks pair).1.length = blocks.length := by
  simp [pack_eq_sweep]

/-- Two lists of blocks that differ at most in the places of the blocks that the pair holds. -/
structure SameButPlaces (pair : SequencePair) (blocks others : List (Block α)) : Prop where
  atOrigin : blocks.map (·.atOrigin) = others.map (·.atOrigin)
  outside : ∀ index, (∀ ref ∈ pair.positive, ref.index ≠ index) →
    blocks[index]? = others[index]?

theorem SameButPlaces.length (same : SameButPlaces pair blocks others) :
    blocks.length = others.length := by
  simpa using congrArg List.length same.atOrigin

theorem SameButPlaces.sweep_eq (same : SameButPlaces pair blocks others) (axis : Axis) :
    sweep blocks pair axis = sweep others pair axis := by
  have extents : blocks.map (·.extent axis) = others.map (·.extent axis) := by
    simpa [Block.atOrigin, Function.comp_def] using
      congrArg (List.map (·.extent axis)) same.atOrigin
  rw [sweep, sweep, Sweep.run, Sweep.run, extents]
  refine Sweep.foldl_congr rfl ?_ ?_ ?_
  · simp [same.length]
  · simp
  · intro index untouched
    have outside := same.outside index fun ref member => untouched ref (by simpa using member)
    rw [List.getElem?_map, List.getElem?_map, outside]

theorem getElem?_map_moveTo (blocks : List (Block α)) (index : Nat) (x y : α) :
    (blocks[index]?.map fun block => block.moveTo x y) =
      (blocks.map (·.atOrigin))[index]?.map fun block => block.moveTo x y := by
  rw [List.getElem?_map, Option.map_map]
  rfl

theorem pack_congr (same : SameButPlaces pair blocks others) :
    pack blocks pair = pack others pair := by
  have layouts : (pack blocks pair).1 = (pack others pair).1 := by
    apply List.ext_getElem?
    intro index
    rw [getElem?_pack, getElem?_pack, same.sweep_eq .x, same.sweep_eq .y,
      getElem?_map_moveTo blocks, getElem?_map_moveTo others, same.atOrigin]
  have sizes : (pack blocks pair).2 = (pack others pair).2 := by
    rw [pack_eq_sweep, pack_eq_sweep, same.sweep_eq .x, same.sweep_eq .y]
  exact Prod.ext layouts sizes

@[simp] theorem map_atOrigin_pack (blocks : List (Block α)) (pair : SequencePair) :
    (pack blocks pair).1.map (·.atOrigin) = blocks.map (·.atOrigin) := by
  apply List.ext_getElem?
  intro index
  rw [List.getElem?_map, getElem?_pack, Option.map_map, List.getElem?_map]
  rfl

theorem getElem?_pack_of_ne {index : Nat} (untouched : ∀ ref ∈ pair.positive, ref.index ≠ index) :
    (pack blocks pair).1[index]? = blocks[index]? := by
  have coordinates : ∀ axis,
      (sweep blocks pair axis).coordinates[index]? = (blocks.map (·.low axis))[index]? :=
    fun axis => Sweep.coordinates_foldl_of_ne _ fun ref member =>
      untouched ref (by simpa using member)
  rw [getElem?_pack]
  cases found : blocks[index]? with
  | none => rfl
  | some block =>
      simp only [List.getElem?_map, found] at coordinates
      simp [List.getD_eq_getElem?_getD, coordinates, Block.low]

/-- Packing by another pair of the same blocks changes nothing that packing looks at. -/
theorem sameButPlaces_pack {other : SequencePair}
    (members : ∀ ref ∈ other.positive, ref ∈ pair.positive) :
    SameButPlaces pair (pack blocks other).1 blocks where
  atOrigin := map_atOrigin_pack blocks other
  outside := fun _ untouched =>
    getElem?_pack_of_ne fun ref member => untouched ref (members ref member)

@[simp] theorem pack_pack (blocks : List (Block α)) (pair : SequencePair) :
    pack (pack blocks pair).1 pair = pack blocks pair :=
  pack_congr (sameButPlaces_pack fun _ member => member)

end Floorplanner
