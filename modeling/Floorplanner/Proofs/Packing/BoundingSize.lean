import Mathlib
import Floorplanner.Plan
import Floorplanner.Proofs.Outward
import Floorplanner.Proofs.Packing.Reach

/-!
The size of a packed layout, measured twice.

The last slot of a sweep is how far its blocks reach, and so is the largest end of the blocks in their
places. Both are the same number, on rounded numbers too: each is the last of the same sums, and these
lie outward, where there is but one last.
-/

namespace Floorplanner

open Number

variable {α : Type} [Number α]

/-- The last of some ends, which lie outward, and of zero, where the outline begins. -/
structure IsLast (ends : Set α) (reach : α) : Prop where
  outward : ∀ stop ∈ ends, IsOutward stop
  mem : reach = 0 ∨ reach ∈ ends
  le : ∀ stop ∈ ends, stop ≤ reach

namespace IsLast

variable {ends : Set α} {reach other stop : α}

theorem empty : IsLast (∅ : Set α) 0 := ⟨nofun, .inl rfl, nofun⟩

theorem reach_outward (last : IsLast ends reach) : IsOutward reach := by
  rcases last.mem with rfl | member
  · exact isOutward_zero
  · exact last.outward reach member

variable [AddsOutward α]

theorem insert (last : IsLast ends reach) (outward : IsOutward stop) :
    IsLast (Insert.insert stop ends) (max reach stop) where
  outward := Set.forall_mem_insert.mpr ⟨outward, last.outward⟩
  mem := by
    rw [AddsOutward.max_eq last.reach_outward outward]
    split
    · exact .inr (Set.mem_insert stop ends)
    · exact last.mem.imp_right (Set.mem_insert_of_mem stop)
  le := by
    have here := last.reach_outward
    rintro later (rfl | member)
    · exact here.le_max_right outward
    · exact ComparesLawfully.le_trans (last.le later member) (here.le_max_left outward)

theorem le_of_isLast (last : IsLast ends reach) (further : IsLast ends other) : reach ≤ other := by
  rcases last.mem with rfl | member
  · exact further.reach_outward.nonneg
  · exact further.le reach member

theorem unique (last : IsLast ends reach) (further : IsLast ends other) : reach = other :=
  AddsOutward.antisymm last.reach_outward further.reach_outward (last.le_of_isLast further)
    (further.le_of_isLast last)

end IsLast

namespace Packing

structure AreSlots (slots : List α) : Prop where
  outward : ∀ slot ∈ slots, IsOutward slot
  sorted : slots.Pairwise (· ≤ ·)

theorem AreSlots.replicate [AddsOutward α] (count : Nat) :
    AreSlots (List.replicate count (0 : α)) where
  outward _ member := .inl (List.eq_of_mem_replicate member)
  sorted := List.pairwise_replicate.mpr (.inr isOutward_zero.nonneg)

section Slots

variable [AddsOutward α] {slots : List α} {reach : α}

theorem AreSlots.ascending (areSlots : AreSlots slots) : AreAscending slots where
  le_self slot member := AddsOutward.le_self (areSlots.outward slot member)
  sorted := areSlots.sorted

theorem AreSlots.raiseFrom_eq (areSlots : AreSlots slots) (outward : IsOutward reach)
    (rank : Nat) :
    raiseFrom rank reach slots = slots.take rank ++ (slots.drop rank).map (max · reach) := by
  rw [areSlots.ascending.raiseFrom_eq fun _ _ _ => AddsOutward.le_self outward]
  congr 1
  apply List.map_congr_left
  intro slot member
  rw [raised, AddsOutward.max_eq (areSlots.outward slot (List.mem_of_mem_drop member)) outward]

theorem AreSlots.raiseFrom (areSlots : AreSlots slots) (outward : IsOutward reach) (rank : Nat) :
    AreSlots (Packing.raiseFrom rank reach slots) where
  outward := by
    rw [areSlots.raiseFrom_eq outward, List.forall_mem_append, List.forall_mem_map]
    constructor
    · exact fun slot member => areSlots.outward slot (List.mem_of_mem_take member)
    · exact fun slot member => (areSlots.outward slot (List.mem_of_mem_drop member)).max outward
  sorted := (areSlots.ascending.raiseFrom (fun _ _ _ => AddsOutward.le_self outward) rank).sorted

theorem AreSlots.getLastD_raiseFrom (areSlots : AreSlots slots) (outward : IsOutward reach)
    {rank : Nat} (bound : rank < slots.length) :
    (Packing.raiseFrom rank reach slots).getLastD 0 = max (slots.getLastD 0) reach := by
  obtain ⟨last, found⟩ : ∃ last, slots.getLast? = some last :=
    ⟨_, List.getLast?_eq_some_getLast (List.ne_nil_of_length_pos (Nat.zero_lt_of_lt bound))⟩
  rw [areSlots.raiseFrom_eq outward, List.getLastD_eq_getLast?, List.getLastD_eq_getLast?,
    List.getLast?_append, List.getLast?_map, List.getLast?_drop, if_neg bound.not_ge, found]
  rfl

end Slots

namespace Sweep

def ends (extents : List α) (met : List BlockRef) (sweep : Sweep α) : Set α :=
  {stop | ∃ ref ∈ met, sweep.finish extents ref = stop}

/-- What a sweep knows after some blocks: its last slot is the last of their ends. -/
structure Measures (extents : List α) (met : List BlockRef) (sweep : Sweep α) : Prop where
  length_slots : sweep.slots.length = extents.length
  length_coordinates : sweep.coordinates.length = extents.length
  areSlots : AreSlots sweep.slots
  last : IsLast (sweep.ends extents met) sweep.reach

variable {extents coordinates : List α} {sequence negative met : List BlockRef} {sweep : Sweep α}
  {ref other : BlockRef}

theorem finish_place_self (length : sweep.coordinates.length = extents.length)
    (bound : ref.index < extents.length) :
    (place extents negative sweep ref).finish extents ref =
      sweep.slots.getD (rank negative ref) 0 + extents.getD ref.index 0 := by
  rw [finish, start_place_self length bound]

theorem ends_place (length : sweep.coordinates.length = extents.length)
    (bound : ref.index < extents.length) (fresh : ref ∉ met) :
    (place extents negative sweep ref).ends extents (met ++ [ref]) =
      insert (sweep.slots.getD (rank negative ref) 0 + extents.getD ref.index 0)
        (sweep.ends extents met) := by
  have others : ∀ other ∈ met, (place extents negative sweep ref).finish extents other =
      sweep.finish extents other :=
    fun other member => finish_place_of_ne (ne_of_mem_of_not_mem member fresh)
  ext stop
  simp only [ends, List.mem_append, List.mem_singleton, Set.mem_ofPred_eq, Set.mem_insert_iff,
    or_and_right, exists_or, exists_eq_left, finish_place_self length bound]
  rw [or_comm, eq_comm]
  apply or_congr_right
  exact exists_congr fun other => and_congr_right fun member => by rw [others other member]

variable [AddsOutward α]

theorem measures_nil (length : coordinates.length = extents.length) :
    Measures extents [] ⟨List.replicate extents.length 0, coordinates⟩ where
  length_slots := List.length_replicate
  length_coordinates := length
  areSlots := .replicate _
  last := by
    have none : ends extents [] ⟨List.replicate extents.length 0, coordinates⟩ = ∅ := by
      simp [ends]
    have zero : reach ⟨List.replicate extents.length 0, coordinates⟩ = 0 := by
      rw [reach, List.getLastD_eq_getLast?, List.getLast?_replicate]
      split <;> rfl
    rw [none, zero]
    exact .empty

theorem Measures.place (measures : Measures extents met sweep)
    (order : SequencePair.Enumerates negative extents.length) (fresh : ref ∉ met)
    (bound : ref.index < extents.length) (nonneg : ∀ extent ∈ extents, 0 ≤ extent) :
    Measures extents (met ++ [ref]) (Sweep.place extents negative sweep ref) := by
  have ranked : rank negative ref < sweep.slots.length := by
    rw [measures.length_slots]
    exact rank_lt order bound
  have start : IsOutward (sweep.slots.getD (rank negative ref) 0) := by
    rw [List.getD_eq_getElem _ _ ranked]
    exact measures.areSlots.outward _ (List.getElem_mem ranked)
  have stop : IsOutward (sweep.slots.getD (rank negative ref) 0 + extents.getD ref.index 0) := by
    apply AddsOutward.add start
    rw [List.getD_eq_getElem _ _ bound]
    exact nonneg _ (List.getElem_mem bound)
  have known : extents[ref.index]? = some (extents.getD ref.index 0) := by simp [bound]
  have raised : (Sweep.place extents negative sweep ref).slots = raiseFrom (rank negative ref)
      (sweep.slots.getD (rank negative ref) 0 + extents.getD ref.index 0) sweep.slots := by
    rw [slots_place, known, Option.elim_some]
  constructor
  · rw [length_slots_place, measures.length_slots]
  · rw [length_coordinates_place, measures.length_coordinates]
  · rw [raised]
    exact measures.areSlots.raiseFrom stop _
  · rw [ends_place measures.length_coordinates bound fresh, reach, raised,
      measures.areSlots.getLastD_raiseFrom stop ranked]
    exact measures.last.insert stop

theorem measures_run (first : SequencePair.Enumerates sequence extents.length)
    (second : SequencePair.Enumerates negative extents.length)
    (length : coordinates.length = extents.length) (nonneg : ∀ extent ∈ extents, 0 ≤ extent) :
    Measures extents sequence (run extents coordinates sequence negative) := by
  have nodup := first.nodup
  have bounds : ∀ ref ∈ sequence, ref.index < extents.length := fun _ => first.mem_iff.mp
  clear first
  rw [run]
  induction sequence using List.reverseRecOn with
  | nil => exact measures_nil length
  | append_singleton met ref induction =>
      obtain ⟨nodup, -, fresh⟩ := List.nodup_append.mp nodup
      rw [List.foldl_concat]
      refine (induction nodup fun other member => bounds other (by simp [member])).place second ?_
        (bounds ref (by simp)) nonneg
      exact fun member => fresh ref member ref (List.mem_singleton_self ref) rfl

end Sweep

end Packing

open Packing

namespace Block

def ends (blocks : List (Block α)) (axis : Axis) : Set α :=
  {stop | ∃ block ∈ blocks, (block.footprint.span axis).high = stop}

theorem ends_concat (blocks : List (Block α)) (block : Block α) (axis : Axis) :
    ends (blocks ++ [block]) axis =
      insert (block.footprint.span axis).high (ends blocks axis) := by
  ext stop
  simp only [ends, List.mem_append, List.mem_singleton, Set.mem_ofPred_eq, Set.mem_insert_iff,
    or_and_right, exists_or, exists_eq_left]
  rw [or_comm, eq_comm]

end Block

theorem Plan.along_boundingSize_concat (blocks : List (Block α)) (block : Block α) (axis : Axis) :
    (boundingSize (blocks ++ [block])).along axis =
      max ((boundingSize blocks).along axis) (block.footprint.span axis).high := by
  rw [boundingSize, List.foldl_concat]
  cases axis <;> rfl

variable {blocks : List (Block α)} {pair : SequencePair}

/-- The blocks that packing places end where its sweep had them end. -/
theorem ends_pack (valid : pair.isValid blocks.length = true) (axis : Axis) :
    Block.ends (pack blocks pair).1 axis =
      (sweep blocks pair axis).ends (blocks.map (·.extent axis)) (pair.order axis) := by
  have order := SequencePair.order_enumerates valid axis
  have placed {index : Nat} {block : Block α} (found : (pack blocks pair).1[index]? = some block) :
      (block.footprint.span axis).high =
        (sweep blocks pair axis).coordinates.getD index 0 +
          (blocks.map (·.extent axis)).getD index 0 := by
    rw [getElem?_pack] at found
    obtain ⟨original, known, rfl⟩ := Option.map_eq_some_iff.mp found
    simp only [List.getD_eq_getElem?_getD, List.getElem?_map, known]
    cases axis <;> rfl
  ext stop
  constructor
  · rintro ⟨block, member, rfl⟩
    obtain ⟨index, bound, found⟩ := List.mem_iff_getElem.mp member
    rw [length_pack] at bound
    obtain ⟨ref, refMember, rfl⟩ := order.exists_ref bound
    exact ⟨ref, refMember, (placed (List.getElem?_eq_some_iff.mpr ⟨_, found⟩)).symm⟩
  · rintro ⟨ref, member, rfl⟩
    have bound : ref.index < (pack blocks pair).1.length := by
      rw [length_pack]
      exact order.mem_iff.mp member
    exact ⟨_, List.getElem_mem bound, placed (List.getElem?_eq_getElem bound)⟩

variable [AddsOutward α]

theorem isLast_boundingSize {axis : Axis} (outward : ∀ stop ∈ Block.ends blocks axis, IsOutward stop) :
    IsLast (Block.ends blocks axis) ((Plan.boundingSize blocks).along axis) := by
  induction blocks using List.reverseRecOn with
  | nil =>
      have none : Block.ends ([] : List (Block α)) axis = ∅ := by simp [Block.ends]
      rw [none]
      cases axis <;> exact .empty
  | append_singleton blocks block induction =>
      rw [Block.ends_concat, Set.forall_mem_insert] at outward
      rw [Block.ends_concat, Plan.along_boundingSize_concat]
      exact (induction outward.2).insert outward.1

theorem measures_sweep (valid : pair.isValid blocks.length = true) {axis : Axis}
    (nonneg : ∀ block ∈ blocks, 0 ≤ block.extent axis) :
    (sweep blocks pair axis).Measures (blocks.map (·.extent axis)) (pair.order axis) := by
  apply Sweep.measures_run
  · simpa using SequencePair.order_enumerates valid axis
  · simpa using SequencePair.negative_enumerates valid
  · simp
  · exact List.forall_mem_map.mpr nonneg

/-- The size of packed blocks is the one that packing says, if no extent is negative. -/
theorem boundingSize_pack (valid : pair.isValid blocks.length = true)
    (nonneg : ∀ block ∈ blocks, ∀ axis, 0 ≤ block.extent axis) :
    Plan.boundingSize (pack blocks pair).1 = (pack blocks pair).2 := by
  have along (axis : Axis) : (Plan.boundingSize (pack blocks pair).1).along axis =
      (sweep blocks pair axis).reach := by
    have last := (measures_sweep valid fun block member => nonneg block member axis).last
    rw [← ends_pack valid] at last
    exact (isLast_boundingSize last.outward).unique last
  rw [pack_eq_sweep blocks pair]
  exact congrArg₂ Size.mk (along .x) (along .y)

end Floorplanner
