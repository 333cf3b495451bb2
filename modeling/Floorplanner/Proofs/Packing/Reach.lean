import Mathlib
import Floorplanner.Proofs.ExactNumber
import Floorplanner.Proofs.Packing.Slots

/-!
How far the blocks of a packed layout reach.

A slot of a sweep holds how far the blocks reach that were met so far and stand at its position of
the negative sequence or before it. So a block is placed where the blocks that the pair sets before
it end, or at the edge if there are none, and the layout ends where the last of its blocks ends.
-/

namespace Floorplanner

namespace Packing

open SequencePair

variable {α : Type} [ExactNumber α]

/-- The greatest of the ends of some blocks, and of zero, where the outline begins. -/
def IsReach (finish : BlockRef → α) (blocks : Set BlockRef) (reach : α) : Prop :=
  IsGreatest (insert 0 (finish '' blocks)) reach

namespace IsReach

variable {finish other : BlockRef → α} {blocks more : Set BlockRef} {reach further : α}
  {ref : BlockRef}

theorem empty : IsReach finish ∅ 0 := by
  simp only [IsReach, Set.image_empty, insert_empty_eq, isGreatest_singleton]

theorem nonneg (isReach : IsReach finish blocks reach) : 0 ≤ reach :=
  isReach.2 (Set.mem_insert _ _)

theorem le_of_mem (isReach : IsReach finish blocks reach) (member : ref ∈ blocks) :
    finish ref ≤ reach :=
  isReach.2 (Set.mem_insert_of_mem _ (Set.mem_image_of_mem _ member))

theorem eq_zero_or_finish (isReach : IsReach finish blocks reach) :
    reach = 0 ∨ ∃ ref ∈ blocks, finish ref = reach :=
  isReach.1

theorem mono (isReach : IsReach finish blocks reach) (isFurther : IsReach finish more further)
    (subset : blocks ⊆ more) : reach ≤ further :=
  IsGreatest.mono isReach isFurther (Set.insert_subset_insert (Set.image_mono subset))

theorem insert (isReach : IsReach finish blocks reach) (ref : BlockRef) :
    IsReach finish (Insert.insert ref blocks) (max (finish ref) reach) := by
  rw [IsReach, Set.image_insert_eq, Set.insert_comm]
  exact IsGreatest.insert _ isReach

theorem congr (isReach : IsReach finish blocks reach)
    (ends : ∀ ref ∈ blocks, other ref = finish ref) : IsReach other blocks reach := by
  rwa [IsReach, Set.image_congr ends]

end IsReach

section Slots

variable {slots : List α}

theorem areAscending_of_sorted (sorted : slots.Pairwise (· ≤ ·)) : AreAscending slots :=
  ⟨fun _ _ => le_rfl, sorted⟩

theorem getElem?_raiseFrom (rank : Nat) (reach : α) (sorted : slots.Pairwise (· ≤ ·))
    (position : Nat) :
    (raiseFrom rank reach slots)[position]? =
      slots[position]?.map fun slot => if rank ≤ position then max slot reach else slot := by
  have ascending := (areAscending_of_sorted sorted).sublist (List.drop_sublist rank _)
  rw [raiseFrom, ascending.raise_eq_map_max]
  by_cases before : position < rank
  · have unraised : ¬ rank ≤ position := Nat.not_le.mpr before
    simp only [if_neg unraised, Option.map_id']
    by_cases bound : position < slots.length
    · rw [List.getElem?_append_left (by simp [before, bound]), List.getElem?_take_of_lt before]
    · have beyond := Nat.not_lt.mp bound
      rw [List.getElem?_eq_none beyond, List.getElem?_eq_none]
      simp only [List.length_append, List.length_take, List.length_map, List.length_drop]
      omega
  · have raised := Nat.not_lt.mp before
    simp only [if_pos raised]
    by_cases bound : rank ≤ slots.length
    · rw [List.getElem?_append_right (by simp [raised]), List.getElem?_map, List.getElem?_drop]
      simp only [List.length_take, Nat.min_eq_left bound, Nat.add_sub_cancel' raised]
    · have beyond : slots.length ≤ position := by omega
      rw [List.getElem?_eq_none beyond, List.getElem?_eq_none]
      · rfl
      · simp only [List.length_append, List.length_take, List.length_map, List.length_drop]
        omega

theorem nonneg_raise (reach : α) (nonneg : ∀ slot ∈ slots, 0 ≤ slot) :
    ∀ slot ∈ raise reach slots, 0 ≤ slot := by
  induction slots with
  | nil => exact nonneg
  | cons slot rest induction =>
      obtain ⟨first, others⟩ := List.forall_mem_cons.mp nonneg
      rw [raise]
      split
      next higher => exact List.forall_mem_cons.mpr ⟨first.trans higher.le, induction others⟩
      next => exact nonneg

theorem nonneg_raiseFrom (rank : Nat) (reach : α) (nonneg : ∀ slot ∈ slots, 0 ≤ slot) :
    ∀ slot ∈ raiseFrom rank reach slots, 0 ≤ slot := by
  rw [raiseFrom, List.forall_mem_append]
  constructor
  · exact fun slot member => nonneg slot (List.mem_of_mem_take member)
  · exact nonneg_raise reach fun slot member => nonneg slot (List.mem_of_mem_drop member)

end Slots

section Rank

variable {count : Nat} {negative : List BlockRef} {a b : BlockRef}

theorem rank_eq_idxOf (order : Enumerates negative count) (bound : a.index < count) :
    rank negative a = negative.idxOf a := by
  have position : negative.idxOf a < negative.length :=
    List.idxOf_lt_length_iff.mpr (order.mem_iff.mpr bound)
  have mirrored : negative.length - 1 - negative.idxOf a < negative.reverse.length := by
    rw [List.length_reverse]
    omega
  have found : negative.reverse[negative.length - 1 - negative.idxOf a] = a := by
    simp only [List.getElem_reverse, Nat.sub_sub_self (Nat.le_sub_one_of_lt position),
      List.getElem_idxOf]
  have index := order.reverse.nodup.idxOf_getElem _ mirrored
  rw [found] at index
  rw [rank, index]
  omega

theorem rank_lt (order : Enumerates negative count) (bound : a.index < count) :
    rank negative a < count := by
  rw [rank_eq_idxOf order bound, ← order.length]
  exact List.idxOf_lt_length_iff.mpr (order.mem_iff.mpr bound)

theorem rank_injective (order : Enumerates negative count) (ha : a.index < count)
    (hb : b.index < count) (equality : rank negative a = rank negative b) : a = b := by
  rw [rank_eq_idxOf order ha, rank_eq_idxOf order hb] at equality
  exact (List.idxOf_inj (order.mem_iff.mpr ha)).mp equality

theorem precedes_iff_rank_lt (order : Enumerates negative count) (ha : a.index < count)
    (hb : b.index < count) : Precedes negative a b ↔ rank negative a < rank negative b := by
  rw [rank_eq_idxOf order ha, rank_eq_idxOf order hb]
  exact precedes_iff_idxOf_lt order.nodup (order.mem_iff.mpr ha) (order.mem_iff.mpr hb)

end Rank

section Met

variable {count position : Nat} {negative met : List BlockRef} {ref other : BlockRef}

def upTo (negative met : List BlockRef) (position : Nat) : Set BlockRef :=
  {ref | ref ∈ met ∧ rank negative ref ≤ position}

def ahead (sequence negative : List BlockRef) (ref : BlockRef) : Set BlockRef :=
  {before | Precedes sequence before ref ∧ Precedes negative before ref}

theorem upTo_concat_of_le (raised : rank negative ref ≤ position) :
    upTo negative (met ++ [ref]) position = insert ref (upTo negative met position) := by
  ext other
  simp only [upTo, List.mem_append, List.mem_singleton, Set.mem_ofPred_eq, Set.mem_insert_iff]
  constructor
  · rintro ⟨member | rfl, before⟩
    · exact .inr ⟨member, before⟩
    · exact .inl rfl
  · rintro (rfl | ⟨member, before⟩)
    · exact ⟨.inr rfl, raised⟩
    · exact ⟨.inl member, before⟩

theorem upTo_concat_of_not_le (unraised : ¬ rank negative ref ≤ position) :
    upTo negative (met ++ [ref]) position = upTo negative met position := by
  ext other
  simp only [upTo, List.mem_append, List.mem_singleton, Set.mem_ofPred_eq]
  constructor
  · rintro ⟨member | rfl, before⟩
    · exact ⟨member, before⟩
    · exact absurd before unraised
  · rintro ⟨member, before⟩
    exact ⟨.inl member, before⟩

theorem ahead_concat_of_ne (different : other ≠ ref) :
    ahead (met ++ [ref]) negative other = ahead met negative other := by
  ext before
  simp only [ahead, Set.mem_ofPred_eq, precedes_concat, different, and_false, or_false]

theorem ahead_concat_self (order : Enumerates negative count) (fresh : ref ∉ met)
    (bounds : ∀ other ∈ met, other.index < count) (bound : ref.index < count) :
    ahead (met ++ [ref]) negative ref = upTo negative met (rank negative ref) := by
  ext before
  simp only [ahead, upTo, Set.mem_ofPred_eq, precedes_concat, and_true]
  constructor
  · rintro ⟨earlier | member, precedes⟩
    · exact absurd earlier.right_mem fresh
    · exact ⟨member, ((precedes_iff_rank_lt order (bounds _ member) bound).mp precedes).le⟩
  · rintro ⟨member, ranks⟩
    have different : rank negative before ≠ rank negative ref := by
      intro equality
      exact fresh (rank_injective order (bounds _ member) bound equality ▸ member)
    exact ⟨.inr member, (precedes_iff_rank_lt order (bounds _ member) bound).mpr
      (Nat.lt_of_le_of_ne ranks different)⟩

end Met

namespace Sweep

variable {extents coordinates : List α} {sequence negative met rest : List BlockRef}
  {sweep : Sweep α} {ref other : BlockRef}

/--
What a sweep knows about the blocks that it has met: every slot is the reach of those that stand at
its position of the negative sequence or before, and each of them starts at the reach of those that
precede it in both sequences.
-/
structure Tight (extents : List α) (negative met : List BlockRef) (sweep : Sweep α) : Prop where
  length_slots : sweep.slots.length = extents.length
  length_coordinates : sweep.coordinates.length = extents.length
  slot : ∀ position slot, sweep.slots[position]? = some slot →
    IsReach (sweep.finish extents) (upTo negative met position) slot
  start : ∀ ref ∈ met, IsReach (sweep.finish extents) (ahead met negative ref) (sweep.start ref)

theorem Tight.sorted (tight : Tight extents negative met sweep) :
    sweep.slots.Pairwise (· ≤ ·) := by
  rw [List.pairwise_iff_getElem]
  intro first second firstBound secondBound less
  have lower := tight.slot first _ (List.getElem?_eq_getElem firstBound)
  have upper := tight.slot second _ (List.getElem?_eq_getElem secondBound)
  exact lower.mono upper fun _ member => ⟨member.1, member.2.trans less.le⟩

theorem tight_nil (length : coordinates.length = extents.length) :
    Tight extents negative [] ⟨List.replicate extents.length 0, coordinates⟩ where
  length_slots := List.length_replicate
  length_coordinates := length
  slot := by
    intro position slot found
    have zero : slot = 0 := by
      rw [List.getElem?_replicate] at found
      split at found
      · exact (Option.some.inj found).symm
      · cases found
    simpa [zero, upTo] using IsReach.empty
  start := nofun

theorem Tight.place (tight : Tight extents negative met sweep)
    (order : Enumerates negative extents.length) (fresh : ref ∉ met)
    (bounds : ∀ other ∈ met, other.index < extents.length) (bound : ref.index < extents.length) :
    Tight extents negative (met ++ [ref]) (place extents negative sweep ref) := by
  have startSelf : (Sweep.place extents negative sweep ref).start ref =
      sweep.slots.getD (rank negative ref) 0 :=
    start_place_self tight.length_coordinates bound
  have finishOther : ∀ other ∈ met, (Sweep.place extents negative sweep ref).finish extents other =
      sweep.finish extents other :=
    fun other member => finish_place_of_ne (ne_of_mem_of_not_mem member fresh)
  constructor
  · rw [length_slots_place, tight.length_slots]
  · rw [length_coordinates_place, tight.length_coordinates]
  · intro position slot member
    have known : extents[ref.index]? = some (extents.getD ref.index 0) := by simp [bound]
    rw [slots_place, known, Option.elim_some, getElem?_raiseFrom _ _ tight.sorted] at member
    obtain ⟨old, oldFound, rfl⟩ := Option.map_eq_some_iff.mp member
    have kept := (tight.slot position old oldFound).congr fun other member =>
      finishOther other member.1
    -- Slots from the rank of the new block on count it in; those before do not see it.
    by_cases raised : rank negative ref ≤ position
    · rw [if_pos raised, upTo_concat_of_le raised, ← startSelf, max_comm]
      exact kept.insert ref
    · rw [if_neg raised, upTo_concat_of_not_le raised]
      exact kept
  · intro other member
    rcases List.mem_append.mp member with member | last
    · have different : other ≠ ref := ne_of_mem_of_not_mem member fresh
      rw [start_place_of_ne different, ahead_concat_of_ne different]
      exact (tight.start other member).congr fun before precedes =>
        finishOther before precedes.1.left_mem
    · obtain rfl := List.mem_singleton.mp last
      have ranked : rank negative other < sweep.slots.length := by
        rw [tight.length_slots]
        exact rank_lt order bound
      have found : sweep.slots[rank negative other]? =
          some (sweep.slots.getD (rank negative other) 0) := by
        simp [ranked]
      rw [startSelf, ahead_concat_self order fresh bounds bound]
      exact (tight.slot _ _ found).congr fun before member => finishOther before member.1

theorem Tight.foldl (tight : Tight extents negative met sweep)
    (order : Enumerates negative extents.length) (nodup : (met ++ rest).Nodup)
    (bounds : ∀ other ∈ met ++ rest, other.index < extents.length) :
    Tight extents negative (met ++ rest) (rest.foldl (Sweep.place extents negative) sweep) := by
  induction rest generalizing met sweep with
  | nil => simpa using tight
  | cons ref rest induction =>
      have fresh : ref ∉ met := by
        intro member
        exact (List.nodup_append.mp nodup).2.2 ref member ref List.mem_cons_self rfl
      have step : Tight extents negative (met ++ [ref]) (Sweep.place extents negative sweep ref) :=
        tight.place order fresh (fun other member => bounds other (List.mem_append_left _ member))
          (bounds ref (by simp))
      rw [List.append_cons] at nodup bounds ⊢
      exact induction step nodup bounds

theorem tight_run (first : Enumerates sequence extents.length)
    (second : Enumerates negative extents.length) (length : coordinates.length = extents.length) :
    Tight extents negative sequence (run extents coordinates sequence negative) :=
  (tight_nil length).foldl second first.nodup fun _ member => first.mem_iff.mp member

theorem Tight.reach (tight : Tight extents negative sequence sweep)
    (first : Enumerates sequence extents.length) (second : Enumerates negative extents.length) :
    IsReach (sweep.finish extents) {ref | ref.index < extents.length} sweep.reach := by
  rw [Sweep.reach, List.getLastD_eq_getLast?, List.getLast?_eq_getElem?]
  cases found : sweep.slots[sweep.slots.length - 1]? with
  | none =>
      have empty : extents.length = 0 := by
        rw [← tight.length_slots]
        have := List.getElem?_eq_none_iff.mp found
        omega
      simpa [empty] using IsReach.empty
  | some slot =>
      have all : upTo negative sequence (sweep.slots.length - 1) =
          {ref | ref.index < extents.length} := by
        ext ref
        simp only [upTo, Set.mem_ofPred_eq, first.mem_iff, tight.length_slots]
        exact ⟨And.left, fun bound => ⟨bound, Nat.le_sub_one_of_lt (rank_lt second bound)⟩⟩
      rw [← all]
      exact tight.slot _ slot found

end Sweep

end Packing

open Packing

variable {α : Type} [ExactNumber α] {blocks : List (Block α)} {pair : SequencePair}

/-- Where a block of a list starts along an axis; zero if it is not there. -/
def lowAt (blocks : List (Block α)) (axis : Axis) (ref : BlockRef) : α :=
  (blocks.map (·.low axis)).getD ref.index 0

def extentAt (blocks : List (Block α)) (axis : Axis) (ref : BlockRef) : α :=
  (blocks.map (·.extent axis)).getD ref.index 0

def highAt (blocks : List (Block α)) (axis : Axis) (ref : BlockRef) : α :=
  lowAt blocks axis ref + extentAt blocks axis ref

theorem lowAt_eq {ref : BlockRef} {block : Block α} (found : blocks[ref.index]? = some block)
    (axis : Axis) : lowAt blocks axis ref = block.low axis := by
  simp [lowAt, found]

theorem extentAt_eq {ref : BlockRef} {block : Block α} (found : blocks[ref.index]? = some block)
    (axis : Axis) : extentAt blocks axis ref = block.extent axis := by
  simp [extentAt, found]

theorem highAt_eq {ref : BlockRef} {block : Block α} (found : blocks[ref.index]? = some block)
    (axis : Axis) : highAt blocks axis ref = block.low axis + block.extent axis := by
  rw [highAt, lowAt_eq found, extentAt_eq found]

theorem lowAt_pack (blocks : List (Block α)) (pair : SequencePair) (axis : Axis)
    (ref : BlockRef) :
    lowAt (pack blocks pair).1 axis ref = (sweep blocks pair axis).start ref := by
  rw [lowAt, List.getD_eq_getElem?_getD, List.getElem?_map, getElem?_pack]
  cases found : blocks[ref.index]? with
  | none =>
      have missing : (sweep blocks pair axis).coordinates.length ≤ ref.index := by
        simpa using found
      simp only [Option.map_none, Sweep.start, List.getD_eq_getElem?_getD,
        List.getElem?_eq_none missing]
  | some block => cases axis <;> rfl

@[simp] theorem extentAt_pack (blocks : List (Block α)) (pair : SequencePair) (axis : Axis) :
    extentAt (pack blocks pair).1 axis = extentAt blocks axis := by
  funext ref
  rw [extentAt, extentAt, List.getD_eq_getElem?_getD, List.getD_eq_getElem?_getD,
    List.getElem?_map, List.getElem?_map, getElem?_pack]
  cases blocks[ref.index]? <;> simp

theorem highAt_pack (blocks : List (Block α)) (pair : SequencePair) (axis : Axis) :
    highAt (pack blocks pair).1 axis =
      (sweep blocks pair axis).finish (blocks.map (·.extent axis)) := by
  funext ref
  rw [highAt, lowAt_pack, extentAt_pack]
  rfl

theorem nonneg_along_pack (blocks : List (Block α)) (pair : SequencePair) (axis : Axis) :
    0 ≤ (pack blocks pair).2.along axis := by
  have slots : ∀ slot ∈ (sweep blocks pair axis).slots, 0 ≤ slot := by
    rw [sweep, Sweep.run]
    apply List.foldlRecOn (motive := fun sweep : Sweep α => ∀ slot ∈ sweep.slots, 0 ≤ slot)
    · exact fun slot member => (List.eq_of_mem_replicate member).ge
    · intro sweep nonneg ref _
      rw [Sweep.slots_place]
      cases (blocks.map (·.extent axis))[ref.index]? with
      | none => exact nonneg
      | some extent => exact nonneg_raiseFrom _ _ nonneg
  rw [along_pack, Sweep.reach, List.getLastD_eq_getLast?]
  cases found : (sweep blocks pair axis).slots.getLast? with
  | none => exact le_rfl
  | some slot => exact slots slot (List.mem_of_getLast? found)

section Valid

variable (valid : pair.isValid blocks.length = true)

include valid

theorem tight_sweep (axis : Axis) :
    Sweep.Tight (blocks.map (·.extent axis)) pair.negative (pair.order axis)
      (sweep blocks pair axis) := by
  apply Sweep.tight_run
  · simpa using SequencePair.order_enumerates valid axis
  · simpa using SequencePair.negative_enumerates valid
  · simp

/-- A block of a packed layout starts where the last of the blocks before it ends. -/
theorem isReach_lowAt_pack (axis : Axis) {ref : BlockRef} (bound : ref.index < blocks.length) :
    IsReach (highAt (pack blocks pair).1 axis) {before | pair.Before axis before ref}
      (lowAt (pack blocks pair).1 axis ref) := by
  have member : ref ∈ pair.order axis :=
    (SequencePair.order_enumerates valid axis).mem_iff.mpr bound
  have ahead_eq : {before | pair.Before axis before ref} =
      ahead (pair.order axis) pair.negative ref := by
    ext before
    exact pair.before_iff axis
  rw [highAt_pack, lowAt_pack, ahead_eq]
  exact (tight_sweep valid axis).start ref member

/-- A packed layout ends where the last of its blocks ends. -/
theorem isReach_along_pack (axis : Axis) :
    IsReach (highAt (pack blocks pair).1 axis) {ref | ref.index < blocks.length}
      ((pack blocks pair).2.along axis) := by
  rw [highAt_pack, along_pack]
  simpa using (tight_sweep valid axis).reach
    (by simpa using SequencePair.order_enumerates valid axis)
    (by simpa using SequencePair.negative_enumerates valid)

end Valid

end Floorplanner
