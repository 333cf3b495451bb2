import Floorplanner.Proofs.Outward
import Floorplanner.Proofs.Packing.Places

/-!
Slots that are raised.

The slots of a sweep never decrease from left to right, whatever is placed: extents may be zero, below
zero or none, and blocks may be placed again or never. So the first slot that a reach does not exceed
ends the raising, and every later one is as high. Raising with that stop is raising every slot from
the position of the block on.
-/

namespace Floorplanner

open Number

namespace Packing

variable {α : Type} [Number α]

structure AreAscending (slots : List α) : Prop where
  le_self : ∀ slot ∈ slots, slot ≤ slot
  sorted : slots.Pairwise (· ≤ ·)

/-- A slot when a reach was there; one that does not compare leaves it as it is. -/
def raised (reach slot : α) : α := if slot < reach then reach else slot

section Raised

open ComparesLawfully

variable {first second reach further : α}

theorem raised_of_lt (less : first < reach) : raised reach first = reach := if_pos less

theorem raised_of_not_lt (enough : ¬ first < reach) : raised reach first = first := if_neg enough

variable [ComparesLawfully α]

theorem le_raised (compares : first ≤ first) : first ≤ raised reach first := by
  by_cases less : first < reach
  · rw [raised_of_lt less]
    exact le_of_lt less
  · rw [raised_of_not_lt less]
    exact compares

theorem raised_le_raised (reaches : first < reach → reach ≤ further ∧ further ≤ further)
    (later : second ≤ second) (ordered : first ≤ second) :
    raised reach first ≤ raised further second := by
  by_cases less : first < reach
  · rw [raised_of_lt less]
    obtain ⟨below, compares⟩ := reaches less
    by_cases also : second < further
    · rw [raised_of_lt also]
      exact below
    · rw [raised_of_not_lt also]
      exact le_trans below (le_of_not_lt compares later also)
  · rw [raised_of_not_lt less]
    exact le_trans ordered (le_raised later)

theorem raised_eq_of_le (compares : second < reach → reach ≤ reach) (here : first ≤ first)
    (ordered : first ≤ second) (enough : ¬ first < reach) : raised reach second = second := by
  apply raised_of_not_lt
  intro less
  have below : reach ≤ first := le_of_not_lt (compares less) here enough
  exact not_lt_of_le (le_trans below ordered) less

end Raised

namespace AreAscending

variable {slots : List α} {reach : α}

theorem sublist {some : List α} (ascending : AreAscending slots) (sublist : some.Sublist slots) :
    AreAscending some where
  le_self slot member := ascending.le_self slot (sublist.subset member)
  sorted := ascending.sorted.sublist sublist

theorem replicate [MaxesLawfully α] (count : Nat) : AreAscending (List.replicate count (0 : α)) where
  le_self _ member := List.eq_of_mem_replicate member ▸ MaxesLawfully.zero_le_zero
  sorted := List.pairwise_replicate.mpr (.inr MaxesLawfully.zero_le_zero)

variable [ComparesLawfully α]

theorem raise_eq (ascending : AreAscending slots)
    (compares : ∀ slot ∈ slots, slot < reach → reach ≤ reach) :
    raise reach slots = slots.map (raised reach) := by
  induction slots with
  | nil => rfl
  | cons slot rest induction =>
      obtain ⟨least, _⟩ := List.pairwise_cons.mp ascending.sorted
      rw [List.forall_mem_cons] at compares
      rw [raise, List.map_cons]
      split
      next less =>
        rw [raised_of_lt less, induction (ascending.sublist (List.sublist_cons_self _ _)) compares.2]
      next enough =>
        have here : slot ≤ slot := ascending.le_self slot List.mem_cons_self
        have unchanged : rest.map (raised reach) = rest.map id := by
          apply List.map_congr_left
          intro later member
          exact raised_eq_of_le (compares.2 later member) here (least later member) enough
        rw [raised_of_not_lt enough, unchanged, List.map_id]

theorem raiseFrom_eq (ascending : AreAscending slots)
    (compares : ∀ slot ∈ slots, slot < reach → reach ≤ reach) (rank : Nat) :
    raiseFrom rank reach slots = slots.take rank ++ (slots.drop rank).map (raised reach) := by
  rw [Packing.raiseFrom, raise_eq (ascending.sublist (List.drop_sublist _ _))]
  exact fun slot member => compares slot (List.mem_of_mem_drop member)

theorem raiseFrom (ascending : AreAscending slots)
    (compares : ∀ slot ∈ slots, slot < reach → reach ≤ reach) (rank : Nat) :
    AreAscending (Packing.raiseFrom rank reach slots) := by
  rw [ascending.raiseFrom_eq compares]
  have dropped : ∀ slot ∈ slots.drop rank, slot ≤ slot ∧ (slot < reach → reach ≤ reach) :=
    fun slot member =>
      ⟨ascending.le_self slot (List.mem_of_mem_drop member),
        compares slot (List.mem_of_mem_drop member)⟩
  have sorted := ascending.sorted
  rw [← List.take_append_drop rank slots, List.pairwise_append] at sorted
  obtain ⟨before, after, across⟩ := sorted
  constructor
  · rw [List.forall_mem_append, List.forall_mem_map]
    constructor
    · exact fun slot member => ascending.le_self slot (List.mem_of_mem_take member)
    · intro slot member
      obtain ⟨here, reaches⟩ := dropped slot member
      exact raised_le_raised (fun less => ⟨reaches less, reaches less⟩) here here
  · rw [List.pairwise_append, List.pairwise_map]
    refine ⟨before, after.imp_of_mem ?_, ?_⟩
    · intro first second firstMember secondMember ordered
      have reaches := (dropped first firstMember).2
      exact raised_le_raised (fun less => ⟨reaches less, reaches less⟩)
        (dropped second secondMember).1 ordered
    · intro slot member
      rw [List.forall_mem_map]
      intro later laterMember
      exact ComparesLawfully.le_trans (across slot member later laterMember)
        (le_raised (dropped later laterMember).1)

end AreAscending

section Sweeps

theorem rank_lt_of_length_le {negative : List BlockRef} {count : Nat} (some : 0 < count)
    (short : negative.length ≤ count) (ref : BlockRef) : rank negative ref < count := by
  rw [rank]
  omega

variable {extents : List α} {negative : List BlockRef}

@[simp] theorem Sweep.length_slots_run (extents coordinates : List α)
    (sequence negative : List BlockRef) :
    (Sweep.run extents coordinates sequence negative).slots.length = extents.length := by
  rw [run]
  apply List.foldlRecOn (motive := fun sweep : Sweep α => sweep.slots.length = extents.length)
  · exact List.length_replicate
  · exact fun sweep length ref _ => (length_slots_place sweep ref).trans length

/-- What raising writes, and what it does not come to. -/
theorem raise_eq_takeWhile (reach : α) (slots : List α) :
    raise reach slots = (slots.takeWhile (decide <| · < reach)).map (fun _ => reach) ++
      slots.dropWhile (decide <| · < reach) := by
  induction slots with
  | nil => rfl
  | cons slot rest induction =>
      rw [raise]
      split
      next less => simp [less, induction]
      next enough => simp [enough]

variable [MaxesLawfully α]

/-- Whatever block is placed next, however far it extends, the slots go on ascending. -/
theorem Sweep.ascending_place {sweep : Sweep α} (ascending : AreAscending sweep.slots)
    (ref : BlockRef) : AreAscending (Sweep.place extents negative sweep ref).slots := by
  rw [slots_place]
  cases extents[ref.index]? with
  | none => exact ascending
  | some extent => exact ascending.raiseFrom (fun _ _ => MaxesLawfully.le_self_of_lt) _

theorem Sweep.ascending_run (extents coordinates : List α) (sequence negative : List BlockRef) :
    AreAscending (Sweep.run extents coordinates sequence negative).slots := by
  rw [run]
  apply List.foldlRecOn (motive := fun sweep : Sweep α => AreAscending sweep.slots)
  · exact .replicate _
  · exact fun sweep ascending ref _ => ascending_place ascending ref

theorem AreAscending.raise_eq_map_max {slots : List α} (ascending : AreAscending slots)
    (reach : α) : raise reach slots = slots.map (max · reach) := by
  rw [ascending.raise_eq fun _ _ => MaxesLawfully.le_self_of_lt]
  apply List.map_congr_left
  intro slot member
  rw [raised, MaxesLawfully.max_eq (ascending.le_self slot member)]

end Sweeps

end Packing

open Packing

variable {α : Type} [Number α]

/--
When a sweep along either axis places a block, its slots do not decrease, before and after. From the
position of the block on, the placing writes the reach of the block to the slots before the first one
that is as high, and it leaves the larger of each slot and the reach at all of them. The sequences may
repeat blocks or leave them out, and the extents may be any numbers.
-/
theorem placing_raises_every_later_slot [MaxesLawfully α] (blocks : List (Block α))
    (pair : SequencePair) (bounds : ∀ ref ∈ pair.positive, ref.index < blocks.length)
    (short : pair.negative.length ≤ blocks.length) (axis : Axis) (met rest : List BlockRef)
    (ref : BlockRef) (order : pair.order axis = met ++ ref :: rest) :
    let extents := blocks.map (·.extent axis)
    let slotsAfter := fun sequence =>
      (Sweep.run extents (blocks.map (·.low axis)) sequence pair.negative).slots
    let position := rank pair.negative ref
    let earlier := (slotsAfter met).take position
    let later := (slotsAfter met).drop position
    ∃ slot extent, (slotsAfter met)[position]? = some slot ∧ extents[ref.index]? = some extent ∧
      (slotsAfter met).Pairwise (· ≤ ·) ∧ (slotsAfter (met ++ [ref])).Pairwise (· ≤ ·) ∧
      let reach := slot + extent
      slotsAfter (met ++ [ref]) =
          earlier ++ ((later.takeWhile (decide <| · < reach)).map (fun _ => reach) ++
            later.dropWhile (decide <| · < reach)) ∧
        slotsAfter (met ++ [ref]) = earlier ++ later.map (max · reach) := by
  intro extents slotsAfter position earlier later
  have bound : ref.index < blocks.length := by
    apply bounds
    rw [← SequencePair.mem_order pair axis, order]
    exact List.mem_append_right _ List.mem_cons_self
  have ranked : position < (slotsAfter met).length := by
    rw [Sweep.length_slots_run, List.length_map]
    exact rank_lt_of_length_le (Nat.zero_lt_of_lt bound) short ref
  obtain ⟨slot, atPosition⟩ : ∃ slot, (slotsAfter met)[position]? = some slot :=
    ⟨_, List.getElem?_eq_getElem ranked⟩
  obtain ⟨extent, known⟩ : ∃ extent, extents[ref.index]? = some extent :=
    ⟨_, List.getElem?_eq_getElem (by simpa [extents] using bound)⟩
  have ascending : ∀ sequence, AreAscending (slotsAfter sequence) :=
    fun sequence => Sweep.ascending_run _ _ _ _
  have placed : slotsAfter (met ++ [ref]) = raiseFrom position (slot + extent) (slotsAfter met) := by
    simp only [slotsAfter, Sweep.run, List.foldl_concat, Sweep.slots_place, known, Option.elim_some]
    rw [List.getD_eq_getElem?_getD]
    exact congrArg (fun found => raiseFrom position (found.getD 0 + extent) (slotsAfter met)) atPosition
  refine ⟨slot, extent, atPosition, known, (ascending _).sorted, (ascending _).sorted, ?_, ?_⟩
  · rw [placed, raiseFrom, raise_eq_takeWhile]
  · have sorted : AreAscending later := (ascending met).sublist (List.drop_sublist position _)
    rw [placed, raiseFrom, sorted.raise_eq_map_max]

/-- A block that is placed again, next to one of negative width that only one sequence holds. -/
theorem placing_raises_every_later_slot_again :
    let blocks : List (Block Float) :=
      [.hard "shelf" 6 1 [⟨3, 2⟩], .hard "bench" 2 2 [⟨-1, 2⟩], .hard "tower" 8 3 [⟨2, 4⟩]]
    let pair : SequencePair := ⟨[⟨0⟩, ⟨2⟩, ⟨0⟩, ⟨1⟩], [⟨2⟩, ⟨0⟩]⟩
    let slotsAfter := fun sequence =>
      (Sweep.run (blocks.map (·.extent .x)) (blocks.map (·.low .x)) sequence pair.negative).slots
    (slotsAfter [⟨0⟩, ⟨2⟩]).Pairwise (· ≤ ·) ∧ (slotsAfter [⟨0⟩, ⟨2⟩, ⟨0⟩]).Pairwise (· ≤ ·) ∧
      slotsAfter [⟨0⟩, ⟨2⟩, ⟨0⟩] =
        (slotsAfter [⟨0⟩, ⟨2⟩]).take 1 ++ ((slotsAfter [⟨0⟩, ⟨2⟩]).drop 1).map (Binary64.max · 6) := by
  intro blocks pair slotsAfter
  obtain ⟨slot, extent, atPosition, known, before, after, _, raised⟩ :=
    placing_raises_every_later_slot blocks pair (by decide) (by decide) .x [⟨0⟩, ⟨2⟩] [⟨1⟩] ⟨0⟩ rfl
  have third : (slotsAfter [⟨0⟩, ⟨2⟩])[1]? = some 3 := by decide +kernel
  have width : (blocks.map (·.extent .x))[0]? = some 3 := rfl
  have reach : slot + extent = 6 := by
    rw [← Option.some.inj (third.symm.trans atPosition), ← Option.some.inj (width.symm.trans known)]
    decide +kernel
  rw [reach] at raised
  exact ⟨before, after, raised⟩

end Floorplanner
