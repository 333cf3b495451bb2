import Floorplanner.Geometry
import Floorplanner.SequencePair
import Mathlib.Data.List.Nodup
import Mathlib.Data.List.Perm.Subperm

/-!
Sequences as orders of the blocks, and the order that a pair sets along each axis.
-/

namespace Floorplanner

theorem Entity.Ref.index_injective {kind : Entity} :
    Function.Injective (Entity.Ref.index : Entity.Ref kind → Nat) := by
  intro first second equality
  rw [← Entity.Ref.ofIndex_index first, ← Entity.Ref.ofIndex_index second, equality]

namespace SequencePair

variable {count : Nat} {sequence : List BlockRef} {a b : BlockRef}

/-- The sequence is a rearrangement of the first `count` blocks. -/
def Enumerates (sequence : List BlockRef) (count : Nat) : Prop :=
  (sequence.map Entity.Ref.index).Perm (List.range count)

theorem distinctBelow_iff (seen : List BlockRef) :
    distinctBelow count seen sequence = true ↔
      (∀ ref ∈ sequence, ref.index < count ∧ ref ∉ seen) ∧ sequence.Nodup := by
  induction sequence generalizing seen with
  | nil => simp [distinctBelow]
  | cons head tail induction =>
      simp only [distinctBelow, Bool.and_eq_true, decide_eq_true_eq, Bool.not_eq_true',
        List.contains_eq_mem, decide_eq_false_iff_not, induction, List.mem_cons,
        forall_eq_or_imp, List.nodup_cons]
      constructor
      · rintro ⟨⟨bound, fresh⟩, rest, nodup⟩
        refine ⟨⟨⟨bound, fresh⟩, fun ref member => ?_⟩, fun member => ?_, nodup⟩
        · exact ⟨(rest ref member).1, fun seenBefore => (rest ref member).2 (.inr seenBefore)⟩
        · exact (rest head member).2 (.inl rfl)
      · rintro ⟨⟨⟨bound, fresh⟩, rest⟩, headFresh, nodup⟩
        refine ⟨⟨bound, fresh⟩, fun ref member => ⟨(rest ref member).1, ?_⟩, nodup⟩
        rintro (rfl | seenBefore)
        · exact headFresh member
        · exact (rest ref member).2 seenBefore

theorem isOrder_iff_enumerates :
    isOrder count sequence = true ↔ Enumerates sequence count := by
  simp only [isOrder, Bool.and_eq_true, beq_iff_eq, distinctBelow_iff, Enumerates]
  constructor
  · rintro ⟨length, bounds, nodup⟩
    have indices : (sequence.map Entity.Ref.index).Nodup :=
      nodup.map Entity.Ref.index_injective
    have within : sequence.map Entity.Ref.index ⊆ List.range count := by
      intro index member
      obtain ⟨ref, refMember, rfl⟩ := List.mem_map.mp member
      exact List.mem_range.mpr (bounds ref refMember).1
    exact (indices.subperm within).perm_of_length_le (by simp [length])
  · intro perm
    refine ⟨by simpa using perm.length_eq, fun ref member => ⟨?_, List.not_mem_nil⟩, ?_⟩
    · exact List.mem_range.mp (perm.subset (List.mem_map_of_mem member))
    · exact (perm.nodup_iff.mpr List.nodup_range).of_map

theorem isValid_iff_enumerates {pair : SequencePair} :
    pair.isValid count = true ↔
      Enumerates pair.positive count ∧ Enumerates pair.negative count := by
  simp only [isValid, Bool.and_eq_true, isOrder_iff_enumerates]

namespace Enumerates

theorem perm (order : Enumerates sequence count) :
    (sequence.map Entity.Ref.index).Perm (List.range count) := order

theorem length (order : Enumerates sequence count) : sequence.length = count := by
  simpa using order.perm.length_eq

theorem nodup (order : Enumerates sequence count) : sequence.Nodup :=
  (order.perm.nodup_iff.mpr List.nodup_range).of_map

theorem mem_iff (order : Enumerates sequence count) : a ∈ sequence ↔ a.index < count := by
  rw [← List.mem_map_of_injective Entity.Ref.index_injective, order.perm.mem_iff, List.mem_range]

/-- A block below the count has a reference, although a reference is a machine word. -/
theorem exists_ref (order : Enumerates sequence count) {index : Nat} (bound : index < count) :
    ∃ ref ∈ sequence, ref.index = index :=
  List.mem_map.mp (order.perm.mem_iff.mpr (List.mem_range.mpr bound))

theorem perm_of_enumerates {other : List BlockRef} (order : Enumerates sequence count)
    (others : Enumerates other count) : sequence.Perm other := by
  apply (List.perm_ext_iff_of_nodup order.nodup others.nodup).mpr
  intro ref
  rw [order.mem_iff, others.mem_iff]

theorem reverse (order : Enumerates sequence count) : Enumerates sequence.reverse count := by
  rw [Enumerates, List.map_reverse]
  exact (List.reverse_perm _).trans order

end Enumerates

def Precedes (sequence : List BlockRef) (a b : BlockRef) : Prop := [a, b].Sublist sequence

instance : Decidable (Precedes sequence a b) :=
  inferInstanceAs (Decidable ([a, b].Sublist sequence))

namespace Precedes

theorem left_mem (precedes : Precedes sequence a b) : a ∈ sequence :=
  precedes.subset List.mem_cons_self

theorem right_mem (precedes : Precedes sequence a b) : b ∈ sequence :=
  precedes.subset (List.mem_cons_of_mem a List.mem_cons_self)

end Precedes

theorem precedes_reverse : Precedes sequence.reverse a b ↔ Precedes sequence b a := by
  rw [Precedes, Precedes, ← List.reverse_sublist, List.reverse_reverse]
  rfl

theorem precedes_concat {last : BlockRef} :
    Precedes (sequence ++ [last]) a b ↔ Precedes sequence a b ∨ a ∈ sequence ∧ b = last := by
  rw [Precedes, ← List.reverse_sublist, List.reverse_append, List.reverse_singleton,
    List.singleton_append, List.sublist_cons_iff]
  constructor
  · rintro (earlier | ⟨tail, split, tailSublist⟩)
    · exact .inl (List.reverse_sublist.mp earlier)
    · cases split
      exact .inr ⟨by simpa using tailSublist, rfl⟩
  · rintro (earlier | ⟨member, rfl⟩)
    · exact .inl (List.reverse_sublist.mpr earlier)
    · exact .inr ⟨[a], rfl, by simpa using member⟩

theorem idxOf_lt_of_precedes (nodup : sequence.Nodup) (precedes : Precedes sequence a b) :
    sequence.idxOf a < sequence.idxOf b := by
  have pairwise : sequence.Pairwise fun a b => sequence.idxOf a < sequence.idxOf b := by
    rw [List.pairwise_iff_getElem]
    intro i j hi hj less
    rwa [nodup.idxOf_getElem i hi, nodup.idxOf_getElem j hj]
  exact List.pairwise_iff_forall_sublist.mp pairwise precedes

theorem precedes_total (ha : a ∈ sequence) (hb : b ∈ sequence) (different : a ≠ b) :
    Precedes sequence a b ∨ Precedes sequence b a := by
  induction sequence with
  | nil => cases ha
  | cons head tail induction =>
      rcases List.mem_cons.mp ha with rfl | aInTail
      · have bInTail := (List.mem_cons.mp hb).resolve_left different.symm
        exact .inl (.cons_cons _ (List.singleton_sublist.mpr bInTail))
      · rcases List.mem_cons.mp hb with rfl | bInTail
        · exact .inr (.cons_cons _ (List.singleton_sublist.mpr aInTail))
        · exact (induction aInTail bInTail).imp (.cons _) (.cons _)

theorem precedes_iff_idxOf_lt (nodup : sequence.Nodup) (ha : a ∈ sequence) (hb : b ∈ sequence) :
    Precedes sequence a b ↔ sequence.idxOf a < sequence.idxOf b := by
  refine ⟨idxOf_lt_of_precedes nodup, fun less => ?_⟩
  have different : a ≠ b := by
    rintro rfl
    exact Nat.lt_irrefl _ less
  refine (precedes_total ha hb different).resolve_right fun reversed => ?_
  exact Nat.lt_asymm less (idxOf_lt_of_precedes nodup reversed)

/--
The pair sets `a` before `b` along an axis: to its left if `a` comes first in both sequences, and
below it if `a` comes first in the negative sequence only.
-/
def Before (pair : SequencePair) : Axis → BlockRef → BlockRef → Prop
  | .x, a, b => Precedes pair.positive a b ∧ Precedes pair.negative a b
  | .y, a, b => Precedes pair.positive b a ∧ Precedes pair.negative a b

instance (pair : SequencePair) : (axis : Axis) → Decidable (pair.Before axis a b)
  | .x => inferInstanceAs (Decidable (_ ∧ _))
  | .y => inferInstanceAs (Decidable (_ ∧ _))

/-- The positive sequence in the direction in which it is swept along an axis. -/
def order (pair : SequencePair) : Axis → List BlockRef
  | .x => pair.positive
  | .y => pair.positive.reverse

theorem before_iff (pair : SequencePair) (axis : Axis) :
    pair.Before axis a b ↔ Precedes (pair.order axis) a b ∧ Precedes pair.negative a b := by
  cases axis with
  | x => exact Iff.rfl
  | y => rw [Before, order, precedes_reverse]

@[simp] theorem mem_order (pair : SequencePair) (axis : Axis) :
    a ∈ pair.order axis ↔ a ∈ pair.positive := by
  cases axis <;> simp [order]

section Valid

variable {pair : SequencePair} (valid : pair.isValid count = true)

include valid

theorem order_enumerates (axis : Axis) : Enumerates (pair.order axis) count := by
  obtain ⟨positive, _⟩ := isValid_iff_enumerates.mp valid
  cases axis with
  | x => exact positive
  | y => exact positive.reverse

theorem negative_enumerates : Enumerates pair.negative count :=
  (isValid_iff_enumerates.mp valid).2

theorem bound_of_before {axis : Axis} (before : pair.Before axis a b) :
    a.index < count ∧ b.index < count := by
  have negative := negative_enumerates valid
  rw [← negative.mem_iff, ← negative.mem_iff]
  cases axis <;> exact ⟨before.2.left_mem, before.2.right_mem⟩

/-- Induction along the order that a pair sets: each block after those before it. -/
@[elab_as_elim]
theorem before_induction (axis : Axis) {motive : BlockRef → Prop}
    (step : ∀ ref, ref.index < count →
      (∀ before, pair.Before axis before ref → motive before) → motive ref)
    (ref : BlockRef) (bound : ref.index < count) : motive ref := by
  -- On both axes the earlier block stands earlier in the negative sequence.
  induction position : pair.negative.idxOf ref using Nat.strongRecOn generalizing ref with
  | ind position induction =>
      apply step ref bound
      intro before isBefore
      have precedes : Precedes pair.negative before ref := by
        cases axis <;> exact isBefore.2
      have earlier := idxOf_lt_of_precedes (negative_enumerates valid).nodup precedes
      exact induction _ (position ▸ earlier) before (bound_of_before valid isBefore).1 rfl

/-- Of two blocks, a valid pair sets one before the other along one of the axes. -/
theorem before_total (ha : a.index < count) (hb : b.index < count) (different : a ≠ b) :
    ∃ axis, pair.Before axis a b ∨ pair.Before axis b a := by
  obtain ⟨positive, negative⟩ := isValid_iff_enumerates.mp valid
  have inNegative := precedes_total (negative.mem_iff.mpr ha) (negative.mem_iff.mpr hb) different
  rcases precedes_total (positive.mem_iff.mpr ha) (positive.mem_iff.mpr hb) different with
    forwards | backwards
  · rcases inNegative with below | above
    · exact ⟨.x, .inl ⟨forwards, below⟩⟩
    · exact ⟨.y, .inr ⟨forwards, above⟩⟩
  · rcases inNegative with below | above
    · exact ⟨.y, .inl ⟨backwards, below⟩⟩
    · exact ⟨.x, .inr ⟨backwards, above⟩⟩

end Valid

end SequencePair

end Floorplanner
