import Floorplanner.SequencePair
import Mathlib.Data.List.Nodup
import Mathlib.Logic.Equiv.Basic
import Mathlib.Logic.Relation

/-! Exchanging two entries of a sequence, once and as often as it takes to rearrange it. -/

namespace Floorplanner

namespace SequencePair

variable {i j : Nat} {sequence : List BlockRef}

theorem exchange_of_lt (hi : i < sequence.length) (hj : j < sequence.length) :
    exchange i j sequence = (sequence.set i sequence[j]).set j sequence[i] := by
  simp only [exchange, List.getElem?_eq_getElem hi, List.getElem?_eq_getElem hj]

theorem exchange_of_not_lt (outside : ¬ (i < sequence.length ∧ j < sequence.length)) :
    exchange i j sequence = sequence := by
  rw [exchange]
  split
  next first second findFirst findSecond =>
    have bounds := And.intro (List.getElem?_eq_some_iff.mp findFirst).1
      (List.getElem?_eq_some_iff.mp findSecond).1
    exact absurd bounds outside
  next => rfl

theorem exchange_perm (i j : Nat) (sequence : List BlockRef) :
    (exchange i j sequence).Perm sequence := by
  by_cases bounds : i < sequence.length ∧ j < sequence.length
  · rw [exchange_of_lt bounds.1 bounds.2]
    exact List.set_set_perm bounds.1 bounds.2
  · rw [exchange_of_not_lt bounds]

@[simp] theorem mem_exchange {ref : BlockRef} : ref ∈ exchange i j sequence ↔ ref ∈ sequence :=
  (exchange_perm i j sequence).mem_iff

theorem getElem?_exchange (hi : i < sequence.length) (hj : j < sequence.length) (k : Nat) :
    (exchange i j sequence)[k]? = sequence[Equiv.swap i j k]? := by
  rw [exchange_of_lt hi hj, Equiv.swap_apply_def]
  by_cases atSecond : j = k
  · subst atSecond
    by_cases same : j = i
    · subst same
      simp [hj]
    · simp [hi, hj, same]
  · by_cases atFirst : i = k
    · subst atFirst
      simp [hi, hj, atSecond]
    · simp [atFirst, atSecond, Ne.symm atFirst, Ne.symm atSecond]

/-- In a sequence without repeats, exchanging two entries puts each in the place of the other. -/
theorem exchange_eq_map_swap {a b : BlockRef} (nodup : sequence.Nodup)
    (first : sequence[i]? = some a) (second : sequence[j]? = some b) :
    exchange i j sequence = sequence.map (Equiv.swap a b) := by
  obtain ⟨hi, rfl⟩ := List.getElem?_eq_some_iff.mp first
  obtain ⟨hj, rfl⟩ := List.getElem?_eq_some_iff.mp second
  apply List.ext_getElem?
  intro k
  rw [getElem?_exchange hi hj, List.getElem?_map]
  by_cases atFirst : k = i
  · subst atFirst
    simp [hi, hj]
  by_cases atSecond : k = j
  · subst atSecond
    simp [hi, hj]
  rw [Equiv.swap_apply_of_ne_of_ne atFirst atSecond]
  by_cases bound : k < sequence.length
  · have notFirst : sequence[k] ≠ sequence[i] := fun same =>
      atFirst (nodup.getElem_inj_iff.mp same)
    have notSecond : sequence[k] ≠ sequence[j] := fun same =>
      atSecond (nodup.getElem_inj_iff.mp same)
    rw [List.getElem?_eq_getElem bound, Option.map_some,
      Equiv.swap_apply_of_ne_of_ne notFirst notSecond]
  · rw [List.getElem?_eq_none (Nat.not_lt.mp bound)]
    rfl

@[simp] theorem exchange_exchange (i j : Nat) (sequence : List BlockRef) :
    exchange i j (exchange i j sequence) = sequence := by
  by_cases bounds : i < sequence.length ∧ j < sequence.length
  · apply List.ext_getElem?
    intro k
    rw [getElem?_exchange (by simpa using bounds.1) (by simpa using bounds.2),
      getElem?_exchange bounds.1 bounds.2, Equiv.swap_apply_self]
  · rw [exchange_of_not_lt bounds, exchange_of_not_lt bounds]

theorem exchange_cons (i j : Nat) (head : BlockRef) (tail : List BlockRef) :
    exchange (i + 1) (j + 1) (head :: tail) = head :: exchange i j tail := by
  simp only [exchange, List.getElem?_cons_succ]
  split <;> rfl

inductive Exchanged (count : Nat) : List BlockRef → List BlockRef → Prop where
  | exchange {i j : Nat} (different : i ≠ j) (first : i < count) (second : j < count)
      (sequence : List BlockRef) : Exchanged count sequence (SequencePair.exchange i j sequence)

theorem Exchanged.cons {count : Nat} {first second : List BlockRef} (head : BlockRef)
    (exchanged : Exchanged count first second) :
    Exchanged (count + 1) (head :: first) (head :: second) := by
  obtain ⟨different, firstBound, secondBound, sequence⟩ := exchanged
  rw [← exchange_cons]
  exact .exchange (by omega) (by omega) (by omega) _

/-- Exchanges lead to every rearrangement, because those of neighbours do. -/
theorem exchanged_of_perm {first second : List BlockRef} (perm : first.Perm second) :
    Relation.ReflTransGen (Exchanged first.length) first second := by
  induction perm with
  | nil => exact .refl
  | cons head _ induction => exact induction.lift (head :: ·) fun _ _ => .cons head
  | swap head next tail =>
      apply Relation.ReflTransGen.single
      exact .exchange (i := 0) (j := 1) (by decide) (by simp) (by simp) (next :: head :: tail)
  | trans earlier _ first second =>
      rw [← earlier.length_eq] at second
      exact first.trans second

@[simp] theorem exchangePositive_exchangePositive (pair : SequencePair) (i j : Nat) :
    (pair.exchangePositive i j).exchangePositive i j = pair := by
  simp [exchangePositive]

@[simp] theorem exchangeNegative_exchangeNegative (pair : SequencePair) (i j : Nat) :
    (pair.exchangeNegative i j).exchangeNegative i j = pair := by
  simp [exchangeNegative]

end SequencePair

end Floorplanner
