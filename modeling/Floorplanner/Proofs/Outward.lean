import Mathlib
import Floorplanner.Proofs.Equality
import Floorplanner.Proofs.TotalOrder

/-!
Numbers that lie outward from the origin.

Where packed blocks start and end is zero with lengths added to it. On binary floating point such a
number is never the negated zero nor a NaN, however it was rounded or overflowed. So all of them
compare, equal ones are the same, and there is no more than one way for a number to be the largest.
-/

namespace Floorplanner

namespace Number

variable {α : Type} [Number α]

/-- Whether a number is zero, and not the negated one, or more. -/
def IsOutward (a : α) : Prop := a = 0 ∨ 0 < a

theorem isOutward_zero : IsOutward (0 : α) := .inl rfl

/-- Numbers of which those that lie outward are ordered, and stay outward as lengths are added. -/
class AddsOutward (α : Type) [Number α] : Prop extends ComparesLawfully α where
  le_self {a : α} : IsOutward a → a ≤ a
  antisymm {a b : α} : IsOutward a → IsOutward b → a ≤ b → b ≤ a → a = b
  max_eq {a b : α} : IsOutward a → IsOutward b → max a b = if a < b then b else a
  add {a b : α} : IsOutward a → 0 ≤ b → IsOutward (a + b)

namespace IsOutward

open ComparesLawfully

variable [AddsOutward α] {a b c : α}

theorem nonneg (outward : IsOutward a) : 0 ≤ a := by
  rcases outward with rfl | positive
  · exact AddsOutward.le_self isOutward_zero
  · exact le_of_lt positive

theorem le_of_not_lt (ha : IsOutward a) (hb : IsOutward b) (notLess : ¬ a < b) : b ≤ a :=
  ComparesLawfully.le_of_not_lt (AddsOutward.le_self hb) (AddsOutward.le_self ha) notLess

theorem max (ha : IsOutward a) (hb : IsOutward b) : IsOutward (Max.max a b) := by
  rw [AddsOutward.max_eq ha hb]
  split
  · exact hb
  · exact ha

theorem le_max_left (ha : IsOutward a) (hb : IsOutward b) : a ≤ Max.max a b := by
  rw [AddsOutward.max_eq ha hb]
  split
  next less => exact le_of_lt less
  next => exact AddsOutward.le_self ha

theorem le_max_right (ha : IsOutward a) (hb : IsOutward b) : b ≤ Max.max a b := by
  rw [AddsOutward.max_eq ha hb]
  split
  next => exact AddsOutward.le_self hb
  next notLess => exact ha.le_of_not_lt hb notLess

end IsOutward

end Number

open Number

section Exact

variable {α : Type} [ExactNumber α]

theorem ExactNumber.isOutward_iff {a : α} : IsOutward a ↔ 0 ≤ a := by
  rw [IsOutward, le_iff_eq_or_lt, eq_comm]

instance : AddsOutward α where
  le_self _ := le_rfl
  antisymm _ _ := le_antisymm
  max_eq _ _ := max_def_lt _ _
  add outward nonneg := by
    rw [ExactNumber.isOutward_iff] at outward ⊢
    exact add_nonneg outward nonneg

end Exact

namespace Binary64

open Float.Model (Format UnpackedFloat)
open Float.Model.UnpackedFloat

section Order

/-- Where a number stands among all: on its side of zero by its exponent and then by its mantissa. -/
def key : UnpackedFloat → ℤ ×ₗ ℤ ×ₗ ℤ
  | .infinity .negative => toLex (-2, toLex (0, 0))
  | .finite .negative mantissa exponent _ => toLex (-1, toLex (-exponent, -mantissa))
  | .zero _ | .notANumber => toLex (0, toLex (0, 0))
  | .finite .positive mantissa exponent _ => toLex (1, toLex (exponent, mantissa))
  | .infinity .positive => toLex (2, toLex (0, 0))

theorem compare_natCast (m n : ℕ) : compare (m : ℤ) n = compare m n := by
  rw [← cmp_eq_compare, ← cmp_eq_compare]
  exact Nat.strictMono_cast.cmp_map_eq m n

theorem compare_neg (m n : ℤ) : compare (-m) (-n) = (compare m n).swap := by
  have reverses : StrictAnti fun number : ℤ => -number := fun _ _ => neg_lt_neg
  rw [← cmp_eq_compare, ← cmp_eq_compare, cmp_swap]
  exact reverses.cmp_map_eq m n

variable {a b c : UnpackedFloat}

theorem compare_notANumber (a : UnpackedFloat) : a.compare .notANumber = none := by
  cases a <;> rfl

theorem compare_eq_compare_key (ha : a ≠ .notANumber) (hb : b ≠ .notANumber) :
    a.compare b = some (compare (key a) (key b)) := by
  simp only [Prod.Lex.compare_def, compareLex, compareOn]
  rcases a with (_ | _) | _ | _ | ⟨(_ | _), m, e⟩
  all_goals rcases b with (_ | _) | _ | _ | ⟨(_ | _), n, f⟩
  all_goals first | contradiction | rfl | skip
  case finite.negative.finite.negative =>
    simp [UnpackedFloat.compare, key, compare_neg, compare_natCast, Ordering.swap_then]
  case finite.positive.finite.positive =>
    simp [UnpackedFloat.compare, key, compare_natCast]

/-- Two numbers compare in the order of their keys, unless one of them is none. -/
theorem any_compare_iff {test : Ordering → Bool} :
    (a.compare b).any test = true ↔
      a ≠ .notANumber ∧ b ≠ .notANumber ∧ test (compare (key a) (key b)) = true := by
  rcases eq_or_ne a .notANumber with rfl | ha
  · exact iff_of_false Bool.false_ne_true fun both => both.1 rfl
  rcases eq_or_ne b .notANumber with rfl | hb
  · rw [compare_notANumber]
    exact iff_of_false Bool.false_ne_true fun both => both.2.1 rfl
  rw [compare_eq_compare_key ha hb, Option.any_some]
  exact (and_iff_right ha).trans (and_iff_right hb) |>.symm

theorem lt_iff_key :
    a.lt b = true ↔ a ≠ .notANumber ∧ b ≠ .notANumber ∧ key a < key b := by
  have any : a.lt b = (a.compare b).any (· == .lt) := by
    rw [UnpackedFloat.lt]
    cases a.compare b <;> rfl
  rw [any, any_compare_iff, beq_iff_eq, compare_lt_iff_lt]

theorem le_iff_key :
    a.le b = true ↔ a ≠ .notANumber ∧ b ≠ .notANumber ∧ key a ≤ key b := by
  rw [UnpackedFloat.le, any_compare_iff, Ordering.isLE_iff_ne_gt, ← compare_le_iff_le]

end Order

instance : ComparesLawfully Float where
  le_trans {a b c} first second := by
    rw [le_iff, le_iff_key] at *
    exact ⟨first.1, second.2.1, first.2.2.trans second.2.2⟩
  le_of_lt {a b} less := by
    rw [lt_iff, lt_iff_key] at less
    rw [le_iff, le_iff_key]
    exact ⟨less.1, less.2.1, less.2.2.le⟩
  not_lt_of_le {a b} atMost less := by
    rw [le_iff, le_iff_key] at atMost
    rw [lt_iff, lt_iff_key] at less
    exact atMost.2.2.not_gt less.2.2
  le_of_not_lt {a b} ha hb notLess := by
    rw [le_iff, le_iff_key] at *
    rw [lt_iff, lt_iff_key] at notLess
    exact ⟨ha.1, hb.1, not_lt.mp fun less => notLess ⟨hb.1, ha.1, less⟩⟩

instance : MaxesLawfully Float where
  zero_le_zero := by decide
  le_self_of_lt {a b} less := by
    rw [lt_iff, lt_iff_key] at less
    rw [le_iff, le_iff_key]
    exact ⟨less.2.1, less.2.1, le_rfl⟩
  max_eq {a b} number := by
    rw [le_iff, le_iff_key] at number
    have compares : a.isNaN = false := by
      rw [isNaN_eq]
      cases word : unpacked a with
      | notANumber => exact absurd word number.1
      | infinity | zero | finite => rfl
    exact if_neg (Bool.eq_false_iff.mp compares)

inductive Outward : UnpackedFloat → Prop
  | zero : Outward (.zero .positive)
  | finite (mantissa : Nat) (exponent : Int) (positive : 0 < mantissa) :
      Outward (.finite .positive mantissa exponent positive)
  | infinity : Outward (.infinity .positive)

section Sums

variable {a b : UnpackedFloat}

theorem Outward.key_injective (ha : Outward a) (hb : Outward b) (same : key a = key b) : a = b := by
  cases ha <;> cases hb <;> simp_all [key]

theorem Outward.ne_notANumber (outward : Outward a) : a ≠ .notANumber := by
  rintro rfl
  cases outward

theorem Outward.isNaN_eq_false (outward : Outward a) : a.isNaN = false := by
  cases outward <;> rfl

theorem outward_round (mantissa : Nat) (exponent : Int) :
    Outward (UnpackedFloat.round .binary64 .positive mantissa exponent) := by
  simp only [UnpackedFloat.round, roundWithAccuracy]
  split
  · exact .zero
  · exact .finite _ _ _

theorem outward_normalize {mantissa : Int} (nonneg : 0 ≤ mantissa) (exponent : Int) :
    Outward (UnpackedFloat.normalize .binary64 mantissa exponent .positive) := by
  rw [UnpackedFloat.normalize]
  split
  next less => exact absurd (Int.compare_eq_lt.mp less) nonneg.not_gt
  next => exact .zero
  next => exact outward_round _ _

theorem Outward.add (ha : Outward a) (nonneg : UnpackedFloat.le (.zero .positive) b = true) :
    Outward (UnpackedFloat.add .binary64 a b) := by
  rcases b with (_ | _) | _ | (_ | _) | ⟨(_ | _), n, f, positive⟩
  all_goals first | cases nonneg; done | skip
  all_goals cases ha
  case finite.positive.finite =>
    exact outward_normalize (Int.add_nonneg (Int.natCast_nonneg _) (Int.natCast_nonneg _)) _
  all_goals constructor

theorem unpackSign_packComponents (sign : Sign) (exponent : BitVec 11) (mantissa : BitVec 52) :
    unpackSign (packComponents .binary64 sign exponent mantissa) = sign.toBitVec := by
  simp only [unpackSign, packComponents, BitVec.extractLsb]
  ext i bound
  grind

theorem outward_unpack_packComponents {exponent : BitVec 11} {mantissa : BitVec 52}
    (number : exponent = -1#11 → mantissa = 0#52) :
    Outward (unpack .binary64 (packComponents .binary64 .positive exponent mantissa)) := by
  have positive : Sign.ofBitVec Sign.positive.toBitVec = .positive := rfl
  simp only [unpack, unpackMantissa_packComponents, unpackExponent_packComponents,
    unpackSign_packComponents, positive]
  split
  next infinite =>
    rw [if_pos (number infinite)]
    exact .infinity
  next =>
    split
    next =>
      split
      · exact .zero
      · exact .finite _ _ _
    next => exact .finite _ _ _

theorem Outward.unpack_pack (outward : Outward a) :
    Outward (unpack .binary64 (pack .binary64 a)) := by
  cases outward with
  | zero => exact outward_unpack_packComponents nofun
  | infinity => exact outward_unpack_packComponents fun _ => rfl
  | finite mantissa exponent positive =>
      simp only [pack]
      split
      next => exact outward_unpack_packComponents fun _ => rfl
      next fits =>
        split
        next =>
          apply outward_unpack_packComponents
          intro infinite
          have := congrArg BitVec.toNat infinite
          simp at this
          omega
        next => exact outward_unpack_packComponents nofun

end Sums

theorem outward_of_lt {a : UnpackedFloat} (less : UnpackedFloat.lt (.zero .positive) a = true) :
    Outward a := by
  rcases a with (_ | _) | _ | _ | ⟨(_ | _), m, e⟩
  all_goals first | constructor | cases less

theorem isOutward_iff {a : Float} : IsOutward a ↔ Outward (unpacked a) := by
  constructor
  · rintro (rfl | positive)
    · exact .zero
    · exact outward_of_lt (lt_iff.mp positive)
  · intro outward
    generalize word : unpacked a = number at outward
    cases outward with
    | zero => exact .inl (unpacked_injective word)
    | finite => exact .inr (lt_iff.mpr (word ▸ rfl))
    | infinity => exact .inr (lt_iff.mpr (word ▸ rfl))

instance : AddsOutward Float where
  le_self {a} outward := by
    have number := (isOutward_iff.mp outward).ne_notANumber
    rw [le_iff, le_iff_key]
    exact ⟨number, number, le_rfl⟩
  antisymm {a b} ha hb there back := by
    rw [isOutward_iff] at ha hb
    rw [le_iff, le_iff_key] at there back
    exact unpacked_injective (ha.key_injective hb (le_antisymm there.2.2 back.2.2))
  max_eq {a b} ha _ := by
    have number : a.isNaN = false := (isOutward_iff.mp ha).isNaN_eq_false
    exact if_neg (Bool.eq_false_iff.mp number)
  add {a b} outward nonneg := by
    rw [isOutward_iff] at outward ⊢
    exact (outward.add (le_iff.mp nonneg)).unpack_pack

end Binary64

end Floorplanner
