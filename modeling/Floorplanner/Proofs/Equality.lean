import Mathlib
import Floorplanner.Binary64
import Floorplanner.Proofs.ExactNumber

/-!
Equal numbers that are not the same number.

Binary floating point has two zeros. They are equal, and no sum, product or comparison tells them
apart but by the sign of a zero, which is equal again. So what is computed from equal numbers without
a division is equal. A NaN equals nothing, but it is the same as itself.
-/

namespace Floorplanner

namespace Number

variable {α : Type} [Number α]

/-- Whether numbers are the same, or equal as the zeros of either sign are. -/
def Alike (a b : α) : Prop := a = b ∨ (a == b) = true

@[refl] theorem Alike.refl (a : α) : Alike a a := .inl rfl

theorem Alike.ite {a b c d : α} {p q : Prop} [Decidable p] [Decidable q] (same : p ↔ q)
    (first : Alike a b) (second : Alike c d) :
    Alike (if p then a else c) (if q then b else d) := by
  by_cases q
  all_goals simp_all

/-- Numbers with an equality that goes through sums, products and comparisons. -/
class RespectsEquality (α : Type) [Number α] : Prop where
  symm {a b : α} : (a == b) = true → (b == a) = true
  trans {a b c : α} : (a == b) = true → (b == c) = true → (a == c) = true
  add {a b c d : α} : Alike a b → Alike c d → Alike (a + c) (b + d)
  sub {a b c d : α} : Alike a b → Alike c d → Alike (a - c) (b - d)
  mul {a b c d : α} : Alike a b → Alike c d → Alike (a * c) (b * d)
  min {a b c d : α} : Alike a b → Alike c d → Alike (min a c) (min b d)
  max {a b c d : α} : Alike a b → Alike c d → Alike (max a c) (max b d)
  abs {a b : α} : Alike a b → Alike (abs a) (abs b)
  lt_iff_lt {a b c d : α} : Alike a b → Alike c d → (a < c ↔ b < d)
  le_iff_le {a b c d : α} : Alike a b → Alike c d → (a ≤ c ↔ b ≤ d)

/-- Numbers that zero is added to without a change, but for the sign of a zero. -/
class AddsZero (α : Type) [Number α] : Prop where
  add_zero (a : α) : Alike (a + 0) a

theorem Alike.beq_eq [RespectsEquality α] {a b : α} (alike : Alike a b) (c : α) :
    (a == c) = (b == c) := by
  rcases alike with rfl | equal
  · rfl
  · rw [Bool.eq_iff_iff]
    exact ⟨RespectsEquality.trans (RespectsEquality.symm equal), RespectsEquality.trans equal⟩

end Number

open Number

section Exact

variable {α : Type} [ExactNumber α]

theorem ExactNumber.alike_iff {a b : α} : Alike a b ↔ a = b := by
  simp [Alike]

instance : RespectsEquality α where
  symm equal := beq_iff_eq.mpr (beq_iff_eq.mp equal).symm
  trans first second := beq_iff_eq.mpr ((beq_iff_eq.mp first).trans (beq_iff_eq.mp second))
  add first second := by simp_all [ExactNumber.alike_iff]
  sub first second := by simp_all [ExactNumber.alike_iff]
  mul first second := by simp_all [ExactNumber.alike_iff]
  min first second := by simp_all [ExactNumber.alike_iff]
  max first second := by simp_all [ExactNumber.alike_iff]
  abs alike := by simp_all [ExactNumber.alike_iff]
  lt_iff_lt first second := by simp_all [ExactNumber.alike_iff]
  le_iff_le first second := by simp_all [ExactNumber.alike_iff]

instance : AddsZero α where
  add_zero a := .inl (add_zero a)

end Exact

namespace Binary64

open Float.Model (Format UnpackedFloat)
open Float.Model.UnpackedFloat

section Words

variable {word other : BitVec Format.binary64.numBits}

theorem toBitVec_ofBitVec (bit : BitVec 1) : (Sign.ofBitVec bit).toBitVec = bit := by
  revert bit
  decide

/-- A word is its sign, its exponent and its mantissa in a row. -/
theorem packComponents_unpack (word : BitVec Format.binary64.numBits) :
    packComponents .binary64 (Sign.ofBitVec (unpackSign word)) (unpackExponent word)
      (unpackMantissa word) = word := by
  simp only [packComponents, toBitVec_ofBitVec, unpackSign, unpackExponent, unpackMantissa,
    BitVec.extractLsb]
  ext i bound
  grind

theorem toNat_one_append {width : Nat} (mantissa : BitVec width) :
    (1#1 ++ mantissa).toNat = 2 ^ width + mantissa.toNat := by
  rw [BitVec.toNat_append, ← Nat.shiftLeft_add_eq_or_of_lt mantissa.isLt]
  simp [Nat.shiftLeft_eq]

def IsNaN (word : BitVec Format.binary64.numBits) : Prop :=
  unpackExponent word = -1#_ ∧ unpackMantissa word ≠ 0#_

theorem unpack_eq_notANumber_iff : unpack .binary64 word = .notANumber ↔ IsNaN word := by
  rw [unpack, IsNaN]
  grind

/-- Other numbers tell all of their bits: the mantissa of a normal one exceeds all others. -/
theorem components_eq (number : ¬ IsNaN word)
    (same : unpack .binary64 word = unpack .binary64 other) :
    Sign.ofBitVec (unpackSign word) = Sign.ofBitVec (unpackSign other) ∧
      unpackExponent word = unpackExponent other ∧ unpackMantissa word = unpackMantissa other := by
  have otherNumber : ¬ IsNaN other := by
    rwa [← unpack_eq_notANumber_iff, ← same, unpack_eq_notANumber_iff]
  rw [IsNaN] at number otherNumber
  have bound := (unpackMantissa word).isLt
  have otherBound := (unpackMantissa other).isLt
  have normal := toNat_one_append (unpackMantissa word)
  have otherNormal := toNat_one_append (unpackMantissa other)
  simp only [unpack] at same
  simp only [← BitVec.toNat_inj] at *
  split at same
  next => grind
  next =>
    split at same
    next => split at same <;> grind
    next => grind

theorem unpack_injective (valid : Format.binary64.Valid word)
    (otherValid : Format.binary64.Valid other)
    (same : unpack .binary64 word = unpack .binary64 other) : word = other := by
  by_cases nan : IsNaN word
  · have otherNan : IsNaN other := by
      rwa [← unpack_eq_notANumber_iff, ← same, unpack_eq_notANumber_iff]
    rw [valid.eq_packedNaN nan.1 nan.2, otherValid.eq_packedNaN otherNan.1 otherNan.2]
  · obtain ⟨signs, exponents, mantissas⟩ := components_eq nan same
    rw [← packComponents_unpack word, ← packComponents_unpack other, signs, exponents, mantissas]

end Words

section Packing

variable {sign : Sign} {exponent : BitVec 11} {mantissa : BitVec 52}

theorem pack_subnormal (positive : 0 < mantissa.toNat) :
    UnpackedFloat.pack .binary64 (.finite sign mantissa.toNat (-1074) positive) =
      packComponents .binary64 sign 0#11 mantissa := by
  have short : mantissa.toNat.log2 < 52 := (Nat.log2_lt positive.ne').mpr mantissa.isLt
  have notNormal : ¬ mantissa.toNat.log2 + 1 = Format.binary64.mantissaBits := by
    change ¬ _ = 53
    omega
  simp only [UnpackedFloat.pack]
  rw [if_neg (by decide), if_neg notNormal, BitVec.ofNat_toNat, BitVec.setWidth_eq]

theorem pack_normal (finite : exponent ≠ -1#11) (positive : 0 < (1#1 ++ mantissa).toNat) :
    UnpackedFloat.pack .binary64
        (.finite sign (1#1 ++ mantissa).toNat ((exponent.toNat : Int) - 1075) positive) =
      packComponents .binary64 sign exponent mantissa := by
  have biased : ((exponent.toNat : Int) - 1075 + Format.binary64.exponentBias +
      Format.binary64.mantissaBitsWithoutImplicit).toNat = exponent.toNat := by
    change ((exponent.toNat : Int) - 1075 + 1023 + 52).toNat = _
    omega
  have fits : ¬ 2 ^ 11 ≤ exponent.toNat + 1 := by
    have largest : exponent.toNat ≠ 2047 := fun same => finite (BitVec.eq_of_toNat_eq same)
    have := exponent.isLt
    omega
  have long : (1#1 ++ mantissa).toNat.log2 + 1 = Format.binary64.mantissaBits := by
    have bound := mantissa.isLt
    have leading : (1#1 ++ mantissa).toNat.log2 = 52 := by
      rw [Nat.log2_eq_iff positive.ne', toNat_one_append]
      omega
    rw [leading]
    rfl
  have cleared : BitVec.ofNat 52 (1#1 ++ mantissa).toNat = mantissa := by
    apply BitVec.eq_of_toNat_eq
    rw [toNat_one_append, BitVec.toNat_ofNat, Nat.add_mod_left, Nat.mod_eq_of_lt mantissa.isLt]
  simp only [UnpackedFloat.pack]
  rw [biased, if_neg fits, if_pos long, cleared, BitVec.ofNat_toNat, BitVec.setWidth_eq]

/-- Every word is the one that its number is packed into. -/
theorem pack_unpack {word : BitVec Format.binary64.numBits} (valid : Format.binary64.Valid word) :
    UnpackedFloat.pack .binary64 (unpack .binary64 word) = word := by
  have whole := packComponents_unpack word
  simp only [unpack]
  split
  next infinite =>
    split
    next none =>
      rw [infinite, none] at whole
      exact whole
    next some => exact (valid.eq_packedNaN infinite some).symm
  next finite =>
    split
    next least =>
      rw [least] at whole
      split
      next none =>
        rw [none] at whole
        exact whole
      next some =>
        rw [least]
        exact (pack_subnormal _).trans whole
    next normal => exact (pack_normal finite _).trans whole

end Packing

inductive Same : UnpackedFloat → UnpackedFloat → Prop
  | refl (number : UnpackedFloat) : Same number number
  | zero (sign other : Sign) : Same (.zero sign) (.zero other)

namespace Same

variable {a b c d : UnpackedFloat}

theorem symm (same : Same a b) : Same b a := by
  cases same with
  | refl => exact .refl _
  | zero sign other => exact .zero other sign

theorem trans (first : Same a b) (second : Same b c) : Same a c := by
  cases first with
  | refl => exact second
  | zero sign other =>
      cases second with
      | refl => exact .zero sign other
      | zero _ last => exact .zero sign last

/-- The only numbers that compare as equal are the same, and the zeros. -/
theorem of_beq (equal : a.beq b = true) : Same a b := by
  have compares : a.compare b = some .eq := beq_iff_eq.mp equal
  have mantissas {m n : Nat} {e f : Int} (compares : (compare e f).then (compare m n) = .eq) :
      m = n ∧ e = f := by
    obtain ⟨exponents, mantissas⟩ := Ordering.then_eq_eq.mp compares
    exact ⟨Nat.compare_eq_eq.mp mantissas, Int.compare_eq_eq.mp exponents⟩
  revert compares
  fun_cases UnpackedFloat.compare a b with
  | case3 sign other =>
      intro compares
      cases sign <;> cases other <;> first | exact .refl _ | cases compares
  | case12 sign other => exact fun _ => .zero sign other
  | case13 m e _ n f _ =>
      intro compares
      obtain ⟨rfl, rfl⟩ := mantissas (Ordering.swap_eq_eq.mp (Option.some.inj compares))
      exact .refl _
  | case16 m e _ n f _ =>
      intro compares
      obtain ⟨rfl, rfl⟩ := mantissas (Option.some.inj compares)
      exact .refl _
  | _ => nofun

theorem congr₂ {f : UnpackedFloat → UnpackedFloat → UnpackedFloat}
    (left : ∀ sign other c, Same (f (.zero sign) c) (f (.zero other) c))
    (right : ∀ sign other a, Same (f a (.zero sign)) (f a (.zero other)))
    (first : Same a b) (second : Same c d) : Same (f a c) (f b d) := by
  have there : Same (f a c) (f b c) := by
    cases first with
    | refl => exact .refl _
    | zero sign other => exact left sign other c
  refine there.trans ?_
  cases second with
  | refl => exact .refl _
  | zero sign other => exact right sign other b

theorem add (first : Same a b) (second : Same c d) :
    Same (.add Format.binary64 a c) (.add Format.binary64 b d) := by
  apply congr₂ _ _ first second
  all_goals
    intro sign other number
    cases number with
    | zero third => cases sign <;> cases other <;> cases third <;> constructor
    | _ => exact .refl _

theorem sub (first : Same a b) (second : Same c d) :
    Same (.sub Format.binary64 a c) (.sub Format.binary64 b d) := by
  apply congr₂ _ _ first second
  all_goals
    intro sign other number
    cases number with
    | zero third => cases sign <;> cases other <;> cases third <;> constructor
    | _ => exact .refl _

theorem mul (first : Same a b) (second : Same c d) :
    Same (.mul Format.binary64 a c) (.mul Format.binary64 b d) := by
  apply congr₂ _ _ first second
  all_goals
    intro sign other number
    cases number with
    | zero third => exact .zero _ _
    | finite => exact .zero _ _
    | _ => exact .refl _

theorem abs (same : Same a b) : Same a.abs b.abs := by
  cases same <;> exact .refl _

theorem compare_eq (first : Same a b) (second : Same c d) : a.compare c = b.compare d := by
  have there : a.compare c = b.compare c := by
    cases first with
    | refl => rfl
    | zero sign other =>
        cases c with
        | infinity third | finite third => cases third <;> rfl
        | _ => rfl
  rw [there]
  cases second with
  | refl => rfl
  | zero sign other =>
      cases b with
      | infinity third | finite third => cases third <;> rfl
      | _ => rfl

theorem isNaN_eq (same : Same a b) : a.isNaN = b.isNaN := by
  cases same <;> rfl

end Same

section Numbers

variable {a b c d : Float}

def unpacked (number : Float) : UnpackedFloat := number.toModel.unpack

theorem beq_eq : (a == b) = (unpacked a).beq (unpacked b) := rfl

theorem lt_iff : a < b ↔ (unpacked a).lt (unpacked b) = true := decide_eq_true_iff

theorem le_iff : a ≤ b ↔ (unpacked a).le (unpacked b) = true := decide_eq_true_iff

theorem isNaN_eq : a.isNaN = (unpacked a).isNaN := rfl

theorem unpacked_injective (same : unpacked a = unpacked b) : a = b := by
  obtain ⟨⟨⟨word⟩, valid⟩⟩ := a
  obtain ⟨⟨⟨other⟩, otherValid⟩⟩ := b
  cases unpack_injective valid otherValid same
  rfl

theorem ofModel_pack_unpacked (a : Float) : Float.ofModel (.pack (unpacked a)) = a := by
  obtain ⟨⟨⟨word⟩, valid⟩⟩ := a
  have same : UnpackedFloat.pack .binary64 (unpack .binary64 word) = word := pack_unpack valid
  exact unpacked_injective (congrArg (unpack .binary64) same)

theorem alike_iff_same : Alike a b ↔ Same (unpacked a) (unpacked b) := by
  constructor
  · rintro (rfl | equal)
    · exact .refl _
    · exact Same.of_beq equal
  · intro same
    generalize first : unpacked a = word at same
    generalize second : unpacked b = other at same
    cases same with
    | refl => exact .inl (unpacked_injective (first.trans second.symm))
    | zero => exact .inr (by rw [beq_eq, first, second]; rfl)

theorem alike_pack {a b : UnpackedFloat} (same : Same a b) :
    Alike (Float.ofModel (.pack a)) (Float.ofModel (.pack b)) := by
  cases same with
  | refl => exact .refl _
  | zero sign other => exact .inr (by cases sign <;> cases other <;> decide +kernel)

theorem lt_iff_lt (first : Alike a b) (second : Alike c d) : a < c ↔ b < d := by
  rw [lt_iff, lt_iff, UnpackedFloat.lt, UnpackedFloat.lt,
    (alike_iff_same.mp first).compare_eq (alike_iff_same.mp second)]

theorem le_iff_le (first : Alike a b) (second : Alike c d) : a ≤ c ↔ b ≤ d := by
  rw [le_iff, le_iff, UnpackedFloat.le, UnpackedFloat.le,
    (alike_iff_same.mp first).compare_eq (alike_iff_same.mp second)]

theorem isNaN_iff_isNaN (alike : Alike a b) : a.isNaN = true ↔ b.isNaN = true := by
  rw [isNaN_eq, isNaN_eq, (alike_iff_same.mp alike).isNaN_eq]

theorem alike_min (first : Alike a b) (second : Alike c d) :
    Alike (Binary64.min a c) (Binary64.min b d) :=
  .ite (isNaN_iff_isNaN first) second (.ite (lt_iff_lt second first) second first)

theorem alike_max (first : Alike a b) (second : Alike c d) :
    Alike (Binary64.max a c) (Binary64.max b d) :=
  .ite (isNaN_iff_isNaN first) second (.ite (lt_iff_lt first second) second first)

theorem beq_symm (equal : (a == b) = true) : (b == a) = true := by
  have same : Same (unpacked a) (unpacked b) := Same.of_beq equal
  rw [← equal, beq_eq, beq_eq, UnpackedFloat.beq, UnpackedFloat.beq, same.symm.compare_eq same]

theorem beq_trans (first : (a == b) = true) (second : (b == c) = true) : (a == c) = true := by
  have same : Same (unpacked a) (unpacked b) := Same.of_beq first
  rw [← second, beq_eq, beq_eq, UnpackedFloat.beq, UnpackedFloat.beq,
    same.compare_eq (.refl (unpacked c))]

instance : RespectsEquality Float where
  symm := beq_symm
  trans := beq_trans
  add first second := alike_pack ((alike_iff_same.mp first).add (alike_iff_same.mp second))
  sub first second := alike_pack ((alike_iff_same.mp first).sub (alike_iff_same.mp second))
  mul first second := alike_pack ((alike_iff_same.mp first).mul (alike_iff_same.mp second))
  min := alike_min
  max := alike_max
  abs alike := alike_pack (alike_iff_same.mp alike).abs
  lt_iff_lt := lt_iff_lt
  le_iff_le := le_iff_le

instance : AddsZero Float where
  add_zero a := by
    have sum : Same (.add Format.binary64 (unpacked a) (.zero .positive)) (unpacked a) := by
      cases unpacked a with
      | zero sign => cases sign <;> constructor
      | _ => exact .refl _
    have packed := alike_pack sum
    rw [ofModel_pack_unpacked] at packed
    exact packed

end Numbers

end Binary64

end Floorplanner
