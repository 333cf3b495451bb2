import Mathlib
import Floorplanner.Proofs.Outward

/-!
Rounding keeps the order.

A positive sum or product of binary floating point is the exact one, rounded to the nearest multiple
of a power of two. The power depends on how large the number is: numbers with the same power are
rounded in their order, and between numbers with different powers there is a power of two, which
neither of them is rounded past.
-/

namespace Floorplanner

namespace Binary64

open Float.Model (Format UnpackedFloat totalExponent)
open Float.Model.UnpackedFloat

section Mantissas

/-- What a mantissa and the two bits after it say of a number: whether it is on the mantissa, or how
far above it, measured against a half. -/
def Represents (extended : ExtendedMantissa) (number : ℚ) : Prop :=
  match extended.roundBit, extended.stickyBit with
  | false, false => number = extended.mantissa
  | false, true => extended.mantissa < number ∧ number < extended.mantissa + 1 / 2
  | true, false => number = extended.mantissa + 1 / 2
  | true, true => extended.mantissa + 1 / 2 < number ∧ number < extended.mantissa + 1

variable {extended other : ExtendedMantissa} {number further : ℚ}

namespace Represents

theorem exact (mantissa : ℕ) : Represents ⟨mantissa, false, false⟩ mantissa := rfl

theorem mem_Ico (represents : Represents extended number) :
    number ∈ Set.Ico (extended.mantissa : ℚ) (extended.mantissa + 1) := by
  obtain ⟨mantissa, _ | _, _ | _⟩ := extended
  all_goals
    simp only [Represents] at represents
    constructor <;> linarith

theorem shiftRightOne (represents : Represents extended number) :
    Represents extended.shiftRightOne (number / 2) := by
  obtain ⟨mantissa, round, sticky⟩ := extended
  have halves : (mantissa : ℚ) = 2 * (mantissa / 2 : ℕ) + (mantissa % 2 : ℕ) := by
    exact_mod_cast (Nat.div_add_mod mantissa 2).symm
  have parity : mantissa % 2 = 0 ∧ (mantissa % 2 != 0) = false ∨
      mantissa % 2 = 1 ∧ (mantissa % 2 != 0) = true := by
    rcases Nat.mod_two_eq_zero_or_one mantissa with even | odd <;> simp [*]
  obtain ⟨last, bit⟩ | ⟨last, bit⟩ := parity
  all_goals
    rw [last] at halves
    push_cast at halves
    cases round <;> cases sticky
    all_goals
      simp only [Represents, ExtendedMantissa.shiftRightOne, bit, Bool.or_true,
        Bool.or_false] at represents ⊢
      first | linarith | constructor <;> linarith

theorem shiftRight (represents : Represents extended number) (count : ℕ) :
    Represents (extended >>> count) (number / 2 ^ count) := by
  change Represents (count.repeat ExtendedMantissa.shiftRightOne extended) _
  induction count with
  | zero => simpa [Nat.repeat] using represents
  | succ count induction =>
      rw [pow_succ, ← div_div]
      exact induction.shiftRightOne

end Represents

theorem le_roundedMantissa (extended : ExtendedMantissa) :
    extended.mantissa ≤ extended.roundedMantissa := by
  obtain ⟨mantissa, _ | _, _ | _⟩ := extended
  all_goals
    simp only [ExtendedMantissa.roundedMantissa, ExtendedMantissa.accuracy,
      Accuracy.roundToNearestEven]
    omega

theorem roundedMantissa_le (extended : ExtendedMantissa) :
    extended.roundedMantissa ≤ extended.mantissa + 1 := by
  obtain ⟨mantissa, _ | _, _ | _⟩ := extended
  all_goals
    simp only [ExtendedMantissa.roundedMantissa, ExtendedMantissa.accuracy,
      Accuracy.roundToNearestEven]
    omega

theorem Represents.roundedMantissa_le_roundedMantissa (represents : Represents extended number)
    (also : Represents other further) (ordered : number ≤ further) :
    extended.roundedMantissa ≤ other.roundedMantissa := by
  have mantissas : extended.mantissa ≤ other.mantissa := by
    have below : (extended.mantissa : ℚ) < other.mantissa + 1 :=
      (represents.mem_Ico.1.trans ordered).trans_lt also.mem_Ico.2
    exact Nat.lt_succ_iff.mp (by exact_mod_cast below)
  rcases mantissas.lt_or_eq with less | same
  · calc
      extended.roundedMantissa ≤ extended.mantissa + 1 := roundedMantissa_le extended
      _ ≤ other.mantissa := less
      _ ≤ other.roundedMantissa := le_roundedMantissa other
  · obtain ⟨mantissa, round, sticky⟩ := extended
    obtain ⟨_, otherRound, otherSticky⟩ := other
    subst same
    cases round <;> cases sticky <;> cases otherRound <;> cases otherSticky
    all_goals
      simp only [Represents, ExtendedMantissa.roundedMantissa, ExtendedMantissa.accuracy,
        Accuracy.roundToNearestEven] at *
      first | omega | (exfalso; linarith)

end Mantissas

section Exponents

/-- Digits, whole or not, before the power of two that a number with them is a multiple of: as many
as a mantissa has, or fewer of the least power. -/
structure IsCanonical (digits : ℚ) (exponent : ℤ) : Prop where
  least : -1074 ≤ exponent
  short : digits < 2 ^ 53
  leading : 2 ^ 52 ≤ digits ∨ exponent = -1074

namespace IsCanonical

variable {digits further : ℚ} {exponent other : ℤ}

theorem lt_of_lt (canonical : IsCanonical digits exponent) (also : IsCanonical further other)
    (less : exponent < other) : digits * 2 ^ exponent < further * 2 ^ other := by
  have leading : 2 ^ 52 ≤ further := also.leading.resolve_right (canonical.least.trans_lt less).ne'
  calc
    digits * 2 ^ exponent < 2 ^ 53 * 2 ^ exponent := by gcongr; exact canonical.short
    _ = 2 ^ 52 * 2 ^ (exponent + 1) := by rw [zpow_add_one₀ two_ne_zero]; ring
    _ ≤ further * 2 ^ other := by
      have steps : exponent + 1 ≤ other := less
      gcongr
      exact one_le_two

theorem exponent_le (canonical : IsCanonical digits exponent) (also : IsCanonical further other)
    (ordered : digits * 2 ^ exponent ≤ further * 2 ^ other) : exponent ≤ other := by
  by_contra! less
  exact ordered.not_gt (also.lt_of_lt canonical less)

end IsCanonical

def positive (mantissa : ℕ) (exponent : ℤ) : UnpackedFloat :=
  if zero : mantissa = 0 then .zero .positive
  else .finite .positive mantissa exponent (Nat.pos_of_ne_zero zero)

/-- A rounded mantissa with its exponent; one digit too many is carried. -/
def carry (mantissa : ℕ) (exponent : ℤ) : UnpackedFloat :=
  if mantissa < 2 ^ 53 then positive mantissa exponent else positive (2 ^ 52) (exponent + 1)

inductive RoundsTo (number : ℚ) : UnpackedFloat → Prop
  | intro {digits : ℚ} {exponent : ℤ} {extended : ExtendedMantissa}
      (equal : digits * 2 ^ exponent = number) (canonical : IsCanonical digits exponent)
      (represents : Represents extended digits) :
      RoundsTo number (carry extended.roundedMantissa exponent)

theorem key_positive_le {mantissa larger : ℕ} {exponent other : ℤ}
    (ordered : exponent = other ∧ mantissa ≤ larger ∨ exponent < other ∧ 0 < larger) :
    key (positive mantissa exponent) ≤ key (positive larger other) := by
  rw [positive, positive]
  split <;> split
  all_goals
    simp only [key, Prod.Lex.toLex_le_toLex, lt_self_iff_false, false_or, true_and]
    omega

theorem exponent_le_of_key_le {mantissa larger : ℕ} {exponent other : ℤ} (some : 0 < mantissa)
    (ordered : key (positive mantissa exponent) ≤ key (positive larger other)) :
    exponent ≤ other := by
  rw [positive, positive, dif_neg some.ne'] at ordered
  split at ordered
  all_goals
    simp only [key, Prod.Lex.toLex_le_toLex] at ordered
    omega

theorem key_carry_le {mantissa larger : ℕ} {exponent other : ℤ} (short : mantissa ≤ 2 ^ 53)
    (ordered : exponent = other ∧ mantissa ≤ larger ∨ exponent < other ∧ 2 ^ 52 ≤ larger) :
    key (carry mantissa exponent) ≤ key (carry larger other) := by
  rw [carry, carry]
  split <;> split
  all_goals
    apply key_positive_le
    omega

end Exponents

section Rounding

variable {mantissa : ℕ} {exponent : ℤ}

/-- The exponent of the power of two that a number is rounded to a multiple of. -/
def target (mantissa : ℕ) (exponent : ℤ) : ℤ :=
  Format.binary64.targetExponent (totalExponent mantissa exponent)

theorem target_eq (mantissa : ℕ) (exponent : ℤ) :
    target mantissa exponent = Max.max ((mantissa.log2 : ℤ) + 1 + exponent - 53) (-1074) := by
  simp only [target, Format.targetExponent, totalExponent, Format.mantissaBits, Format.minExponent]
  norm_num

theorem isCanonical_target (some : 0 < mantissa) (fine : exponent ≤ target mantissa exponent) :
    IsCanonical (mantissa / 2 ^ (target mantissa exponent - exponent).toNat)
      (target mantissa exponent) := by
  have target_eq := target_eq mantissa exponent
  generalize target mantissa exponent = unit at *
  obtain ⟨count, steps⟩ : ∃ count : ℕ, unit = exponent + count :=
    ⟨(unit - exponent).toNat, by omega⟩
  have shift : (unit - exponent).toNat = count := by omega
  rw [shift]
  refine ⟨by omega, ?_, ?_⟩
  · rw [div_lt_iff₀ (by positivity)]
    have short : mantissa < 2 ^ (53 + count) := by
      calc
        mantissa < 2 ^ (mantissa.log2 + 1) := Nat.lt_log2_self
        _ ≤ 2 ^ (53 + count) := Nat.pow_le_pow_right two_pos (by omega)
    rw [pow_add] at short
    exact_mod_cast short
  · by_cases least : unit = -1074
    · exact .inr least
    · left
      rw [le_div_iff₀ (by positivity)]
      have leading : mantissa.log2 = 52 + count := by omega
      have long : 2 ^ (52 + count) ≤ mantissa := leading ▸ Nat.log2_self_le some.ne'
      rw [pow_add] at long
      exact_mod_cast long

theorem shiftToTargetExponent_eq (mantissa : ℕ) (exponent : ℤ) :
    shiftToTargetExponent .binary64 mantissa exponent .exact =
      (ExtendedMantissa.mk mantissa false false >>> (target mantissa exponent - exponent).toNat,
        exponent + (target mantissa exponent - exponent).toNat) := rfl

theorem shiftToTargetExponent_of_lt (short : mantissa < 2 ^ 53) (least : -1074 ≤ exponent) :
    shiftToTargetExponent .binary64 mantissa exponent .exact =
      (⟨mantissa, false, false⟩, exponent) := by
  have digits : mantissa.log2 ≤ 52 := by
    rcases Nat.eq_zero_or_pos mantissa with rfl | some
    · decide
    · exact Nat.lt_succ_iff.mp ((Nat.log2_lt some.ne').mpr short)
  have none : (target mantissa exponent - exponent).toNat = 0 := by
    rw [target_eq]
    omega
  rw [shiftToTargetExponent_eq, none]
  exact Prod.ext rfl (add_zero exponent)

theorem shiftToTargetExponent_two_pow (least : -1074 ≤ exponent) :
    shiftToTargetExponent .binary64 (2 ^ 53) exponent .exact =
      (⟨2 ^ 52, false, false⟩, exponent + 1) := by
  have one : (target (2 ^ 53) exponent - exponent).toNat = 1 := by
    rw [target_eq, Nat.log2_two_pow]
    omega
  rw [shiftToTargetExponent_eq, one]
  rfl

theorem IsCanonical.roundedMantissa_le {digits : ℚ} {extended : ExtendedMantissa}
    (canonical : IsCanonical digits exponent) (represents : Represents extended digits) :
    extended.roundedMantissa ≤ 2 ^ 53 := by
  have below : (extended.mantissa : ℚ) < 2 ^ 53 := represents.mem_Ico.1.trans_lt canonical.short
  calc
    extended.roundedMantissa ≤ extended.mantissa + 1 := Binary64.roundedMantissa_le extended
    _ ≤ 2 ^ 53 := Nat.succ_le_of_lt (by exact_mod_cast below)

theorem roundsTo_roundWithAccuracy (some : 0 < mantissa)
    (fine : exponent ≤ target mantissa exponent) :
    RoundsTo (mantissa * 2 ^ exponent)
      (roundWithAccuracy .binary64 .positive mantissa exponent .exact) := by
  have canonical := isCanonical_target some fine
  have represents := (Represents.exact mantissa).shiftRight
    (target mantissa exponent - exponent).toNat
  have short := canonical.roundedMantissa_le represents
  have steps : exponent + (target mantissa exponent - exponent).toNat =
      target mantissa exponent := by omega
  have equal : mantissa / 2 ^ (target mantissa exponent - exponent).toNat *
      2 ^ target mantissa exponent = (mantissa * 2 ^ exponent : ℚ) := by
    rw [← zpow_natCast, Int.toNat_of_nonneg (sub_nonneg.mpr fine), zpow_sub₀ two_ne_zero]
    field_simp
  convert RoundsTo.intro equal canonical represents
  rw [roundWithAccuracy, shiftToTargetExponent_eq, steps, carry]
  dsimp only
  by_cases less : (ExtendedMantissa.mk mantissa false false >>>
      (target mantissa exponent - exponent).toNat).roundedMantissa < 2 ^ 53
  · rw [if_pos less, shiftToTargetExponent_of_lt less canonical.least]
    rfl
  · rw [if_neg less, short.antisymm (not_lt.mp less),
      shiftToTargetExponent_two_pow canonical.least]
    rfl

theorem log2_shiftLeft (some : 0 < mantissa) (count : ℕ) :
    (mantissa <<< count).log2 = mantissa.log2 + count := by
  rw [Nat.shiftLeft_eq, Nat.log2_eq_iff (by positivity), add_right_comm, pow_add, pow_add]
  constructor
  · exact Nat.mul_le_mul_right _ (Nat.log2_self_le some.ne')
  · exact Nat.mul_lt_mul_of_pos_right Nat.lt_log2_self (by positivity)

theorem roundsTo_round (some : 0 < mantissa) :
    RoundsTo (mantissa * 2 ^ exponent)
      (UnpackedFloat.round .binary64 .positive mantissa exponent) := by
  obtain ⟨count, amount⟩ : ∃ count : ℕ, (exponent - target mantissa exponent).toNat = count :=
    ⟨_, rfl⟩
  have more : 0 < mantissa <<< count := by
    rw [Nat.shiftLeft_eq]
    positivity
  have rounded : UnpackedFloat.round .binary64 .positive mantissa exponent =
      roundWithAccuracy .binary64 .positive (mantissa <<< count) (exponent - count) .exact := by
    rw [← amount]
    rfl
  have equal : ((mantissa <<< count : ℕ) : ℚ) * 2 ^ (exponent - count) =
      mantissa * 2 ^ exponent := by
    rw [Nat.shiftLeft_eq, zpow_sub₀ two_ne_zero, zpow_natCast]
    push_cast
    field_simp
  rw [rounded, ← equal]
  apply roundsTo_roundWithAccuracy more
  rw [target_eq] at amount ⊢
  rw [log2_shiftLeft some]
  omega

end Rounding

section Order

variable {number further : ℚ} {a b : UnpackedFloat}

theorem RoundsTo.key_le (rounds : RoundsTo number a) (also : RoundsTo further b)
    (ordered : number ≤ further) : key a ≤ key b := by
  obtain ⟨equal, canonical, represents⟩ := rounds
  obtain ⟨furtherEqual, alsoCanonical, alsoRepresents⟩ := also
  rw [← equal, ← furtherEqual] at ordered
  apply key_carry_le (canonical.roundedMantissa_le represents)
  rcases (canonical.exponent_le alsoCanonical ordered).eq_or_lt with same | less
  · left
    subst same
    have digits := le_of_mul_le_mul_right ordered (zpow_pos two_pos _)
    exact ⟨rfl, represents.roundedMantissa_le_roundedMantissa alsoRepresents digits⟩
  · right
    have leading := alsoCanonical.leading.resolve_right (canonical.least.trans_lt less).ne'
    have below := leading.trans_lt alsoRepresents.mem_Ico.2
    exact ⟨less, (Nat.lt_succ_iff.mp (by exact_mod_cast below)).trans (le_roundedMantissa _)⟩

end Order

section Words

variable {mantissa : ℕ} {exponent : ℤ} {number further : ℚ} {a b : UnpackedFloat}

/-- The numbers that a word of 64 bits can say, up to the largest exponent. -/
def IsWord : UnpackedFloat → Prop
  | .finite _ mantissa exponent _ => IsCanonical mantissa exponent
  | _ => True

theorem toNat_ofNat_of_lt (short : mantissa < 2 ^ 52) :
    (BitVec.ofNat 52 mantissa).toNat = mantissa := by
  rw [BitVec.toNat_ofNat, Nat.mod_eq_of_lt short]

theorem isWord_unpack (word : BitVec Format.binary64.numBits) : IsWord (unpack .binary64 word) := by
  have short : (unpackMantissa word).toNat < 2 ^ 52 := (unpackMantissa word).isLt
  have normal : (1#1 ++ unpackMantissa word).toNat = 2 ^ 52 + (unpackMantissa word).toNat :=
    toNat_one_append (unpackMantissa word)
  have bias : (Format.binary64.exponentBias : ℤ) + Format.binary64.mantissaBitsWithoutImplicit =
      1075 := rfl
  simp only [unpack, bias]
  split
  · split <;> trivial
  · split
    next least =>
      split
      · trivial
      · refine ⟨?_, by exact_mod_cast short.trans (by norm_num), .inr ?_⟩
        all_goals
          rw [least]
          decide
    next notLeast =>
      have some : (unpackExponent word).toNat ≠ 0 :=
        fun zero => notLeast (BitVec.eq_of_toNat_eq zero)
      rw [IsWord, normal]
      refine ⟨by omega, ?_, .inl ?_⟩
      · exact_mod_cast (by omega : 2 ^ 52 + (unpackMantissa word).toNat < 2 ^ 53)
      · exact_mod_cast Nat.le_add_right (2 ^ 52) (unpackMantissa word).toNat

theorem RoundsTo.exists_positive (rounds : RoundsTo number a) :
    ∃ (mantissa : ℕ) (exponent : ℤ),
      IsCanonical mantissa exponent ∧ a = positive mantissa exponent := by
  obtain ⟨-, canonical, represents⟩ := rounds
  rw [carry]
  split
  next less =>
    refine ⟨_, _, ⟨canonical.least, by exact_mod_cast less, canonical.leading.imp_left ?_⟩, rfl⟩
    intro leading
    have below := leading.trans_lt represents.mem_Ico.2
    have digits := (Nat.lt_succ_iff.mp (by exact_mod_cast below)).trans (le_roundedMantissa _)
    exact_mod_cast digits
  next => exact ⟨_, _, ⟨canonical.least.trans (by simp), by norm_num, .inl (by norm_num)⟩, rfl⟩

theorem sign_positive : Sign.ofBitVec Sign.positive.toBitVec = .positive := rfl

theorem unpack_pack_normal {exponent : BitVec 11} {mantissa : BitVec 52} (finite : exponent ≠ -1#11)
    (notLeast : exponent ≠ 0#11) (some : 0 < (1#1 ++ mantissa).toNat) :
    unpack .binary64 (pack .binary64
        (.finite .positive (1#1 ++ mantissa).toNat ((exponent.toNat : ℤ) - 1075) some)) =
      .finite .positive (1#1 ++ mantissa).toNat ((exponent.toNat : ℤ) - 1075) some := by
  rw [pack_normal finite some]
  simp only [unpack, unpackMantissa_packComponents, unpackExponent_packComponents,
    unpackSign_packComponents, sign_positive]
  rw [if_neg finite, if_neg notLeast]
  rfl

theorem unpack_pack_subnormal {mantissa : BitVec 52} (some : 0 < mantissa.toNat) :
    unpack .binary64 (pack .binary64 (.finite .positive mantissa.toNat (-1074) some)) =
      .finite .positive mantissa.toNat (-1074) some := by
  have notZero : mantissa ≠ 0#52 := by
    rintro rfl
    exact some.ne rfl
  rw [pack_subnormal some]
  simp only [unpack, unpackMantissa_packComponents, unpackExponent_packComponents,
    unpackSign_packComponents, sign_positive]
  rw [if_neg (by decide), if_pos trivial, dif_neg notZero]
  rfl

theorem unpack_pack_infinite (some : 0 < mantissa) (large : 971 < exponent) :
    unpack .binary64 (pack .binary64 (.finite .positive mantissa exponent some)) =
      .infinity .positive := by
  have biased : 2 ^ Format.binary64.exponentBits ≤ (exponent + Format.binary64.exponentBias +
      Format.binary64.mantissaBitsWithoutImplicit).toNat + 1 := by
    change 2 ^ 11 ≤ (exponent + 1023 + 52).toNat + 1
    omega
  simp only [pack, if_pos biased]
  rfl

/-- Packing leaves the numbers that there are as they are, and makes the larger ones infinite. -/
theorem unpack_pack_positive (canonical : IsCanonical mantissa exponent) :
    unpack .binary64 (pack .binary64 (positive mantissa exponent)) =
      if exponent ≤ 971 then positive mantissa exponent else .infinity .positive := by
  have least := canonical.least
  have short : mantissa < 2 ^ 53 := by exact_mod_cast canonical.short
  have leading : 2 ^ 52 ≤ mantissa ∨ exponent = -1074 := by exact_mod_cast canonical.leading
  rw [positive]
  split
  next zero =>
    have unit : exponent = -1074 := leading.resolve_left (by omega)
    rw [if_pos (by omega)]
    rfl
  next some =>
    split
    next fits =>
      by_cases long : 2 ^ 52 ≤ mantissa
      · obtain ⟨digits, rfl⟩ : ∃ digits : BitVec 52, mantissa = (1#1 ++ digits).toNat := by
          refine ⟨BitVec.ofNat 52 (mantissa - 2 ^ 52), ?_⟩
          rw [toNat_one_append, toNat_ofNat_of_lt (by omega)]
          omega
        obtain ⟨biased, rfl, bounds⟩ : ∃ biased : BitVec 11,
            exponent = (biased.toNat : ℤ) - 1075 ∧ biased.toNat ≠ 2047 ∧ biased.toNat ≠ 0 := by
          have value : (BitVec.ofNat 11 (exponent + 1075).toNat).toNat =
              (exponent + 1075).toNat := by
            rw [BitVec.toNat_ofNat]
            omega
          refine ⟨BitVec.ofNat 11 (exponent + 1075).toNat, ?_⟩
          rw [value]
          omega
        apply unpack_pack_normal
        · rintro rfl
          exact bounds.1 rfl
        · rintro rfl
          exact bounds.2 rfl
      · have unit := leading.resolve_left long
        subst unit
        obtain ⟨digits, rfl⟩ : ∃ digits : BitVec 52, mantissa = digits.toNat :=
          ⟨_, (toNat_ofNat_of_lt (not_le.mp long)).symm⟩
        exact unpack_pack_subnormal (Nat.pos_of_ne_zero some)
    next large => exact unpack_pack_infinite _ (not_le.mp large)

theorem key_le_infinity (a : UnpackedFloat) : key a ≤ key (.infinity .positive) := by
  rcases a with (_ | _) | _ | _ | ⟨(_ | _), m, e⟩
  all_goals simp [key, Prod.Lex.toLex_le_toLex]

theorem outward_positive (mantissa : ℕ) (exponent : ℤ) : Outward (positive mantissa exponent) := by
  rw [positive]
  split
  · exact .zero
  · exact .finite _ _ _

theorem RoundsTo.outward (rounds : RoundsTo number a) : Outward a := by
  obtain ⟨mantissa, exponent, -, rfl⟩ := rounds.exists_positive
  exact outward_positive mantissa exponent

/-- Numbers that are rounded and then packed are in the order of the exact ones. -/
theorem RoundsTo.le_pack (rounds : RoundsTo number a) (also : RoundsTo further b)
    (ordered : number ≤ further) :
    (unpack .binary64 (pack .binary64 a)).le (unpack .binary64 (pack .binary64 b)) = true := by
  have keys := rounds.key_le also ordered
  obtain ⟨mantissa, exponent, canonical, rfl⟩ := rounds.exists_positive
  obtain ⟨larger, other, alsoCanonical, rfl⟩ := also.exists_positive
  have numbers := (outward_positive mantissa exponent).unpack_pack.ne_notANumber
  have furtherNumbers := (outward_positive larger other).unpack_pack.ne_notANumber
  rw [le_iff_key]
  refine ⟨numbers, furtherNumbers, ?_⟩
  rw [unpack_pack_positive alsoCanonical]
  split
  next fits =>
    have exponents : exponent ≤ 971 := by
      by_contra! large
      have leading : (2 ^ 52 : ℚ) ≤ mantissa := canonical.leading.resolve_right (by omega)
      have some : 2 ^ 52 ≤ mantissa := by exact_mod_cast leading
      have ordered := exponent_le_of_key_le (Nat.zero_lt_of_lt some) keys
      omega
    rwa [unpack_pack_positive canonical, if_pos exponents]
  next => exact key_le_infinity _

end Words

end Binary64

end Floorplanner
