import Mathlib
import Floorplanner.Proofs.Rounding

/-!
Sums, differences and products that keep the order.

Numbers that are rounded after every operation are still added, subtracted and multiplied in their
order, wherever the smaller result is positive. Infinities and numbers that are none are let in: they
take part in no positive result, or in an infinite one.
-/

namespace Floorplanner

namespace Number

/-- Numbers of which positive sums, differences and products keep the order. -/
class RoundsMonotonically (α : Type) [Number α] : Prop extends MaxesLawfully α where
  le_self_of_le {a b : α} : a ≤ b → b ≤ b
  max_of_not_le_self {a b : α} : ¬ a ≤ a → max a b = b
  add_le_add {a b c d : α} : a ≤ b → c ≤ d → 0 < a + c → a + c ≤ b + d
  le_self_of_pos_add {a b : α} : 0 < a + b → b ≤ b
  sub_le_sub {a b c : α} : a ≤ b → 0 < a - c → a - c ≤ b - c
  le_self_of_pos_sub {a b : α} : 0 < a - b → a ≤ a
  mul_le_mul {a b c d : α} : 0 ≤ a → a ≤ b → c ≤ d → 0 < a * c → a * c ≤ b * d
  mul_le_self {a b : α} : 0 ≤ a → b ≤ 1 → 0 < a * b → a * b ≤ a
  mul_nonneg {a b : α} : 0 ≤ a → 0 ≤ b → a * b ≤ a * b → 0 ≤ a * b
  le_self_mul {a b : α} : 0 < a → 0 < b → a * b ≤ a * b

section Laws

open ComparesLawfully MaxesLawfully

namespace RoundsMonotonically

variable {α : Type} [Number α] [RoundsMonotonically α] {a b c d : α}

theorem nonpos_of_not_pos (number : a ≤ a) (notPos : ¬ 0 < a) : a ≤ 0 :=
  le_of_not_lt number zero_le_zero notPos

theorem pos_of_nonneg_of_lt (nonneg : 0 ≤ a) (less : a < b) : 0 < b := by
  by_contra notPos
  have nonpos := nonpos_of_not_pos (le_self_of_lt less) notPos
  exact not_lt_of_le (le_trans nonpos nonneg) less

theorem pos_of_pos_of_le (positive : 0 < a) (ordered : a ≤ b) : 0 < b := by
  by_contra notPos
  have nonpos := nonpos_of_not_pos (le_self_of_le ordered) notPos
  exact not_lt_of_le (le_trans ordered nonpos) positive

theorem le_max_left (number : a ≤ a) : a ≤ max a b := by
  rw [max_eq number]
  split
  next less => exact le_of_lt less
  next => exact number

theorem le_max_right (number : b ≤ b) : b ≤ max a b := by
  by_cases self : a ≤ a
  · rw [max_eq self]
    split
    next => exact number
    next notLess => exact le_of_not_lt number self notLess
  · rw [max_of_not_le_self self]
    exact number

theorem max_le (first : a ≤ c) (second : b ≤ c) : max a b ≤ c := by
  by_cases self : a ≤ a
  · rw [max_eq self]
    split
    · exact second
    · exact first
  · rwa [max_of_not_le_self self]

theorem max_le_max_left (ordered : b ≤ c) : max a b ≤ max a c := by
  have later : b ≤ max a c := le_trans ordered (le_max_right (le_self_of_le ordered))
  by_cases number : a ≤ a
  · exact max_le (le_max_left number) later
  · rw [max_of_not_le_self number, max_of_not_le_self number]
    exact ordered

/-- What is not above zero counts as zero, so only positive numbers need to be in order. -/
theorem max_zero_le_max_zero (ordered : 0 < a → a ≤ b) : max a 0 ≤ max b 0 := by
  have nonneg : 0 ≤ max b 0 := le_max_right zero_le_zero
  by_cases positive : 0 < a
  · have larger := ordered positive
    exact max_le (le_trans larger (le_max_left (le_self_of_le larger))) nonneg
  · by_cases number : a ≤ a
    · exact max_le (le_trans (nonpos_of_not_pos number positive) nonneg) nonneg
    · rw [max_of_not_le_self number]
      exact nonneg

theorem mul_le_mul_of_number (nonneg : 0 ≤ a) (also : 0 ≤ c) (first : a ≤ b) (second : c ≤ d)
    (number : a * c ≤ a * c) (larger : b * d ≤ b * d) : a * c ≤ b * d := by
  by_cases positive : 0 < a * c
  · exact mul_le_mul nonneg first second positive
  · exact le_trans (nonpos_of_not_pos number positive)
      (mul_nonneg (le_trans nonneg first) (le_trans also second) larger)

end RoundsMonotonically

end Laws

instance {α : Type} [ExactNumber α] : RoundsMonotonically α where
  le_self_of_le _ := le_rfl
  max_of_not_le_self none := absurd le_rfl none
  add_le_add first second _ := add_le_add first second
  le_self_of_pos_add _ := le_rfl
  sub_le_sub first _ := sub_le_sub_right first _
  le_self_of_pos_sub _ := le_rfl
  mul_le_mul nonneg first second positive :=
    mul_le_mul first second (pos_of_mul_pos_right positive nonneg).le (nonneg.trans first)
  mul_le_self nonneg atMost _ := mul_le_of_le_one_right nonneg atMost
  mul_nonneg first second _ := mul_nonneg first second
  le_self_mul _ _ := le_rfl

end Number

namespace Binary64

open Float.Model (Format UnpackedFloat)
open Float.Model.UnpackedFloat
open Number

section Values

def value : UnpackedFloat → ℚ
  | .finite sign mantissa exponent _ => (sign.apply mantissa : ℤ) * 2 ^ exponent
  | _ => 0

inductive Finite : UnpackedFloat → Prop
  | zero (sign : Sign) : Finite (.zero sign)
  | finite {sign : Sign} {mantissa : ℕ} {exponent : ℤ} {some : 0 < mantissa}
      (canonical : IsCanonical mantissa exponent) : Finite (.finite sign mantissa exponent some)

variable {a b c d : UnpackedFloat} {mantissa : ℕ} {exponent : ℤ}

theorem roundsTo_positive (canonical : IsCanonical mantissa exponent) :
    RoundsTo (mantissa * 2 ^ exponent) (positive mantissa exponent) := by
  have short : mantissa < 2 ^ 53 := by exact_mod_cast canonical.short
  have rounds := RoundsTo.intro rfl canonical (Represents.exact mantissa)
  rwa [show (ExtendedMantissa.mk mantissa false false).roundedMantissa = mantissa from rfl, carry,
    if_pos short] at rounds

theorem Finite.neg (finite : Finite a) : Finite a.neg ∧ value a.neg = -value a := by
  cases finite with
  | zero => exact ⟨.zero _, neg_zero.symm⟩
  | @finite sign mantissa exponent some canonical =>
      refine ⟨.finite canonical, ?_⟩
      cases sign <;> simp [UnpackedFloat.neg, value, Sign.apply]

theorem IsCanonical.scaled_le {larger : ℕ} {other : ℤ} (canonical : IsCanonical mantissa exponent)
    (also : IsCanonical larger other)
    (ordered : exponent < other ∨ exponent = other ∧ (mantissa : ℤ) ≤ larger) :
    (mantissa * 2 ^ exponent : ℚ) ≤ larger * 2 ^ other := by
  obtain less | ⟨rfl, digits⟩ := ordered
  · exact (canonical.lt_of_lt also less).le
  · gcongr
    exact_mod_cast digits

theorem value_le_value (ha : Finite a) (hb : Finite b) (ordered : key a ≤ key b) :
    value a ≤ value b := by
  have nonneg (mantissa : ℕ) (exponent : ℤ) : (0 : ℚ) ≤ mantissa * 2 ^ exponent := by positivity
  obtain _ | @⟨_ | _, m, e, some, canonical⟩ := ha
  all_goals obtain _ | @⟨_ | _, n, f, more, also⟩ := hb
  all_goals
    simp only [key, Prod.Lex.toLex_le_toLex] at ordered
    simp only [value, Sign.apply, Int.cast_neg, Int.cast_natCast, neg_mul]
  case finite.negative.finite.negative =>
    exact neg_le_neg (also.scaled_le canonical (by omega))
  case finite.positive.finite.positive => exact canonical.scaled_le also (by omega)
  case finite.negative.finite.positive =>
    exact (neg_nonpos.mpr (nonneg m e)).trans (nonneg n f)
  all_goals first | omega | exact neg_nonpos.mpr (nonneg _ _) | exact nonneg _ _ | exact le_rfl

end Values

section Sums

variable {a b c d : UnpackedFloat}

def IsPositive (a : UnpackedFloat) : Prop := (UnpackedFloat.zero .positive).lt a = true

inductive Upper : UnpackedFloat → Prop
  | infinity : Upper (.infinity .positive)
  | finite {a : UnpackedFloat} (finite : Finite a) : Upper a

theorem Upper.ne_notANumber (upper : Upper a) : a ≠ .notANumber := by
  rintro rfl
  obtain _ | ⟨⟨⟩⟩ := upper

theorem IsWord.upper (word : IsWord a) (number : a ≠ .notANumber)
    (above : a ≠ .infinity .negative) : Upper a := by
  rcases a with (_ | _) | _ | sign | ⟨sign, m, e⟩
  · exact absurd rfl above
  · exact .infinity
  · exact absurd rfl number
  · exact .finite (.zero sign)
  · exact .finite (.finite word)

theorem IsWord.upper_of_pos (word : IsWord a) (positive : IsPositive a) : Upper a := by
  apply word.upper
  all_goals
    rintro rfl
    cases positive

theorem Upper.mono (upper : Upper a) (word : IsWord b) (ordered : a.le b = true) : Upper b := by
  rw [le_iff_key] at ordered
  apply word.upper ordered.2.1
  rintro rfl
  have lowest := ordered.2.2
  obtain _ | ⟨_ | @⟨_ | _, _⟩⟩ := upper
  all_goals
    simp only [key, Prod.Lex.toLex_le_toLex] at lowest
    omega

theorem Upper.finite_of_le (upper : Upper a) (finite : Finite b) (ordered : a.le b = true) :
    Finite a := by
  obtain _ | finiteFirst := upper
  · rw [le_iff_key] at ordered
    have highest := ordered.2.2
    obtain _ | @⟨_ | _, _⟩ := finite
    all_goals
      simp only [key, Prod.Lex.toLex_le_toLex] at highest
      omega
  · exact finiteFirst

theorem upper_of_pos_add (ha : IsWord a) (hb : IsWord b)
    (positive : IsPositive (.add .binary64 a b)) : Upper a ∧ Upper b := by
  constructor
  · apply ha.upper
    · rintro rfl
      cases positive
    · rintro rfl
      rcases b with (_ | _) | _ | _ | _ <;> cases positive
  · apply hb.upper
    · rintro rfl
      cases a <;> cases positive
    · rintro rfl
      rcases a with (_ | _) | _ | _ | _ <;> cases positive

theorem Upper.add (ha : Upper a) (hb : Upper b) :
    UnpackedFloat.add .binary64 a b = .infinity .positive ∨ Finite a ∧ Finite b := by
  obtain _ | finite := ha
  · obtain _ | ⟨_ | _⟩ := hb <;> exact .inl rfl
  · obtain _ | also := hb
    · obtain _ | _ := finite <;> exact .inl rfl
    · exact .inr ⟨finite, also⟩

theorem Outward.le_pack_infinity (outward : Outward a) :
    (unpack .binary64 (pack .binary64 a)).le
      (unpack .binary64 (pack .binary64 (.infinity .positive))) = true := by
  rw [le_iff_key]
  exact ⟨outward.unpack_pack.ne_notANumber, Outward.infinity.unpack_pack.ne_notANumber,
    key_le_infinity _⟩

theorem value_finite (sign : Sign) (mantissa : ℕ) (exponent : ℤ) (some : 0 < mantissa) :
    value (.finite sign mantissa exponent some) = (sign.apply mantissa : ℤ) * 2 ^ exponent := rfl

theorem Finite.roundsTo (finite : Finite a) (positive : 0 < value a) : RoundsTo (value a) a := by
  obtain _ | @⟨_ | _, m, e, some, canonical⟩ := finite
  · exact absurd positive (lt_irrefl 0)
  · have nonneg : (0 : ℚ) ≤ m * 2 ^ e := by positivity
    rw [value_finite, Sign.apply, Int.cast_neg, neg_mul, Int.cast_natCast] at positive
    linarith
  · have rounds := roundsTo_positive canonical
    rwa [Binary64.positive, dif_neg some.ne'] at rounds

/-- A sum is the exact one, normalized, or one of its terms, next to a zero. -/
theorem Finite.add (ha : Finite a) (hb : Finite b) :
    (∃ mantissa exponent : ℤ,
        UnpackedFloat.add .binary64 a b = .normalize .binary64 mantissa exponent .positive ∧
          (mantissa * 2 ^ exponent : ℚ) = value a + value b) ∨
      Finite (.add .binary64 a b) ∧ value (.add .binary64 a b) = value a + value b := by
  obtain sign | @⟨s, m, e, some, canonical⟩ := ha
  · right
    obtain other | also := hb
    · cases sign <;> cases other <;> exact ⟨.zero _, (add_zero 0).symm⟩
    · exact ⟨.finite also, (zero_add _).symm⟩
  · obtain other | @⟨t, n, f, more, also⟩ := hb
    · exact .inr ⟨.finite canonical, (add_zero _).symm⟩
    · refine .inl ⟨_, _, rfl, ?_⟩
      have scale (sign : Sign) (digits : ℕ) (exponent : ℤ) (least : Min.min e f ≤ exponent) :
          ((sign.apply (digits <<< (exponent - Min.min e f).toNat : ℕ) : ℤ) : ℚ) *
              2 ^ Min.min e f = (sign.apply digits : ℤ) * 2 ^ exponent := by
        have power : (2 : ℚ) ^ (exponent - Min.min e f).toNat * 2 ^ Min.min e f = 2 ^ exponent := by
          rw [← zpow_natCast, ← zpow_add₀ two_ne_zero]
          congr 1
          omega
        rw [← power, Nat.shiftLeft_eq]
        cases sign <;> simp [Sign.apply, mul_assoc]
      rw [value_finite, value_finite, ← scale s m e (min_le_left e f),
        ← scale t n f (min_le_right e f), ← add_mul, ← Int.cast_add]

theorem pos_of_pos_normalize {mantissa exponent : ℤ}
    (positive : IsPositive (.normalize .binary64 mantissa exponent .positive)) : 0 < mantissa := by
  rcases lt_trichotomy mantissa 0 with less | rfl | more
  · rw [UnpackedFloat.normalize, Int.compare_eq_lt.mpr less] at positive
    simp only [UnpackedFloat.round, roundWithAccuracy] at positive
    split at positive <;> cases positive
  · cases positive
  · exact more

theorem roundsTo_normalize {mantissa : ℤ} (exponent : ℤ) (positive : 0 < mantissa) :
    RoundsTo (mantissa * 2 ^ exponent) (.normalize .binary64 mantissa exponent .positive) := by
  obtain ⟨digits, rfl⟩ := Int.eq_ofNat_of_zero_le positive.le
  rw [UnpackedFloat.normalize, Int.compare_eq_gt.mpr positive]
  exact roundsTo_round (Int.natCast_pos.mp positive)

theorem Finite.value_pos (finite : Finite a) (positive : IsPositive a) : 0 < value a := by
  obtain _ | @⟨_ | _, m, e, some, canonical⟩ := finite
  · cases positive
  · cases positive
  · rw [value_finite, Sign.apply, Int.cast_natCast]
    positivity

theorem Finite.value_add_pos (ha : Finite a) (hb : Finite b)
    (positive : IsPositive (.add .binary64 a b)) : 0 < value a + value b := by
  obtain ⟨mantissa, exponent, sum, equal⟩ | ⟨finite, equal⟩ := ha.add hb
  · rw [sum] at positive
    have some : (0 : ℚ) < mantissa := by exact_mod_cast pos_of_pos_normalize positive
    rw [← equal]
    positivity
  · rw [← equal]
    exact finite.value_pos positive

theorem Finite.roundsTo_add (ha : Finite a) (hb : Finite b) (positive : 0 < value a + value b) :
    RoundsTo (value a + value b) (.add .binary64 a b) := by
  obtain ⟨mantissa, exponent, sum, equal⟩ | ⟨finite, equal⟩ := ha.add hb
  · rw [← equal] at positive ⊢
    rw [sum]
    apply roundsTo_normalize
    exact_mod_cast pos_of_mul_pos_left positive (by positivity)
  · rw [← equal] at positive ⊢
    exact finite.roundsTo positive

theorem add_le_add_of_pos (ha : IsWord a) (hb : IsWord b) (hc : IsWord c) (hd : IsWord d)
    (first : a.le b = true) (second : c.le d = true)
    (positive : IsPositive (.add .binary64 a c)) :
    (unpack .binary64 (pack .binary64 (.add .binary64 a c))).le
      (unpack .binary64 (pack .binary64 (.add .binary64 b d))) = true := by
  obtain ⟨upperA, upperC⟩ := upper_of_pos_add ha hc positive
  obtain infinite | ⟨finiteB, finiteD⟩ := (upperA.mono hb first).add (upperC.mono hd second)
  · rw [infinite]
    exact (outward_of_lt positive).le_pack_infinity
  · have finiteA := upperA.finite_of_le finiteB first
    have finiteC := upperC.finite_of_le finiteD second
    have some := finiteA.value_add_pos finiteC positive
    have ordered : value a + value c ≤ value b + value d := by
      rw [le_iff_key] at first second
      exact add_le_add (value_le_value finiteA finiteB first.2.2)
        (value_le_value finiteC finiteD second.2.2)
    exact (finiteA.roundsTo_add finiteC some).le_pack
      (finiteB.roundsTo_add finiteD (some.trans_le ordered)) ordered

end Sums

section Products

variable {a b c d : UnpackedFloat}

theorem outward_roundWithAccuracy (mantissa : ℕ) (exponent : ℤ) :
    Outward (roundWithAccuracy .binary64 .positive mantissa exponent .exact) := by
  simp only [roundWithAccuracy]
  split
  · exact .zero
  · exact .finite _ _ _

theorem isPositive_of_mul (nonneg : (UnpackedFloat.zero .positive).le a = true)
    (positive : IsPositive (.mul .binary64 a b)) : IsPositive a ∧ IsPositive b := by
  rcases a with (_ | _) | _ | _ | ⟨(_ | _), m, e, some⟩
  all_goals first | cases nonneg; done | skip
  all_goals rcases b with (_ | _) | _ | _ | ⟨(_ | _), n, f, more⟩
  all_goals first | cases positive; done | exact ⟨rfl, rfl⟩ | skip
  simp only [UnpackedFloat.mul, roundWithAccuracy] at positive
  split at positive <;> cases positive

theorem IsWord.mul_of_pos (ha : IsWord a) (hb : IsWord b)
    (first : IsPositive a) (second : IsPositive b) :
    UnpackedFloat.mul .binary64 a b = .infinity .positive ∨ Finite a ∧ Finite b := by
  rcases a with (_ | _) | _ | _ | ⟨(_ | _), m, e, some⟩
  all_goals first | cases first; done | skip
  all_goals rcases b with (_ | _) | _ | _ | ⟨(_ | _), n, f, more⟩
  all_goals first | cases second; done | exact .inl rfl | exact .inr ⟨.finite ha, .finite hb⟩

/-- A product has as fine an exponent as rounding asks for. -/
theorem IsCanonical.add_le_target {m n : ℕ} {e f : ℤ} (first : IsCanonical m e)
    (second : IsCanonical n f) (some : 0 < m) (more : 0 < n) : e + f ≤ target (m * n) (e + f) := by
  have firstLeading : 2 ^ 52 ≤ m ∨ e = -1074 := by exact_mod_cast first.leading
  have secondLeading : 2 ^ 52 ≤ n ∨ f = -1074 := by exact_mod_cast second.leading
  have long (leading : 2 ^ 52 ≤ m ∨ 2 ^ 52 ≤ n) : 52 ≤ (m * n).log2 := by
    rw [Nat.le_log2 (Nat.mul_pos some more).ne']
    rcases leading with leading | leading
    · exact leading.trans (Nat.le_mul_of_pos_right m more)
    · exact leading.trans (Nat.le_mul_of_pos_left n some)
  rw [target_eq]
  by_cases leading : 2 ^ 52 ≤ m ∨ 2 ^ 52 ≤ n
  · have digits := long leading
    omega
  · omega

theorem Finite.roundsTo_mul (ha : Finite a) (hb : Finite b) (first : IsPositive a)
    (second : IsPositive b) :
    RoundsTo (value a * value b) (.mul .binary64 a b) := by
  obtain _ | @⟨_ | _, m, e, some, canonical⟩ := ha
  · cases first
  · cases first
  obtain _ | @⟨_ | _, n, f, more, also⟩ := hb
  · cases second
  · cases second
  have rounds := roundsTo_roundWithAccuracy (Nat.mul_pos some more)
    (canonical.add_le_target also some more)
  have equal : ((m * n : ℕ) : ℚ) * 2 ^ (e + f) =
      value (.finite .positive m e some) * value (.finite .positive n f more) := by
    rw [value_finite, value_finite, Sign.apply, Sign.apply, zpow_add₀ two_ne_zero]
    push_cast
    ring
  rwa [equal] at rounds

theorem IsPositive.mono (positive : IsPositive a) (ordered : a.le b = true) : IsPositive b := by
  rw [IsPositive, lt_iff_key] at *
  rw [le_iff_key] at ordered
  exact ⟨positive.1, ordered.2.1, positive.2.2.trans_le ordered.2.2⟩

theorem mul_le_mul_of_pos (ha : IsWord a) (hb : IsWord b) (hc : IsWord c) (hd : IsWord d)
    (nonneg : (UnpackedFloat.zero .positive).le a = true) (first : a.le b = true)
    (second : c.le d = true)
    (positive : IsPositive (.mul .binary64 a c)) :
    (unpack .binary64 (pack .binary64 (.mul .binary64 a c))).le
      (unpack .binary64 (pack .binary64 (.mul .binary64 b d))) = true := by
  obtain ⟨positiveA, positiveC⟩ := isPositive_of_mul nonneg positive
  have positiveB := positiveA.mono first
  have positiveD := positiveC.mono second
  obtain infinite | ⟨finiteB, finiteD⟩ := hb.mul_of_pos hd positiveB positiveD
  · rw [infinite]
    exact (outward_of_lt positive).le_pack_infinity
  · have finiteA := (ha.upper_of_pos positiveA).finite_of_le finiteB first
    have finiteC := (hc.upper_of_pos positiveC).finite_of_le finiteD second
    have ordered : value a * value c ≤ value b * value d := by
      rw [le_iff_key] at first second
      have valueC := finiteC.value_pos positiveC
      have valueB := finiteB.value_pos positiveB
      exact mul_le_mul (value_le_value finiteA finiteB first.2.2)
        (value_le_value finiteC finiteD second.2.2) valueC.le valueB.le
    exact (finiteA.roundsTo_mul finiteC positiveA positiveC).le_pack
      (finiteB.roundsTo_mul finiteD positiveB positiveD) ordered

theorem mul_one_le (word : IsWord a) (positive : IsPositive a) :
    (unpack .binary64 (pack .binary64 (.mul .binary64 a (unpacked 1.0)))).le
      (unpack .binary64 (pack .binary64 a)) = true := by
  have one : unpacked 1.0 = .finite .positive (2 ^ 52) (-52) (by decide) := rfl
  rcases word.upper_of_pos positive with _ | finite
  · rw [one]
    exact Outward.infinity.le_pack_infinity
  · have unit : Finite (unpacked 1.0) := by
      rw [one]
      exact .finite ⟨by norm_num, by norm_num, .inl (by norm_num)⟩
    have valueOne : value (unpacked 1.0) = 1 := by
      rw [one, value_finite, Sign.apply]
      norm_num
    have rounds := finite.roundsTo_mul unit positive (by rw [one]; rfl)
    rw [valueOne, mul_one] at rounds
    exact rounds.le_pack (finite.roundsTo (finite.value_pos positive)) le_rfl

theorem Outward.nonneg (outward : Outward a) : (UnpackedFloat.zero .positive).le a = true := by
  cases outward <;> rfl

theorem mul_cases (first : (UnpackedFloat.zero .positive).le a = true)
    (second : (UnpackedFloat.zero .positive).le b = true) :
    UnpackedFloat.mul .binary64 a b = .notANumber ∨
      (∃ sign, UnpackedFloat.mul .binary64 a b = .zero sign) ∨ Outward (.mul .binary64 a b) := by
  rcases a with (_ | _) | _ | _ | ⟨(_ | _), m, e, some⟩
  all_goals first | cases first; done | skip
  all_goals rcases b with (_ | _) | _ | _ | ⟨(_ | _), n, f, more⟩
  all_goals first
    | cases second; done
    | exact .inl rfl
    | exact .inr (.inl ⟨_, rfl⟩)
    | exact .inr (.inr .infinity)
    | exact .inr (.inr (outward_roundWithAccuracy _ _))

theorem mul_nonneg_of_number (first : (UnpackedFloat.zero .positive).le a = true)
    (second : (UnpackedFloat.zero .positive).le b = true)
    (number : unpack .binary64 (pack .binary64 (.mul .binary64 a b)) ≠ .notANumber) :
    (UnpackedFloat.zero .positive).le (unpack .binary64 (pack .binary64 (.mul .binary64 a b))) =
      true := by
  obtain none | ⟨sign, zero⟩ | outward := mul_cases first second
  · rw [none] at number
    exact absurd rfl number
  · rw [zero]
    cases sign <;> decide +kernel
  · exact outward.unpack_pack.nonneg

end Products

section Differences

variable {a b c : UnpackedFloat}

theorem sub_eq_add (a b : UnpackedFloat) :
    UnpackedFloat.sub .binary64 a b = .add .binary64 a b.neg := by
  rcases a with (_ | _) | _ | (_ | _) | ⟨s, m, e, some⟩
  all_goals rcases b with (_ | _) | _ | (_ | _) | ⟨t, n, f, more⟩
  all_goals first | rfl | skip
  cases t <;>
    simp [UnpackedFloat.sub, UnpackedFloat.add, UnpackedFloat.neg, Sign.apply, sub_eq_add_neg]

theorem IsWord.neg (word : IsWord a) : IsWord a.neg := by
  cases a <;> exact word

end Differences

section Numbers

variable {a b c d : Float}

theorem isWord_unpacked (a : Float) : IsWord (unpacked a) := isWord_unpack _

theorem not_isPositive_packComponents (exponent : BitVec 11) (mantissa : BitVec 52) :
    ¬ IsPositive (unpack .binary64 (packComponents .binary64 .negative exponent mantissa)) := by
  have negative : Sign.ofBitVec Sign.negative.toBitVec = .negative := rfl
  simp only [IsPositive, unpack, unpackMantissa_packComponents, unpackExponent_packComponents,
    unpackSign_packComponents, negative, Bool.not_eq_true]
  split
  · split <;> rfl
  · split
    · split <;> rfl
    · rfl

theorem isPositive_of_pack {a : UnpackedFloat}
    (positive : IsPositive (unpack .binary64 (pack .binary64 a))) : IsPositive a := by
  rw [IsPositive] at positive ⊢
  rcases a with (_ | _) | _ | (_ | _) | ⟨(_ | _), m, e, some⟩
  all_goals first | rfl | (revert positive; decide +kernel) | skip
  simp only [pack, packedInfinity] at positive
  split at positive
  · exact absurd positive (not_isPositive_packComponents _ _)
  · split at positive <;> exact absurd positive (not_isPositive_packComponents _ _)

theorem unpacked_ofModel_pack (a : UnpackedFloat) :
    unpacked (Float.ofModel (.pack a)) = unpack .binary64 (pack .binary64 a) := rfl

theorem unpacked_add (a b : Float) : unpacked (a + b) =
    unpack .binary64 (pack .binary64 (.add .binary64 (unpacked a) (unpacked b))) := rfl

theorem unpacked_sub (a b : Float) : unpacked (a - b) =
    unpack .binary64 (pack .binary64 (.add .binary64 (unpacked a) (unpacked b).neg)) :=
  congrArg (fun difference => unpack .binary64 (pack .binary64 difference)) (sub_eq_add _ _)

theorem unpacked_mul (a b : Float) : unpacked (a * b) =
    unpack .binary64 (pack .binary64 (.mul .binary64 (unpacked a) (unpacked b))) := rfl

theorem isPositive_add (positive : 0 < a + b) :
    IsPositive (.add .binary64 (unpacked a) (unpacked b)) :=
  isPositive_of_pack (lt_iff.mp positive)

theorem isPositive_sub (positive : 0 < a - b) :
    IsPositive (.add .binary64 (unpacked a) (unpacked b).neg) := by
  have less := lt_iff.mp positive
  rw [unpacked_sub] at less
  exact isPositive_of_pack less

theorem isPositive_mul (positive : 0 < a * b) :
    IsPositive (.mul .binary64 (unpacked a) (unpacked b)) :=
  isPositive_of_pack (lt_iff.mp positive)

theorem le_self_iff : a ≤ a ↔ unpacked a ≠ .notANumber := by
  rw [le_iff, le_iff_key]
  exact ⟨fun self => self.1, fun number => ⟨number, number, le_rfl⟩⟩

end Numbers

instance : RoundsMonotonically Float where
  le_self_of_le {a b} ordered := by
    rw [le_iff, le_iff_key] at ordered
    exact le_self_iff.mpr ordered.2.1
  max_of_not_le_self {a b} none := by
    rw [le_self_iff, not_not] at none
    have isNaN : a.isNaN = true := by
      rw [isNaN_eq, none]
      rfl
    exact if_pos isNaN
  add_le_add {a b c d} first second positive := by
    rw [le_iff] at first second
    rw [le_iff, unpacked_add, unpacked_add]
    exact add_le_add_of_pos (isWord_unpacked a) (isWord_unpacked b) (isWord_unpacked c)
      (isWord_unpacked d) first second (isPositive_add positive)
  le_self_of_pos_add {a b} positive := by
    rw [le_self_iff]
    exact (upper_of_pos_add (isWord_unpacked a) (isWord_unpacked b)
      (isPositive_add positive)).2.ne_notANumber
  sub_le_sub {a b c} first positive := by
    have some := isPositive_sub positive
    have word := (isWord_unpacked c).neg
    have number := (upper_of_pos_add (isWord_unpacked a) word some).2.ne_notANumber
    rw [le_iff] at first
    rw [le_iff, unpacked_sub, unpacked_sub]
    exact add_le_add_of_pos (isWord_unpacked a) (isWord_unpacked b) word word first
      (le_iff_key.mpr ⟨number, number, le_rfl⟩) some
  le_self_of_pos_sub {a b} positive := by
    rw [le_self_iff]
    exact (upper_of_pos_add (isWord_unpacked a) (isWord_unpacked b).neg
      (isPositive_sub positive)).1.ne_notANumber
  mul_le_mul {a b c d} nonneg first second positive := by
    rw [le_iff] at first second
    rw [le_iff, unpacked_mul, unpacked_mul]
    exact mul_le_mul_of_pos (isWord_unpacked a) (isWord_unpacked b) (isWord_unpacked c)
      (isWord_unpacked d) (le_iff.mp nonneg) first second (isPositive_mul positive)
  mul_le_self {a b} nonneg atMost positive := by
    have word := isWord_unpacked a
    have self : a ≤ a := le_self_iff.mpr (le_iff_key.mp (le_iff.mp nonneg)).2.1
    have some := isPositive_mul positive
    have atOne : a * b ≤ a * 1.0 := by
      rw [le_iff] at self
      rw [le_iff, unpacked_mul, unpacked_mul]
      exact mul_le_mul_of_pos word word (isWord_unpacked b) (isWord_unpacked 1.0) (le_iff.mp nonneg)
        self (le_iff.mp atMost) some
    have unchanged : a * 1.0 ≤ a := by
      have packed := mul_one_le word (isPositive_of_mul (le_iff.mp nonneg) some).1
      rw [← unpacked_ofModel_pack (unpacked a), ofModel_pack_unpacked] at packed
      rw [le_iff, unpacked_mul]
      exact packed
    exact ComparesLawfully.le_trans atOne unchanged
  mul_nonneg {a b} first second number := by
    rw [le_self_iff, unpacked_mul] at number
    exact le_iff.mpr (mul_nonneg_of_number (le_iff.mp first) (le_iff.mp second) number)
  le_self_mul {a b} first second := by
    have product : Outward (.mul .binary64 (unpacked a) (unpacked b)) := by
      obtain infinite | ⟨finite, also⟩ := (isWord_unpacked a).mul_of_pos (isWord_unpacked b)
        (lt_iff.mp first) (lt_iff.mp second)
      · rw [infinite]
        exact .infinity
      · exact (finite.roundsTo_mul also (lt_iff.mp first) (lt_iff.mp second)).outward
    rw [le_self_iff, unpacked_mul]
    exact product.unpack_pack.ne_notANumber

end Binary64

end Floorplanner
