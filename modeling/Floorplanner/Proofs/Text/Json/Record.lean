import Mathlib
import Floorplanner.Proofs.Text.Json.RoundTrip

/-!
Values that are taken out of a JSON tree as they were put in.
-/

namespace Floorplanner

namespace Json

section Naturals

variable {digits : List Char} {n : Nat}

theorem le_ofDigitChars (digits : List Char) (start : Nat) :
    start ≤ Nat.ofDigitChars 10 digits start := by
  rw [Nat.ofDigitChars_eq_ofDigitChars_zero]
  have scaled : start ≤ 10 ^ digits.length * start :=
    Nat.le_mul_of_pos_left start (Nat.pow_pos (by decide))
  omega

theorem ofDigits_eq_of_le {start : Nat} (fits : Nat.ofDigitChars 10 digits start ≤ Numeral.wordLimit) :
    Numeral.Significand.ofDigits ⟨start, 0⟩ digits = ⟨Nat.ofDigitChars 10 digits start, 0⟩ := by
  induction digits generalizing start with
  | nil => rfl
  | cons c digits induction =>
      rw [Nat.ofDigitChars_cons] at fits ⊢
      rw [← induction fits]
      have small := (le_ofDigitChars digits _).trans fits
      have pushed : Numeral.Significand.push ⟨start, 0⟩ (Numeral.digitValue c) =
          ⟨10 * start + (c.toNat - '0'.toNat), 0⟩ := by
        rw [Nat.mul_comm] at small ⊢
        exact if_pos ⟨rfl, small⟩
      rw [← pushed]
      rfl

theorem numeral_toDigits (fits : n ≤ Numeral.wordLimit) :
    Numeral.ofLexeme? (Nat.toDigits 10 n) = some (.whole n) := by
  obtain ⟨c, digits, first, isDigit⟩ := exists_toDigits_eq_cons n
  have areDigits : ∀ c ∈ Nat.toDigits 10 n, c.isDigit = true := fun _ => isDigit_of_mem_toDigits
  have noMark : ∀ c ∈ Nat.toDigits 10 n, (!Numeral.isExponentMark c) = true := by
    intro c member
    have digit := areDigits c member
    simp only [Numeral.isExponentMark, Bool.not_eq_true', Bool.or_eq_false_iff, beq_eq_false_iff_ne]
    constructor
    all_goals
      rintro rfl
      cases digit
  have parts : Numeral.Parts.ofLexeme (Nat.toDigits 10 n) =
      ⟨false, Nat.toDigits 10 n, [], false, []⟩ := by
    have positive : ((Nat.toDigits 10 n).head? == some '-') = false := by
      rw [first, List.head?_cons, beq_eq_false_iff_ne]
      rintro ⟨⟩
      cases isDigit
    simp only [Numeral.Parts.ofLexeme, positive, Bool.false_eq_true, if_false]
    rw [List.takeWhile_eq_self_iff.mpr noMark, List.dropWhile_eq_nil_iff.mpr noMark,
      List.takeWhile_eq_self_iff.mpr areDigits, List.dropWhile_eq_nil_iff.mpr areDigits]
    rfl
  have value : Numeral.Significand.ofDigits ⟨0, 0⟩ (Nat.toDigits 10 n) = ⟨n, 0⟩ := by
    rw [ofDigits_eq_of_le, Nat.ofDigitChars_ten_toDigits]
    rwa [Nat.ofDigitChars_ten_toDigits]
  rw [Numeral.ofLexeme?, parts]
  dsimp only
  rw [value]
  rfl

theorem asNatBelow?_ofNat {bound : Nat} (below : n < bound) (fits : n ≤ Numeral.wordLimit) :
    asNatBelow? bound (ofNat n) = some n := by
  rw [ofNat_eq, asNatBelow?, numeral_toDigits fits]
  simp [below]

end Naturals

theorem asListOf?_ofTexts (texts : List String) : asListOf? asText? (ofTexts texts) = some texts := by
  rw [ofTexts, asListOf?]
  induction texts with
  | nil => rfl
  | cons text texts induction =>
      rw [List.map_cons, List.mapM_cons, induction, asText?_ofText]
      rfl

theorem asNamed?_ofText {β : Type} {values : List β} {name : β → String} {value : β}
    (found : values.find? (fun other => name other == name value) = some value) :
    asNamed? values name (ofText (name value)) = some value := by
  rw [ofText, asNamed?, text?_escape]
  exact found

theorem isWritten_ofTexts (texts : List String) : (ofTexts texts).IsWritten := by
  apply IsWritten.array
  intro item member
  obtain ⟨text, _, rfl⟩ := List.mem_map.mp member
  exact .ofText text

section Records

variable {members : List (String × Json)}

def keys? : Json → Option (List String)
  | object members => (namedMembers? members).map fun named => named.map (·.1)
  | _ => none

theorem namedMembers?_ofMembers (members : List (String × Json)) :
    namedMembers? (members.map fun (key, value) => (escape key.toList, value)) = some members := by
  rw [namedMembers?]
  induction members with
  | nil => rfl
  | cons first members induction =>
      obtain ⟨key, value⟩ := first
      rw [List.map_cons, List.mapM_cons, induction]
      dsimp only
      rw [text?_escape]
      rfl

theorem keys?_ofMembers (members : List (String × Json)) :
    keys? (ofMembers members) = some (members.map (·.1)) := by
  rw [ofMembers, keys?, namedMembers?_ofMembers]
  rfl

theorem asRecord?_ofMembers (fields : List String) (distinct : (members.map (·.1)).Nodup) :
    asRecord? fields (ofMembers members) = some members := by
  have once : (fields.all fun field => decide (members.countP (·.1 == field) ≤ 1)) = true := by
    apply List.all_eq_true.mpr
    intro field _
    have count := List.nodup_iff_count_le_one.mp distinct field
    rw [List.count, List.countP_map] at count
    exact decide_eq_true count
  rw [ofMembers, asRecord?, namedMembers?_ofMembers]
  exact if_pos once

end Records

end Json

end Floorplanner
