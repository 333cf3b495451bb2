import Mathlib
import Floorplanner.Proofs.Text.Json.Strings

/-!
Trees that are read back as they were written.

What is written of a tree of natural numbers, texts, lists and objects reads back as that tree, and
nothing is left over. It takes no more fuel than the reader puts aside for a text of that length: each
value, item and member has a character of its own to pay for the calls that read it.
-/

namespace Floorplanner

namespace Json

section Naturals

variable {digits rest : List Char} {n : Nat}

inductive Follows : List Char → Prop where
  | nil : Follows []
  | comma (rest : List Char) : Follows (',' :: rest)
  | bracket (rest : List Char) : Follows (']' :: rest)
  | brace (rest : List Char) : Follows ('}' :: rest)

theorem splitDigits_append (areDigits : ∀ c ∈ digits, c.isDigit = true) (follows : Follows rest) :
    splitDigits (digits ++ rest) = (digits, rest) := by
  rw [splitDigits, List.takeWhile_append_of_pos areDigits, List.dropWhile_append_of_pos areDigits]
  cases follows <;> simp [Char.isDigit]

theorem isDigit_of_mem_toDigits {c : Char} (member : c ∈ Nat.toDigits 10 n) : c.isDigit = true :=
  Nat.isDigit_of_mem_toDigits (by decide) (by decide) member

theorem head?_toDigits_ne (positive : 0 < n) : (Nat.toDigits 10 n).head? ≠ some '0' := by
  induction n using Nat.strongRecOn with
  | ind n induction =>
      by_cases small : n < 10
      · rw [Nat.toDigits_of_lt_base small]
        have first : ∀ digit < 10, 0 < digit → [digit.digitChar].head? ≠ some '0' := by decide
        exact first n small positive
      · rw [Nat.toDigits_of_base_le (by decide) (by omega),
          List.head?_append_of_ne_nil _ Nat.toDigits_ne_nil]
        exact induction (n / 10) (by omega) (by omega)

theorem exists_toDigits_eq_cons (n : Nat) :
    ∃ c digits, Nat.toDigits 10 n = c :: digits ∧ c.isDigit = true := by
  obtain ⟨c, digits, first⟩ := List.exists_cons_of_ne_nil (Nat.toDigits_ne_nil (n := n) (b := 10))
  refine ⟨c, digits, first, isDigit_of_mem_toDigits (n := n) ?_⟩
  rw [first]
  exact List.mem_cons_self

/-- No zero leads the digits of a number, unless it is zero. -/
theorem splitWhole_toDigits (n : Nat) (follows : Follows rest) :
    splitWhole (Nat.toDigits 10 n ++ rest) = some (Nat.toDigits 10 n, rest) := by
  rw [splitWhole, splitDigits_append (fun _ => isDigit_of_mem_toDigits) follows]
  split
  next empty => exact absurd (congrArg Prod.fst empty) Nat.toDigits_ne_nil
  next leading =>
    have digits := congrArg Prod.fst leading
    dsimp only at digits
    rcases Nat.eq_zero_or_pos n with rfl | positive
    · cases digits
    · exact absurd (congrArg List.head? digits) (head?_toDigits_ne positive)
  next => rfl

theorem splitNumber_toDigits (n : Nat) (follows : Follows rest) :
    splitNumber (Nat.toDigits 10 n ++ rest) = some (Nat.toDigits 10 n, rest) := by
  have whole := splitWhole_toDigits n follows
  obtain ⟨c, digits, first, isDigit⟩ := exists_toDigits_eq_cons n
  rw [first] at whole ⊢
  unfold splitNumber
  split
  next sign unsigned signed =>
    have noSign : ([], c :: digits ++ rest) = (sign, unsigned) := by
      rw [← signed]
      split
      next minus =>
        cases minus
        cases isDigit
      next => rfl
    cases noSign
    rw [whole]
    cases follows <;> simp [splitFraction, splitExponent]

end Naturals

/-- Trees of what is written without a fraction: whole numbers, texts, lists and objects of them. -/
inductive IsWritten : Json → Prop where
  | null : IsWritten null
  | bool (value : Bool) : IsWritten (bool value)
  | ofNat (n : Nat) : IsWritten (ofNat n)
  | ofText (text : String) : IsWritten (ofText text)
  | array {items : List Json} (written : ∀ item ∈ items, IsWritten item) : IsWritten (array items)
  | ofMembers {members : List (String × Json)} (written : ∀ member ∈ members, IsWritten member.2) :
      IsWritten (ofMembers members)

/-- What is written of a tree reads back as the tree, and leaves what comes after it. -/
def ReadsBack (json : Json) : Prop :=
  ∀ (fuel : Nat) (rest : List Char), 3 * json.render.length ≤ fuel + 1 → Follows rest →
    readValue (fuel + 1) (json.render ++ rest) = some (json, rest)

section Reading

variable {json first : Json} {items : List Json} {fuel : Nat} {rest : List Char}

theorem ofNat_eq (n : Nat) : ofNat n = number (Nat.toDigits 10 n) := by
  rw [ofNat, ofNumeral, Nat.toString_eq_repr, Nat.toList_repr]

theorem isBlank_of_isDigit {c : Char} (isDigit : c.isDigit = true) : isBlank c = false := by
  simp only [isBlank, Bool.or_eq_false_iff, beq_eq_false_iff_ne]
  refine ⟨⟨⟨?_, ?_⟩, ?_⟩, ?_⟩
  all_goals
    rintro rfl
    cases isDigit

/-- A written tree begins with a character that is no blank and does not end a list. -/
theorem IsWritten.exists_render_eq_cons (written : IsWritten json) :
    ∃ c tail, json.render = c :: tail ∧ isBlank c = false ∧ c ≠ ']' := by
  cases written with
  | null => exact ⟨_, _, rfl, by decide, by decide⟩
  | bool value => cases value <;> exact ⟨_, _, rfl, by decide, by decide⟩
  | ofNat n =>
      obtain ⟨c, digits, first, isDigit⟩ := exists_toDigits_eq_cons n
      rw [ofNat_eq, render]
      refine ⟨c, digits, first, isBlank_of_isDigit isDigit, ?_⟩
      rintro rfl
      cases isDigit
  | ofText text => exact ⟨_, _, rfl, by decide, by decide⟩
  | @array items _ => cases items <;> exact ⟨_, _, rfl, by decide, by decide⟩
  | @ofMembers members _ => cases members <;> exact ⟨_, _, rfl, by decide, by decide⟩

theorem skipBlanks_cons {c : Char} (noBlank : isBlank c = false) (rest : List Char) :
    skipBlanks (c :: rest) = c :: rest :=
  List.dropWhile_cons_of_neg (Bool.eq_false_iff.mp noBlank)

/-! What the reader goes on with behind a quote, a bracket and a brace. -/

theorem readValue_quote (fuel : Nat) (text : List Char) :
    readValue (fuel + 1) ('"' :: text) =
      (splitString text).map fun (lexeme, rest) => (string lexeme, rest) := rfl

theorem readValue_bracket {c : Char} (noBlank : isBlank c = false) (noClose : c ≠ ']') (fuel : Nat)
    (text : List Char) :
    readValue (fuel + 1) ('[' :: c :: text) =
      (readItems fuel (c :: text)).map fun (items, rest) => (array items, rest) := by
  rw [readValue, skipBlanks_cons (by decide)]
  simp only [skipBlanks_cons noBlank]
  split
  next close => exact absurd (List.cons.inj close).1 noClose
  next => rfl

theorem readValue_brace (fuel : Nat) (text : List Char) :
    readValue (fuel + 1) ('{' :: '"' :: text) =
      (readMembers fuel ('"' :: text)).map fun (members, rest) => (object members, rest) := rfl

theorem readMember_escape (fuel : Nat) (key text : List Char) :
    readMember (fuel + 1) ('"' :: (escape key ++ '"' :: ':' :: text)) =
      (readValue fuel text).map fun (value, rest) => ((escape key, value), rest) := by
  rw [readMember, skipBlanks_cons (by decide)]
  simp only [splitString_escape]
  rw [skipBlanks_cons (by decide)]
  rfl

theorem readsBack_ofNat (n : Nat) : (ofNat n).ReadsBack := by
  intro fuel rest _ follows
  obtain ⟨c, digits, first, isDigit⟩ := exists_toDigits_eq_cons n
  have number := splitNumber_toDigits n follows
  have noBlank : isBlank c = false := isBlank_of_isDigit isDigit
  have differs {other : Char} (noDigit : other.isDigit = false) : c ≠ other := by
    rintro rfl
    cases isDigit.symm.trans noDigit
  rw [ofNat_eq, render, first]
  rw [first] at number
  rw [List.cons_append] at number ⊢
  rw [readValue, skipBlanks_cons noBlank]
  split
  next same => exact absurd (List.cons.inj same).1 (differs (by decide))
  next same => exact absurd (List.cons.inj same).1 (differs (by decide))
  next same => exact absurd (List.cons.inj same).1 (differs (by decide))
  next same => exact absurd (List.cons.inj same).1 (differs (by decide))
  next same => exact absurd (List.cons.inj same).1 (differs (by decide))
  next same => exact absurd (List.cons.inj same).1 (differs (by decide))
  next =>
    rw [number]
    rfl

theorem readsBack_ofText (text : String) : (ofText text).ReadsBack := by
  intro fuel rest _ _
  simp only [ofText, render, List.cons_append, List.append_assoc, List.nil_append]
  rw [readValue_quote, splitString_escape]
  rfl

theorem follows_renderItems (items : List Json) (rest : List Char) :
    Follows (renderItems items ++ rest) := by
  cases items with
  | nil => exact .bracket _
  | cons => exact .comma _

theorem readItems_render (readBack : ∀ item ∈ first :: items, item.ReadsBack)
    (enough : 3 * (first.render ++ renderItems items).length ≤ fuel) :
    readItems fuel (first.render ++ (renderItems items ++ rest)) = some (first :: items, rest) := by
  rw [List.length_append] at enough
  induction items generalizing first fuel with
  | nil =>
      rw [renderItems, List.length_singleton] at enough
      obtain ⟨fuel, rfl⟩ := Nat.exists_eq_add_of_le' (show 2 ≤ fuel by omega)
      have read := readBack first List.mem_cons_self fuel _ (by omega) (follows_renderItems [] rest)
      rw [readItems, read]
      rfl
  | cons next items induction =>
      rw [renderItems, List.cons_append, List.length_cons, List.length_append] at enough
      obtain ⟨fuel, rfl⟩ := Nat.exists_eq_add_of_le' (show 2 ≤ fuel by omega)
      have read := readBack first List.mem_cons_self fuel _ (by omega)
        (follows_renderItems (next :: items) rest)
      have later : readItems (fuel + 1) (next.render ++ (renderItems items ++ rest)) =
          some (next :: items, rest) :=
        induction (fun item member => readBack item (List.mem_cons_of_mem first member)) (by omega)
      rw [readItems, read]
      simp only [renderItems, List.cons_append, List.append_assoc]
      rw [skipBlanks_cons (by decide)]
      exact congrArg (Option.map fun result => (first :: result.1, result.2)) later

theorem readsBack_array (readBack : ∀ item ∈ items, item.ReadsBack)
    (written : ∀ item ∈ items, item.IsWritten) : (array items).ReadsBack := by
  intro fuel rest enough _
  cases items with
  | nil => rfl
  | cons first items =>
      rw [render, List.cons_append, List.length_cons] at enough
      have read : readItems fuel (first.render ++ (renderItems items ++ rest)) =
          some (first :: items, rest) := readItems_render readBack (by omega)
      obtain ⟨c, tail, opens, noBlank, noClose⟩ :=
        (written first List.mem_cons_self).exists_render_eq_cons
      rw [render, List.cons_append, List.cons_append, List.append_assoc]
      rw [opens, List.cons_append] at read ⊢
      rw [readValue_bracket noBlank noClose, read]
      rfl

variable {members : List (List Char × Json)} {key : List Char} {value : Json}

theorem follows_renderMembers (members : List (List Char × Json)) (rest : List Char) :
    Follows (renderMembers members ++ rest) := by
  cases members with
  | nil => exact .brace _
  | cons => exact .comma _

theorem readMembers_render
    (readBack : ∀ member ∈ (key, value) :: members,
      (∃ text, member.1 = escape text) ∧ member.2.ReadsBack)
    (enough : 3 * (key.length + 3 + value.render.length + (renderMembers members).length) ≤ fuel) :
    readMembers fuel ('"' :: (key ++ '"' :: ':' :: (value.render ++ (renderMembers members ++ rest)))) =
      some ((key, value) :: members, rest) := by
  induction members generalizing key value fuel with
  | nil =>
      obtain ⟨⟨text, rfl⟩, read⟩ : (∃ text, key = escape text) ∧ value.ReadsBack :=
        readBack _ List.mem_cons_self
      obtain ⟨fuel, rfl⟩ := Nat.exists_eq_add_of_le' (show 3 ≤ fuel by omega)
      rw [readMembers, readMember_escape, read fuel _ (by omega) (follows_renderMembers [] rest)]
      rfl
  | cons next members induction =>
      obtain ⟨⟨text, rfl⟩, read⟩ : (∃ text, key = escape text) ∧ value.ReadsBack :=
        readBack _ List.mem_cons_self
      obtain ⟨nextKey, nextValue⟩ := next
      obtain ⟨fuel, rfl⟩ := Nat.exists_eq_add_of_le' (show 3 ≤ fuel by omega)
      simp only [renderMembers, List.cons_append, List.append_assoc, List.length_cons,
        List.length_append] at enough
      have later := @induction (fuel + 2) nextKey nextValue
        (fun member isMember => readBack member (List.mem_cons_of_mem _ isMember)) (by omega)
      rw [readMembers, readMember_escape, read fuel _ (by omega) (follows_renderMembers _ rest)]
      simp only [renderMembers, List.cons_append, List.append_assoc, Option.map_some]
      rw [skipBlanks_cons (by decide)]
      exact congrArg (Option.map fun result => ((escape text, value) :: result.1, result.2)) later

theorem readsBack_object
    (readBack : ∀ member ∈ members, (∃ text, member.1 = escape text) ∧ member.2.ReadsBack) :
    (object members).ReadsBack := by
  intro fuel rest enough _
  cases members with
  | nil => rfl
  | cons first members =>
      obtain ⟨key, value⟩ := first
      simp only [render, List.cons_append, List.append_assoc, List.length_cons,
        List.length_append] at enough ⊢
      rw [readValue_brace, readMembers_render readBack (by omega)]
      rfl

theorem readsBack_ofMembers {members : List (String × Json)}
    (readBack : ∀ member ∈ members, member.2.ReadsBack) : (ofMembers members).ReadsBack := by
  apply readsBack_object
  intro member isMember
  obtain ⟨named, isNamed, rfl⟩ := List.mem_map.mp isMember
  exact ⟨⟨_, rfl⟩, readBack named isNamed⟩

theorem IsWritten.readsBack (written : IsWritten json) : json.ReadsBack := by
  induction written with
  | null => exact fun _ _ _ _ => rfl
  | bool value =>
      intro fuel rest _ _
      cases value <;> rfl
  | ofNat n => exact readsBack_ofNat n
  | ofText text => exact readsBack_ofText text
  | array written induction => exact readsBack_array induction written
  | ofMembers _ induction => exact readsBack_ofMembers induction

theorem IsWritten.read?_compact (written : IsWritten json) : read? json.compact = some json := by
  have read := written.readsBack (3 * json.render.length + 2) [] (by omega) .nil
  rw [List.append_nil] at read
  rw [read?, compact, String.toList_ofList, fuelFor, read]
  rfl

end Reading

end Json

end Floorplanner
