import Mathlib
import Floorplanner.Diagnostic.Journal

/-!
What a journal tells of its entries.

The tally is kept beside the entries, so it agrees with them in every journal that was filled from
the empty one, and what is asked of the tally is answered for the entries.
-/

namespace Floorplanner

theorem Severity.descending : all.reverse.Pairwise fun a b => b.rank < a.rank := by decide

theorem Severity.mem_reverse_all (severity : Severity) : severity ∈ all.reverse := by
  cases severity <;> decide

@[simp] theorem Tally.count_increment (tally : Tally) (added severity : Severity) :
    (tally.increment added).count severity =
      tally.count severity + if added = severity then 1 else 0 := by
  cases added <;> cases severity <;> rfl

namespace Diagnostic.Code

theorem text_named :
    started.text = "I001" ∧ sampled.text = "I002" ∧ finished.text = "I003" ∧
      infeasible.text = "W001" := by
  decide

theorem text_of_le (category : Category) {number : Nat} (low : 100 ≤ number)
    (high : number < 2 ^ 16) :
    text ⟨category, number.toUInt16⟩ = String.ofList [category.letter] ++ toString number := by
  have same : number.toUInt16.toNat = number := UInt16.toNat_ofNat_of_lt high
  have digits : 3 - (toString number).length = 0 := by
    have long : ¬ (Nat.toDigits 10 number).length ≤ 2 := by
      rw [Nat.length_toDigits_le_iff (by decide) (by decide)]
      exact not_lt.mpr low
    rw [Nat.toString_eq_ofList_toDigits, String.length_ofList]
    omega
  rw [text]
  dsimp only
  rw [same, digits]
  rfl

theorem text_level (index : Nat) :
    (level index).text = "I" ++ toString (100 + min index lastLevel) := by
  have high : 100 + min index lastLevel < 2 ^ 16 :=
    (Nat.add_le_add_left (min_le_right _ _) 100).trans_lt (by decide)
  exact text_of_le .info (Nat.le_add_right _ _) high

end Diagnostic.Code

namespace Journal

variable {journal : Journal} {severity : Severity}

@[simp] theorem entries_emitAll (journal : Journal) (diagnostics : List Diagnostic) :
    (journal.emitAll diagnostics).entries = journal.entries ++ diagnostics := by
  induction diagnostics generalizing journal with
  | nil => simp [emitAll]
  | cons diagnostic rest induction => simpa [emitAll, emit] using induction (journal.emit diagnostic)

def IsTallied (journal : Journal) : Prop :=
  ∀ severity, journal.count severity = journal.entries.countP (·.severity = severity)

theorem isTallied_empty : empty.IsTallied := by
  intro severity
  cases severity <;> rfl

theorem IsTallied.emit (tallied : journal.IsTallied) (diagnostic : Diagnostic) :
    (journal.emit diagnostic).IsTallied := by
  intro severity
  simpa [Journal.emit, count, List.countP_cons] using tallied severity

theorem IsTallied.emitAll (tallied : journal.IsTallied) (diagnostics : List Diagnostic) :
    (journal.emitAll diagnostics).IsTallied := by
  induction diagnostics generalizing journal with
  | nil => exact tallied
  | cons diagnostic rest induction => exact induction (tallied.emit diagnostic)

theorem worst_eq_some_iff :
    journal.worst = some severity ↔ 0 < journal.count severity ∧
      ∀ other, 0 < journal.count other → other.rank ≤ severity.rank := by
  rw [worst, List.find?_eq_some_iff_append, decide_eq_true_iff]
  apply and_congr_right
  intro _
  constructor
  · rintro ⟨above, below, split, none⟩ other counted
    have descending := Severity.descending
    have member := Severity.mem_reverse_all other
    rw [split, List.pairwise_append, List.pairwise_cons] at descending
    rw [split, List.mem_append, List.mem_cons] at member
    rcases member with member | rfl | member
    · simpa [counted] using none other member
    · exact le_rfl
    · exact (descending.2.1.1 other member).le
  · intro highest
    obtain ⟨above, below, split⟩ := List.append_of_mem (Severity.mem_reverse_all severity)
    refine ⟨above, below, split, ?_⟩
    intro other member
    have descending := Severity.descending
    rw [split, List.pairwise_append] at descending
    have graver := descending.2.2 other member severity List.mem_cons_self
    simpa using fun counted => (highest other counted).not_gt graver

theorem IsTallied.worst_eq_some_iff (tallied : journal.IsTallied) :
    journal.worst = some severity ↔
      (∃ entry ∈ journal.entries, entry.severity = severity) ∧
        ∀ entry ∈ journal.entries, entry.severity.rank ≤ severity.rank := by
  rw [Journal.worst_eq_some_iff]
  simp [tallied _, List.countP_pos_iff]

end Journal

end Floorplanner
