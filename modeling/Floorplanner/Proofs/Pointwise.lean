import Mathlib.Data.List.Forall2

/-! Lists that are related entry by entry. -/

namespace Floorplanner

variable {β γ : Type} {relates : β → γ → Prop} {before : List β} {after : List γ}

theorem getElem?_cases (all : List.Forall₂ relates before after) (index : Nat) :
    (before[index]? = none ∧ after[index]? = none) ∨
      ∃ old new, before[index]? = some old ∧ after[index]? = some new ∧ relates old new := by
  induction all generalizing index with
  | nil => exact .inl ⟨rfl, rfl⟩
  | cons first _ induction =>
      cases index with
      | zero => exact .inr ⟨_, _, rfl, rfl, first⟩
      | succ index => exact induction index

theorem forall₂_set (all : List.Forall₂ relates before after) (index : Nat) {old : β} {new : γ}
    (here : relates old new) :
    List.Forall₂ relates (before.set index old) (after.set index new) := by
  induction all generalizing index with
  | nil => exact .nil
  | cons first rest induction =>
      cases index with
      | zero => exact .cons here rest
      | succ index => exact .cons first (induction index)

theorem forall₂_set_right (all : List.Forall₂ relates before after) {index : Nat} {old new : γ}
    (found : after[index]? = some old) (keeps : ∀ origin, relates origin old → relates origin new) :
    List.Forall₂ relates before (after.set index new) := by
  obtain ⟨_, absent⟩ | ⟨origin, _, there, here, related⟩ := getElem?_cases all index
  · rw [found] at absent
    cases absent
  · rw [found] at here
    cases here
    have changed := forall₂_set all index (keeps origin related)
    obtain ⟨bound, rfl⟩ := List.getElem?_eq_some_iff.mp there
    rwa [List.set_getElem_self] at changed

theorem forall₂_trans {δ : Type} {further : γ → δ → Prop} {both : β → δ → Prop} {last : List δ}
    (first : List.Forall₂ relates before after) (second : List.Forall₂ further after last)
    (steps : ∀ {a b c}, relates a b → further b c → both a c) : List.Forall₂ both before last := by
  induction first generalizing last with
  | nil =>
      cases second
      exact .nil
  | cons here _ induction =>
      cases second with
      | cons there rest => exact .cons (steps here there) (induction rest)

theorem forall₂_zipIdx (all : List.Forall₂ relates before after) (offset : Nat) :
    List.Forall₂ (fun old new => relates old.1 new.1 ∧ old.2 = new.2) (before.zipIdx offset)
      (after.zipIdx offset) := by
  induction all generalizing offset with
  | nil => exact .nil
  | cons first _ induction => exact .cons ⟨first, rfl⟩ (induction (offset + 1))

theorem forall₂_append_left_iff {rest : List β} :
    List.Forall₂ relates (before ++ rest) after ↔
      ∃ first second, List.Forall₂ relates before first ∧ List.Forall₂ relates rest second ∧
        after = first ++ second := by
  induction before generalizing after with
  | nil => simp
  | cons entry before induction =>
      simp only [List.cons_append, List.forall₂_cons_left_iff, induction]
      constructor
      · rintro ⟨here, _, related, ⟨first, second, all, others, rfl⟩, rfl⟩
        exact ⟨here :: first, second, ⟨here, first, related, all, rfl⟩, others, rfl⟩
      · rintro ⟨_, second, ⟨here, first, related, all, rfl⟩, others, rfl⟩
        exact ⟨here, first ++ second, related, ⟨first, second, all, others, rfl⟩, rfl⟩

/-- What is related to a list made of groups is itself made of groups. -/
theorem forall₂_flatMap_left_iff {δ : Type} {group : δ → List β} {entries : List δ} :
    List.Forall₂ relates (entries.flatMap group) after ↔
      ∃ groups, List.Forall₂ (fun entry => List.Forall₂ relates (group entry)) entries groups ∧
        after = groups.flatten := by
  induction entries generalizing after with
  | nil => simp
  | cons entry entries induction =>
      simp only [List.flatMap_cons, forall₂_append_left_iff, induction, List.forall₂_cons_left_iff]
      constructor
      · rintro ⟨first, _, here, ⟨groups, rest, rfl⟩, rfl⟩
        exact ⟨first :: groups, ⟨first, groups, here, rest, rfl⟩, rfl⟩
      · rintro ⟨_, ⟨first, groups, here, rest, rfl⟩, rfl⟩
        exact ⟨first, groups.flatten, here, ⟨groups, rest, rfl⟩, rfl⟩

theorem any_eq_any (all : List.Forall₂ relates before after) {p : β → Bool} {q : γ → Bool}
    (same : ∀ {old new}, relates old new → p old = q new) : before.any p = after.any q := by
  induction all with
  | nil => rfl
  | cons first _ induction => rw [List.any_cons, List.any_cons, same first, induction]

theorem positions_eq (all : List.Forall₂ relates before after) {p : β → Bool} {q : γ → Bool}
    (same : ∀ {old new}, relates old new → p old = q new) :
    (before.zipIdx.filter (p ·.1)).map (·.2) = (after.zipIdx.filter (q ·.1)).map (·.2) := by
  rw [← List.forall₂_eq_eq_eq, List.forall₂_map_left_iff, List.forall₂_map_right_iff]
  have kept := List.rel_filter (p := fun entry : β × Nat => p entry.1)
    (q := fun entry : γ × Nat => q entry.1) ?_ (forall₂_zipIdx all 0)
  · exact kept.imp fun _ _ entry => entry.2
  · rintro _ _ ⟨here, _⟩
    exact Bool.eq_iff_iff.mp (same here)

end Floorplanner
