import Floorplanner.Config.Validation
import Floorplanner.Proofs.Equality
import Floorplanner.Proofs.Move.DoubleSwap
import Floorplanner.Proofs.Move.Range
import Floorplanner.Random.Script

/-!
Which kinds of move are made.

The draw that decides on a kind is compared with cumulative probabilities, and a draw that equals one
of them still means the kind below it. So a kind without probability is made where a draw ties with
the threshold that it shares with its neighbour: a resize on a draw of zero, and a positive swap where
a resize that no block can make is drawn again and the second draw adds nothing. A negative swap is
made so in no case; but where resizes have all of the probability, each swap is as likely.
-/

namespace Floorplanner

namespace Move

open Number

variable {α σ : Type}

def kind? : Move α → Option Kind
  | resize index _ => some (.resize index)
  | positiveSwap _ _ => some (.swap .positive)
  | negativeSwap _ _ => some (.swap .negative)
  | doubleSwap _ _ => some (.swap .double)
  | none => .none

section Made

variable {blocks : List (Block α)} {pair : SequencePair}

theorem kind?_swap {kind : Swap} {count i j : Nat} (valid : pair.isValid count = true)
    (first : i < count) (second : j < count) :
    (swap kind pair i j : Move α × SequencePair).1.kind? = some (.swap kind) := by
  cases kind with
  | positive => rfl
  | negative => rfl
  | double =>
      rw [← (SequencePair.isValid_iff_enumerates.mp valid).1.length] at first second
      obtain ⟨_, _, _, _, swapped⟩ := swapBoth_eq_rename (α := α) valid
        (List.getElem?_eq_getElem first) (List.getElem?_eq_getElem second)
      rw [swap, swapped]
      rfl

variable [Number α] [IndexSource σ] [FractionSource σ α]

theorem kind?_resizeAt (outline : Size α) (blocks : List (Block α)) (index : Nat) (source : σ) :
    (resizeAt outline blocks index source).1.1.kind? = .none ∨
      (resizeAt outline blocks index source).1.1.kind? = some (.resize index) := by
  rw [resizeAt]
  split
  · exact .inl rfl
  · split
    · exact .inl rfl
    · exact .inr rfl

section Thresholds

variable {thresholds : Thresholds α} {draw : α} {source : σ}

omit [IndexSource σ] [FractionSource σ α] in
theorem swapKind_eq_positive_iff :
    thresholds.swapKind draw = .positive ↔ draw ≤ thresholds.positiveSwap := by
  unfold Thresholds.swapKind
  grind

omit [IndexSource σ] [FractionSource σ α] in
theorem swapKind_eq_negative_iff :
    thresholds.swapKind draw = .negative ↔
      ¬ draw ≤ thresholds.positiveSwap ∧ draw ≤ thresholds.negativeSwap := by
  unfold Thresholds.swapKind
  grind

/-- A second draw goes by the same thresholds, unless resizes leave nothing to the swaps. -/
theorem redraw_eq_of_not_le (mass : ¬ 1 - thresholds.resize ≤ 0) :
    (thresholds.redraw source).1 = thresholds.swapKind (thresholds.resize +
      (1 - thresholds.resize) * (FractionSource.fraction source : α × σ).1) := by
  unfold Thresholds.redraw
  rw [if_neg mass]

/-- Where resizes leave nothing to the swaps, all of them are as likely. -/
theorem redraw_eq_of_le (mass : 1 - thresholds.resize ≤ 0) :
    (thresholds.redraw source).1 =
      if (IndexSource.smallIndex 3 source).1 = 0 then .positive
      else if (IndexSource.smallIndex 3 source).1 = 1 then .negative
      else .double := by
  unfold Thresholds.redraw
  rw [if_pos mass]
  dsimp only
  split
  next first => rw [if_pos first]
  next second => rw [if_neg (by omega), if_pos second]
  next notFirst notSecond => rw [if_neg notFirst, if_neg notSecond]

theorem le_of_drawKind_eq_resize {index : Nat}
    (drawn : (drawKind thresholds blocks source).1 = .resize index) :
    (FractionSource.fraction source : α × σ).1 ≤ thresholds.resize := by
  unfold drawKind at drawn
  dsimp only at drawn
  split at drawn
  next low => exact low
  next => cases drawn

theorem drawKind_eq_swap_iff {kind : Swap} :
    (drawKind thresholds blocks source).1 = .swap kind ↔
      (FractionSource.fraction source : α × σ).1 ≤ thresholds.resize ∧ resizable blocks = [] ∧
          (thresholds.redraw (FractionSource.fraction source : α × σ).2).1 = kind ∨
        ¬ (FractionSource.fraction source : α × σ).1 ≤ thresholds.resize ∧
          thresholds.swapKind (FractionSource.fraction source : α × σ).1 = kind := by
  unfold drawKind
  dsimp only
  split
  next low =>
    simp only [low, List.isEmpty_iff, true_and, not_true_eq_false, false_and, or_false]
    split <;> simp_all
  next high =>
    simp only [high, Kind.swap.injEq, false_and, not_false_eq_true, true_and, false_or]

end Thresholds

variable [BoundedSource σ] {outline : Size α} {thresholds : Thresholds α} {source : σ}

variable (outline thresholds source) in
/-- A move is of the kind that was drawn for it; only a resize may come to nothing. -/
theorem kind?_perturb (several : 2 ≤ blocks.length) (valid : pair.isValid blocks.length = true) :
    let made := (perturb outline thresholds ⟨blocks, pair⟩ source).1.1.kind?
    let drawn := (drawKind thresholds blocks source).1
    made = some drawn ∨ made = .none ∧ ∃ index, drawn = .resize index := by
  intro made drawn
  simp only [made, drawn, perturb, if_neg (Nat.not_lt.mpr several)]
  generalize drawKind thresholds blocks source = kind
  obtain ⟨index | kind, rest⟩ := kind
  · rcases kind?_resizeAt outline blocks index rest with none | made
    · exact .inr ⟨none, index, rfl⟩
    · exact .inl made
  · left
    dsimp only
    generalize positions : distinctPair blocks.length rest = result
    obtain ⟨⟨i, j⟩, last⟩ := result
    obtain ⟨_, first, second, _⟩ := distinctPair_spec α several positions
    exact kind?_swap valid first second

theorem drawKind_of_kind?_perturb {kind : Kind} (several : 2 ≤ blocks.length)
    (valid : pair.isValid blocks.length = true)
    (made : (perturb outline thresholds ⟨blocks, pair⟩ source).1.1.kind? = some kind) :
    (drawKind thresholds blocks source).1 = kind := by
  rcases kind?_perturb outline thresholds source several valid with drawn | ⟨unmade, _⟩
  · exact Option.some_inj.mp (drawn.symm.trans made)
  · cases unmade.symm.trans made

theorem kind?_perturb_eq_swap_iff {kind : Swap} (several : 2 ≤ blocks.length)
    (valid : pair.isValid blocks.length = true) :
    (perturb outline thresholds ⟨blocks, pair⟩ source).1.1.kind? = some (.swap kind) ↔
      (drawKind thresholds blocks source).1 = .swap kind := by
  refine ⟨drawKind_of_kind?_perturb several valid, fun drawn => ?_⟩
  rcases kind?_perturb outline thresholds source several valid with made | ⟨_, index, resized⟩
  · rw [made, drawn]
  · cases drawn.symm.trans resized

end Made

section Ties

variable [Number α] [RespectsEquality α] [AddsZero α] {a b c : α}

theorem le_add_iff_of_zero (zero : Alike c 0) : b ≤ a + c ↔ b ≤ a := by
  have sum : Alike (a + c) (a + 0) := RespectsEquality.add (.refl a) zero
  rw [RespectsEquality.le_iff_le (.refl b) sum]
  exact RespectsEquality.le_iff_le (.refl b) (AddsZero.add_zero a)

variable {moves : Config.Moves α} {draw : α}

theorem swapKind_ofProbabilities_eq_positive_iff (zero : Alike moves.positiveSwap 0) :
    (Thresholds.ofProbabilities moves).swapKind draw = .positive ↔ draw ≤ moves.resize := by
  rw [swapKind_eq_positive_iff]
  exact le_add_iff_of_zero zero

theorem swapKind_ofProbabilities_ne_negative (zero : Alike moves.negativeSwap 0) :
    (Thresholds.ofProbabilities moves).swapKind draw ≠ .negative := by
  intro negative
  obtain ⟨high, low⟩ := swapKind_eq_negative_iff.mp negative
  exact high ((le_add_iff_of_zero zero).mp low)

variable [IndexSource σ] [FractionSource σ α] {source : σ}

theorem redraw_ofProbabilities_eq_positive_iff (zero : Alike moves.positiveSwap 0) :
    ((Thresholds.ofProbabilities moves).redraw source).1 = .positive ↔
      1 - moves.resize ≤ 0 ∧ (IndexSource.smallIndex 3 source).1 = 0 ∨
        ¬ 1 - moves.resize ≤ 0 ∧ moves.resize +
          (1 - moves.resize) * (FractionSource.fraction source : α × σ).1 ≤ moves.resize := by
  by_cases mass : 1 - moves.resize ≤ 0
  · rw [redraw_eq_of_le mass]
    grind
  · rw [redraw_eq_of_not_le mass, swapKind_ofProbabilities_eq_positive_iff zero]
    simp only [mass, false_and, not_false_eq_true, true_and, false_or]
    rfl

theorem redraw_ofProbabilities_eq_negative_iff (zero : Alike moves.negativeSwap 0) :
    ((Thresholds.ofProbabilities moves).redraw source).1 = .negative ↔
      1 - moves.resize ≤ 0 ∧ (IndexSource.smallIndex 3 source).1 = 1 := by
  by_cases mass : 1 - moves.resize ≤ 0
  · rw [redraw_eq_of_le mass]
    grind
  · rw [redraw_eq_of_not_le mass]
    exact iff_of_false (swapKind_ofProbabilities_ne_negative zero) fun none => mass none.1

end Ties

/--
What it takes to make a move of a kind that has no probability. A resize needs a first draw that is
not above zero. A swap of one order needs that a resize was drawn and no block can be resized; then
the positive one is made where the second draw does not get above the probability of a resize, and
the negative one never, but that all swaps are as likely where resizes leave them nothing.
-/
theorem weightless_kinds_need_ties [Number α] [RespectsEquality α] [AddsZero α] [IndexSource σ]
    [FractionSource σ α] [BoundedSource σ] (outline : Size α) (moves : Config.Moves α)
    {blocks : List (Block α)} {pair : SequencePair} (source : σ) (several : 2 ≤ blocks.length)
    (valid : pair.isValid blocks.length = true) :
    let first : α × σ := FractionSource.fraction source
    let second : α × σ := FractionSource.fraction first.2
    let mass := 1 - moves.resize
    let made := (perturb outline (.ofProbabilities moves) ⟨blocks, pair⟩ source).1.1.kind?
    (Alike moves.resize 0 → ∀ index, made = some (.resize index) → first.1 ≤ 0) ∧
    (Alike moves.positiveSwap 0 →
      (made = some (.swap .positive) ↔ first.1 ≤ moves.resize ∧ resizable blocks = [] ∧
        (mass ≤ 0 ∧ (IndexSource.smallIndex 3 first.2).1 = 0 ∨
          ¬ mass ≤ 0 ∧ moves.resize + mass * second.1 ≤ moves.resize))) ∧
    (Alike moves.negativeSwap 0 →
      (made = some (.swap .negative) ↔ first.1 ≤ moves.resize ∧ resizable blocks = [] ∧
        mass ≤ 0 ∧ (IndexSource.smallIndex 3 first.2).1 = 1)) := by
  intro first second mass made
  refine ⟨fun zero index resized => ?_, fun zero => ?_, fun zero => ?_⟩
  · have low := le_of_drawKind_eq_resize (drawKind_of_kind?_perturb several valid resized)
    exact (RespectsEquality.le_iff_le (.refl first.1) zero).mp low
  · rw [kind?_perturb_eq_swap_iff several valid, drawKind_eq_swap_iff,
      swapKind_ofProbabilities_eq_positive_iff zero, redraw_ofProbabilities_eq_positive_iff zero]
    exact or_iff_left fun high => high.1 high.2
  · rw [kind?_perturb_eq_swap_iff several valid, drawKind_eq_swap_iff,
      redraw_ofProbabilities_eq_negative_iff zero]
    exact or_iff_left fun high => swapKind_ofProbabilities_ne_negative zero high.2

theorem weightless_kinds_need_ties_pair :
    let blocks : List (Block Float) := [.hard "a" 1 1 [⟨1, 1⟩], .hard "b" 4 1 [⟨2, 2⟩]]
    let pair : SequencePair := ⟨[⟨0⟩, ⟨1⟩], [⟨1⟩, ⟨0⟩]⟩
    let moves : Config.Moves Float := ⟨0.5, 0, 0.5, 0⟩
    let words : WordScript := ⟨[0, 9223372036854775808]⟩
    (perturb ⟨9, 9⟩ (.ofProbabilities moves) ⟨blocks, pair⟩ words).1.1.kind? ≠
      some (.swap .positive) := by
  intro blocks pair moves words
  have several : 2 ≤ blocks.length := by decide
  have valid : pair.isValid blocks.length = true := by decide
  obtain ⟨_, positive, _⟩ := weightless_kinds_need_ties ⟨9, 9⟩ moves words several valid
  rw [Ne, positive (.inl rfl)]
  decide +kernel

/-- Draws that decide nothing make the moves that have no probability. -/
theorem weightless_kinds_made :
    let rigid : List (Block Float) := [.hard "a" 1 1 [⟨1, 1⟩], .hard "b" 4 1 [⟨2, 2⟩]]
    let turnable : List (Block Float) := [.hard "a" 2 1 [⟨1, 2⟩, ⟨2, 1⟩], .hard "b" 4 1 [⟨2, 2⟩]]
    let noPositive : Config.Moves Float := ⟨0.5, 0, 0.5, 0⟩
    let noResize : Config.Moves Float := ⟨0, 0.5, 0.5, 0⟩
    let pair : SequencePair := ⟨[⟨0⟩, ⟨1⟩], [⟨0⟩, ⟨1⟩]⟩
    let made (moves : Config.Moves Float) (blocks : List (Block Float)) :=
      (perturb ⟨9, 9⟩ (.ofProbabilities moves) ⟨blocks, pair⟩ (⟨[]⟩ : WordScript)).1.1.kind?
    noPositive.check = .ok () ∧ noResize.check = .ok () ∧
      made noPositive rigid = some (.swap .positive) ∧
      made noResize turnable = some (.resize 0) := by
  decide +kernel

end Move

end Floorplanner
