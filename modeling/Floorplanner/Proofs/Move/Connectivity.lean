import Mathlib
import Floorplanner.Proofs.Block.Slots
import Floorplanner.Proofs.Monotone
import Floorplanner.Proofs.Move.Kinds
import Floorplanner.Proofs.SequencePair.Order
import Floorplanner.Proofs.SequencePair.Exchange

/-!
Random moves connect all pairs of orders.

A draw between two thresholds means a swap in one of the orders, and the two indices that are drawn
next can name any two positions. So every exchange in either order is a move, and exchanges lead
from any order of the blocks to any other. The draws never mean a resize, which is why shapes stay as
they are, and why it does not matter whether there is a block that could be resized. Exact numbers
have such draws for all probabilities above zero; where sums are rounded, a probability that is lost
in a threshold has none.
-/

namespace Floorplanner

variable {α σ : Type}

/-- Draws to be replayed. An index is taken modulo its bound; what is missing is zero. -/
structure DrawScript (α : Type) where
  fractions : List α
  indices : List Nat
  deriving Repr, DecidableEq

namespace DrawScript

def index (bound : Nat) (script : DrawScript α) : Nat × DrawScript α :=
  (script.indices.headD 0 % bound, { script with indices := script.indices.tail })

instance : IndexSource (DrawScript α) where
  index := index
  smallIndex := index

instance : BoundedSource (DrawScript α) where
  index_lt _ := Nat.mod_lt _
  smallIndex_lt _ := Nat.mod_lt _

instance [Number α] : FractionSource (DrawScript α) α where
  fraction script :=
    (script.fractions.headD 0, { script with fractions := script.fractions.tail })

end DrawScript

namespace SequencePair

inductive Swapped (count : Nat) : SequencePair → SequencePair → Prop where
  | positive {first second : List BlockRef} (exchanged : Exchanged count first second)
      (negative : List BlockRef) : Swapped count ⟨first, negative⟩ ⟨second, negative⟩
  | negative (positive : List BlockRef) {first second : List BlockRef}
      (exchanged : Exchanged count first second) : Swapped count ⟨positive, first⟩ ⟨positive, second⟩

theorem swapped_of_isValid {count : Nat} {first second : SequencePair}
    (valid : first.isValid count = true) (secondValid : second.isValid count = true) :
    Relation.ReflTransGen (Swapped count) first second := by
  obtain ⟨positive, negative⟩ := isValid_iff_enumerates.mp valid
  obtain ⟨secondPositive, secondNegative⟩ := isValid_iff_enumerates.mp secondValid
  have positiveReached := exchanged_of_perm (positive.perm_of_enumerates secondPositive)
  have negativeReached := exchanged_of_perm (negative.perm_of_enumerates secondNegative)
  rw [positive.length] at positiveReached
  rw [negative.length] at negativeReached
  have inPositive : Relation.ReflTransGen (Swapped count) first ⟨second.positive, first.negative⟩ :=
    positiveReached.lift (SequencePair.mk · first.negative) fun _ _ exchanged =>
      .positive exchanged _
  have inNegative :
      Relation.ReflTransGen (Swapped count) ⟨second.positive, first.negative⟩ second :=
    negativeReached.lift (SequencePair.mk second.positive) fun _ _ => .negative _
  exact inPositive.trans inNegative

end SequencePair

namespace Move

variable [Number α]

structure Thresholds.Means (thresholds : Thresholds α) (kind : Swap) (draw : α) : Prop where
  nonneg : 0 ≤ draw
  lt_one : draw < 1
  noResize : ¬ draw ≤ thresholds.resize
  swapKind : thresholds.swapKind draw = kind

def repeated [IndexSource σ] [FractionSource σ α] (outline : Size α) (thresholds : Thresholds α) :
    Nat → Arrangement α → σ → Arrangement α × σ
  | 0, arrangement, source => (arrangement, source)
  | count + 1, arrangement, source =>
      let ((_, next), source) := perturb outline thresholds arrangement source
      repeated outline thresholds count next source

/--
Draws in their ranges can turn any pair of orders of the blocks into any other one, without a change
to the blocks.
-/
def ConnectsOrders (outline : Size α) (thresholds : Thresholds α) (blocks : List (Block α)) : Prop :=
  ∀ first second : SequencePair,
    first.isValid blocks.length = true → second.isValid blocks.length = true →
      ∃ (count : Nat) (script : DrawScript α),
        (∀ draw ∈ script.fractions, 0 ≤ draw ∧ draw < 1) ∧
          repeated outline thresholds count ⟨blocks, first⟩ script = (⟨blocks, second⟩, ⟨[], []⟩)

section Draws

variable {thresholds : Thresholds α} {blocks : List (Block α)} {kind : Swap} {draw : α} {i j : Nat}

theorem drawKind_of_means (means : thresholds.Means kind draw) (fractions : List α)
    (indices : List Nat) :
    drawKind thresholds blocks (⟨draw :: fractions, indices⟩ : DrawScript α) =
      (.swap kind, ⟨fractions, indices⟩) := by
  change (if draw ≤ thresholds.resize then _ else
    (Kind.swap (thresholds.swapKind draw), (⟨fractions, indices⟩ : DrawScript α))) = _
  rw [if_neg means.noResize, means.swapKind]

omit [Number α] in
theorem exists_distinctPair_eq {count : Nat} (different : i ≠ j) (first : i < count)
    (second : j < count) :
    ∃ drawn, ∀ (fractions : List α) (indices : List Nat),
      distinctPair count (⟨fractions, i :: drawn :: indices⟩ : DrawScript α) =
        ((i, j), ⟨fractions, indices⟩) := by
  obtain ⟨drawn, bound, skipped⟩ := Block.exists_skip_eq different first second
  refine ⟨drawn, fun fractions indices => ?_⟩
  change ((i % count, Block.skip (i % count) (drawn % (count - 1))),
    (⟨fractions, indices⟩ : DrawScript α)) = _
  rw [Nat.mod_eq_of_lt first, Nat.mod_eq_of_lt bound, skipped]

theorem exists_perturb_eq (outline : Size α) (several : 2 ≤ blocks.length)
    (means : thresholds.Means kind draw) (different : i ≠ j) (first : i < blocks.length) (second : j < blocks.length)
    (pair : SequencePair) :
    ∃ drawn, ∀ (fractions : List α) (indices : List Nat),
      perturb outline thresholds ⟨blocks, pair⟩
          (⟨draw :: fractions, i :: drawn :: indices⟩ : DrawScript α) =
        (((swap kind pair i j).1, ⟨blocks, (swap kind pair i j : Move α × SequencePair).2⟩),
          ⟨fractions, indices⟩) := by
  obtain ⟨drawn, positions⟩ := exists_distinctPair_eq (α := α) different first second
  refine ⟨drawn, fun fractions indices => ?_⟩
  simp only [perturb, if_neg (Nat.not_lt.mpr several), drawKind_of_means means, positions]

theorem exists_perturb_eq_of_swapped {positive negative : α} {pair next : SequencePair}
    (outline : Size α) (several : 2 ≤ blocks.length)
    (meansPositive : thresholds.Means .positive positive)
    (meansNegative : thresholds.Means .negative negative)
    (swapped : SequencePair.Swapped blocks.length pair next) :
    ∃ move, ∃ draw, (0 ≤ draw ∧ draw < 1) ∧ ∃ i drawn, ∀ (fractions : List α) (indices : List Nat),
      perturb outline thresholds ⟨blocks, pair⟩
          (⟨draw :: fractions, i :: drawn :: indices⟩ : DrawScript α) =
        ((move, ⟨blocks, next⟩), ⟨fractions, indices⟩) := by
  cases swapped with
  | positive exchanged other =>
      obtain ⟨different, first, second⟩ := exchanged
      obtain ⟨drawn, moves⟩ := exists_perturb_eq outline several meansPositive
        different first second ⟨_, other⟩
      exact ⟨_, positive, ⟨meansPositive.nonneg, meansPositive.lt_one⟩, _, drawn, moves⟩
  | negative other exchanged =>
      obtain ⟨different, first, second⟩ := exchanged
      obtain ⟨drawn, moves⟩ := exists_perturb_eq outline several meansNegative
        different first second ⟨other, _⟩
      exact ⟨_, negative, ⟨meansNegative.nonneg, meansNegative.lt_one⟩, _, drawn, moves⟩

theorem connectsOrders_of_means {positive negative : α} (outline : Size α)
    (several : 2 ≤ blocks.length) (meansPositive : thresholds.Means .positive positive)
    (meansNegative : thresholds.Means .negative negative) :
    ConnectsOrders outline thresholds blocks := by
  intro first second valid secondValid
  have reached := SequencePair.swapped_of_isValid valid secondValid
  clear valid
  -- The draws of each step are put before those of the steps after it.
  induction reached using Relation.ReflTransGen.head_induction_on with
  | refl => exact ⟨0, ⟨[], []⟩, nofun, rfl⟩
  | head swapped _ induction =>
      obtain ⟨count, ⟨fractions, indices⟩, inRange, leads⟩ := induction
      obtain ⟨move, draw, drawRange, i, drawn, moves⟩ :=
        exists_perturb_eq_of_swapped outline several meansPositive meansNegative swapped
      refine ⟨count + 1, ⟨draw :: fractions, i :: drawn :: indices⟩, ?_, ?_⟩
      · exact List.forall_mem_cons.mpr ⟨drawRange, inRange⟩
      · rw [repeated, moves]
        exact leads

end Draws

section Probabilities

variable {β : Type} [ExactNumber β] {moves : Config.Moves β}

theorem means_positive (resize : 0 ≤ moves.resize) (positive : 0 < moves.positiveSwap)
    (negative : 0 < moves.negativeSwap)
    (sum : moves.resize + moves.positiveSwap + moves.negativeSwap ≤ 1) :
    (Thresholds.ofProbabilities moves).Means .positive (moves.resize + moves.positiveSwap) where
  nonneg := by linarith
  lt_one := by linarith
  noResize := by
    change ¬ _ ≤ moves.resize
    linarith
  swapKind := if_pos le_rfl

theorem means_negative (resize : 0 ≤ moves.resize) (positive : 0 < moves.positiveSwap)
    (negative : 0 < moves.negativeSwap)
    (sum : moves.resize + moves.positiveSwap + moves.negativeSwap ≤ 1) :
    (Thresholds.ofProbabilities moves).Means .negative
      (moves.resize + moves.positiveSwap + moves.negativeSwap / 2) where
  nonneg := by linarith
  lt_one := by linarith
  noResize := by
    change ¬ _ ≤ moves.resize
    linarith
  swapKind := by
    have above : ¬ moves.resize + moves.positiveSwap + moves.negativeSwap / 2 ≤
        moves.resize + moves.positiveSwap := by linarith
    have below : moves.resize + moves.positiveSwap + moves.negativeSwap / 2 ≤
        moves.resize + moves.positiveSwap + moves.negativeSwap := by linarith
    exact (if_neg above).trans (if_pos below)

end Probabilities

section Rounded

open Binary64 Number
open Float.Model (UnpackedFloat)

variable {moves : Config.Moves Float}

def lastDraw : Float := ratio (2 ^ 53 - 1) (2 ^ 53)

theorem lastDraw_lt_one : lastDraw < 1.0 := by decide +kernel

theorem key_lastDraw : key (unpacked lastDraw) = toLex (1, toLex (-53, 2 ^ 53 - 1)) := by
  decide +kernel

theorem key_one : key (unpacked 1.0) = toLex (1, toLex (-52, 2 ^ 52)) := by decide +kernel

theorem le_lastDraw {draw : Float} (less : draw < 1.0) : draw ≤ lastDraw := by
  have last : lastDraw ≤ lastDraw := by decide +kernel
  have word := isWord_unpacked draw
  rw [lt_iff, lt_iff_key, key_one] at less
  rw [le_iff, le_iff_key, key_lastDraw]
  refine ⟨less.1, le_self_iff.mp last, ?_⟩
  have below := less.2.2
  generalize unpacked draw = drawn at word below
  rcases drawn with (_ | _) | _ | _ | ⟨(_ | _), mantissa, exponent, some⟩
  all_goals
    simp only [key, Prod.Lex.toLex_le_toLex, Prod.Lex.toLex_lt_toLex, true_and] at below ⊢
  case finite.positive =>
    have leading : 2 ^ 52 ≤ mantissa ∨ exponent = -1074 := by exact_mod_cast word.leading
    have short : mantissa < 2 ^ 53 := by exact_mod_cast word.short
    omega
  all_goals omega

theorem means_negative_of_lt {thresholds : Thresholds Float} {draw : Float}
    (resize : 0 ≤ thresholds.resize) (first : thresholds.resize < thresholds.positiveSwap)
    (above : thresholds.positiveSwap < draw) (below : draw ≤ thresholds.negativeSwap)
    (less : draw < 1) : thresholds.Means .negative draw where
  nonneg := ComparesLawfully.le_trans resize
    (ComparesLawfully.le_trans (ComparesLawfully.le_of_lt first) (ComparesLawfully.le_of_lt above))
  lt_one := less
  noResize low := ComparesLawfully.not_lt_of_le
    (ComparesLawfully.le_trans (ComparesLawfully.le_of_lt above) low) first
  swapKind := swapKind_eq_negative_iff.mpr
    ⟨fun low => ComparesLawfully.not_lt_of_le low above, below⟩

/--
Rounded probabilities have a draw for either swap if and only if neither is lost in the threshold
that it is added to, and the first threshold leaves a draw above it.
-/
theorem exists_means_iff (resize : 0 ≤ moves.resize) :
    ((∃ draw, (Thresholds.ofProbabilities moves).Means .positive draw) ∧
        ∃ draw, (Thresholds.ofProbabilities moves).Means .negative draw) ↔
      moves.resize < moves.resize + moves.positiveSwap ∧
        moves.resize + moves.positiveSwap <
          moves.resize + moves.positiveSwap + moves.negativeSwap ∧
        moves.resize + moves.positiveSwap < lastDraw := by
  have compares {a b : Float} (ordered : a ≤ b) : b ≤ b := RoundsMonotonically.le_self_of_le ordered
  have trans {a b c : Float} (first : a ≤ b) (second : b ≤ c) : a ≤ c :=
    ComparesLawfully.le_trans first second
  have le {a b : Float} (ha : a ≤ a) (hb : b ≤ b) (notLess : ¬ b < a) : a ≤ b :=
    ComparesLawfully.le_of_not_lt ha hb notLess
  constructor
  · rintro ⟨⟨draw, positive⟩, other, negative⟩
    have below : draw ≤ moves.resize + moves.positiveSwap :=
      swapKind_eq_positive_iff.mp positive.swapKind
    obtain ⟨above, under⟩ := swapKind_eq_negative_iff.mp negative.swapKind
    refine ⟨?_, ?_, ?_⟩
    · by_contra notLess
      exact positive.noResize (trans below (le (compares below) (compares resize) notLess))
    · by_contra notLess
      exact above (trans under (le (compares under) (compares below) notLess))
    · by_contra notLess
      have last := le_lastDraw negative.lt_one
      exact above (trans last (le (compares last) (compares below) notLess))
  · rintro ⟨first, second, last⟩
    have threshold := MaxesLawfully.le_self_of_lt first
    have one : (1.0 : Float) ≤ 1.0 := by decide +kernel
    have lastOne : lastDraw ≤ 1.0 := ComparesLawfully.le_of_lt lastDraw_lt_one
    constructor
    · refine ⟨moves.resize + moves.positiveSwap, ?_, ?_, ?_, ?_⟩
      · exact trans resize (ComparesLawfully.le_of_lt first)
      · by_contra notLess
        exact ComparesLawfully.not_lt_of_le (trans lastOne (le one threshold notLess)) last
      · exact fun low => ComparesLawfully.not_lt_of_le low first
      · exact swapKind_eq_positive_iff.mpr threshold
    · by_cases short : moves.resize + moves.positiveSwap + moves.negativeSwap < 1.0
      · have compares := MaxesLawfully.le_self_of_lt second
        exact ⟨_, means_negative_of_lt resize first second compares short⟩
      · have most := le one (MaxesLawfully.le_self_of_lt second) short
        have within := trans lastOne most
        exact ⟨lastDraw, means_negative_of_lt resize first last within lastDraw_lt_one⟩

/-- Next to a half, a swap of hardly any probability has no draw. -/
example :
    let moves : Config.Moves Float := ⟨0.5, 1e-20, 1e-20, 0.5⟩
    ¬ ((∃ draw, (Thresholds.ofProbabilities moves).Means .positive draw) ∧
      ∃ draw, (Thresholds.ofProbabilities moves).Means .negative draw) := by
  intro moves
  rw [exists_means_iff (by decide +kernel)]
  decide +kernel

end Rounded

/--
Random moves turn every pair of orders into every other one, on any numbers of which some draw means
a swap in the one order and some draw a swap in the other. Exact numbers have such draws if both kinds
of swap have a probability, that of a resize is not negative, as a checked configuration has it, and
their sum is at most one. Binary floating point has them if and only if neither kind is so improbable
that its threshold is rounded to the one below it, and the threshold of positive swaps is below the
largest draw.
-/
theorem moves_connect_orders :
    (∀ {α : Type} [Number α] (outline : Size α) (thresholds : Thresholds α)
      (blocks : List (Block α)), 2 ≤ blocks.length → (∃ draw, thresholds.Means .positive draw) →
        (∃ draw, thresholds.Means .negative draw) → ConnectsOrders outline thresholds blocks) ∧
    (∀ {α : Type} [ExactNumber α] (outline : Size α) (moves : Config.Moves α)
      (blocks : List (Block α)), 2 ≤ blocks.length → 0 ≤ moves.resize → 0 < moves.positiveSwap →
        0 < moves.negativeSwap → moves.resize + moves.positiveSwap + moves.negativeSwap ≤ 1 →
          ConnectsOrders outline (.ofProbabilities moves) blocks) ∧
    ∀ moves : Config.Moves Float, 0 ≤ moves.resize →
      (((∃ draw, (Thresholds.ofProbabilities moves).Means .positive draw) ∧
          ∃ draw, (Thresholds.ofProbabilities moves).Means .negative draw) ↔
        moves.resize < moves.resize + moves.positiveSwap ∧
          moves.resize + moves.positiveSwap <
            moves.resize + moves.positiveSwap + moves.negativeSwap ∧
          moves.resize + moves.positiveSwap < lastDraw) := by
  refine ⟨?_, ?_, fun moves => exists_means_iff⟩
  · rintro α _ outline thresholds blocks several ⟨_, positive⟩ ⟨_, negative⟩
    exact connectsOrders_of_means outline several positive negative
  · intro α _ outline moves blocks several resize positive negative sum
    exact connectsOrders_of_means outline several (means_positive resize positive negative sum)
      (means_negative resize positive negative sum)

theorem moves_connect_orders_three :
    let moves : Config.Moves Float := .default
    let blocks : List (Block Float) := [.hard "a" 1 1 [⟨1, 1⟩], .soft "b" 4 [⟨1, 2⟩]]
    let exact : List (Block ℝ) := [.hard "a" 1 1 [⟨1, 1⟩], .soft "b" 4 [⟨1, 2⟩]]
    ConnectsOrders ⟨9, 9⟩ (.ofProbabilities moves) blocks ∧
      ConnectsOrders ⟨9, 9⟩ (.ofProbabilities ⟨0, 1 / 2, 1 / 2, 0⟩) exact := by
  intro moves blocks exact
  constructor
  · obtain ⟨positive, negative⟩ :=
      (moves_connect_orders.2.2 moves (by decide +kernel)).mpr
        ⟨by decide +kernel, by decide +kernel, by decide +kernel⟩
    exact moves_connect_orders.1 _ _ blocks (by decide +kernel) positive negative
  · apply moves_connect_orders.2.1 _ _ exact (by simp [exact])
    all_goals norm_num

end Move

end Floorplanner
