import Floorplanner.Proofs.Block.Slots
import Floorplanner.Proofs.Move.Legality
import Floorplanner.Proofs.SequencePair.Position

/-!
Random moves name only blocks and positions that are there.

The orders of an arrangement hold the same blocks, so every position that a move draws is one of
both, and the two blocks of a double swap are found in the other order. No draw is from an empty range.
-/

namespace Floorplanner

variable {α σ : Type}

/-- What an arrangement needs to be moved on: two orders of its blocks, and shapes to choose from. -/
structure Arrangement.IsMovable (arrangement : Arrangement α) : Prop where
  pair : arrangement.pair.Rearranges arrangement.blocks.length
  slots : ∀ block ∈ arrangement.blocks, block.form.HasSlots

namespace SequencePair.Rearranges

variable {count : Nat} {pair : SequencePair} {ref : BlockRef} {index : Nat}

theorem length_positive (rearranges : Rearranges count pair) : pair.positive.length = count := by
  rw [rearranges.positive.length_eq]
  exact length_identity count

theorem length_negative (rearranges : Rearranges count pair) : pair.negative.length = count := by
  rw [rearranges.negative.length_eq]
  exact length_identity count

theorem mem_negative (rearranges : Rearranges count pair)
    (found : pair.positive[index]? = some ref) : ref ∈ pair.negative :=
  rearranges.negative.mem_iff.mpr (rearranges.positive.mem_iff.mp (List.mem_of_getElem? found))

end SequencePair.Rearranges

namespace Move

/-- What a random move can do; where it names a block or a position, there is one. -/
inductive StepsInRange [Number α] : Arrangement α → Move α → Arrangement α → Prop where
  | none (arrangement : Arrangement α) : StepsInRange arrangement .none arrangement
  | resize {blocks : List (Block α)} {pair : SequencePair} {index : Nat} {block reshaped : Block α}
      (found : blocks[index]? = some block) (reshapes : block.Reshapes reshaped) :
      StepsInRange ⟨blocks, pair⟩ (.resize index block.shape) ⟨blocks.set index reshaped, pair⟩
  | positiveSwap {blocks : List (Block α)} {pair : SequencePair} {i j : Nat} (different : i ≠ j)
      (bounds : i < pair.positive.length ∧ j < pair.positive.length) :
      StepsInRange ⟨blocks, pair⟩ (.positiveSwap i j) ⟨blocks, pair.exchangePositive i j⟩
  | negativeSwap {blocks : List (Block α)} {pair : SequencePair} {i j : Nat} (different : i ≠ j)
      (bounds : i < pair.negative.length ∧ j < pair.negative.length) :
      StepsInRange ⟨blocks, pair⟩ (.negativeSwap i j) ⟨blocks, pair.exchangeNegative i j⟩
  | doubleSwap {blocks : List (Block α)} {pair : SequencePair} {i j k l : Nat}
      {first second : BlockRef} (different : i ≠ j)
      (positive : pair.positive[i]? = some first ∧ pair.positive[j]? = some second)
      (negative : pair.negative[k]? = some second ∧ pair.negative[l]? = some first) :
      StepsInRange ⟨blocks, pair⟩ (.doubleSwap (i, j) (k, l))
        ⟨blocks, (pair.exchangePositive i j).exchangeNegative k l⟩

variable {blocks : List (Block α)} {pair : SequencePair} {i j : Nat}

theorem exists_of_mem_resizable {index : Nat} (member : index ∈ resizable blocks) :
    ∃ block, blocks[index]? = some block ∧ block.isResizable = true := by
  obtain ⟨⟨block, _⟩, entry, rfl⟩ := List.mem_map.mp member
  obtain ⟨indexed, isResizable⟩ := List.mem_filter.mp entry
  exact ⟨block, List.mem_zipIdx_iff_getElem?.mp indexed, isResizable⟩

/-- The two blocks of a double swap are those at the positions it is for, before it changes them. -/
theorem swapBoth_eq {a b : BlockRef} (first : pair.positive[i]? = some a)
    (second : pair.positive[j]? = some b) (firstMember : a ∈ pair.negative)
    (secondMember : b ∈ pair.negative) :
    ∃ k l, pair.negative[k]? = some b ∧ pair.negative[l]? = some a ∧
      (swapBoth pair i j : Move α × SequencePair) =
        (.doubleSwap (i, j) (k, l), (pair.exchangePositive i j).exchangeNegative k l) := by
  obtain ⟨k, ofSecond, foundSecond⟩ := SequencePair.exists_negativePosition secondMember
  obtain ⟨l, ofFirst, foundFirst⟩ := SequencePair.exists_negativePosition firstMember
  have swapped := SequencePair.getElem?_exchange (List.getElem?_eq_some_iff.mp first).1
    (List.getElem?_eq_some_iff.mp second).1
  have nowFirst : (pair.exchangePositive i j).positive[i]? = some b := by
    rw [SequencePair.exchangePositive, swapped, Equiv.swap_apply_left, second]
  have nowSecond : (pair.exchangePositive i j).positive[j]? = some a := by
    rw [SequencePair.exchangePositive, swapped, Equiv.swap_apply_right, first]
  have same (ref : BlockRef) :
      (pair.exchangePositive i j).negativePosition? ref = pair.negativePosition? ref := rfl
  refine ⟨k, l, foundSecond, foundFirst, ?_⟩
  rw [swapBoth, nowFirst, nowSecond, Option.bind_some, Option.bind_some, same, same, ofSecond,
    ofFirst]

variable [Number α]

theorem stepsInRange_swap {kind : Swap} {move : Move α} {next : SequencePair}
    (rearranges : pair.Rearranges blocks.length) (different : i ≠ j) (first : i < blocks.length)
    (second : j < blocks.length) (equality : swap kind pair i j = (move, next)) :
    StepsInRange ⟨blocks, pair⟩ move ⟨blocks, next⟩ := by
  have positive := rearranges.length_positive
  have negative := rearranges.length_negative
  cases kind with
  | positive =>
      cases equality
      exact .positiveSwap different (by omega)
  | negative =>
      cases equality
      exact .negativeSwap different (by omega)
  | double =>
      rw [← positive] at first second
      have atFirst := List.getElem?_eq_getElem first
      have atSecond := List.getElem?_eq_getElem second
      obtain ⟨k, l, foundSecond, foundFirst, swapped⟩ := swapBoth_eq (α := α) atFirst atSecond
        (rearranges.mem_negative atFirst) (rearranges.mem_negative atSecond)
      rw [swap, swapped] at equality
      cases equality
      exact .doubleSwap different ⟨atFirst, atSecond⟩ ⟨foundSecond, foundFirst⟩

variable [IndexSource σ] [FractionSource σ α]

theorem draws_redraw (thresholds : Thresholds α) (source : σ) :
    Draws α source (thresholds.redraw source).2 := by
  rw [Thresholds.redraw]
  dsimp only
  split
  · split <;> exact .smallIndex (by decide) (.refl _)
  · exact .fraction (.refl _)

variable [BoundedSource σ]

variable (α) in
omit [Number α] in
theorem distinctPair_spec {count : Nat} (several : 2 ≤ count) {source after : σ}
    (equality : distinctPair count source = ((i, j), after)) :
    i ≠ j ∧ i < count ∧ j < count ∧ Draws α source after := by
  have some : 0 < count := by omega
  have others : 0 < count - 1 := by omega
  have first := BoundedSource.index_lt source some
  have second := BoundedSource.index_lt (IndexSource.index count source).2 others
  cases equality
  exact ⟨(Block.skip_ne _ _).symm, first, Block.skip_lt second,
    .index some (.index others (.refl _))⟩

theorem drawKind_spec {thresholds : Thresholds α} {kind : Kind} {source after : σ}
    (equality : drawKind thresholds blocks source = (kind, after)) :
    Draws α source after ∧ ∀ index, kind = .resize index → index ∈ resizable blocks := by
  rw [drawKind] at equality
  dsimp only at equality
  split at equality
  · split at equality
    · cases equality
      exact ⟨.fraction (draws_redraw thresholds _), nofun⟩
    next some =>
      have nonempty : 0 < (resizable blocks).length := by
        rw [List.length_pos_iff]
        simpa using some
      have bound := BoundedSource.index_lt (FractionSource.fraction source : α × σ).2 nonempty
      cases equality
      refine ⟨.fraction (.index nonempty (.refl _)), ?_⟩
      rintro _ ⟨⟩
      rw [List.getD_eq_getElem _ _ bound]
      exact List.getElem_mem bound
  · cases equality
    exact ⟨.fraction (.refl _), nofun⟩

theorem reshape_spec {outline : Size α} {block : Block α} {result : Option (Block α)}
    {source after : σ} (slots : block.form.HasSlots) (isResizable : block.isResizable = true)
    (equality : reshape outline blocks block source = (result, after)) :
    Draws α source after ∧ ∀ reshaped ∈ result, block.Reshapes reshaped := by
  rw [reshape] at equality
  split at equality
  next isHard =>
    obtain ⟨reshapes, draws⟩ := Block.reshapes_switchOption isResizable isHard source
    cases equality
    refine ⟨draws, ?_⟩
    rintro _ ⟨⟩
    exact reshapes
  next isSoft =>
    dsimp only at equality
    split at equality
    · obtain ⟨reshapes, draws⟩ := Block.reshapes_randomRatio slots (Bool.eq_false_iff.mpr isSoft)
        (FractionSource.fraction source : α × σ).2
      cases equality
      refine ⟨.fraction draws, ?_⟩
      rintro _ ⟨⟩
      exact reshapes
    · cases equality
      refine ⟨.fraction (.refl _), ?_⟩
      intro reshaped member
      obtain ⟨target, _, rfl⟩ := Option.map_eq_some_iff.mp member
      exact Block.reshapes_stretchTo slots (Bool.eq_false_iff.mpr isSoft) _ target

theorem resizeAt_spec {outline : Size α} {index : Nat} {move : Move α} {moved : List (Block α)}
    {source after : σ} (slots : ∀ block ∈ blocks, block.form.HasSlots) (member : index ∈ resizable blocks)
    (equality : resizeAt outline blocks index source = ((move, moved), after)) :
    StepsInRange ⟨blocks, pair⟩ move ⟨moved, pair⟩ ∧ Draws α source after := by
  obtain ⟨block, found, isResizable⟩ := exists_of_mem_resizable member
  have blockSlots := slots block (List.mem_of_getElem? found)
  rw [resizeAt, found] at equality
  dsimp only at equality
  split at equality
  next reshape =>
    cases equality
    exact ⟨.none _, (reshape_spec blockSlots isResizable reshape).1⟩
  next reshaped _ reshape =>
    cases equality
    obtain ⟨draws, reshapes⟩ := reshape_spec blockSlots isResizable reshape
    exact ⟨.resize found (reshapes reshaped rfl), draws⟩

theorem stepsInRange_perturb {outline : Size α} {thresholds : Thresholds α}
    {arrangement next : Arrangement α} {move : Move α} {source after : σ}
    (movable : arrangement.IsMovable)
    (equality : perturb outline thresholds arrangement source = ((move, next), after)) :
    StepsInRange arrangement move next ∧ Draws α source after := by
  obtain ⟨blocks, pair⟩ := arrangement
  rw [perturb] at equality
  dsimp only at equality
  split at equality
  · cases equality
    exact ⟨.none _, .refl _⟩
  next several =>
    split at equality
    next index drawn kind =>
      obtain ⟨draws, member⟩ := drawKind_spec kind
      generalize resized : resizeAt outline blocks index drawn = result at equality
      obtain ⟨⟨made, moved⟩, rest⟩ := result
      cases equality
      obtain ⟨steps, later⟩ := resizeAt_spec movable.slots (member index rfl) resized
      exact ⟨steps, draws.trans later⟩
    next kind drawn decided =>
      obtain ⟨draws, _⟩ := drawKind_spec decided
      generalize positions : distinctPair blocks.length drawn = result at equality
      obtain ⟨⟨i, j⟩, rest⟩ := result
      dsimp only at equality
      generalize swapped : swap kind pair i j = result at equality
      obtain ⟨made, exchanged⟩ := result
      cases equality
      obtain ⟨different, first, second, later⟩ :=
        distinctPair_spec α (Nat.not_lt.mp several) positions
      exact ⟨stepsInRange_swap movable.pair different first second swapped, draws.trans later⟩

end Move

structure Arrangement.Keeps (arrangement next : Arrangement α) : Prop where
  blocks : Block.AreKept arrangement.blocks next.blocks
  pair {count : Nat} : arrangement.pair.Rearranges count → next.pair.Rearranges count

namespace Arrangement.Keeps

variable {arrangement next last : Arrangement α}

theorem refl (arrangement : Arrangement α) : arrangement.Keeps arrangement :=
  ⟨.refl arrangement.blocks, id⟩

theorem trans (first : arrangement.Keeps next) (second : next.Keeps last) :
    arrangement.Keeps last :=
  ⟨first.blocks.trans second.blocks, second.pair ∘ first.pair⟩

theorem movable (keeps : arrangement.Keeps next) (movable : arrangement.IsMovable) :
    next.IsMovable where
  pair := keeps.blocks.length_eq ▸ keeps.pair movable.pair
  slots := keeps.blocks.slots movable.slots

theorem packed [Number α] (arrangement : Arrangement α) : arrangement.Keeps arrangement.packed :=
  ⟨.pack _ _, id⟩

end Arrangement.Keeps

theorem Move.StepsInRange.keeps [Number α] {arrangement next : Arrangement α} {move : Move α}
    (steps : StepsInRange arrangement move next) : arrangement.Keeps next := by
  cases steps with
  | none => exact .refl arrangement
  | resize found reshapes => exact ⟨.set found reshapes.keeps, id⟩
  | positiveSwap => exact ⟨.refl _, fun rearranges => rearranges.exchangePositive _ _⟩
  | negativeSwap => exact ⟨.refl _, fun rearranges => rearranges.exchangeNegative _ _⟩
  | doubleSwap =>
      refine ⟨.refl _, fun rearranges => ?_⟩
      exact (rearranges.exchangePositive _ _).exchangeNegative _ _

end Floorplanner
