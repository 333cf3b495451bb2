import Floorplanner.Move
import Floorplanner.Proofs.Block.Reshape
import Floorplanner.Proofs.Packing.Places
import Floorplanner.Proofs.SequencePair.Exchange

/-!
Moves can be taken back.

The record of a move is enough to undo it, and since packing depends on shapes and orders alone,
packing after the undo brings back the places as well, whatever was packed in between. All of this
holds on any numbers, because nothing is computed twice.
-/

namespace Floorplanner

variable {α σ : Type}

section Packed

variable [Number α] {blocks others : List (Block α)} {pair : SequencePair}

theorem map_atOrigin_modify {change : Block α → Block α}
    (moves : ∀ block x y, (change block).moveTo x y = change (block.moveTo x y)) (index : Nat)
    (blocks : List (Block α)) :
    (blocks.modify index change).map (·.atOrigin) =
      (blocks.map (·.atOrigin)).modify index change := by
  apply List.ext_getElem?
  intro other
  by_cases same : index = other
  · subst same
    rw [List.getElem?_map, List.getElem?_modify_eq, List.getElem?_modify_eq, List.getElem?_map]
    cases blocks[index]? with
    | none => rfl
    | some block => exact congrArg some (moves block 0 0)
  · rw [List.getElem?_map, List.getElem?_modify_ne _ _ same, List.getElem?_modify_ne _ _ same,
      List.getElem?_map]

/-- Changing a block without a look at its place keeps what packing sees. -/
theorem SameButPlaces.modify {change : Block α → Block α} (same : SameButPlaces pair blocks others)
    (moves : ∀ block x y, (change block).moveTo x y = change (block.moveTo x y)) (index : Nat) :
    SameButPlaces pair (blocks.modify index change) (others.modify index change) where
  atOrigin := by rw [map_atOrigin_modify moves, map_atOrigin_modify moves, same.atOrigin]
  outside := by
    intro other untouched
    rw [List.getElem?_modify, List.getElem?_modify, same.outside other untouched]

namespace Arrangement

def packed (arrangement : Arrangement α) : Arrangement α :=
  ⟨(pack arrangement.blocks arrangement.pair).1, arrangement.pair⟩

theorem packed_congr (same : SameButPlaces pair blocks others) :
    packed ⟨blocks, pair⟩ = packed ⟨others, pair⟩ := by
  simp only [packed, pack_congr same]

theorem packed_pack {next : SequencePair}
    (members : ∀ ref ∈ pair.positive, ref ∈ next.positive) :
    packed ⟨(pack blocks pair).1, next⟩ = packed ⟨blocks, next⟩ :=
  packed_congr (sameButPlaces_pack members)

@[simp] theorem packed_packed (arrangement : Arrangement α) :
    arrangement.packed.packed = arrangement.packed := by
  simp only [packed, pack_pack]

end Arrangement

end Packed

namespace Move

section Undo

variable {blocks : List (Block α)} {pair next : SequencePair} {move : Move α} {i j : Nat}

theorem undo_resize {index : Nat} {block reshaped : Block α} (found : blocks[index]? = some block)
    (isReshaping : block.IsReshaping reshaped) :
    (resize index block.shape).undo ⟨blocks.set index reshaped, pair⟩ = ⟨blocks, pair⟩ := by
  have restored : (blocks.set index reshaped).modify index (·.withShape block.shape) = blocks := by
    apply List.ext_getElem?
    intro other
    by_cases same : index = other
    · subst same
      have bound := (List.getElem?_eq_some_iff.mp found).1
      rw [List.getElem?_modify_eq, List.getElem?_set_self bound, found]
      exact congrArg some isReshaping
    · rw [List.getElem?_modify_ne _ _ same, List.getElem?_set_ne same]
  simp only [undo, restored]

theorem undo_swapBoth (swapped : swapBoth pair i j = (move, next)) :
    move.undo ⟨blocks, next⟩ = ⟨blocks, pair⟩ := by
  rw [swapBoth] at swapped
  split at swapped
  · cases swapped
    simp only [undo, SequencePair.exchangeNegative_exchangeNegative,
      SequencePair.exchangePositive_exchangePositive]
  · cases swapped
    simp only [undo, SequencePair.exchangePositive_exchangePositive]

theorem undo_swap {kind : Swap} (swapped : swap kind pair i j = (move, next)) :
    move.undo ⟨blocks, next⟩ = ⟨blocks, pair⟩ := by
  cases kind with
  | positive =>
      cases swapped
      simp only [undo, SequencePair.exchangePositive_exchangePositive]
  | negative =>
      cases swapped
      simp only [undo, SequencePair.exchangeNegative_exchangeNegative]
  | double => exact undo_swapBoth swapped

end Undo

variable [Number α] [IndexSource σ] [FractionSource σ α]

theorem isReshaping_reshape {outline : Size α} {blocks : List (Block α)} {block reshaped : Block α}
    {source after : σ} (equality : reshape outline blocks block source = (some reshaped, after)) :
    block.IsReshaping reshaped := by
  rw [reshape] at equality
  split at equality
  · cases equality
    exact Block.isReshaping_switchOption block source
  · dsimp only at equality
    split at equality
    · cases equality
      exact Block.isReshaping_randomRatio block _
    next direction _ =>
      obtain ⟨target, _, rfl⟩ := Option.map_eq_some_iff.mp (congrArg Prod.fst equality)
      cases direction.axis with
      | x => exact Block.isReshaping_changeWidth block target
      | y => exact Block.isReshaping_changeHeight block target

/-- What a random move can do: nothing, reshape one block, or exchange two in the orders. -/
inductive Step (σ : Type) [IndexSource σ] [FractionSource σ α] (outline : Size α) :
    Arrangement α → Move α → Arrangement α → Prop where
  | none (arrangement : Arrangement α) : Step σ outline arrangement .none arrangement
  | resize {blocks : List (Block α)} {pair : SequencePair} {index : Nat}
      {block reshaped : Block α} {source after : σ} (found : blocks[index]? = some block)
      (equality : reshape outline blocks block source = (some reshaped, after)) :
      Step σ outline ⟨blocks, pair⟩ (.resize index block.shape)
        ⟨blocks.set index reshaped, pair⟩
  | swap {blocks : List (Block α)} {pair next : SequencePair} {kind : Swap} {i j : Nat}
      {move : Move α} (equality : Move.swap kind pair i j = (move, next)) :
      Step σ outline ⟨blocks, pair⟩ move ⟨blocks, next⟩

variable {outline : Size α} {thresholds : Thresholds α} {arrangement next : Arrangement α}
  {move : Move α} {source after : σ}

theorem step_resizeAt {blocks moved : List (Block α)} {index : Nat} (pair : SequencePair)
    (equality : resizeAt outline blocks index source = ((move, moved), after)) :
    Step σ outline ⟨blocks, pair⟩ move ⟨moved, pair⟩ := by
  rw [resizeAt] at equality
  split at equality
  · cases equality
    exact .none _
  next block found =>
    split at equality
    · cases equality
      exact .none _
    next reshaped _ reshape =>
      cases equality
      exact .resize found reshape

theorem step_perturb
    (equality : perturb outline thresholds arrangement source = ((move, next), after)) :
    Step σ outline arrangement move next := by
  cases arrangement with
  | mk blocks pair =>
      rw [perturb] at equality
      dsimp only at equality
      split at equality
      · cases equality
        exact .none _
      · split at equality
        next index drawn _ =>
          generalize resized : resizeAt outline blocks index drawn = result at equality
          obtain ⟨⟨made, moved⟩, rest⟩ := result
          cases equality
          exact step_resizeAt pair resized
        next kind drawn _ =>
          generalize distinctPair blocks.length drawn = positions at equality
          obtain ⟨⟨i, j⟩, rest⟩ := positions
          dsimp only at equality
          generalize swapped : swap kind pair i j = result at equality
          obtain ⟨made, exchanged⟩ := result
          cases equality
          exact .swap swapped

theorem undo_of_step (step : Step σ outline arrangement move next) :
    move.undo next = arrangement := by
  cases step with
  | none => rfl
  | resize found equality => exact undo_resize found (isReshaping_reshape equality)
  | swap equality => exact undo_swap equality

theorem undo_perturb (outline : Size α) (thresholds : Thresholds α) (arrangement : Arrangement α)
    (source : σ) :
    (perturb outline thresholds arrangement source).1.1.undo
      (perturb outline thresholds arrangement source).1.2 = arrangement :=
  undo_of_step (step_perturb rfl)

/-- Undoing a move looks at places as little as packing does. -/
theorem packed_undo_packed (move : Move α) (arrangement : Arrangement α) :
    (move.undo arrangement.packed).packed = (move.undo arrangement).packed := by
  obtain ⟨blocks, pair⟩ := arrangement
  cases move with
  | none => exact Arrangement.packed_packed ⟨blocks, pair⟩
  | resize index previous =>
      apply Arrangement.packed_congr
      have same : SameButPlaces pair (pack blocks pair).1 blocks :=
        sameButPlaces_pack fun _ member => member
      apply same.modify
      intro block x y
      exact (Block.moveTo_withShape block previous x y).symm
  | positiveSwap i j =>
      apply Arrangement.packed_pack
      intro ref member
      exact SequencePair.mem_exchange.mpr member
  | negativeSwap i j =>
      apply Arrangement.packed_pack
      intro ref member
      exact member
  | doubleSwap positive negative =>
      obtain ⟨i, j⟩ := positive
      apply Arrangement.packed_pack
      intro ref member
      exact SequencePair.mem_exchange.mpr member

section Runs

variable (outline : Size α) (thresholds : Thresholds α)

/-- Makes a number of random moves and packs after each: the moves in their order, and the end. -/
def advance : Nat → Arrangement α → σ → List (Move α) × Arrangement α × σ
  | 0, arrangement, source => ([], arrangement, source)
  | count + 1, arrangement, source =>
      let ((move, next), source) := perturb outline thresholds arrangement source
      let (moves, last, source) := advance count next.packed source
      (move :: moves, last, source)

omit [IndexSource σ] [FractionSource σ α] in
/-- Takes moves back, the last one first, and packs after each. -/
def rewind (moves : List (Move α)) (last : Arrangement α) : Arrangement α :=
  moves.foldr (fun move arrangement => (move.undo arrangement).packed) last

theorem rewind_advance (count : Nat) (start : Arrangement α) (source : σ) :
    rewind (advance outline thresholds count start.packed source).1
      (advance outline thresholds count start.packed source).2.1 = start.packed := by
  induction count generalizing start source with
  | zero => rfl
  | succ count induction =>
      generalize perturbed : perturb outline thresholds start.packed source = result
      obtain ⟨⟨move, next⟩, drawn⟩ := result
      have undone : move.undo next = start.packed := undo_of_step (step_perturb perturbed)
      rw [advance, perturbed]
      -- The rest of the run is taken back to the packed successor, whose places the undo ignores.
      calc
        (move.undo (rewind (advance outline thresholds count next.packed drawn).1
            (advance outline thresholds count next.packed drawn).2.1)).packed
          = (move.undo next.packed).packed := by rw [induction]
        _ = (move.undo next).packed := packed_undo_packed move next
        _ = start.packed := by rw [undone, Arrangement.packed_packed]

/--
Undoing a random move brings the arrangement back, and undoing a run of them, with packing after
each move and each undo, brings back the packed arrangement that it began with.
-/
theorem undo_inverts_perturb :
    (∀ (arrangement : Arrangement α) (source : σ),
      (perturb outline thresholds arrangement source).1.1.undo
        (perturb outline thresholds arrangement source).1.2 = arrangement) ∧
    ∀ (count : Nat) (start : Arrangement α) (source : σ),
      rewind (advance outline thresholds count start.packed source).1
        (advance outline thresholds count start.packed source).2.1 = start.packed := by
  constructor
  · intro arrangement source
    exact undo_perturb outline thresholds arrangement source
  · intro count start source
    exact rewind_advance outline thresholds count start source

end Runs

end Move

end Floorplanner
