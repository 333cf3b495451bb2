import Mathlib
import Floorplanner.Proofs.Alignment.Passes
import Floorplanner.Proofs.Packing.Separation

/-!
Alignment keeps a legal layout legal.

The passes look before they move a block, but snapping does not. It is safe because it reaches no
further than the smallest block is wide or high: what stands between a block and the edge that it
snaps onto would have to be smaller than that. The one way to fail is a block that starts at a
distance from the lower edge and ends beyond the upper one, for another may be snapped under it.
Such a block stays where it is, so a layout that has none at the end never had one.
-/

namespace Floorplanner

variable {α : Type} [ExactNumber α]

namespace Block

def high (block : Block α) (axis : Axis) : α := block.low axis + block.extent axis

def IsWithin (outline : Size α) (block : Block α) : Prop :=
  ∀ axis, 0 ≤ block.low axis ∧ block.high axis ≤ outline.along axis

def AreClear (blocks : List (Block α)) : Prop :=
  blocks.Pairwise fun a b => a.footprint.overlaps b.footprint = false

theorem isProper_footprint {block : Block α} (positive : ∀ axis, 0 < block.extent axis) :
    block.footprint.IsProper := by
  intro axis
  rw [span_footprint]
  exact lt_add_of_pos_right _ (positive axis)

end Block

open Block (AreClear)

namespace Alignment

variable {outline reach : Size α} {block other : Block α} {blocks : List (Block α)} {axis : Axis}

/-- A block on the far side of the origin that is no smaller than the reach of alignment. -/
structure IsSound (reach : Size α) (block : Block α) : Prop where
  positive : ∀ axis, 0 < block.extent axis
  reaches : ∀ axis, reach.along axis ≤ block.extent axis
  nonneg : ∀ axis, 0 ≤ block.low axis

/-- A block out of reach of the lower edge of the outline that ends beyond the upper one. -/
def IsBeyond (outline reach : Size α) (axis : Axis) (block : Block α) : Prop :=
  reach.along axis ≤ block.low axis ∧ outline.along axis < block.high axis

structure IsOrderly (reach : Size α) (blocks : List (Block α)) : Prop where
  sound : ∀ block ∈ blocks, IsSound reach block
  clear : AreClear blocks

theorem areClear_iff :
    AreClear blocks ↔
      ∀ (i j : Nat) (a b : Block α), i ≠ j → blocks[i]? = some a → blocks[j]? = some b →
        a.footprint.overlaps b.footprint = false := by
  rw [AreClear]
  constructor
  · intro clear i j a b different first second
    rw [List.pairwise_iff_getElem] at clear
    obtain ⟨hi, rfl⟩ := List.getElem?_eq_some_iff.mp first
    obtain ⟨hj, rfl⟩ := List.getElem?_eq_some_iff.mp second
    rcases Nat.lt_or_gt_of_ne different with less | less
    · exact clear i j hi hj less
    · rw [Rect.overlaps_comm]
      exact clear j i hj hi less
  · intro clear
    rw [List.pairwise_iff_getElem]
    intro i j hi hj less
    apply clear i j _ _ (Nat.ne_of_lt less)
    · exact List.getElem?_eq_getElem hi
    · exact List.getElem?_eq_getElem hj

section Snapping

/--
Snapping brings a block onto the lower edge, brings it onto the upper edge or leaves it, and leaves
only what is out of reach of both edges or ends at or beyond the upper one.
-/
theorem low_snap_cases (outline reach : Size α) (axis : Axis) (block : Block α) :
    block.low axis < reach.along axis ∧ (snap outline reach block).low axis = 0 ∨
    reach.along axis ≤ block.low axis ∧
      (block.high axis < outline.along axis ∧
          outline.along axis - block.high axis < reach.along axis ∧
          (snap outline reach block).low axis = outline.along axis - block.extent axis ∨
        (block.high axis < outline.along axis →
            reach.along axis ≤ outline.along axis - block.high axis) ∧
          (snap outline reach block).low axis = block.low axis) := by
  rw [low_snap, Block.span_footprint, snapped]
  split
  next near => exact .inl ⟨near, rfl⟩
  next far =>
    refine .inr ⟨not_lt.mp far, ?_⟩
    split
    next near =>
      refine .inl ⟨near.1, near.2, ?_⟩
      rw [Interval.length, add_sub_cancel_left]
    next off => exact .inr ⟨fun inside => not_lt.mp fun near => off ⟨inside, near⟩, rfl⟩

theorem high_snap : (snap outline reach block).high axis =
    (snap outline reach block).low axis + block.extent axis := by
  rw [Block.high, extent_snap]

theorem IsSound.snap (sound : IsSound reach block) : IsSound reach (snap outline reach block) where
  positive axis := by simpa using sound.positive axis
  reaches axis := by simpa using sound.reaches axis
  nonneg axis := by
    have nonneg := sound.nonneg axis
    have ends : block.high axis = block.low axis + block.extent axis := rfl
    rcases low_snap_cases outline reach axis block with
      ⟨_, start⟩ | ⟨_, ⟨inside, _, start⟩ | ⟨_, start⟩⟩
    · exact start.ge
    all_goals
      rw [start]
      linarith

theorem isWithin_snap {bound : Size α} (holds : ∀ axis, outline.along axis ≤ bound.along axis)
    (within : block.IsWithin bound) : (snap outline reach block).IsWithin bound := by
  intro axis
  obtain ⟨low, high⟩ := within axis
  have outlineHigh := holds axis
  have ends : block.high axis = block.low axis + block.extent axis := rfl
  rw [high_snap]
  rcases low_snap_cases outline reach axis block with
    ⟨_, start⟩ | ⟨_, ⟨inside, _, start⟩ | ⟨_, start⟩⟩
  all_goals
    rw [start]
    constructor <;> linarith

/-- A block that ends before another starts ends before it after snapping as well. -/
theorem high_snap_le_low_snap (first : IsSound reach block) (second : IsSound reach other)
    (inside : ¬ IsBeyond outline reach axis other) (before : block.high axis ≤ other.low axis) :
    (snap outline reach block).high axis ≤ (snap outline reach other).low axis := by
  have nonneg := first.nonneg axis
  have reaches := first.reaches axis
  have otherReaches := second.reaches axis
  have ends : block.high axis = block.low axis + block.extent axis := rfl
  have otherEnds : other.high axis = other.low axis + other.extent axis := rfl
  have far : reach.along axis ≤ other.low axis := by linarith
  have inside : other.high axis ≤ outline.along axis := not_lt.mp fun high => inside ⟨far, high⟩
  rw [high_snap]
  rcases low_snap_cases outline reach axis other with
    ⟨near, _⟩ | ⟨_, ⟨_, _, otherStart⟩ | ⟨_, otherStart⟩⟩
  · exact absurd near (not_lt.mpr far)
  all_goals
    rw [otherStart]
    rcases low_snap_cases outline reach axis block with
      ⟨_, start⟩ | ⟨_, ⟨_, near, start⟩ | ⟨_, start⟩⟩
    all_goals
      rw [start]
      linarith

theorem IsOrderly.map_snap (orderly : IsOrderly reach blocks)
    (inside : ∀ block ∈ blocks, ∀ axis, ¬ IsBeyond outline reach axis block) :
    IsOrderly reach (blocks.map (snap outline reach)) where
  sound := by
    simp only [List.mem_map, forall_exists_index, and_imp, forall_apply_eq_imp_iff₂]
    exact fun block member => (orderly.sound block member).snap
  clear := by
    rw [AreClear, List.pairwise_map]
    apply orderly.clear.imp_of_mem
    intro a b first second clear
    have soundFirst := orderly.sound a first
    have soundSecond := orderly.sound b second
    rw [Rect.overlaps_eq_false_iff (Block.isProper_footprint soundFirst.positive)
      (Block.isProper_footprint soundSecond.positive)] at clear
    rw [Rect.overlaps_eq_false_iff (Block.isProper_footprint soundFirst.snap.positive)
      (Block.isProper_footprint soundSecond.snap.positive)]
    obtain ⟨axis, apart⟩ := clear
    refine ⟨axis, ?_⟩
    simp only [Block.span_footprint] at apart ⊢
    rcases apart with before | after
    · left
      exact high_snap_le_low_snap soundFirst soundSecond (inside b second axis) before
    · right
      exact high_snap_le_low_snap soundSecond soundFirst (inside a first axis) after

end Snapping

section Sliding

variable {pass : Pass α} {origin : Block α} {start : α} {allowed : List Nat}
  {before after : List (Block α)}

/--
A block is drawn to the side of the pass, no further than alignment reaches, so that it comes to end
at an edge of the source.
-/
theorem start?_cases (aligned : pass.start? origin.footprint block = some start) :
    pass.side.isUpper = false ∧ start ≤ block.low pass.side.axis ∧
        block.low pass.side.axis ≤ start + pass.reach.along pass.side.axis ∧
        (start = origin.low pass.side.axis ∨ start = origin.high pass.side.axis) ∨
      pass.side.isUpper = true ∧ block.low pass.side.axis ≤ start ∧
        start ≤ block.low pass.side.axis + pass.reach.along pass.side.axis ∧
        (start + block.extent pass.side.axis = origin.low pass.side.axis ∨
          start + block.extent pass.side.axis = origin.high pass.side.axis) := by
  simp only [Pass.start?, alignedStart, Block.span_footprint, Interval.contains, Interval.length,
    Bool.and_eq_true, decide_eq_true_eq, add_sub_cancel_left] at aligned
  split at aligned
  next upper =>
    refine .inr ⟨upper, ?_⟩
    split at aligned
    next near =>
      cases aligned
      exact ⟨by linarith [near.2], by linarith [near.1], .inr (sub_add_cancel _ _)⟩
    · split at aligned
      next near =>
        cases aligned
        exact ⟨by linarith [near.2], by linarith [near.1], .inl (sub_add_cancel _ _)⟩
      · cases aligned
  next lower =>
    refine .inl ⟨Bool.eq_false_iff.mpr lower, ?_⟩
    split at aligned
    next near =>
      cases aligned
      exact ⟨near.1, near.2, .inl rfl⟩
    · split at aligned
      next near =>
        cases aligned
        exact ⟨near.1, near.2, .inr rfl⟩
      · cases aligned

theorem IsSound.slide (sound : IsSound reach block) (source : IsSound reach origin)
    (aligned : pass.start? origin.footprint block = some start) :
    IsSound reach (slide pass.side.axis start block) where
  positive axis := by simpa using sound.positive axis
  reaches axis := by simpa using sound.reaches axis
  nonneg axis := by
    by_cases same : axis = pass.side.axis
    · subst same
      rw [low_slide_self]
      have nonneg := sound.nonneg pass.side.axis
      have sourceNonneg := source.nonneg pass.side.axis
      have sourcePositive := source.positive pass.side.axis
      have ends : origin.high pass.side.axis =
        origin.low pass.side.axis + origin.extent pass.side.axis := rfl
      rcases start?_cases aligned with ⟨_, _, _, edge | edge⟩ | ⟨_, above, _⟩
      all_goals linarith
    · rw [low_slide_of_ne same]
      exact sound.nonneg axis

theorem isWithin_slide (sound : IsSound reach block) (source : IsSound reach origin)
    (within : block.IsWithin outline) (sourceWithin : origin.IsWithin outline)
    (aligned : pass.start? origin.footprint block = some start) :
    (slide pass.side.axis start block).IsWithin outline := by
  intro axis
  refine ⟨(sound.slide source aligned).nonneg axis, ?_⟩
  by_cases same : axis = pass.side.axis
  · subst same
    rw [Block.high, extent_slide, low_slide_self]
    have high := (within pass.side.axis).2
    have sourceHigh := (sourceWithin pass.side.axis).2
    have sourcePositive := source.positive pass.side.axis
    have ends : block.high pass.side.axis =
      block.low pass.side.axis + block.extent pass.side.axis := rfl
    have sourceEnds : origin.high pass.side.axis =
      origin.low pass.side.axis + origin.extent pass.side.axis := rfl
    rcases start?_cases aligned with ⟨_, below, _⟩ | ⟨_, _, _, edge | edge⟩
    all_goals linarith
  · rw [Block.high, extent_slide, low_slide_of_ne same]
    exact (within axis).2

theorem forall_mem_run {holds : Block α → Prop} (initial : ∀ block ∈ blocks, holds block)
    (slides : ∀ origin block start, holds origin → holds block →
      pass.start? origin.footprint block = some start → holds (slide pass.side.axis start block)) :
    ∀ block ∈ pass.run blocks, holds block := by
  apply Pass.run_invariant (fun blocks => ∀ block ∈ blocks, holds block) pass initial
  intro earlier origin before after earlierHolds source beforeHolds step block member
  cases step with
  | slide _ found aligned _ =>
      rcases List.mem_or_eq_of_mem_set member with member | rfl
      · exact beforeHolds block member
      · apply slides origin _ _ (earlierHolds origin source) _ aligned
        exact beforeHolds _ (List.mem_of_getElem? found)

theorem areClear_run (clear : AreClear blocks) : AreClear (pass.run blocks) := by
  apply Pass.run_invariant _ pass clear
  intro _ _ before after _ _ clear step
  rw [areClear_iff] at clear ⊢
  cases step with
  | @slide index moved start _ found _ landed =>
      have bound : index < before.length := (List.getElem?_eq_some_iff.mp found).1
      have self : (before.set index (slide pass.side.axis start moved))[index]? =
        some (slide pass.side.axis start moved) := List.getElem?_set_self bound
      intro i j a b different first second
      -- The block that moved has landed clear of all others; of two others neither has moved.
      by_cases here : i = index
      · subst here
        rw [Rect.overlaps_comm]
        exact overlaps_of_overlapsOther_eq_false landed first second different.symm
      · by_cases there : j = index
        · subst there
          exact overlaps_of_overlapsOther_eq_false landed second first different
        · rw [List.getElem?_set_ne (Ne.symm here)] at first
          rw [List.getElem?_set_ne (Ne.symm there)] at second
          exact clear i j a b different first second

theorem IsOrderly.run (orderly : IsOrderly reach blocks) : IsOrderly reach (pass.run blocks) where
  sound := by
    apply forall_mem_run orderly.sound
    exact fun _ _ _ source sound aligned => sound.slide source aligned
  clear := areClear_run orderly.clear

end Sliding

section Beyond

def HasBeyond (outline reach : Size α) (blocks : List (Block α)) : Prop :=
  ∃ block ∈ blocks, ∃ axis, IsBeyond outline reach axis block

theorem HasBeyond.map_snap (beyond : HasBeyond outline reach blocks) :
    HasBeyond outline reach (blocks.map (snap outline reach)) := by
  obtain ⟨block, member, axis, far, high⟩ := beyond
  refine ⟨snap outline reach block, List.mem_map_of_mem member, axis, ?_⟩
  rw [IsBeyond, high_snap]
  rcases low_snap_cases outline reach axis block with
    ⟨near, _⟩ | ⟨_, ⟨inside, _, _⟩ | ⟨_, start⟩⟩
  · exact absurd near (not_lt.mpr far)
  · exact absurd inside (lt_asymm high)
  · rw [start]
    exact ⟨far, high⟩

theorem HasBeyond.run {pass : Pass α} (outlines : pass.outline = outline)
    (beyond : HasBeyond outline reach blocks) : HasBeyond outline reach (pass.run blocks) := by
  obtain ⟨block, member, axis, beyond⟩ := beyond
  obtain ⟨index, found⟩ := List.mem_iff_getElem?.mp member
  have kept : ∃ block, (pass.run blocks)[index]? = some block ∧
      IsBeyond outline reach axis block := by
    apply Pass.run_invariant
      (fun blocks => ∃ block, blocks[index]? = some block ∧ IsBeyond outline reach axis block)
      pass ⟨block, found, beyond⟩
    intro _ _ before after _ _ kept step
    obtain ⟨other, there, kept⟩ := kept
    cases step with
    | @slide position block start pending moved _ _ =>
        by_cases same : position = index
        · subst same
          refine ⟨_, List.getElem?_set_self (List.getElem?_eq_some_iff.mp moved).1, ?_⟩
          by_cases across : axis = pass.side.axis
          · have free := Pass.not_touches_of_mem_pending pending found true
            rw [Pass.touches, if_pos rfl, Block.span_footprint, decide_eq_false_iff_not] at free
            rw [outlines, ← across] at free
            exact absurd beyond.2.le free
          · cases there.symm.trans moved
            rw [IsBeyond, Block.high, extent_slide, low_slide_of_ne across]
            exact kept
        · rw [List.getElem?_set_ne same]
          exact ⟨other, there, kept⟩
  obtain ⟨block, found, beyond⟩ := kept
  exact ⟨block, List.mem_of_getElem? found, axis, beyond⟩

end Beyond

section Rounds

variable {left done : Nat}

theorem HasBeyond.rounds (beyond : HasBeyond outline reach blocks) :
    HasBeyond outline reach (rounds outline reach left done blocks).blocks := by
  apply rounds_invariant _ left done beyond
  intro blocks beyond
  apply round_invariant _ beyond
  · exact fun _ beyond => beyond.map_snap
  · exact fun _ _ outlines _ beyond => beyond.run outlines

theorem IsOrderly.round (orderly : IsOrderly reach blocks)
    (inside : ¬ HasBeyond outline reach blocks) :
    IsOrderly reach (round outline reach blocks) := by
  have snapped : IsOrderly reach (blocks.map (snap outline reach)) := by
    apply orderly.map_snap
    exact fun block member axis beyond => inside ⟨block, member, axis, beyond⟩
  exact snapped.run.run.run.run

theorem IsOrderly.rounds (orderly : IsOrderly reach blocks)
    (inside : ¬ HasBeyond outline reach (rounds outline reach left done blocks).blocks) :
    IsOrderly reach (rounds outline reach left done blocks).blocks := by
  induction left generalizing done blocks with
  | zero => exact orderly
  | succ left induction =>
      -- The condition is about the last layout; `HasBeyond.rounds` carries it back to this one.
      have next := orderly.round fun beyond => inside beyond.rounds
      rw [Alignment.rounds] at inside ⊢
      split at inside
      next moves =>
        rw [if_pos moves]
        exact induction next inside
      next still =>
        rw [if_neg still]
        exact next

/-- Blocks within bounds that hold the outline stay within them. -/
theorem isWithin_rounds {bound : Size α} (holds : ∀ axis, outline.along axis ≤ bound.along axis)
    (sound : ∀ block ∈ blocks, IsSound reach block)
    (within : ∀ block ∈ blocks, block.IsWithin bound) :
    ∀ block ∈ (rounds outline reach left done blocks).blocks, block.IsWithin bound := by
  let kept (blocks : List (Block α)) : Prop :=
    ∀ block ∈ blocks, IsSound reach block ∧ block.IsWithin bound
  have keeps : kept (rounds outline reach left done blocks).blocks := by
    apply rounds_invariant kept left done
    · exact fun block member => ⟨sound block member, within block member⟩
    intro blocks initial
    apply round_invariant kept initial
    · intro blocks initial _ image
      obtain ⟨block, member, rfl⟩ := List.mem_map.mp image
      obtain ⟨sound, within⟩ := initial block member
      exact ⟨sound.snap, isWithin_snap holds within⟩
    · intro pass blocks _ _ initial
      apply forall_mem_run initial
      rintro origin block start ⟨source, sourceWithin⟩ ⟨sound, within⟩ aligned
      exact ⟨sound.slide source aligned, isWithin_slide sound source within sourceWithin aligned⟩
  exact fun block member => (keeps block member).2

end Rounds

end Alignment

end Floorplanner
