import Mathlib
import Floorplanner.Proofs.Packing.Separation

/-!
A packed layout is tight: every block lies as far left and as far down as the pair lets it.

A chain is a list of blocks each of which the pair sets before the next. A block starts at the
greatest total extent of a chain that leads to it, and the layout ends at the greatest total extent
of any chain.
-/

namespace Floorplanner

open Packing

variable {α : Type} [ExactNumber α] {blocks : List (Block α)} {pair : SequencePair}

/-- Coordinates that keep the first `count` blocks off the edge and apart as the pair prescribes. -/
structure IsPlacement (pair : SequencePair) (axis : Axis) (count : Nat)
    (extent start : BlockRef → α) : Prop where
  nonneg : ∀ ref : BlockRef, ref.index < count → 0 ≤ start ref
  apart : ∀ a b, pair.Before axis a b → start a + extent a ≤ start b

def totalExtent (blocks : List (Block α)) (axis : Axis) (chain : List BlockRef) : α :=
  (chain.map (extentAt blocks axis)).sum

theorem totalExtent_concat (axis : Axis) (chain : List BlockRef) (last : BlockRef) :
    totalExtent blocks axis (chain ++ [last]) =
      totalExtent blocks axis chain + extentAt blocks axis last := by
  simp [totalExtent]

theorem isChain_concat_concat {before : BlockRef → BlockRef → Prop} {chain : List BlockRef}
    {a b : BlockRef} :
    ((chain ++ [a]) ++ [b]).IsChain before ↔ (chain ++ [a]).IsChain before ∧ before a b := by
  rw [List.isChain_append]
  simp

section Valid

variable (valid : pair.isValid blocks.length = true)

include valid

theorem isPlacement_pack (axis : Axis) :
    IsPlacement pair axis blocks.length (extentAt blocks axis)
      (lowAt (pack blocks pair).1 axis) where
  nonneg := fun _ bound => nonneg_lowAt_pack valid axis bound
  apart := fun a b before => by
    have apart := highAt_le_lowAt_pack valid axis before
    rwa [highAt, extentAt_pack] at apart

/-- Packing gives the least coordinates that the pair admits. -/
theorem lowAt_pack_le {axis : Axis} {start : BlockRef → α}
    (placement : IsPlacement pair axis blocks.length (extentAt blocks axis) start)
    (ref : BlockRef) (bound : ref.index < blocks.length) :
    lowAt (pack blocks pair).1 axis ref ≤ start ref := by
  refine SequencePair.before_induction valid axis (fun ref bound induction => ?_) ref bound
  have isReach := isReach_lowAt_pack valid axis bound
  rcases isReach.eq_zero_or_finish with zero | ⟨before, isBefore, equality⟩
  · rw [zero]
    exact placement.nonneg ref bound
  · calc
      lowAt (pack blocks pair).1 axis ref =
          lowAt (pack blocks pair).1 axis before + extentAt blocks axis before := by
        rw [← equality, highAt, extentAt_pack]
      _ ≤ start before + extentAt blocks axis before := by
        gcongr
        exact induction before isBefore
      _ ≤ start ref := placement.apart before ref isBefore

/-- Packing needs no more room than any placement that the pair admits. -/
theorem along_pack_le {axis : Axis} {start : BlockRef → α} {bound : α}
    (placement : IsPlacement pair axis blocks.length (extentAt blocks axis) start)
    (nonneg : 0 ≤ bound)
    (within : ∀ ref : BlockRef, ref.index < blocks.length →
      start ref + extentAt blocks axis ref ≤ bound) :
    (pack blocks pair).2.along axis ≤ bound := by
  rcases (isReach_along_pack valid axis).eq_zero_or_finish with zero | ⟨last, isLast, equality⟩
  · rw [zero]
    exact nonneg
  · calc
      (pack blocks pair).2.along axis =
          lowAt (pack blocks pair).1 axis last + extentAt blocks axis last := by
        rw [← equality, highAt, extentAt_pack]
      _ ≤ start last + extentAt blocks axis last := by
        gcongr
        exact lowAt_pack_le valid placement last isLast
      _ ≤ bound := within last isLast

theorem totalExtent_le_lowAt (axis : Axis) {chain : List BlockRef} {ref : BlockRef}
    (bound : ref.index < blocks.length)
    (isChain : (chain ++ [ref]).IsChain (pair.Before axis)) :
    totalExtent blocks axis chain ≤ lowAt (pack blocks pair).1 axis ref := by
  induction chain using List.reverseRecOn generalizing ref with
  | nil => exact nonneg_lowAt_pack valid axis bound
  | append_singleton chain last induction =>
      obtain ⟨isChain, before⟩ := isChain_concat_concat.mp isChain
      have earlier := induction (SequencePair.bound_of_before valid before).1 isChain
      calc
        totalExtent blocks axis (chain ++ [last]) =
            totalExtent blocks axis chain + extentAt blocks axis last :=
          totalExtent_concat axis chain last
        _ ≤ highAt (pack blocks pair).1 axis last := by
          rw [highAt, extentAt_pack]
          gcongr
        _ ≤ lowAt (pack blocks pair).1 axis ref := highAt_le_lowAt_pack valid axis before

theorem exists_chain_of_lowAt (axis : Axis) (ref : BlockRef) (bound : ref.index < blocks.length) :
    ∃ chain : List BlockRef, (chain ++ [ref]).IsChain (pair.Before axis) ∧
      (∀ before ∈ chain, before.index < blocks.length) ∧
      totalExtent blocks axis chain = lowAt (pack blocks pair).1 axis ref := by
  refine SequencePair.before_induction valid axis (fun ref bound induction => ?_) ref bound
  have isReach := isReach_lowAt_pack valid axis bound
  rcases isReach.eq_zero_or_finish with zero | ⟨last, isBefore, equality⟩
  · exact ⟨[], List.isChain_singleton ref, nofun, zero.symm⟩
  · obtain ⟨chain, isChain, bounds, total⟩ := induction last isBefore
    refine ⟨chain ++ [last], isChain_concat_concat.mpr ⟨isChain, isBefore⟩, ?_, ?_⟩
    · intro before member
      rcases List.mem_append.mp member with member | isLast
      · exact bounds before member
      · rw [List.mem_singleton.mp isLast]
        exact (SequencePair.bound_of_before valid isBefore).1
    · rw [totalExtent_concat, total, ← equality, highAt, extentAt_pack]

/-- A block starts where the longest chain that leads to it ends. -/
theorem isGreatest_lowAt_pack (axis : Axis) {ref : BlockRef} (bound : ref.index < blocks.length) :
    IsGreatest {total | ∃ chain : List BlockRef, (chain ++ [ref]).IsChain (pair.Before axis) ∧
        totalExtent blocks axis chain = total}
      (lowAt (pack blocks pair).1 axis ref) := by
  constructor
  · obtain ⟨chain, isChain, _, total⟩ := exists_chain_of_lowAt valid axis ref bound
    exact ⟨chain, isChain, total⟩
  · rintro total ⟨chain, isChain, rfl⟩
    exact totalExtent_le_lowAt valid axis bound isChain

/-- A layout ends where the longest chain of its blocks ends. -/
theorem isGreatest_along_pack (axis : Axis) :
    IsGreatest {total | ∃ chain : List BlockRef, chain.IsChain (pair.Before axis) ∧
        (∀ ref ∈ chain, ref.index < blocks.length) ∧ totalExtent blocks axis chain = total}
      ((pack blocks pair).2.along axis) := by
  have isReach := isReach_along_pack valid axis
  constructor
  · rcases isReach.eq_zero_or_finish with zero | ⟨last, bound, equality⟩
    · exact ⟨[], List.isChain_nil, nofun, zero.symm⟩
    · obtain ⟨chain, isChain, bounds, total⟩ := exists_chain_of_lowAt valid axis last bound
      refine ⟨chain ++ [last], isChain, ?_, ?_⟩
      · intro ref member
        rcases List.mem_append.mp member with member | isLast
        · exact bounds ref member
        · rw [List.mem_singleton.mp isLast]
          exact bound
      · rw [totalExtent_concat, total, ← equality, highAt, extentAt_pack]
  · rintro total ⟨chain, isChain, bounds, rfl⟩
    cases chain using List.reverseRecOn with
    | nil => exact isReach.nonneg
    | append_singleton chain last =>
        have bound := bounds last (by simp)
        have reaches := highAt_pack_le_along valid axis bound
        rw [highAt, extentAt_pack] at reaches
        rw [totalExtent_concat]
        refine le_trans ?_ reaches
        gcongr
        exact totalExtent_le_lowAt valid axis bound isChain

theorem pack_eq_of_atOrigin_eq {others : List (Block α)}
    (same : others.map (·.atOrigin) = blocks.map (·.atOrigin)) :
    pack others pair = pack blocks pair := by
  refine pack_congr ⟨same, fun index untouched => ?_⟩
  have length : others.length = blocks.length := by
    simpa using congrArg List.length same
  have beyond : blocks.length ≤ index := by
    by_contra within
    have bound := Nat.not_le.mp within
    obtain ⟨ref, member, equality⟩ :=
      (SequencePair.isValid_iff_enumerates.mp valid).1.exists_ref bound
    exact untouched ref member equality
  rw [List.getElem?_eq_none beyond, List.getElem?_eq_none (length ▸ beyond)]

/--
Along each axis, packing gives the least coordinates that the pair admits. They are the totals of
the longest chains that lead to the blocks, and the size is the total of the longest chain of all;
where the blocks were before has no part in it.
-/
theorem pack_least_and_longest (axis : Axis) :
    (IsPlacement pair axis blocks.length (extentAt blocks axis)
        (lowAt (pack blocks pair).1 axis) ∧
      ∀ start : BlockRef → α,
        IsPlacement pair axis blocks.length (extentAt blocks axis) start →
          ∀ ref : BlockRef, ref.index < blocks.length →
            lowAt (pack blocks pair).1 axis ref ≤ start ref) ∧
      (∀ ref : BlockRef, ref.index < blocks.length →
        IsGreatest {total | ∃ chain : List BlockRef,
            (chain ++ [ref]).IsChain (pair.Before axis) ∧ totalExtent blocks axis chain = total}
          (lowAt (pack blocks pair).1 axis ref)) ∧
      IsGreatest {total | ∃ chain : List BlockRef, chain.IsChain (pair.Before axis) ∧
          (∀ ref ∈ chain, ref.index < blocks.length) ∧ totalExtent blocks axis chain = total}
        ((pack blocks pair).2.along axis) ∧
      ∀ others : List (Block α), others.map (·.atOrigin) = blocks.map (·.atOrigin) →
        pack others pair = pack blocks pair := by
  refine ⟨⟨isPlacement_pack valid axis, fun start placement => ?_⟩, fun ref bound => ?_, ?_, ?_⟩
  · exact lowAt_pack_le valid placement
  · exact isGreatest_lowAt_pack valid axis bound
  · exact isGreatest_along_pack valid axis
  · exact fun others same => pack_eq_of_atOrigin_eq valid same

end Valid

theorem pack_least_and_longest_three :
    let blocks : List (Block ℝ) :=
      [.hard "wide" 6 1 [⟨3, 2⟩], .hard "tall" 8 1 [⟨2, 4⟩], .hard "flat" 5 1 [⟨5, 1⟩]]
    let pair : SequencePair := ⟨[⟨1⟩, ⟨0⟩, ⟨2⟩], [⟨0⟩, ⟨2⟩, ⟨1⟩]⟩
    pair.isValid blocks.length = true ∧
      IsGreatest {total | ∃ chain : List BlockRef,
          (chain ++ [(⟨1⟩ : BlockRef)]).IsChain (pair.Before .y) ∧
          totalExtent blocks .y chain = total}
        (lowAt (pack blocks pair).1 .y ⟨1⟩) ∧
      pack (blocks.map fun block => block.moveTo 7 9) pair = pack blocks pair := by
  intro blocks pair
  have valid : pair.isValid blocks.length = true := by decide
  obtain ⟨_, longest, _, placeless⟩ := pack_least_and_longest valid .y
  exact ⟨valid, longest ⟨1⟩ (by decide), placeless _ rfl⟩

end Floorplanner
