import Mathlib
import Floorplanner.Proofs.Alignment.Legality
import Floorplanner.Proofs.Move.Legality
import Floorplanner.Proofs.Packing.LongestChain

/-!
No layout is out of reach of packing.

Rectangles that do not overlap can be taken up one by one, each of them to the left of all that are
still there or below them; upside down, to the left of them or above. The two orders are a sequence
pair that sets no block before another unless it lies before it in the layout. So the layout is one
of the placements that the pair admits, and packing, which gives the least of them, needs no more
room.
-/

namespace Floorplanner

variable {α : Type} [ExactNumber α]

/-- A list that can be taken up from the front, whatever is left of it, has an order. -/
theorem exists_perm_pairwise {ι : Type} {before : ι → ι → Prop} (list : List ι)
    (nodup : list.Nodup)
    (front : ∀ rest ⊆ list, rest ≠ [] → ∃ first ∈ rest, ∀ other ∈ rest, other ≠ first →
      before first other) :
    ∃ order : List ι, order.Perm list ∧ order.Pairwise before := by
  classical
  induction length : list.length generalizing list with
  | zero => exact ⟨[], by rw [List.eq_nil_of_length_eq_zero length], .nil⟩
  | succ count induction =>
      have nonempty : list ≠ [] := List.ne_nil_of_length_eq_add_one length
      obtain ⟨first, member, leads⟩ := front list (fun _ member => member) nonempty
      obtain ⟨order, perm, pairwise⟩ := induction (list.erase first) (nodup.erase first)
        (fun rest within => front rest fun _ member => List.mem_of_mem_erase (within member))
        (by rw [List.length_erase_of_mem member, length, Nat.add_sub_cancel])
      refine ⟨first :: order, (perm.cons first).trans (List.perm_cons_erase member).symm, ?_⟩
      refine List.pairwise_cons.mpr ⟨fun other later => ?_, pairwise⟩
      have left := nodup.mem_erase_iff.mp (perm.mem_iff.mp later)
      exact leads other left.2 left.1

namespace Rect

/-- The rectangle `r` lies to the left of `s` or below it. -/
def LeadsTo (r s : Rect α) : Prop := ∃ axis, (r.span axis).high ≤ (s.span axis).low

theorem apart_iff_leadsTo {r s : Rect α} : r.Apart s ↔ r.LeadsTo s ∨ s.LeadsTo r :=
  exists_or

def flipped (r : Rect α) : Rect α := ⟨r.lx, -r.uy, r.ux, -r.ly⟩

theorem IsProper.flipped {r : Rect α} (proper : r.IsProper) : r.flipped.IsProper := by
  intro axis
  cases axis with
  | x => exact proper .x
  | y => exact neg_lt_neg (proper .y)

theorem flipped_leadsTo_flipped {r s : Rect α} :
    r.flipped.LeadsTo s.flipped ↔
      (r.span .x).high ≤ (s.span .x).low ∨ (s.span .y).high ≤ (r.span .y).low := by
  constructor
  · rintro ⟨axis, before⟩
    cases axis with
    | x => exact .inl before
    | y => exact .inr (neg_le_neg_iff.mp before)
  · rintro (before | before)
    · exact ⟨.x, before⟩
    · exact ⟨.y, neg_le_neg before⟩

theorem Apart.flipped {r s : Rect α} (apart : r.Apart s) : r.flipped.Apart s.flipped := by
  rw [apart_iff_leadsTo, flipped_leadsTo_flipped, flipped_leadsTo_flipped]
  obtain ⟨axis, before⟩ := apart
  cases axis with
  | x => exact before.imp .inl .inl
  | y => exact before.symm.imp .inr .inr

/-- Along `x`, a rectangle lies before another that it leads to both ways up. -/
theorem high_le_low_of_leadsTo {r s : Rect α} (first : r.IsProper) (second : s.IsProper)
    (leads : r.LeadsTo s) (flipped : r.flipped.LeadsTo s.flipped) :
    (r.span .x).high ≤ (s.span .x).low := by
  rcases flipped_leadsTo_flipped.mp flipped with before | above
  · exact before
  obtain ⟨axis, before⟩ := leads
  cases axis with
  | x => exact before
  | y =>
      have upright := (first .y).trans_le (before.trans (second .y).le)
      exact absurd (upright.trans_le above) (lt_irrefl _)

/-- Along `y`, it lies before another that it leads to as they are but not upside down. -/
theorem high_le_low_of_leadsTo_of_flipped {r s : Rect α} (first : r.IsProper)
    (second : s.IsProper) (leads : r.LeadsTo s) (flipped : s.flipped.LeadsTo r.flipped) :
    (r.span .y).high ≤ (s.span .y).low := by
  rcases flipped_leadsTo_flipped.mp flipped with after | below
  · obtain ⟨axis, before⟩ := leads
    cases axis with
    | x =>
        have across := (first .x).trans_le (before.trans (second .x).le)
        exact absurd (across.trans_le after) (lt_irrefl _)
    | y => exact before
  · exact below

section Family

variable {ι : Type} {rect : ι → Rect α} {members : Set ι}

/-- Every member that `a` does not lead to starts no further to the left than `a`. -/
def IsLeftmost (rect : ι → Rect α) (members : Set ι) (a : ι) : Prop :=
  ∀ other ∈ members, other ≠ a → ¬ (rect a).LeadsTo (rect other) → (rect a).lx ≤ (rect other).lx

/-- What a leftmost rectangle does not lead to lies below it. -/
theorem IsLeftmost.below (proper : ∀ a ∈ members, (rect a).IsProper)
    (apart : members.Pairwise fun a b => (rect a).Apart (rect b)) {a other : ι}
    (leftmost : IsLeftmost rect members a) (member : a ∈ members) (otherMember : other ∈ members)
    (different : other ≠ a) (hinders : ¬ (rect a).LeadsTo (rect other)) :
    (rect other).uy ≤ (rect a).ly := by
  have right := leftmost other otherMember different hinders
  rcases apart_iff_leadsTo.mp (apart member otherMember different.symm) with leads | ⟨axis, before⟩
  · exact absurd leads hinders
  · cases axis with
    | x => exact absurd ((proper other otherMember .x).trans_le (before.trans right)) (lt_irrefl _)
    | y => exact before

/-- Below a rectangle, the leftmost of what it does not lead to is a leftmost one of all. -/
theorem isLeftmost_of_below {a next : ι} (upright : (rect a).ly < (rect a).uy)
    (below : (rect next).uy ≤ (rect a).ly) (hinders : ¬ (rect a).LeadsTo (rect next))
    (least : ∀ b ∈ members, b ≠ a → ¬ (rect a).LeadsTo (rect b) →
      (rect next).lx ≤ (rect b).lx) :
    IsLeftmost rect members next := by
  intro third member _ thirdHinders
  by_contra further
  have left : (rect third).lx < (rect next).lx := not_le.mp further
  have low : (rect third).ly < (rect next).uy := not_le.mp fun above => thirdHinders ⟨.y, above⟩
  have within : (rect next).lx < (rect a).ux := not_le.mp fun beyond => hinders ⟨.x, beyond⟩
  refine absurd (least third member ?_ ?_) (not_le.mpr left)
  · rintro rfl
    exact absurd (low.trans_le below) (lt_irrefl _)
  · rintro ⟨axis, before⟩
    cases axis with
    | x => exact absurd (before.trans_lt (left.trans within)) (lt_irrefl _)
    | y => exact absurd (before.trans_lt (low.trans_le below)) (not_lt.mpr upright.le)

/--
Among rectangles that do not overlap, the lowest of the leftmost ones lies to the left of each other
or below it.
-/
theorem exists_leadsTo (finite : members.Finite) (nonempty : members.Nonempty)
    (proper : ∀ a ∈ members, (rect a).IsProper)
    (apart : members.Pairwise fun a b => (rect a).Apart (rect b)) :
    ∃ first ∈ members, ∀ other ∈ members, other ≠ first →
      (rect first).LeadsTo (rect other) := by
  obtain ⟨start, startMember, startLeast⟩ :=
    Set.exists_min_image members (fun a => (rect a).lx) finite nonempty
  obtain ⟨first, ⟨member, leftmost⟩, lowest⟩ :=
    Set.exists_min_image {a ∈ members | IsLeftmost rect members a} (fun a => (rect a).ly)
      (finite.subset (Set.sep_subset _ _))
      ⟨start, startMember, fun other otherMember _ _ => startLeast other otherMember⟩
  refine ⟨first, member, fun other otherMember different => ?_⟩
  -- The leftmost of what `first` does not lead to would be a leftmost rectangle below it.
  by_contra hinders
  obtain ⟨next, ⟨nextMember, nextDifferent, nextHinders⟩, nextLeast⟩ :=
    Set.exists_min_image
      {b ∈ members | b ≠ first ∧ ¬ (rect first).LeadsTo (rect b)} (fun b => (rect b).lx)
      (finite.subset (Set.sep_subset _ _)) ⟨other, otherMember, different, hinders⟩
  have below := leftmost.below proper apart member nextMember nextDifferent nextHinders
  have nextLeftmost : IsLeftmost rect members next :=
    isLeftmost_of_below (proper first member .y) below nextHinders
      fun b isMember different hinders => nextLeast b ⟨isMember, different, hinders⟩
  have higher := lowest next ⟨nextMember, nextLeftmost⟩
  exact absurd ((proper next nextMember .y).trans_le (below.trans higher)) (lt_irrefl _)

end Family

end Rect

def footprintAt (placed : List (Block α)) (ref : BlockRef) : Rect α :=
  ⟨lowAt placed .x ref, lowAt placed .y ref, highAt placed .x ref, highAt placed .y ref⟩

theorem span_footprintAt (placed : List (Block α)) (ref : BlockRef) (axis : Axis) :
    (footprintAt placed ref).span axis = ⟨lowAt placed axis ref, highAt placed axis ref⟩ := by
  cases axis <;> rfl

theorem footprintAt_eq {placed : List (Block α)} {ref : BlockRef} {block : Block α}
    (found : placed[ref.index]? = some block) : footprintAt placed ref = block.footprint := by
  simp only [footprintAt, lowAt_eq found, highAt_eq found]
  rfl

namespace SequencePair

theorem Precedes.of_pairwise {before : BlockRef → BlockRef → Prop} {sequence : List BlockRef}
    {a b : BlockRef} (pairwise : sequence.Pairwise before) (precedes : Precedes sequence a b) :
    before a b :=
  List.pairwise_iff_forall_sublist.mp pairwise precedes

theorem count_le_of_isValid {pair : SequencePair} {count : Nat}
    (valid : pair.isValid count = true) : count ≤ 2 ^ 32 := by
  by_contra more
  obtain ⟨ref, _, index⟩ :=
    (negative_enumerates valid).exists_ref (Nat.not_le.mp more)
  exact absurd ref.index_lt (Nat.not_lt.mpr index.ge)

end SequencePair

structure IsLaidOut (placed : List (Block α)) : Prop where
  positive : ∀ block ∈ placed, ∀ axis, 0 < block.extent axis
  clear : Block.AreClear placed

namespace IsLaidOut

variable {placed : List (Block α)} {pair : SequencePair}

theorem isProper (laidOut : IsLaidOut placed) {ref : BlockRef}
    (bound : ref.index < placed.length) : (footprintAt placed ref).IsProper := by
  have found := List.getElem?_eq_getElem bound
  rw [footprintAt_eq found]
  exact Block.isProper_footprint (laidOut.positive _ (List.getElem_mem bound))

theorem apart (laidOut : IsLaidOut placed) {a b : BlockRef} (ha : a.index < placed.length)
    (hb : b.index < placed.length) (different : a ≠ b) :
    (footprintAt placed a).Apart (footprintAt placed b) := by
  have findFirst := List.getElem?_eq_getElem ha
  have findSecond := List.getElem?_eq_getElem hb
  have clear := Alignment.areClear_iff.mp laidOut.clear a.index b.index _ _
    (fun same => different (Entity.Ref.index_injective same)) findFirst findSecond
  have properFirst := laidOut.isProper ha
  have properSecond := laidOut.isProper hb
  rw [footprintAt_eq findFirst] at properFirst ⊢
  rw [footprintAt_eq findSecond] at properSecond ⊢
  exact (Rect.overlaps_eq_false_iff properFirst properSecond).mp clear

/-- The blocks can be ordered so that each of them leads to the later ones, also upside down. -/
theorem exists_order (laidOut : IsLaidOut placed) (bound : placed.length ≤ 2 ^ 32)
    (turn : Rect α → Rect α) (proper : ∀ r, r.IsProper → (turn r).IsProper)
    (apart : ∀ r s, r.Apart s → (turn r).Apart (turn s)) :
    ∃ order, SequencePair.Enumerates order placed.length ∧
      order.Pairwise fun a b => (turn (footprintAt placed a)).LeadsTo
        (turn (footprintAt placed b)) := by
  have row := SequencePair.enumerates_identity bound
  suffices front : ∀ rest ⊆ (SequencePair.identity placed.length).positive, rest ≠ [] →
      ∃ first ∈ rest, ∀ other ∈ rest, other ≠ first →
        (turn (footprintAt placed first)).LeadsTo (turn (footprintAt placed other)) by
    obtain ⟨order, perm, pairwise⟩ := exists_perm_pairwise _ row.nodup front
    exact ⟨order, (perm.map _).trans row, pairwise⟩
  intro rest within nonempty
  have bounds : ∀ ref ∈ rest, ref.index < placed.length :=
    fun ref member => row.mem_iff.mp (within member)
  apply Rect.exists_leadsTo rest.finite_toSet (List.exists_mem_of_ne_nil rest nonempty)
  · exact fun a member => proper _ (laidOut.isProper (bounds a member))
  · exact fun a ha b hb different =>
      apart _ _ (laidOut.apart (bounds a ha) (bounds b hb) different)

/-- Some pair sets no block before another unless it lies before it in the layout. -/
theorem exists_isPlacement (laidOut : IsLaidOut placed) (bound : placed.length ≤ 2 ^ 32)
    (nonneg : ∀ block ∈ placed, ∀ axis, 0 ≤ block.low axis) :
    ∃ pair : SequencePair, pair.isValid placed.length = true ∧
      ∀ axis, IsPlacement pair axis placed.length (extentAt placed axis) (lowAt placed axis) := by
  obtain ⟨positive, positiveOrder, positiveLeads⟩ :=
    laidOut.exists_order bound Rect.flipped (fun _ => .flipped) (fun _ _ => .flipped)
  obtain ⟨negative, negativeOrder, negativeLeads⟩ :=
    laidOut.exists_order bound id (fun _ => id) (fun _ _ => id)
  have valid : SequencePair.isValid ⟨positive, negative⟩ placed.length = true :=
    SequencePair.isValid_iff_enumerates.mpr ⟨positiveOrder, negativeOrder⟩
  refine ⟨⟨positive, negative⟩, valid, fun axis => ⟨fun ref bound => ?_, fun a b before => ?_⟩⟩
  · rw [lowAt_eq (List.getElem?_eq_getElem bound)]
    exact nonneg _ (List.getElem_mem bound) axis
  · obtain ⟨aBound, bBound⟩ := SequencePair.bound_of_before valid before
    have properFirst := laidOut.isProper aBound
    have properSecond := laidOut.isProper bBound
    suffices ordered : ((footprintAt placed a).span axis).high ≤
        ((footprintAt placed b).span axis).low by
      simpa only [span_footprintAt, highAt] using ordered
    cases axis with
    | x =>
        obtain ⟨forwards, earlier⟩ := before
        exact Rect.high_le_low_of_leadsTo properFirst properSecond
          (earlier.of_pairwise negativeLeads) (forwards.of_pairwise positiveLeads)
    | y =>
        obtain ⟨backwards, earlier⟩ := before
        exact Rect.high_le_low_of_leadsTo_of_flipped properFirst properSecond
          (earlier.of_pairwise negativeLeads) (backwards.of_pairwise positiveLeads)

end IsLaidOut

theorem extentAt_congr {blocks others : List (Block α)} {axis : Axis}
    (sizes : blocks.map (·.extent axis) = others.map (·.extent axis)) :
    extentAt blocks axis = extentAt others axis := by
  funext ref
  rw [extentAt, extentAt, sizes]

/--
Blocks that can be laid out in a box without overlap are packed into it by some valid pair, as long
as there are no more of them than references; of more blocks there is no valid pair at all.
-/
theorem exists_pack_within_iff {blocks placed : List (Block α)} {box : Size α}
    (sizes : ∀ axis, placed.map (·.extent axis) = blocks.map (·.extent axis))
    (laidOut : IsLaidOut placed) (within : ∀ block ∈ placed, block.IsWithin box)
    (nonneg : ∀ axis, 0 ≤ box.along axis) :
    (∃ pair : SequencePair, pair.isValid blocks.length = true ∧
        (pack blocks pair).2.width ≤ box.width ∧ (pack blocks pair).2.height ≤ box.height) ↔
      blocks.length ≤ 2 ^ 32 := by
  have length : placed.length = blocks.length := by
    simpa using congrArg List.length (sizes .x)
  constructor
  · rintro ⟨pair, valid, _⟩
    exact SequencePair.count_le_of_isValid valid
  · intro bound
    obtain ⟨pair, valid, placement⟩ := laidOut.exists_isPlacement (length ▸ bound)
      fun block member axis => (within block member axis).1
    rw [length] at valid placement
    have fits (axis : Axis) : (pack blocks pair).2.along axis ≤ box.along axis := by
      refine along_pack_le valid (extentAt_congr (sizes axis) ▸ placement axis) (nonneg axis) ?_
      intro ref isBlock
      have found := List.getElem?_eq_getElem (length ▸ isBlock)
      rw [← extentAt_congr (sizes axis), extentAt_eq found, lowAt_eq found]
      exact (within _ (List.getElem_mem _) axis).2
    exact ⟨pair, valid, fits .x, fits .y⟩

theorem exists_pack_within_three :
    let wide : Block ℝ := .hard "wide" 6 1 [⟨3, 2⟩]
    let tall : Block ℝ := .hard "tall" 8 1 [⟨2, 4⟩]
    let flat : Block ℝ := .hard "flat" 5 1 [⟨5, 1⟩]
    let placed : List (Block ℝ) := [wide.moveTo 0 1, tall.moveTo 3 1, flat]
    IsLaidOut placed ∧
      ∃ pair : SequencePair, pair.isValid 3 = true ∧
        (pack [wide, tall, flat] pair).2.width ≤ 5 ∧
        (pack [wide, tall, flat] pair).2.height ≤ 5 := by
  intro wide tall flat placed
  have laidOut : IsLaidOut placed := by
    constructor
    · intro block member axis
      simp only [placed, List.mem_cons, List.not_mem_nil, or_false] at member
      rcases member with rfl | rfl | rfl <;> cases axis <;>
        norm_num [wide, tall, flat, Block.extent, Block.hard, Block.moveTo]
    · simp only [placed, Block.AreClear, List.pairwise_cons, List.mem_cons, List.not_mem_nil,
        or_false, forall_eq_or_imp, forall_eq, false_imp_iff, List.Pairwise.nil,
        and_true, Rect.overlaps, decide_eq_false_iff_not]
      norm_num [wide, tall, flat, Block.hard, Block.moveTo, Block.footprint, Rect.ofOrigin,
        Rect.overlapArea]
  have within : ∀ block ∈ placed, block.IsWithin ⟨5, 5⟩ := by
    intro block member axis
    simp only [placed, List.mem_cons, List.not_mem_nil, or_false] at member
    rcases member with rfl | rfl | rfl <;> cases axis <;>
      norm_num [wide, tall, flat, Block.high, Block.low, Block.extent, Block.hard, Block.moveTo,
        Size.along]
  have nonneg : ∀ axis, (0 : ℝ) ≤ (⟨5, 5⟩ : Size ℝ).along axis := by
    intro axis
    cases axis <;> norm_num [Size.along]
  have sizes : ∀ axis, placed.map (·.extent axis) = [wide, tall, flat].map (·.extent axis) :=
    fun axis => by cases axis <;> rfl
  exact ⟨laidOut, (exists_pack_within_iff sizes laidOut within nonneg).mpr (by decide)⟩

end Floorplanner
