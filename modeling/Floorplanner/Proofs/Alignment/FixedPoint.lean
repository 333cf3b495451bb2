import Mathlib
import Floorplanner.Proofs.Equality
import Floorplanner.Proofs.Alignment.HardBlocks
import Floorplanner.Proofs.Pointwise

/-!
A layout that alignment is done with.

The last round of an alignment that stops early ends on a layout with equal places. The same round
over that layout then takes the same decisions and ends on equal places once more, whatever it moves
on the way. The next alignment starts with that very round, as no shape has changed and so neither
has how near an edge has to be.
-/

namespace Floorplanner

open Number

variable {α : Type} [Number α]

namespace Interval

structure Alike (i j : Interval α) : Prop where
  low : Number.Alike i.low j.low
  high : Number.Alike i.high j.high

variable [RespectsEquality α] {i j : Interval α} {a b : α}

theorem Alike.length (alike : i.Alike j) : Number.Alike i.length j.length :=
  RespectsEquality.sub alike.high alike.low

theorem Alike.contains_eq (alike : i.Alike j) (same : Number.Alike a b) :
    i.contains a = j.contains b := by
  simp only [contains, RespectsEquality.le_iff_le alike.low same,
    RespectsEquality.le_iff_le same alike.high]

end Interval

namespace Rect

structure Alike (r s : Rect α) : Prop where
  lx : Number.Alike r.lx s.lx
  ly : Number.Alike r.ly s.ly
  ux : Number.Alike r.ux s.ux
  uy : Number.Alike r.uy s.uy

variable {r s t u : Rect α}

theorem Alike.span (alike : r.Alike s) (axis : Axis) : (r.span axis).Alike (s.span axis) := by
  cases axis with
  | x => exact ⟨alike.lx, alike.ux⟩
  | y => exact ⟨alike.ly, alike.uy⟩

variable [RespectsEquality α]

theorem Alike.overlaps_eq (first : r.Alike s) (second : t.Alike u) :
    r.overlaps t = s.overlaps u := by
  have width := RespectsEquality.sub (RespectsEquality.min first.ux second.ux)
    (RespectsEquality.max first.lx second.lx)
  have height := RespectsEquality.sub (RespectsEquality.min first.uy second.uy)
    (RespectsEquality.max first.ly second.ly)
  have area : Number.Alike (r.overlapArea t) (s.overlapArea u) := by
    refine .ite ?_ (.refl 0) (RespectsEquality.mul width height)
    rw [RespectsEquality.le_iff_le width (.refl 0), RespectsEquality.le_iff_le height (.refl 0)]
  simp only [overlaps, RespectsEquality.lt_iff_lt (.refl 0) area]

end Rect

namespace Block

/-- The same block at the same place, as far as arithmetic tells places apart. -/
structure Alike (block other : Block α) : Prop where
  same : other.atOrigin = block.atOrigin
  x : Number.Alike block.x other.x
  y : Number.Alike block.y other.y

variable {block other : Block α}

theorem Alike.footprint [RespectsEquality α] (alike : block.Alike other) :
    block.footprint.Alike other.footprint := by
  obtain ⟨same, x, y⟩ := alike
  have width : other.width = block.width := Alignment.extent_of_atOrigin_eq same .x
  have height : other.height = block.height := Alignment.extent_of_atOrigin_eq same .y
  refine ⟨x, y, ?_, ?_⟩
  · change Number.Alike (block.x + block.width) (other.x + other.width)
    rw [width]
    exact RespectsEquality.add x (.refl _)
  · change Number.Alike (block.y + block.height) (other.y + other.height)
    rw [height]
    exact RespectsEquality.add y (.refl _)

end Block

namespace Alignment

section Moves

variable {axis : Axis} {block other : Block α} {start otherStart : α}

theorem alike_slide (alike : block.Alike other) (starts : Number.Alike start otherStart) :
    (slide axis start block).Alike (slide axis otherStart other) := by
  cases axis with
  | x => exact ⟨alike.same, starts, alike.y⟩
  | y => exact ⟨alike.same, alike.x, starts⟩

variable [RespectsEquality α] {i j k l : Interval α}

theorem alike_snapped (extent reach : α) (alike : i.Alike j) :
    Number.Alike (snapped extent reach i) (snapped extent reach j) := by
  have beyond := RespectsEquality.sub (.refl extent) alike.high
  refine .ite (RespectsEquality.lt_iff_lt alike.low (.refl reach)) (.refl 0) (.ite ?_ ?_ alike.low)
  · rw [RespectsEquality.lt_iff_lt alike.high (.refl extent),
      RespectsEquality.lt_iff_lt beyond (.refl reach)]
  · exact RespectsEquality.sub (.refl extent) alike.length

theorem alike_snap (outline reach : Size α) (alike : block.Alike other) :
    (snap outline reach block).Alike (snap outline reach other) :=
  ⟨alike.same, alike_snapped _ _ (alike.footprint.span .x),
    alike_snapped _ _ (alike.footprint.span .y)⟩

theorem near_eq (reach : α) (first : i.Alike j) (second : k.Alike l) :
    near reach i k = near reach j l := by
  have within {a b c d : α} (first : Number.Alike a b) (second : Number.Alike c d) :
      Number.abs (a - c) ≤ reach ↔ Number.abs (b - d) ≤ reach :=
    RespectsEquality.le_iff_le (RespectsEquality.abs (RespectsEquality.sub first second))
      (.refl reach)
  simp only [near, within first.low second.low, within first.high second.high,
    within first.low second.high, within first.high second.low]

theorem alike_alignedStart (isUpper : Bool) (reach : α) (source : i.Alike j)
    (target : k.Alike l) :
    Option.Rel Number.Alike (alignedStart isUpper reach i k) (alignedStart isUpper reach j l) := by
  have some_or {p q : Bool} {a b : α} {u v : Option α} (same : p = q) (first : Number.Alike a b)
      (second : Option.Rel Number.Alike u v) :
      Option.Rel Number.Alike (if p then some a else u) (if q then some b else v) := by
    subst same
    split
    · exact .some first
    · exact second
  have below {a b : α} (end_ : Number.Alike a b) :
      (⟨a - reach, a⟩ : Interval α).contains k.high =
        (⟨b - reach, b⟩ : Interval α).contains l.high :=
    Interval.Alike.contains_eq ⟨RespectsEquality.sub end_ (.refl reach), end_⟩ target.high
  have above {a b : α} (end_ : Number.Alike a b) :
      (⟨a, a + reach⟩ : Interval α).contains k.low =
        (⟨b, b + reach⟩ : Interval α).contains l.low :=
    Interval.Alike.contains_eq ⟨end_, RespectsEquality.add end_ (.refl reach)⟩ target.low
  rw [alignedStart, alignedStart]
  split
  · refine some_or (below source.high) (RespectsEquality.sub source.high target.length) ?_
    exact some_or (below source.low) (RespectsEquality.sub source.low target.length) .none
  · exact some_or (above source.low) source.low (some_or (above source.high) source.high .none)

end Moves

structure Pass.Alike (pass replay : Pass α) : Prop where
  side : replay.side = pass.side
  outline : replay.outline = pass.outline
  reach : replay.reach = pass.reach
  lanes : List.Forall₂ Interval.Alike pass.lanes replay.lanes

section Passes

variable [RespectsEquality α] {pass replay : Pass α} {source other : Rect α}
  {blocks others : List (Block α)}

theorem overlapsOther_eq (alike : List.Forall₂ Block.Alike blocks others) (index : Nat) :
    overlapsOther blocks index = overlapsOther others index := by
  rw [overlapsOther, overlapsOther]
  obtain ⟨absent, otherAbsent⟩ | ⟨block, other, found, otherFound, here⟩ :=
    getElem?_cases alike index
  · rw [absent, otherAbsent]
  · rw [found, otherFound]
    refine any_eq_any (forall₂_zipIdx alike 0) ?_
    rintro ⟨_, position⟩ ⟨_, _⟩ ⟨there, rfl⟩
    simp only [there.footprint.overlaps_eq here.footprint]

theorem connects_eq (passes : pass.Alike replay) (i j : Nat) :
    pass.connects i j = replay.connects i j := by
  rw [Pass.connects, Pass.connects, passes.side, passes.reach]
  obtain ⟨absent, otherAbsent⟩ | ⟨lane, other, found, otherFound, first⟩ :=
    getElem?_cases passes.lanes i
  · rw [absent, otherAbsent]
  · rw [found, otherFound]
    obtain ⟨absent, otherAbsent⟩ | ⟨lane, other, found, otherFound, second⟩ :=
      getElem?_cases passes.lanes j
    · rw [absent, otherAbsent]
    · rw [found, otherFound]
      exact near_eq _ first second

theorem rel_move? (passes : pass.Alike replay) (alike : List.Forall₂ Block.Alike blocks others)
    (sources : source.Alike other) (index : Nat) :
    Option.Rel (List.Forall₂ Block.Alike) (pass.move? source blocks index)
      (replay.move? other others index) := by
  rw [Pass.move?, Pass.move?, passes.side, passes.reach]
  obtain ⟨absent, otherAbsent⟩ | ⟨block, moved, found, otherFound, here⟩ :=
    getElem?_cases alike index
  · rw [absent, otherAbsent]
    exact .none
  · rw [found, otherFound]
    have starts := alike_alignedStart pass.side.isUpper (pass.reach.along pass.side.axis)
      (sources.span pass.side.axis) (here.footprint.span pass.side.axis)
    simp only [Option.bind_eq_bind, Option.bind_some]
    revert starts
    generalize alignedStart _ _ _ (block.footprint.span _) = start
    generalize alignedStart _ _ _ (moved.footprint.span _) = otherStart
    rintro (starts | _)
    · exact .some (forall₂_set alike index (alike_slide here starts))
    · exact .none

theorem spread_alike (passes : pass.Alike replay)
    (alike : List.Forall₂ Block.Alike blocks others) (sources : source.Alike other)
    (origin : Nat) (pending : List Nat) :
    let result := pass.spread origin source pending blocks
    let again := replay.spread origin other pending others
    List.Forall₂ Block.Alike result.blocks again.blocks ∧ result.pending = again.pending ∧
      result.reached = again.reached := by
  induction pending generalizing blocks others with
  | nil => exact ⟨alike, rfl, rfl⟩
  | cons index rest induction =>
      have moves : Option.Rel (List.Forall₂ Block.Alike)
          (if pass.connects origin index then pass.move? source blocks index else none)
          (if replay.connects origin index then replay.move? other others index else none) := by
        rw [← connects_eq passes]
        split
        · exact rel_move? passes alike sources index
        · exact .none
      simp only [Pass.spread]
      revert moves
      generalize (if pass.connects origin index then pass.move? source blocks index else none) =
        moved
      generalize (if replay.connects origin index then replay.move? other others index else none) =
        movedAgain
      rintro (moves | _)
      · dsimp only
        rw [overlapsOther_eq moves index]
        split
        · exact induction alike
        · obtain ⟨places, pending, reached⟩ := induction moves
          exact ⟨places, pending, congrArg (index :: ·) reached⟩
      · obtain ⟨places, pending, reached⟩ := induction alike
        exact ⟨places, congrArg (index :: ·) pending, reached⟩

theorem propagate_alike (passes : pass.Alike replay)
    (alike : List.Forall₂ Block.Alike blocks others) (queue pending : List Nat) :
    List.Forall₂ Block.Alike (pass.propagate queue pending blocks)
      (replay.propagate queue pending others) := by
  induction queue, pending, blocks using Pass.propagate.induct pass generalizing others with
  | case1 pending blocks =>
      rw [Pass.propagate, Pass.propagate]
      exact alike
  | case2 pending blocks origin rest absent induction =>
      obtain ⟨_, otherAbsent⟩ | ⟨_, _, found, _⟩ := getElem?_cases alike origin
      · rw [Pass.propagate, Pass.propagate, absent, otherAbsent]
        exact induction alike
      · cases absent.symm.trans found
  | case3 pending blocks origin rest block found result =>
      rename_i induction
      obtain ⟨absent, _⟩ | ⟨_, other, here, otherFound, same⟩ := getElem?_cases alike origin
      · cases absent.symm.trans found
      · cases here.symm.trans found
        obtain ⟨places, pendings, reached⟩ :=
          spread_alike passes alike same.footprint origin pending
        rw [Pass.propagate, Pass.propagate, found, otherFound]
        dsimp only
        rw [← pendings, ← reached]
        exact induction places

theorem touches_eq (passes : pass.Alike replay) {block other : Block α}
    (alike : block.Alike other) (upper : Bool) :
    pass.touches upper block = replay.touches upper other := by
  have span := alike.footprint.span pass.side.axis
  simp only [Pass.touches, passes.side, passes.outline,
    RespectsEquality.le_iff_le (.refl _) span.high, span.low.beq_eq]

theorem run_alike (passes : pass.Alike replay)
    (alike : List.Forall₂ Block.Alike blocks others) :
    List.Forall₂ Block.Alike (pass.run blocks) (replay.run others) := by
  have queue : pass.queue blocks = replay.queue others := by
    refine positions_eq alike fun alike => ?_
    rw [touches_eq passes alike, passes.side]
  have pending : pass.pending blocks = replay.pending others := by
    refine positions_eq (p := fun block => !pass.touches _ block && !pass.touches _ block)
      (q := fun block => !replay.touches _ block && !replay.touches _ block) alike fun alike => ?_
    rw [touches_eq passes alike, touches_eq passes alike, passes.side]
  rw [Pass.run_eq, Pass.run_eq, queue, pending]
  exact propagate_alike passes alike _ _

end Passes

def Stays (block other : Block α) : Prop :=
  other.atOrigin = block.atOrigin ∧ (other.x == block.x) = true ∧ (other.y == block.y) = true

section Rounds

variable {outline reach : Size α} {blocks others : List (Block α)}

theorem stays_of_moved_eq_false (same : others.map (·.atOrigin) = blocks.map (·.atOrigin))
    (settled : moved blocks others = false) : List.Forall₂ Stays blocks others := by
  induction blocks generalizing others with
  | nil =>
      cases List.map_eq_nil_iff.mp same
      exact .nil
  | cons block rest induction =>
      obtain ⟨other, others, rfl, here, there⟩ := List.map_eq_cons_iff.mp same
      simp only [moved, List.zip_cons_cons, List.any_cons, Bool.or_eq_false_iff,
        Bool.not_eq_false'] at settled
      exact .cons ⟨here, settled.1⟩ (induction there settled.2)

theorem moved_eq_false (stay : List.Forall₂ Stays blocks others) :
    moved blocks others = false := by
  induction stay with
  | nil => rfl
  | cons first _ induction =>
      simp only [moved, List.zip_cons_cons, List.any_cons, first.2.1, first.2.2, Bool.not_true,
        Bool.or_self, Bool.false_or]
      exact induction

theorem rounds_of_stays (stay : List.Forall₂ Stays blocks (round outline reach blocks))
    (left done : Nat) :
    rounds outline reach (left + 1) done blocks = ⟨round outline reach blocks, done + 1⟩ := by
  rw [rounds, moved_eq_false stay]
  rfl

/-- An alignment that stops early has ended on a round that moved nothing. -/
theorem exists_last_round {left done : Nat}
    (early : (rounds outline reach left done blocks).rounds < left + done) :
    ∃ before, (rounds outline reach left done blocks).blocks = round outline reach before ∧
      moved before (round outline reach before) = false := by
  induction left generalizing done blocks with
  | zero => exact absurd early (by simp [rounds])
  | succ left induction =>
      rw [rounds] at early ⊢
      split at early
      next moves =>
        rw [if_pos moves]
        exact induction (by omega)
      next settled =>
        rw [if_neg settled]
        exact ⟨blocks, rfl, Bool.eq_false_iff.mpr settled⟩

theorem reach_eq_of_atOrigin (same : others.map (·.atOrigin) = blocks.map (·.atOrigin)) :
    Alignment.reach outline others = Alignment.reach outline blocks := by
  have sides (side : Block α → α) (fixed : ∀ block, side block.atOrigin = side block) :
      others.map side = blocks.map side := by
    simpa only [List.map_map, Function.comp_def, fixed] using congrArg (List.map side) same
  rw [Alignment.reach, Alignment.reach, sides (·.width) fun _ => rfl, sides (·.height) fun _ => rfl]

variable [RespectsEquality α]

theorem alike_lanes (alike : List.Forall₂ Block.Alike blocks others) (axis : Axis) :
    List.Forall₂ Interval.Alike (blocks.map (·.footprint.span axis))
      (others.map (·.footprint.span axis)) :=
  List.rel_map (fun _ _ alike => alike.footprint.span axis) alike

theorem round_alike (outline reach : Size α) (alike : List.Forall₂ Block.Alike blocks others) :
    List.Forall₂ Block.Alike (round outline reach blocks) (round outline reach others) := by
  have passes (side : Side) {lanes others} (alike : List.Forall₂ Interval.Alike lanes others) :
      Pass.Alike ⟨side, outline, reach, lanes⟩ ⟨side, outline, reach, others⟩ :=
    ⟨rfl, rfl, rfl, alike⟩
  have snaps : List.Forall₂ Block.Alike (blocks.map (snap outline reach))
      (others.map (snap outline reach)) :=
    List.rel_map (fun _ _ alike => alike_snap outline reach alike) alike
  have rows := alike_lanes snaps .y
  have left := run_alike (passes .left rows) snaps
  have right := run_alike (passes .right rows) left
  have columns := alike_lanes right .x
  have bottom := run_alike (passes .bottom columns) right
  exact run_alike (passes .top columns) bottom

variable {block other last : Block α}

theorem Stays.alike (stays : Stays block other) : block.Alike other :=
  ⟨stays.1, .inr (RespectsEquality.symm stays.2.1), .inr (RespectsEquality.symm stays.2.2)⟩

/-- What stayed where it was once is at numbers that equal themselves, so no NaN. -/
theorem Stays.again (stays : Stays block other) (alike : other.Alike last) : Stays other last := by
  have equal {a b c : α} (equal : (b == a) = true) (alike : Number.Alike b c) :
      (c == b) = true := by
    rw [← alike.beq_eq]
    exact RespectsEquality.trans equal (RespectsEquality.symm equal)
  exact ⟨alike.same, equal stays.2.1 alike.x, equal stays.2.2 alike.y⟩

theorem stays_of_alike {lasts : List (Block α)} (first : List.Forall₂ Stays blocks others)
    (second : List.Forall₂ Block.Alike others lasts) : List.Forall₂ Stays others lasts := by
  induction first generalizing lasts with
  | nil =>
      cases second
      exact .nil
  | cons stays _ induction =>
      cases second with
      | cons alike rest => exact .cons (stays.again alike) (induction rest)

/-- A round that moves nothing is followed by another one, which decides alike. -/
theorem stays_round (settled : moved blocks (round outline reach blocks) = false) :
    List.Forall₂ Stays (round outline reach blocks)
      (round outline reach (round outline reach blocks)) := by
  have first := stays_of_moved_eq_false (map_atOrigin_round outline reach blocks) settled
  exact stays_of_alike first (round_alike outline reach (first.imp fun _ _ stays => stays.alike))

end Rounds

end Alignment

open Floorplanner.Alignment

def Alignment.Remains (block other : Block α) : Prop :=
  (block.isHard = false → other = block) ∧ (block.isHard = true → Stays block other)

theorem alignHard_of_stays {outline : Size α} {blocks : List (Block α)}
    (some : blocks.filter (·.isHard) ≠ [])
    (stay : List.Forall₂ Stays (blocks.filter (·.isHard))
      (round outline (reach outline (blocks.filter (·.isHard))) (blocks.filter (·.isHard)))) :
    (alignHard outline blocks).rounds = 1 ∧
      List.Forall₂ Remains blocks (alignHard outline blocks).blocks := by
  rw [alignHard, if_neg (List.isEmpty_iff.not.mpr some), maxRounds, rounds_of_stays stay]
  refine ⟨rfl, forall₂_merge (fun block _ isSoft => ⟨fun _ => rfl, fun isHard => ?_⟩) ?_⟩
  · rw [isSoft] at isHard
    cases isHard
  · have hard : ∀ block ∈ blocks.filter (·.isHard), block.isHard = true :=
      fun block member => (List.mem_filter.mp member).2
    refine ((List.forall₂_and_left _ _).mpr ⟨hard, stay⟩).imp fun block other both => ?_
    exact ⟨fun isSoft => absurd (isSoft.symm.trans both.1) Bool.false_ne_true, fun _ => both.2⟩

variable [RespectsEquality α]

/--
Once alignment stops of its own accord, another one takes one round and leaves every block where it
is. A layout without hard blocks is not looked at.
-/
theorem alignHard_settles (outline : Size α) (blocks : List (Block α)) :
    ((∀ block ∈ blocks, block.isHard = false) → alignHard outline blocks = ⟨blocks, 0⟩) ∧
    ((∃ block ∈ blocks, block.isHard = true) → (alignHard outline blocks).rounds < maxRounds →
      let aligned := (alignHard outline blocks).blocks
      (alignHard outline aligned).rounds = 1 ∧
        List.Forall₂ Remains aligned (alignHard outline aligned).blocks) := by
  constructor
  · intro soft
    have none : blocks.filter (·.isHard) = [] := by
      simpa [List.filter_eq_nil_iff] using soft
    rw [alignHard, none]
    rfl
  · rintro ⟨block, member, isHard⟩ early
    have some : blocks.filter (·.isHard) ≠ [] :=
      List.ne_nil_of_mem (List.mem_filter.mpr ⟨member, isHard⟩)
    have hard := (alignHard_relocates outline blocks).2
    have same := map_atOrigin_rounds outline (reach outline (blocks.filter (·.isHard))) maxRounds
      0 (blocks.filter (·.isHard))
    rw [← hard] at same
    rw [alignHard, if_neg (List.isEmpty_iff.not.mpr some)] at early
    obtain ⟨before, last, settled⟩ := exists_last_round early
    apply alignHard_of_stays
    · intro none
      rw [none] at same
      exact some (List.map_eq_nil_iff.mp same.symm)
    · rw [reach_eq_of_atOrigin same, hard, last]
      exact stays_round settled

/-- In floating point: one block is snapped to the corner, and the other follows it. -/
theorem alignHard_settles_pair :
    let outline : Size Float := ⟨100, 100⟩
    let blocks : List (Block Float) :=
      [(Block.hard "rom" 400 1 [⟨20, 20⟩]).moveTo 1.5 (-0), Block.soft "core" 4 [⟨1, 1⟩],
        (Block.hard "ram" 900 1 [⟨30, 30⟩]).moveTo 24.5 22.1]
    let aligned := (alignHard outline blocks).blocks
    (∃ block ∈ blocks, block.isHard = true) ∧ (alignHard outline blocks).rounds = 2 ∧
      (alignHard outline aligned).rounds = 1 ∧
        List.Forall₂ Remains aligned (alignHard outline aligned).blocks := by
  intro outline blocks aligned
  have some : ∃ block ∈ blocks, block.isHard = true := ⟨_, .head _, rfl⟩
  have two : (alignHard outline blocks).rounds = 2 := by decide +kernel
  exact ⟨some, two, (alignHard_settles outline blocks).2 some (two ▸ by decide)⟩

end Floorplanner
