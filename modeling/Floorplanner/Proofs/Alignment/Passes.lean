import Mathlib.Logic.Relation
import Floorplanner.Alignment
import Floorplanner.Proofs.Packing.Places

/-!
What alignment can do to a layout.

A pass is a series of slides. Each of them moves one block along the axis of the pass to an edge of
another, a block that did not touch the outline on that axis when the pass began, and only if it
ends clear of all others. What one slide keeps, a pass keeps; what snapping keeps as well, a round
keeps, and any number of rounds.
-/

namespace Floorplanner

variable {α : Type}

namespace Alignment

section Slide

variable {axis other : Axis} {value : α} {block : Block α}

@[simp] theorem low_slide_self : (slide axis value block).low axis = value := by
  cases axis <;> rfl

theorem low_slide_of_ne (different : other ≠ axis) :
    (slide axis value block).low other = block.low other := by
  cases axis with
  | x =>
      cases other with
      | x => exact absurd rfl different
      | y => rfl
  | y =>
      cases other with
      | x => rfl
      | y => exact absurd rfl different

@[simp] theorem extent_slide : (slide axis value block).extent other = block.extent other := by
  cases axis <;> cases other <;> rfl

variable [Number α] {outline reach : Size α}

@[simp] theorem atOrigin_slide : (slide axis value block).atOrigin = block.atOrigin := by
  cases axis <;> rfl

@[simp] theorem low_snap : (snap outline reach block).low axis =
    snapped (outline.along axis) (reach.along axis) (block.footprint.span axis) := by
  cases axis <;> rfl

@[simp] theorem extent_snap : (snap outline reach block).extent axis = block.extent axis := by
  cases axis <;> rfl

@[simp] theorem atOrigin_snap : (snap outline reach block).atOrigin = block.atOrigin := rfl

end Slide

variable [Number α]

theorem overlaps_of_overlapsOther_eq_false {blocks : List (Block α)} {index position : Nat}
    {block other : Block α} (clear : overlapsOther blocks index = false)
    (found : blocks[index]? = some block) (otherFound : blocks[position]? = some other)
    (different : position ≠ index) : other.footprint.overlaps block.footprint = false := by
  simp only [overlapsOther, found, List.any_eq_false, Bool.and_eq_true, bne_iff_ne, not_and,
    Bool.not_eq_true] at clear
  exact clear (other, position) (List.mem_zipIdx_iff_getElem?.mpr otherFound) different

namespace Pass

def start? (pass : Pass α) (source : Rect α) (block : Block α) : Option α :=
  let axis := pass.side.axis
  alignedStart pass.side.isUpper (pass.reach.along axis) (source.span axis)
    (block.footprint.span axis)

/-- The blocks that a pass over a layout starts from, and those that it may move. -/
def queue (pass : Pass α) (blocks : List (Block α)) : List Nat :=
  (blocks.zipIdx.filter fun entry => pass.touches pass.side.isUpper entry.1).map (·.2)

def pending (pass : Pass α) (blocks : List (Block α)) : List Nat :=
  (blocks.zipIdx.filter fun entry => !pass.touches pass.side.isUpper entry.1 &&
    !pass.touches (!pass.side.isUpper) entry.1).map (·.2)

variable {pass : Pass α} {source : Rect α} {blocks moved : List (Block α)} {index : Nat}

theorem run_eq (pass : Pass α) (blocks : List (Block α)) :
    pass.run blocks = pass.propagate (pass.queue blocks) (pass.pending blocks) blocks := rfl

theorem not_touches_of_mem_pending {block : Block α} (member : index ∈ pass.pending blocks)
    (found : blocks[index]? = some block) (upper : Bool) : pass.touches upper block = false := by
  obtain ⟨⟨other, position⟩, free, rfl⟩ := List.mem_map.mp member
  obtain ⟨entry, free⟩ := List.mem_filter.mp free
  cases found.symm.trans (List.mem_zipIdx_iff_getElem?.mp entry)
  simp only [Bool.and_eq_true, Bool.not_eq_true'] at free
  cases upper <;> cases isUpper : pass.side.isUpper <;> simp_all

theorem touches_of_mem_queue {block : Block α} (member : index ∈ pass.queue blocks)
    (found : blocks[index]? = some block) : pass.touches pass.side.isUpper block = true := by
  obtain ⟨⟨other, position⟩, entry, rfl⟩ := List.mem_map.mp member
  obtain ⟨entry, touches⟩ := List.mem_filter.mp entry
  cases found.symm.trans (List.mem_zipIdx_iff_getElem?.mp entry)
  exact touches

theorem move?_eq_some (equality : pass.move? source blocks index = some moved) :
    ∃ block start, blocks[index]? = some block ∧ pass.start? source block = some start ∧
      moved = blocks.set index (slide pass.side.axis start block) := by
  rw [move?] at equality
  obtain ⟨block, found, rest⟩ := Option.bind_eq_some_iff.mp equality
  obtain ⟨start, aligned, rest⟩ := Option.bind_eq_some_iff.mp rest
  exact ⟨block, start, found, aligned, (Option.some.inj rest).symm⟩

omit [Number α] in
theorem positions_sublist (blocks : List (Block α)) (holds : Block α × Nat → Bool) :
    ((blocks.zipIdx.filter holds).map (·.2)).Sublist (List.range blocks.length) := by
  rw [List.range_eq_range', ← List.zipIdx_map_snd]
  exact List.filter_sublist.map _

theorem queue_sublist (pass : Pass α) (blocks : List (Block α)) :
    (pass.queue blocks).Sublist (List.range blocks.length) := positions_sublist blocks _

theorem pending_sublist (pass : Pass α) (blocks : List (Block α)) :
    (pass.pending blocks).Sublist (List.range blocks.length) := positions_sublist blocks _

theorem nodup_pending (pass : Pass α) (blocks : List (Block α)) : (pass.pending blocks).Nodup :=
  List.nodup_range.sublist (pending_sublist pass blocks)

theorem not_mem_pending_of_mem_queue (member : index ∈ pass.queue blocks) :
    index ∉ pass.pending blocks := by
  intro pending
  obtain ⟨⟨block, _⟩, entry, rfl⟩ := List.mem_map.mp member
  have found := List.mem_zipIdx_iff_getElem?.mp (List.mem_of_mem_filter entry)
  have touches := touches_of_mem_queue member found
  rw [not_touches_of_mem_pending pending found] at touches
  exact Bool.false_ne_true touches

inductive Slides (pass : Pass α) (source : Rect α) (allowed : List Nat) (before : List (Block α)) :
    List (Block α) → Prop
  | slide {index : Nat} {block : Block α} {start : α} (member : index ∈ allowed)
      (found : before[index]? = some block) (aligned : pass.start? source block = some start)
      (clear : overlapsOther (before.set index (slide pass.side.axis start block)) index = false) :
      Slides pass source allowed before (before.set index (slide pass.side.axis start block))

structure Progress (α : Type) where
  sources : List Nat
  blocks : List (Block α)

/-- One move of a pass. The block that it moves has not moved before, and is a source from then on. -/
inductive Step (pass : Pass α) (allowed : List Nat) : Progress α → Progress α → Prop
  | slide {sources : List Nat} {before : List (Block α)} {origin index : Nat}
      {source block : Block α} {start : α} (isSource : origin ∈ sources)
      (foundSource : before[origin]? = some source) (member : index ∈ allowed)
      (fresh : index ∉ sources) (found : before[index]? = some block)
      (connected : pass.connects origin index = true)
      (aligned : pass.start? source.footprint block = some start)
      (clear : overlapsOther (before.set index (slide pass.side.axis start block)) index = false) :
      Step pass allowed ⟨sources, before⟩
        ⟨index :: sources, before.set index (slide pass.side.axis start block)⟩

theorem Step.slides {allowed : List Nat} {before after : Progress α}
    (step : pass.Step allowed before after) :
    ∃ source ∈ before.blocks, pass.Slides source.footprint allowed before.blocks after.blocks := by
  cases step with
  | slide _ foundSource member _ found _ aligned clear =>
      exact ⟨_, List.mem_of_getElem? foundSource, .slide member found aligned clear⟩

/-- What has not become a source has not moved. -/
theorem Step.unmoved {allowed : List Nat} {before after : Progress α}
    (step : pass.Step allowed before after)
    (earlier : ∀ index, index ∉ before.sources → before.blocks[index]? = blocks[index]?) :
    ∀ index, index ∉ after.sources → after.blocks[index]? = blocks[index]? := by
  cases step with
  | slide =>
      intro index absent
      obtain ⟨different, absent⟩ := not_or.mp (List.mem_cons.not.mp absent)
      rw [List.getElem?_set_ne (Ne.symm different)]
      exact earlier index absent

section Steps

variable {sources pending allowed : List Nat}

theorem pending_spread_subset (origin : Nat) :
    (pass.spread origin source pending blocks).pending ⊆ pending := by
  induction pending generalizing blocks with
  | nil => simp [spread]
  | cons index rest induction =>
      rw [spread]
      split
      · exact List.cons_subset_cons index induction
      · split
        · exact List.subset_cons_of_subset index induction
        · exact List.subset_cons_of_subset index induction

theorem reached_spread_subset (origin : Nat) :
    (pass.spread origin source pending blocks).reached ⊆ pending := by
  induction pending generalizing blocks with
  | nil => simp [spread]
  | cons index rest induction =>
      rw [spread]
      split
      · exact List.subset_cons_of_subset index induction
      · split
        · exact List.subset_cons_of_subset index induction
        · exact List.cons_subset_cons index induction

theorem nodup_spread (pass : Pass α) (origin : Nat) (source : Rect α) (blocks : List (Block α))
    (nodup : pending.Nodup) :
    ((pass.spread origin source pending blocks).pending ++
      (pass.spread origin source pending blocks).reached).Nodup := by
  induction pending generalizing blocks with
  | nil => simp [spread]
  | cons index rest induction =>
      obtain ⟨absent, nodup⟩ := List.nodup_cons.mp nodup
      have fresh (blocks : List (Block α)) :
          index ∉ (pass.spread origin source rest blocks).pending ++
            (pass.spread origin source rest blocks).reached := by
        intro member
        rcases List.mem_append.mp member with pending | reached
        · exact absent (pending_spread_subset origin pending)
        · exact absent (reached_spread_subset origin reached)
      rw [spread]
      split
      · exact List.nodup_cons.mpr ⟨fresh blocks, induction blocks nodup⟩
      · split
        · exact induction blocks nodup
        next moved _ _ =>
          exact List.nodup_middle.mpr (List.nodup_cons.mpr ⟨fresh moved, induction moved nodup⟩)

theorem spread_steps (pass : Pass α) {origin : Nat} {source : Block α}
    (isSource : origin ∈ sources) (found : blocks[origin]? = some source)
    (subset : pending ⊆ allowed) (nodup : pending.Nodup)
    (fresh : ∀ index ∈ pending, index ∉ sources) :
    let result := pass.spread origin source.footprint pending blocks
    Relation.ReflTransGen (pass.Step allowed) ⟨sources, blocks⟩
      ⟨result.reached.reverse ++ sources, result.blocks⟩ := by
  induction pending generalizing sources blocks with
  | nil => exact .refl
  | cons index rest induction =>
      obtain ⟨member, subset⟩ := List.cons_subset.mp subset
      obtain ⟨absent, nodup⟩ := List.nodup_cons.mp nodup
      obtain ⟨here, fresh⟩ := List.forall_mem_cons.mp fresh
      rw [spread]
      split
      · exact induction isSource found subset nodup fresh
      next moved move =>
        obtain ⟨connected, move⟩ := Option.ite_none_right_eq_some.mp move
        obtain ⟨block, start, there, aligned, rfl⟩ := move?_eq_some move
        split
        · exact induction isSource found subset nodup fresh
        next clear =>
          have step : pass.Step allowed ⟨sources, blocks⟩ ⟨index :: sources, _⟩ :=
            .slide isSource found member here there connected aligned (Bool.eq_false_iff.mpr clear)
          refine .head step ?_
          have different : index ≠ origin := fun same => here (same ▸ isSource)
          have stays : (blocks.set index (slide pass.side.axis start block))[origin]? = some source :=
            (List.getElem?_set_ne different).trans found
          have later := induction (List.mem_cons_of_mem index isSource) stays subset nodup (by grind)
          rw [List.reverse_cons, List.append_assoc]
          exact later

theorem propagate_steps {queue : List Nat} (queued : queue ⊆ sources) (subset : pending ⊆ allowed)
    (nodup : pending.Nodup) (fresh : ∀ index ∈ pending, index ∉ sources) :
    ∃ last, Relation.ReflTransGen (pass.Step allowed) ⟨sources, blocks⟩
      ⟨last, pass.propagate queue pending blocks⟩ := by
  induction queue, pending, blocks using propagate.induct pass generalizing sources with
  | case1 pending blocks =>
      rw [propagate]
      exact ⟨sources, .refl⟩
  | case2 pending blocks origin rest missing induction =>
      rw [propagate, missing]
      exact induction (List.cons_subset.mp queued).2 subset nodup fresh
  | case3 pending blocks origin rest block found result =>
      rename_i induction
      rw [propagate, found]
      obtain ⟨isSource, queued⟩ := List.cons_subset.mp queued
      have steps := spread_steps pass isSource found subset nodup fresh
      have split := nodup_spread pass origin block.footprint blocks nodup
      obtain ⟨nodup, _, disjoint⟩ := List.nodup_append.mp split
      have queued : rest ++ result.reached ⊆ result.reached.reverse ++ sources := by
        intro index member
        rcases List.mem_append.mp member with waiting | reached
        · exact List.mem_append_right _ (queued waiting)
        · exact List.mem_append_left _ (List.mem_reverse.mpr reached)
      have fresh : ∀ index ∈ result.pending, index ∉ result.reached.reverse ++ sources := by
        intro index member isLater
        rcases List.mem_append.mp isLater with reached | earlier
        · exact disjoint index member index (List.mem_reverse.mp reached) rfl
        · exact fresh index (pending_spread_subset origin member) earlier
      obtain ⟨last, later⟩ := induction queued
        (fun _ member => subset (pending_spread_subset origin member)) nodup fresh
      exact ⟨last, steps.trans later⟩

/-- A pass is a series of steps from the blocks at its side. -/
theorem run_steps (pass : Pass α) (blocks : List (Block α)) :
    ∃ last, Relation.ReflTransGen (pass.Step (pass.pending blocks))
      ⟨pass.queue blocks, blocks⟩ ⟨last, pass.run blocks⟩ := by
  rw [run_eq]
  refine propagate_steps (List.Subset.refl _) (List.Subset.refl _) (nodup_pending pass blocks) ?_
  exact fun index pending queued => not_mem_pending_of_mem_queue queued pending

/-- What holds at the start of a pass and is kept by each of its steps holds at its end. -/
theorem run_induction (holds : Progress α → Prop) (pass : Pass α)
    (initial : holds ⟨pass.queue blocks, blocks⟩)
    (keeps : ∀ before after, holds before → pass.Step (pass.pending blocks) before after →
      holds after) : ∃ last, holds ⟨last, pass.run blocks⟩ := by
  have kept : ∀ after, Relation.ReflTransGen (pass.Step (pass.pending blocks))
      ⟨pass.queue blocks, blocks⟩ after → holds after := by
    intro after steps
    induction steps with
    | refl => exact initial
    | tail _ step before => exact keeps _ _ before step
  obtain ⟨last, steps⟩ := run_steps pass blocks
  exact ⟨last, kept _ steps⟩

theorem run_invariant (holds : List (Block α) → Prop) (pass : Pass α) (initial : holds blocks)
    (keeps : ∀ earlier origin before after, holds earlier → origin ∈ earlier → holds before →
      pass.Slides origin.footprint (pass.pending blocks) before after → holds after) :
    holds (pass.run blocks) := by
  obtain ⟨_, final⟩ := run_induction (fun progress => holds progress.blocks) pass initial
    (fun before after earlier step => by
      obtain ⟨source, member, slides⟩ := step.slides
      exact keeps before.blocks source before.blocks after.blocks earlier member earlier slides)
  exact final

/-- A pass over blocks that all touch the outline on its axis moves none. -/
theorem run_eq_self (touching : ∀ block ∈ blocks, ∃ upper, pass.touches upper block = true) :
    pass.run blocks = blocks := by
  apply pass.run_invariant (· = blocks) rfl
  rintro _ _ _ _ _ _ rfl step
  cases step with
  | slide member found _ _ =>
      obtain ⟨upper, touches⟩ := touching _ (List.mem_of_getElem? found)
      rw [not_touches_of_mem_pending member found] at touches
      cases touches

end Steps

end Pass

section Rounds

variable {outline reach : Size α} {blocks : List (Block α)}

theorem round_eq_map_snap
    (touching : ∀ pass : Pass α, pass.outline = outline →
      ∀ block ∈ blocks.map (snap outline reach), ∃ upper, pass.touches upper block = true) :
    round outline reach blocks = blocks.map (snap outline reach) := by
  rw [round, Pass.run_eq_self (touching _ rfl), Pass.run_eq_self (touching _ rfl),
    Pass.run_eq_self (touching _ rfl), Pass.run_eq_self (touching _ rfl)]

theorem rounds_of_settled {left done : Nat} (settled : round outline reach blocks = blocks) :
    (Alignment.rounds outline reach left done blocks).blocks = blocks := by
  induction left generalizing done with
  | zero => rfl
  | succ left induction =>
      rw [Alignment.rounds, settled]
      split
      · exact induction
      · rfl

theorem rounds_of_settled_round {left done : Nat} {after : List (Block α)}
    (first : round outline reach blocks = after) (settled : round outline reach after = after) :
    (Alignment.rounds outline reach (left + 1) done blocks).blocks = after := by
  rw [Alignment.rounds, first]
  split
  · exact rounds_of_settled settled
  · rfl

variable (holds : List (Block α) → Prop)

theorem round_invariant (initial : holds blocks)
    (snaps : ∀ blocks, holds blocks → holds (blocks.map (snap outline reach)))
    (passes : ∀ (pass : Pass α) (blocks : List (Block α)), pass.outline = outline →
      pass.reach = reach → holds blocks → holds (pass.run blocks)) :
    holds (round outline reach blocks) := by
  rw [round]
  apply passes _ _ rfl rfl
  apply passes _ _ rfl rfl
  apply passes _ _ rfl rfl
  apply passes _ _ rfl rfl
  exact snaps blocks initial

theorem rounds_invariant (left done : Nat) (initial : holds blocks)
    (rounds : ∀ blocks, holds blocks → holds (round outline reach blocks)) :
    holds (Alignment.rounds outline reach left done blocks).blocks := by
  induction left generalizing done blocks with
  | zero => exact initial
  | succ left induction =>
      rw [Alignment.rounds]
      split
      · exact induction (done + 1) (rounds blocks initial)
      · exact rounds blocks initial

theorem rounds_succ_invariant {left done : Nat} (first : holds (round outline reach blocks))
    (rounds : ∀ blocks, holds blocks → holds (round outline reach blocks)) :
    holds (Alignment.rounds outline reach (left + 1) done blocks).blocks := by
  rw [Alignment.rounds]
  split
  · exact rounds_invariant holds left (done + 1) first rounds
  · exact first

end Rounds

end Alignment

end Floorplanner
