import Floorplanner.Proofs.Alignment.Passes

/-!
Alignment looks up only blocks that are there.

A pass queues and leaves pending positions of the blocks that it runs over, and has a lane for each
of them. It moves blocks without adding or dropping any, so the positions stay those of blocks.
-/

namespace Floorplanner

namespace Alignment

variable {α : Type} [Number α]

namespace Pass

/-- A pass that finds the block and the lane of each position that it comes to. -/
inductive StaysInRange (pass : Pass α) : (queue pending : List Nat) → List (Block α) → Prop where
  | done (pending : List Nat) (blocks : List (Block α)) : StaysInRange pass [] pending blocks
  | next {origin : Nat} {rest pending : List Nat} {blocks : List (Block α)} {block : Block α}
      (found : blocks[origin]? = some block)
      (bounds : ∀ index ∈ origin :: pending, index < blocks.length ∧ index < pass.lanes.length)
      (later : let result := pass.spread origin block.footprint pending blocks
        StaysInRange pass (rest ++ result.reached) result.pending result.blocks) :
      StaysInRange pass (origin :: rest) pending blocks

def IsInRange (pass : Pass α) (blocks : List (Block α)) : Prop :=
  pass.StaysInRange (pass.queue blocks) (pass.pending blocks) blocks

variable {pass : Pass α} {blocks : List (Block α)} {queue pending : List Nat}

theorem Slides.length {source : Rect α} {allowed : List Nat} {before after : List (Block α)}
    (slides : pass.Slides source allowed before after) : after.length = before.length := by
  cases slides with
  | slide => exact List.length_set

theorem length_spread (origin : Nat) (source : Rect α) :
    (pass.spread origin source pending blocks).blocks.length = blocks.length := by
  induction pending generalizing blocks with
  | nil => rfl
  | cons index rest induction =>
      rw [spread]
      split
      · exact induction
      next moved move =>
        obtain ⟨_, move⟩ := Option.ite_none_right_eq_some.mp move
        obtain ⟨block, start, _, _, rfl⟩ := move?_eq_some move
        split
        · exact induction
        · exact induction.trans List.length_set

theorem length_run (pass : Pass α) (blocks : List (Block α)) :
    (pass.run blocks).length = blocks.length := by
  apply run_invariant (·.length = blocks.length) pass rfl
  exact fun _ _ before after _ _ same slides => slides.length.trans same

theorem staysInRange (lanes : pass.lanes.length = blocks.length)
    (bounds : ∀ index ∈ queue ++ pending, index < blocks.length) :
    pass.StaysInRange queue pending blocks := by
  induction queue, pending, blocks using propagate.induct pass with
  | case1 pending blocks => exact .done pending blocks
  | case2 pending blocks origin rest missing =>
      have bound := bounds origin List.mem_cons_self
      exact absurd missing (by simp [bound])
  | case3 pending blocks origin rest block found result induction =>
      have length : result.blocks.length = blocks.length := length_spread origin _
      refine .next found ?_ (induction (lanes.trans length.symm) ?_)
      · intro index member
        have bound : index < blocks.length := by
          apply bounds
          rcases List.mem_cons.mp member with rfl | member
          · exact List.mem_cons_self
          · exact List.mem_append_right _ member
        exact ⟨bound, lanes ▸ bound⟩
      · intro index member
        rw [length]
        apply bounds
        simp only [List.mem_append, List.mem_cons] at member ⊢
        rcases member with (queued | reached) | pending
        · exact .inl (.inr queued)
        · exact .inr (reached_spread_subset origin reached)
        · exact .inr (pending_spread_subset origin pending)

theorem isInRange (lanes : pass.lanes.length = blocks.length) : pass.IsInRange blocks := by
  apply staysInRange lanes
  intro index member
  have entry : ∃ block, (block, index) ∈ blocks.zipIdx := by
    rcases List.mem_append.mp member with queued | pending
    · obtain ⟨⟨block, _⟩, entry, rfl⟩ := List.mem_map.mp queued
      exact ⟨block, List.mem_of_mem_filter entry⟩
    · obtain ⟨⟨block, _⟩, entry, rfl⟩ := List.mem_map.mp pending
      exact ⟨block, List.mem_of_mem_filter entry⟩
  obtain ⟨block, entry⟩ := entry
  exact (List.getElem?_eq_some_iff.mp (List.mem_zipIdx_iff_getElem?.mp entry)).1

end Pass

structure RoundIsInRange (outline reach : Size α) (blocks : List (Block α)) : Prop where
  across : let snapped := blocks.map (snap outline reach)
    let rows := snapped.map (·.footprint.span .y)
    let left := Pass.mk .left outline reach rows
    left.IsInRange snapped ∧ (Pass.mk .right outline reach rows).IsInRange (left.run snapped)
  upward : let snapped := blocks.map (snap outline reach)
    let rows := snapped.map (·.footprint.span .y)
    let left := Pass.mk .left outline reach rows
    let aligned := (Pass.mk .right outline reach rows).run (left.run snapped)
    let columns := aligned.map (·.footprint.span .x)
    let bottom := Pass.mk .bottom outline reach columns
    bottom.IsInRange aligned ∧ (Pass.mk .top outline reach columns).IsInRange (bottom.run aligned)

theorem roundIsInRange (outline reach : Size α) (blocks : List (Block α)) :
    RoundIsInRange outline reach blocks where
  across := by
    refine ⟨Pass.isInRange ?_, Pass.isInRange ?_⟩
    · exact List.length_map _
    · rw [Pass.length_run]
      exact List.length_map _
  upward := by
    refine ⟨Pass.isInRange ?_, Pass.isInRange ?_⟩
    · exact List.length_map _
    · rw [Pass.length_run]
      exact List.length_map _

end Alignment

end Floorplanner
