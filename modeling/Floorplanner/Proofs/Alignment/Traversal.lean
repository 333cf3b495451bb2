import Mathlib
import Floorplanner.Binary64
import Floorplanner.Proofs.Alignment.Passes

/-!
A pass as the traversal of a graph.

The blocks at the outline wait in a queue. A turn takes the first of them and visits its neighbours: a
pending block that it has a place for is tried there, and put back if it overlaps another. A block that
is tried is pending no more, whichever way it went, and only one that stays where it was tried joins the
queue. So each turn takes a block from those that wait or are pending, and no block is tried again,
whatever the graph is. On the graph of neighbouring lanes, that is a pass of alignment.
-/

namespace Floorplanner

namespace Alignment

namespace Pass

variable {α : Type}

/-- How far a pass has come, and what it has done so far, the earliest first. -/
structure Tour (α : Type) where
  blocks : List (Block α)
  pending : List Nat
  queue : List Nat
  queued : List Nat
  moves : List (Nat × α)
  reverted : List Nat

variable [Number α]

/-- Tries a pending block in the place that a source has for it. -/
def visit (pass : Pass α) (source : Rect α) (tour : Tour α) (index : Nat) : Tour α :=
  if index ∈ tour.pending then
    match tour.blocks[index]? with
    | none => tour
    | some block =>
        match pass.start? source block with
        | none => tour
        | some start =>
            let axis := pass.side.axis
            let tried := tour.blocks.set index (slide axis start block)
            let pending := tour.pending.erase index
            if overlapsOther tried index then
              { tour with
                blocks := tried.modify index (slide axis (block.low axis))
                pending
                reverted := tour.reverted ++ [index] }
            else
              { tour with
                blocks := tried
                pending
                queue := tour.queue ++ [index]
                queued := tour.queued ++ [index]
                moves := tour.moves ++ [(index, start)] }
  else tour

/-- Takes the first block of the queue and visits its neighbours in a graph. -/
def turn (pass : Pass α) (graph : Nat → List Nat) (tour : Tour α) : Tour α :=
  match tour.queue with
  | [] => tour
  | origin :: rest =>
      match tour.blocks[origin]? with
      | none => { tour with queue := rest }
      | some source =>
          (graph origin).foldl (pass.visit source.footprint) { tour with queue := rest }

/-- Before its first turn, a pass has put the blocks at its side on the queue. -/
def setOff (pass : Pass α) (blocks : List (Block α)) : Tour α where
  blocks
  pending := pass.pending blocks
  queue := pass.queue blocks
  queued := pass.queue blocks
  moves := []
  reverted := []

def after (pass : Pass α) (graph : Nat → List Nat) (blocks : List (Block α)) (turns : Nat) : Tour α :=
  (pass.turn graph)^[turns] (pass.setOff blocks)

def neighbors (pass : Pass α) (count origin : Nat) : List Nat :=
  (List.range count).filter (pass.connects origin)

variable {pass : Pass α} {graph : Nat → List Nat} {source : Rect α} {tour : Tour α} {index : Nat}
  {blocks : List (Block α)}

inductive Visits (pass : Pass α) (source : Rect α) (tour : Tour α) (index : Nat) : Tour α → Prop
  | leave (idle : index ∉ tour.pending ∨ pass.move? source tour.blocks index = none) :
      Visits pass source tour index tour
  | revert {block : Block α} {start : α} (pending : index ∈ tour.pending)
      (found : tour.blocks[index]? = some block) (aligned : pass.start? source block = some start)
      (blocked : overlapsOther (tour.blocks.set index (slide pass.side.axis start block)) index =
        true) :
      Visits pass source tour index
        { tour with
          pending := tour.pending.erase index
          reverted := tour.reverted ++ [index] }
  | move {block : Block α} {start : α} (pending : index ∈ tour.pending)
      (found : tour.blocks[index]? = some block) (aligned : pass.start? source block = some start)
      (clear : overlapsOther (tour.blocks.set index (slide pass.side.axis start block)) index =
        false) :
      Visits pass source tour index
        { tour with
          blocks := tour.blocks.set index (slide pass.side.axis start block)
          pending := tour.pending.erase index
          queue := tour.queue ++ [index]
          queued := tour.queued ++ [index]
          moves := tour.moves ++ [(index, start)] }

theorem move?_eq {block : Block α} (found : blocks[index]? = some block) :
    pass.move? source blocks index =
      (pass.start? source block).map fun start =>
        blocks.set index (slide pass.side.axis start block) := by
  rw [move?, found, Option.map_eq_bind]
  rfl

omit [Number α] in
theorem modify_set_slide {axis : Axis} {start : α} {block : Block α}
    (found : blocks[index]? = some block) :
    (blocks.set index (slide axis start block)).modify index (slide axis (block.low axis)) =
      blocks := by
  have back : slide axis (block.low axis) (slide axis start block) = block := by
    cases axis <;> rfl
  obtain ⟨bound, rfl⟩ := List.getElem?_eq_some_iff.mp found
  rw [List.modify_eq_set_getElem?, List.getElem?_set_self bound]
  change (blocks.set index _).set index _ = blocks
  rw [List.set_set, back, List.set_getElem_self]

theorem visits_visit (pass : Pass α) (source : Rect α) (tour : Tour α) (index : Nat) :
    Visits pass source tour index (pass.visit source tour index) := by
  unfold visit
  split
  next pending =>
    split
    next missing =>
      exact .leave (.inr (by rw [move?, missing]; rfl))
    next block found =>
      split
      next beyond => exact .leave (.inr (by rw [move?_eq found, beyond]; rfl))
      next start aligned =>
        dsimp only
        split
        next blocked =>
          rw [modify_set_slide found]
          exact .revert pending found aligned blocked
        next clear => exact .move pending found aligned (Bool.eq_false_iff.mpr clear)
  next idle => exact .leave (.inl idle)

section Order

structure Tour.IsOrderly (pass : Pass α) (blocks : List (Block α)) (tour : Tour α) : Prop where
  waiting : tour.queue <:+ tour.queued
  queued : tour.queued = pass.queue blocks ++ tour.moves.map (·.1)
  pending : tour.pending.Sublist (pass.pending blocks)
  /-- A block is queued, was put back or is pending, if it is one that the tour is about. -/
  accounted : (tour.queued ++ (tour.reverted ++ tour.pending)).Perm
    (pass.queue blocks ++ pass.pending blocks)
  moved : ∀ index start, (index, start) ∈ tour.moves →
    tour.blocks[index]? = blocks[index]?.map (slide pass.side.axis start)
  unmoved : ∀ index, index ∉ tour.moves.map (·.1) → tour.blocks[index]? = blocks[index]?

theorem nodup_queue_append_pending (pass : Pass α) (blocks : List (Block α)) :
    (pass.queue blocks ++ pass.pending blocks).Nodup := by
  have queue := List.nodup_range.sublist (queue_sublist pass blocks)
  apply queue.append (nodup_pending pass blocks)
  exact fun _ queued pending => not_mem_pending_of_mem_queue queued pending

theorem isOrderly_setOff (pass : Pass α) (blocks : List (Block α)) :
    Tour.IsOrderly pass blocks (pass.setOff blocks) where
  waiting := List.suffix_rfl
  queued := (List.append_nil _).symm
  pending := .refl _
  accounted := .refl _
  moved := nofun
  unmoved _ _ := rfl

namespace Tour.IsOrderly

variable {next : Tour α}

theorem nodup (orderly : IsOrderly pass blocks tour) :
    (tour.queued ++ (tour.reverted ++ tour.pending)).Nodup :=
  orderly.accounted.nodup_iff.mpr (nodup_queue_append_pending pass blocks)

theorem nodup_moves (orderly : IsOrderly pass blocks tour) : (tour.moves.map (·.1)).Nodup := by
  have queued := orderly.nodup.of_append_left
  rw [orderly.queued] at queued
  exact queued.of_append_right

theorem mem_queued (orderly : IsOrderly pass blocks tour)
    (member : index ∈ tour.moves.map (·.1)) : index ∈ tour.queued := by
  rw [orderly.queued]
  exact List.mem_append_right _ member

theorem not_mem_moves (orderly : IsOrderly pass blocks tour)
    (other : index ∈ tour.reverted ++ tour.pending) : index ∉ tour.moves.map (·.1) :=
  fun member => List.disjoint_of_nodup_append orderly.nodup (orderly.mem_queued member) other

theorem mem_pending_of_mem_moves (orderly : IsOrderly pass blocks tour)
    (member : index ∈ tour.moves.map (·.1)) : index ∈ pass.pending blocks := by
  have nodup := orderly.nodup
  rw [orderly.queued, List.append_assoc] at nodup
  have known := orderly.accounted.subset
  rw [orderly.queued, List.append_assoc] at known
  have later : index ∈ tour.moves.map (·.1) ++ (tour.reverted ++ tour.pending) :=
    List.mem_append_left _ member
  have absent : index ∉ pass.queue blocks := fun queued =>
    List.disjoint_of_nodup_append nodup queued later
  exact (List.mem_append.mp (known (List.mem_append_right _ later))).resolve_left absent

theorem accounted_erase (orderly : IsOrderly pass blocks tour) (pending : index ∈ tour.pending) :
    (tour.queued ++ (tour.reverted ++ index :: tour.pending.erase index)).Perm
      (pass.queue blocks ++ pass.pending blocks) := by
  have erased := ((List.perm_cons_erase pending).symm.append_left tour.reverted).append_left
    tour.queued
  exact erased.trans orderly.accounted

theorem visit (orderly : IsOrderly pass blocks tour) (visits : Visits pass source tour index next) :
    IsOrderly pass blocks next := by
  cases visits with
  | leave => exact orderly
  | revert pending =>
      refine { orderly with
        pending := List.erase_sublist.trans orderly.pending
        accounted := ?_ }
      rw [List.append_assoc tour.reverted]
      exact orderly.accounted_erase pending
  | @move block start pending found aligned clear =>
      have fresh := orderly.not_mem_moves (List.mem_append_right _ pending)
      have original := (orderly.unmoved index fresh).symm.trans found
      refine
        { waiting := ?waiting
          queued := ?queued
          pending := List.erase_sublist.trans orderly.pending
          accounted := ?accounted
          moved := ?moved
          unmoved := ?unmoved }
      case waiting =>
        obtain ⟨taken, split⟩ := orderly.waiting
        exact ⟨taken, by rw [← split, List.append_assoc]⟩
      case queued =>
        rw [orderly.queued, List.map_append, List.append_assoc]
        rfl
      case accounted =>
        rw [List.append_assoc tour.queued, List.singleton_append]
        exact (List.perm_middle.symm.append_left _).trans (orderly.accounted_erase pending)
      case moved =>
        intro other place member
        rcases List.mem_append.mp member with earlier | new
        · have different : index ≠ other := fun same =>
            fresh (same ▸ List.mem_map_of_mem earlier)
          rw [List.getElem?_set_ne different]
          exact orderly.moved other place earlier
        · cases List.mem_singleton.mp new
          rw [List.getElem?_set_self (List.getElem?_eq_some_iff.mp found).1, original]
          rfl
      case unmoved =>
        intro other absent
        rw [List.map_append, List.mem_append, not_or] at absent
        have different : index ≠ other := fun same => absent.2 (by simp [same])
        rw [List.getElem?_set_ne different]
        exact orderly.unmoved other absent.1

theorem turn (orderly : IsOrderly pass blocks tour) :
    IsOrderly pass blocks (pass.turn graph tour) := by
  unfold Pass.turn
  split
  · exact orderly
  next origin rest queue =>
    have taken : IsOrderly pass blocks { tour with queue := rest } :=
      { orderly with waiting := (List.suffix_cons origin rest).trans (queue ▸ orderly.waiting) }
    split
    · exact taken
    next source found =>
      exact List.foldlRecOn _ _ taken fun tour orderly index _ =>
        orderly.visit (visits_visit pass source.footprint tour index)

end Tour.IsOrderly

theorem isOrderly_after (pass : Pass α) (graph : Nat → List Nat) (blocks : List (Block α))
    (turns : Nat) : Tour.IsOrderly pass blocks (pass.after graph blocks turns) := by
  induction turns with
  | zero => exact isOrderly_setOff pass blocks
  | succ turns induction =>
      rw [after, Function.iterate_succ_apply']
      exact induction.turn

end Order

section End

def Tour.left (tour : Tour α) : Nat := tour.queue.length + tour.pending.length

theorem Visits.left_le {next : Tour α} (visits : Visits pass source tour index next) :
    next.left ≤ tour.left := by
  cases visits with
  | leave => exact le_rfl
  | revert => exact Nat.add_le_add_left (List.length_erase_le) _
  | move pending =>
      have some := List.length_pos_of_mem pending
      simp only [Tour.left, List.length_append, List.length_singleton,
        List.length_erase_of_mem pending]
      omega

theorem left_turn_lt (waiting : tour.queue ≠ []) : (pass.turn graph tour).left < tour.left := by
  unfold turn
  split
  next empty => exact absurd empty waiting
  next origin rest queue =>
    have taken : ({ tour with queue := rest } : Tour α).left < tour.left := by
      simp only [Tour.left, queue, List.length_cons]
      omega
    split
    · exact taken
    next source found =>
      apply List.foldlRecOn (motive := fun next : Tour α => next.left < tour.left) _ _ taken
      intro next less index _
      exact (visits_visit pass source.footprint next index).left_le.trans_lt less

theorem left_setOff_le (pass : Pass α) (blocks : List (Block α)) :
    (pass.setOff blocks).left ≤ blocks.length := by
  have within : pass.queue blocks ++ pass.pending blocks ⊆ List.range blocks.length := by
    rw [List.append_subset]
    exact ⟨(queue_sublist pass blocks).subset, (pending_sublist pass blocks).subset⟩
  have count := ((nodup_queue_append_pending pass blocks).subperm within).length_le
  rwa [List.length_append, List.length_range] at count

theorem queue_after_eq_nil (pass : Pass α) (graph : Nat → List Nat) (blocks : List (Block α)) :
    (pass.after graph blocks blocks.length).queue = [] := by
  have taken (turns : Nat) : (pass.after graph blocks turns).queue = [] ∨
      (pass.after graph blocks turns).left + turns ≤ blocks.length := by
    induction turns with
    | zero => exact .inr (left_setOff_le pass blocks)
    | succ turns induction =>
        rw [after, Function.iterate_succ_apply', ← after]
        by_cases empty : (pass.after graph blocks turns).queue = []
        · left
          simp only [turn, empty]
        · right
          have less : (pass.turn graph (pass.after graph blocks turns)).left < _ :=
            left_turn_lt empty
          have bound := induction.resolve_left empty
          omega
  rcases taken blocks.length with empty | bound
  · exact empty
  · apply List.eq_nil_of_length_eq_zero
    unfold Tour.left at bound
    omega

end End

section Spread

variable {origin : Nat}

theorem foldl_visit_cons (pass : Pass α) (source : Rect α) (tour : Tour α) (origin index : Nat)
    (indices : List Nat) :
    ((index :: indices).filter (pass.connects origin)).foldl (pass.visit source) tour =
      (indices.filter (pass.connects origin)).foldl (pass.visit source)
        (if pass.connects origin index then pass.visit source tour index else tour) := by
  rw [List.filter_cons]
  split <;> rfl

/-- A tour has the layout of a spread, and queues and keeps pending what the spread adds to each. -/
structure Tour.Follows (kept queue : List Nat) (spread : Spread α) (last : Tour α) : Prop where
  blocks : last.blocks = spread.blocks
  queue : last.queue = queue ++ spread.reached
  pending : last.pending = kept ++ spread.pending

namespace Tour.Follows

variable {kept queue : List Nat} {spread : Spread α}

omit [Number α] in
theorem keep (follows : Follows (kept ++ [index]) queue spread tour) :
    Follows kept queue { spread with pending := index :: spread.pending } tour where
  blocks := follows.blocks
  queue := follows.queue
  pending := by rw [follows.pending, List.append_assoc, List.singleton_append]

omit [Number α] in
theorem reach (follows : Follows kept (queue ++ [index]) spread tour) :
    Follows kept queue { spread with reached := index :: spread.reached } tour where
  blocks := follows.blocks
  queue := by rw [follows.queue, List.append_assoc, List.singleton_append]
  pending := follows.pending

end Tour.Follows

/--
Visits to the neighbours of a block do what spreading from it does. The visits go through all blocks
in order, and spreading through the pending ones among them; those `kept` were passed before, and stay
pending for a later source.
-/
theorem follows_spread (pass : Pass α) (origin : Nat) (source : Rect α) {indices rest : List Nat}
    (part : rest.Sublist indices) (nodup : indices.Nodup) (kept : List Nat) (tour : Tour α)
    (apart : ∀ index ∈ indices, index ∉ kept) (pending : tour.pending = kept ++ rest) :
    Tour.Follows kept tour.queue (pass.spread origin source rest tour.blocks)
      ((indices.filter (pass.connects origin)).foldl (pass.visit source) tour) := by
  induction part generalizing kept tour with
  | slnil => exact ⟨rfl, (List.append_nil _).symm, pending⟩
  | @cons rest indices head part induction =>
      obtain ⟨absent, nodup⟩ := List.nodup_cons.mp nodup
      obtain ⟨fresh, apart⟩ := List.forall_mem_cons.mp apart
      have idle : head ∉ tour.pending := by
        rw [pending, List.mem_append, not_or]
        exact ⟨fresh, fun member => absent (part.subset member)⟩
      rw [foldl_visit_cons, visit, if_neg idle, ite_self]
      exact induction nodup kept tour apart pending
  | @cons_cons rest indices head part induction =>
      obtain ⟨absent, nodup⟩ := List.nodup_cons.mp nodup
      obtain ⟨fresh, apart⟩ := List.forall_mem_cons.mp apart
      have isPending : head ∈ tour.pending := by simp [pending]
      have erased : tour.pending.erase head = kept ++ rest := by
        rw [pending, List.erase_append_right _ fresh, List.erase_cons_head]
      have apartHead : ∀ index ∈ indices, index ∉ kept ++ [head] := by
        intro index member
        rw [List.mem_append, not_or, List.mem_singleton]
        exact ⟨apart index member, fun same => absent (same ▸ member)⟩
      have split : tour.pending = kept ++ [head] ++ rest := by
        rw [pending, List.append_assoc, List.singleton_append]
      have keeps := (induction nodup (kept ++ [head]) tour apartHead split).keep
      rw [foldl_visit_cons, spread]
      by_cases connected : pass.connects origin head = true
      · rw [if_pos connected, if_pos connected]
        have visits := visits_visit pass source tour head
        generalize pass.visit source tour head = next at visits ⊢
        have later := fun erased : next.pending = kept ++ rest =>
          induction nodup kept next apart erased
        cases visits with
        | leave idle =>
            rw [idle.resolve_left (not_not.mpr isPending)]
            exact keeps
        | revert _ found aligned blocked =>
            rw [move?_eq found, aligned, Option.map_some]
            dsimp only
            rw [if_pos blocked]
            exact later erased
        | move _ found aligned clear =>
            rw [move?_eq found, aligned, Option.map_some]
            dsimp only
            rw [if_neg (Bool.eq_false_iff.mp clear)]
            exact (later erased).reach
      · rw [if_neg connected, if_neg connected]
        exact keeps

def remainder (pass : Pass α) (tour : Tour α) : List (Block α) :=
  pass.propagate tour.queue tour.pending tour.blocks

theorem remainder_turn {count : Nat} (part : tour.pending.Sublist (List.range count)) :
    pass.remainder (pass.turn (pass.neighbors count) tour) = pass.remainder tour := by
  unfold turn
  split
  · rfl
  next origin waiting queue =>
    split
    next missing => rw [remainder, remainder, queue, propagate, missing]
    next block found =>
      have follows := follows_spread pass origin block.footprint part List.nodup_range []
        { tour with queue := waiting } (fun _ _ => List.not_mem_nil) rfl
      rw [neighbors, remainder, remainder, queue, propagate, found]
      dsimp only
      rw [follows.blocks, follows.queue, follows.pending, List.nil_append]

theorem blocks_after_eq_run (pass : Pass α) (blocks : List (Block α)) :
    (pass.after (pass.neighbors blocks.length) blocks blocks.length).blocks = pass.run blocks := by
  have same (turns : Nat) :
      pass.remainder (pass.after (pass.neighbors blocks.length) blocks turns) = pass.run blocks := by
    induction turns with
    | zero => rfl
    | succ turns induction =>
        have part := (isOrderly_after pass (pass.neighbors blocks.length) blocks turns).pending.trans
          (pending_sublist pass blocks)
        rw [← induction, after, Function.iterate_succ_apply', ← after, remainder_turn part]
  rw [← same blocks.length, remainder, queue_after_eq_nil, propagate]

end Spread

/--
A pass over any graph ends after no more turns than there are blocks. At any time, no block was put on
the queue twice or put back as well, and what was moved was moved once and along the axis of the pass.
Every other block is where it was, among them those that were put back and those that touched the
outline on that axis. On the graph of neighbouring lanes the layout at the end is that of the pass.
-/
theorem pass_handles_each_block_once (pass : Pass α) (graph : Nat → List Nat)
    (blocks : List (Block α)) :
    (pass.after graph blocks blocks.length).queue = [] ∧
    (∀ turns : Nat,
      let tour := pass.after graph blocks turns
      tour.queue <:+ tour.queued ∧ (tour.queued ++ tour.reverted).Nodup ∧
      (tour.moves.map (·.1)).Nodup ∧
      (∀ index start, (index, start) ∈ tour.moves →
        tour.blocks[index]? = blocks[index]?.map (slide pass.side.axis start)) ∧
      (∀ index, index ∉ tour.moves.map (·.1) → tour.blocks[index]? = blocks[index]?) ∧
      (∀ index ∈ tour.reverted, tour.blocks[index]? = blocks[index]?) ∧
      ∀ (index : Nat) (block : Block α) (upper : Bool), blocks[index]? = some block →
        pass.touches upper block = true → tour.blocks[index]? = blocks[index]?) ∧
    (pass.after (pass.neighbors blocks.length) blocks blocks.length).blocks = pass.run blocks := by
  refine ⟨queue_after_eq_nil pass graph blocks, ?_, blocks_after_eq_run pass blocks⟩
  intro turns tour
  have orderly : Tour.IsOrderly pass blocks tour := isOrderly_after pass graph blocks turns
  have nodup := orderly.nodup
  rw [← List.append_assoc] at nodup
  have once : (tour.queued ++ tour.reverted).Nodup := nodup.of_append_left
  refine ⟨orderly.waiting, once, orderly.nodup_moves, orderly.moved, orderly.unmoved, ?_, ?_⟩
  · intro index reverted
    exact orderly.unmoved index (orderly.not_mem_moves (List.mem_append_left _ reverted))
  · intro index block upper found touches
    apply orderly.unmoved
    intro moved
    rw [not_touches_of_mem_pending (orderly.mem_pending_of_mem_moves moved) found] at touches
    cases touches

/-- Next to two blocks at the side, one is moved to it, and one is put back that would overlap. -/
theorem pass_handles_each_block_once_four :
    let blocks : List (Block Float) :=
      [(Block.hard "corner" 400 1 [⟨20, 20⟩]).moveTo 0 0,
        (Block.hard "shelf" 440 1 [⟨22, 20⟩]).moveTo 0 25,
        (Block.hard "bench" 400 1 [⟨20, 20⟩]).moveTo 25 25,
        (Block.hard "tower" 100 1 [⟨10, 10⟩]).moveTo 5 50]
    let pass : Pass Float :=
      ⟨.left, ⟨400, 400⟩, ⟨10, 10⟩, blocks.map (·.footprint.span .y)⟩
    let tour := pass.after (pass.neighbors 4) blocks 4
    tour.queue = [] ∧ tour.reverted = [2] ∧ tour.blocks[2]? = blocks[2]? ∧
      tour.blocks[0]? = blocks[0]? ∧ tour.blocks[1]? = blocks[1]? ∧
      (∃ start, tour.blocks[3]? = blocks[3]?.map (slide .x start)) ∧ tour.blocks = pass.run blocks := by
  intro blocks pass tour
  obtain ⟨ends, stages, same⟩ := pass_handles_each_block_once pass (pass.neighbors 4) blocks
  obtain ⟨_, _, _, moved, unmoved, putBack, touching⟩ := stages 4
  have reverted : tour.reverted = [2] := by decide +kernel
  have moves : tour.moves.map (·.1) = [3] := by decide +kernel
  obtain ⟨⟨_, start⟩, member, rfl⟩ : ∃ move ∈ tour.moves, move.1 = 3 :=
    List.mem_map.mp (moves ▸ List.mem_singleton_self 3)
  refine ⟨ends, reverted, putBack 2 (reverted ▸ List.mem_singleton_self 2), ?_, ?_,
    ⟨start, moved 3 start member⟩, same⟩
  · exact unmoved 0 (moves ▸ by decide)
  · exact touching 1 _ false rfl (by decide +kernel)

end Pass

end Alignment

end Floorplanner
