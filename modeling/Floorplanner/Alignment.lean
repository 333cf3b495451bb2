import Floorplanner.Block

/-!
Alignment of the hard blocks of a layout.

A round first snaps hard blocks that are near the outline onto it. From each side in turn, alignment
then spreads breadth-first: a block next to an aligned one is moved onto one of its edges, if one is
within reach and the block does not come to overlap another. Rounds go on until one moves nothing.
-/

namespace Floorplanner

namespace Alignment

variable {α : Type}

inductive Side where
  | left
  | right
  | bottom
  | top
  deriving Repr, DecidableEq

def Side.axis : Side → Axis
  | left | right => .x
  | bottom | top => .y

def Side.isUpper : Side → Bool
  | left | bottom => false
  | right | top => true

def maxRounds : Nat := 16

variable [Number α]

def slide (axis : Axis) (value : α) (block : Block α) : Block α :=
  match axis with
  | .x => { block with x := value }
  | .y => { block with y := value }

/-- How near an edge has to be: a tenth of the outline, but no more than the smallest block. -/
def reach (outline : Size α) (blocks : List (Block α)) : Size α where
  width := (blocks.map (·.width)).foldl min (outline.width / (10 : Nat))
  height := (blocks.map (·.height)).foldl min (outline.height / (10 : Nat))

def snapped (extent reach : α) (span : Interval α) : α :=
  if span.low < reach then 0
  else if span.high < extent ∧ extent - span.high < reach then extent - span.length
  else span.low

def snap (outline reach : Size α) (block : Block α) : Block α :=
  block.moveTo (snapped outline.width reach.width (block.footprint.span .x))
    (snapped outline.height reach.height (block.footprint.span .y))

def near (reach : α) (a b : Interval α) : Bool :=
  decide (Number.abs (a.low - b.low) ≤ reach) || decide (Number.abs (a.high - b.high) ≤ reach) ||
    decide (Number.abs (a.low - b.high) ≤ reach) || decide (Number.abs (a.high - b.low) ≤ reach)

/--
Where a span starts once its end on the side is brought onto an end of `source` that it is within
reach of, on the far side of it. The end of the same name goes first.
-/
def alignedStart (isUpper : Bool) (reach : α) (source target : Interval α) : Option α :=
  if isUpper then
    if (⟨source.high - reach, source.high⟩ : Interval α).contains target.high then
      some (source.high - target.length)
    else if (⟨source.low - reach, source.low⟩ : Interval α).contains target.high then
      some (source.low - target.length)
    else none
  else
    if (⟨source.low, source.low + reach⟩ : Interval α).contains target.low then some source.low
    else if (⟨source.high, source.high + reach⟩ : Interval α).contains target.low then
      some source.high
    else none

def overlapsOther (blocks : List (Block α)) (index : Nat) : Bool :=
  match blocks[index]? with
  | none => false
  | some block =>
      blocks.zipIdx.any fun (other, position) =>
        position != index && other.footprint.overlaps block.footprint

structure Pass (α : Type) where
  side : Side
  outline : Size α
  reach : Size α
  lanes : List (Interval α)

def Pass.connects (pass : Pass α) (i j : Nat) : Bool :=
  let reach :=
    match pass.side.axis with
    | .x => pass.reach.height
    | .y => pass.reach.width
  match pass.lanes[i]?, pass.lanes[j]? with
  | some a, some b => near reach a b
  | _, _ => false

def Pass.move? (pass : Pass α) (source : Rect α) (blocks : List (Block α)) (index : Nat) :
    Option (List (Block α)) := do
  let axis := pass.side.axis
  let block ← blocks[index]?
  let start ← alignedStart pass.side.isUpper (pass.reach.along axis) (source.span axis)
    (block.footprint.span axis)
  return blocks.set index (slide axis start block)

/--
What a source does to the blocks not yet reached: those it cannot move stay pending, and those that
it moved are sources in turn. A block that would overlap another stays where it is and is done with.
-/
structure Spread (α : Type) where
  blocks : List (Block α)
  pending : List Nat
  reached : List Nat

def Pass.spread (pass : Pass α) (origin : Nat) (source : Rect α) :
    List Nat → List (Block α) → Spread α
  | [], blocks => ⟨blocks, [], []⟩
  | index :: rest, blocks =>
      match if pass.connects origin index then pass.move? source blocks index else none with
      | none =>
          let result := pass.spread origin source rest blocks
          { result with pending := index :: result.pending }
      | some moved =>
          if overlapsOther moved index then pass.spread origin source rest blocks
          else
            let result := pass.spread origin source rest moved
            { result with reached := index :: result.reached }

theorem Pass.spread_length (pass : Pass α) (origin : Nat) (source : Rect α) (pending : List Nat)
    (blocks : List (Block α)) :
    (pass.spread origin source pending blocks).pending.length +
        (pass.spread origin source pending blocks).reached.length ≤
      pending.length := by
  induction pending generalizing blocks with
  | nil => simp [Pass.spread]
  | cons index rest induction =>
      rw [Pass.spread]
      split
      · have := induction blocks
        simp only [List.length_cons]
        omega
      · split
        · have := induction blocks
          simp only [List.length_cons]
          omega
        · rename_i moved _ _
          have := induction moved
          simp only [List.length_cons]
          omega

def Pass.propagate (pass : Pass α) (queue pending : List Nat) (blocks : List (Block α)) :
    List (Block α) :=
  match queue with
  | [] => blocks
  | origin :: rest =>
      match blocks[origin]? with
      | none => pass.propagate rest pending blocks
      | some block =>
          let result := pass.spread origin block.footprint pending blocks
          pass.propagate (rest ++ result.reached) result.pending result.blocks
termination_by queue.length + pending.length
decreasing_by
  · simp only [List.length_cons]
    omega
  · have := pass.spread_length origin block.footprint pending blocks
    simp only [List.length_cons, List.length_append]
    omega

def Pass.touches (pass : Pass α) (upper : Bool) (block : Block α) : Bool :=
  let span := block.footprint.span pass.side.axis
  if upper then decide (pass.outline.along pass.side.axis ≤ span.high) else span.low == 0

/--
Starts from the blocks at the outline on the side of the pass. Those on the opposite side are left
where they are.
-/
def Pass.run (pass : Pass α) (blocks : List (Block α)) : List (Block α) :=
  let atSide := fun (entry : Block α × Nat) => pass.touches pass.side.isUpper entry.1
  let opposite := fun (entry : Block α × Nat) => pass.touches (!pass.side.isUpper) entry.1
  let queue := blocks.zipIdx.filter atSide
  let pending := blocks.zipIdx.filter fun entry => !atSide entry && !opposite entry
  pass.propagate (queue.map (·.2)) (pending.map (·.2)) blocks

def round (outline reach : Size α) (blocks : List (Block α)) : List (Block α) :=
  let blocks := blocks.map (snap outline reach)
  let rows := blocks.map (·.footprint.span .y)
  let blocks := (Pass.mk .left outline reach rows).run blocks
  let blocks := (Pass.mk .right outline reach rows).run blocks
  let columns := blocks.map (·.footprint.span .x)
  let blocks := (Pass.mk .bottom outline reach columns).run blocks
  (Pass.mk .top outline reach columns).run blocks

def moved (before after : List (Block α)) : Bool :=
  (before.zip after).any fun (old, new) => !(new.x == old.x) || !(new.y == old.y)

structure Result (α : Type) where
  blocks : List (Block α)
  rounds : Nat

/-- Runs rounds until one moves nothing, or none are left. -/
def rounds (outline reach : Size α) : (left done : Nat) → List (Block α) → Result α
  | 0, done, blocks => ⟨blocks, done⟩
  | left + 1, done, blocks =>
      let after := round outline reach blocks
      if moved blocks after then rounds outline reach left (done + 1) after
      else ⟨after, done + 1⟩

def merge : (blocks hard : List (Block α)) → List (Block α)
  | [], _ => []
  | block :: rest, hard =>
      if block.isHard then
        match hard with
        | [] => block :: merge rest []
        | aligned :: others => aligned :: merge rest others
      else block :: merge rest hard

end Alignment

def alignHard {α : Type} [Number α] (outline : Size α) (blocks : List (Block α)) :
    Alignment.Result α :=
  let hard := blocks.filter (·.isHard)
  if hard.isEmpty then ⟨blocks, 0⟩
  else
    let result :=
      Alignment.rounds outline (Alignment.reach outline hard) Alignment.maxRounds 0 hard
    ⟨Alignment.merge blocks result.blocks, result.rounds⟩

end Floorplanner
