import Floorplanner.Block
import Floorplanner.Random.Source

/-!
Changes of a block's shape.

A soft block is given a width or a height as near to the wanted one as its ranges allow, and the
other side follows from the area. A hard block takes another of its sizes.
-/

namespace Floorplanner

namespace Block

variable {α σ : Type} [Number α]

/-- The nearer of the two ends of a gap; halfway, the lower one. -/
def nearerEnd (value low high : α) : α :=
  if high - value < value - low then high else low

/--
The width nearest to a wanted one in a range, when the range above it is too wide. A width between
the two ranges goes to the nearer of the ends that face it.
-/
def widthBelow (above : Option (Interval α)) (range : Interval α) (wanted : α) : α :=
  match above with
  | none => min wanted range.high
  | some above =>
      if wanted ≤ range.high then min wanted range.high
      else nearerEnd wanted range.high above.low

def widthAmong (above : Option (Interval α)) (wanted : α) : List (Interval α) → α
  | [] => wanted
  | [range] => widthBelow above range wanted
  | range :: next :: rest =>
      if range.low ≤ wanted then widthBelow above range wanted
      else widthAmong (some range) wanted (next :: rest)

def nearestWidth (first last : Interval α) (ranges : List (Interval α)) (wanted : α) : α :=
  if first.high ≤ wanted then first.high
  else if wanted ≤ last.low then last.low
  else widthAmong none wanted ranges

def heightAbove (below : Option (Interval α)) (range : Interval α) (wanted : α) : α :=
  match below with
  | none => max wanted range.low
  | some below =>
      if range.low ≤ wanted then max wanted range.low
      else nearerEnd wanted below.high range.low

def heightAmong (below : Option (Interval α)) (wanted : α) : List (Interval α) → α
  | [] => wanted
  | [range] => heightAbove below range wanted
  | range :: next :: rest =>
      if wanted ≤ range.high then heightAbove below range wanted
      else heightAmong (some range) wanted (next :: rest)

def nearestHeight (first last : Interval α) (ranges : List (Interval α)) (wanted : α) : α :=
  if wanted ≤ first.low then first.low
  else if last.high ≤ wanted then last.high
  else heightAmong none wanted ranges

def changeWidth (block : Block α) (wanted : α) : Block α :=
  match block.form with
  | .hard .. => block
  | .soft _ widths _ =>
      match widths.head?, widths.getLast? with
      | some first, some last =>
          let width := nearestWidth first last widths wanted
          { block with width, height := block.area / width }
      | _, _ => block

def changeHeight (block : Block α) (wanted : α) : Block α :=
  match block.form with
  | .hard .. => block
  | .soft _ _ heights =>
      match heights.head?, heights.getLast? with
      | some first, some last =>
          let height := nearestHeight first last heights wanted
          { block with height, width := block.area / height }
      | _, _ => block

/-- Scales both sides of a soft block; the smaller footprint becomes its area. -/
def shrink (block : Block α) (factor : α) : Block α :=
  match block.form with
  | .hard .. => block
  | .soft ratios _ _ =>
      let width := block.width * factor
      let height := block.height * factor
      let area := width * height
      { block with width, height, area, form := .ofRatios area ratios }

/-- Gives a hard block the option at an index; an index past the end changes nothing. -/
def chooseOption (block : Block α) (index : Nat) : Block α :=
  match block.form with
  | .soft .. => block
  | .hard macros options _ =>
      match options[index]? with
      | none => block
      | some size =>
          { block with
            form := .hard macros options index
            width := size.width
            height := size.height }

/-- Steps over one index, so that the indices left of `n - 1` stand for all but that one. -/
def skip (excluded drawn : Nat) : Nat := if excluded ≤ drawn then drawn + 1 else drawn

variable [IndexSource σ] [FractionSource σ α]

/-- Draws a range of a soft block and a ratio in it. A range of one ratio takes no second draw. -/
def randomRatio (block : Block α) (source : σ) : Block α × σ :=
  match block.form with
  | .hard .. => (block, source)
  | .soft ratios _ _ =>
      if ratios.isEmpty then (block, source)
      else
        let (index, source) := IndexSource.index ratios.length source
        match ratios[index]? with
        | none => (block, source)
        | some range =>
            if range.low == range.high then (block.withRatio range.low, source)
            else
              let (fraction, source) := FractionSource.fraction source
              (block.withRatio (range.low + (range.high - range.low) * fraction), source)

def switchOption (block : Block α) (source : σ) : Block α × σ :=
  match block.form with
  | .soft .. => (block, source)
  | .hard _ options current =>
      if options.length < 2 then (block, source)
      else
        let (drawn, source) := IndexSource.index (options.length - 1) source
        (block.chooseOption (skip current drawn), source)

def randomize (block : Block α) (source : σ) : Block α × σ :=
  match block.form with
  | .soft .. => block.randomRatio source
  | .hard _ options _ =>
      if options.isEmpty then (block, source)
      else
        let (index, source) := IndexSource.index options.length source
        (block.chooseOption index, source)

def randomizeAll : List (Block α) → σ → List (Block α) × σ
  | [], source => ([], source)
  | block :: rest, source =>
      let (block, source) := block.randomize source
      let (rest, source) := randomizeAll rest source
      (block :: rest, source)

end Block

end Floorplanner
