import Floorplanner.Number

/-! Sizes, intervals and axis-aligned rectangles. -/

namespace Floorplanner

variable {α : Type}

inductive Axis where
  | x
  | y
  deriving Repr, DecidableEq

structure Size (α : Type) where
  width : α
  height : α
  deriving Repr, DecidableEq

structure Interval (α : Type) where
  low : α
  high : α
  deriving Repr, DecidableEq

structure Point (α : Type) where
  x : α
  y : α
  deriving Repr, DecidableEq

/-- A rectangle by its lower-left and its upper-right corner. The corners need not be in order. -/
structure Rect (α : Type) where
  lx : α
  ly : α
  ux : α
  uy : α
  deriving Repr, DecidableEq

namespace Size

def along (s : Size α) : Axis → α
  | .x => s.width
  | .y => s.height

variable [Number α]

def zero : Size α := ⟨0, 0⟩

def area (s : Size α) : α := s.width * s.height

end Size

namespace Interval

variable [Number α]

def length (i : Interval α) : α := i.high - i.low

def contains (i : Interval α) (value : α) : Bool := decide (i.low ≤ value) && decide (value ≤ i.high)

end Interval

namespace Rect

def span (r : Rect α) : Axis → Interval α
  | .x => ⟨r.lx, r.ux⟩
  | .y => ⟨r.ly, r.uy⟩

variable [Number α]

def ofOrigin (x y width height : α) : Rect α := ⟨x, y, x + width, y + height⟩

def width (r : Rect α) : α := r.ux - r.lx

def height (r : Rect α) : α := r.uy - r.ly

def area (r : Rect α) : α := r.width * r.height

def center (r : Rect α) : Point α :=
  ⟨(r.lx + r.ux) / (2 : Nat), (r.ly + r.uy) / (2 : Nat)⟩

/-- Area of the common part of two rectangles; zero when they only touch or are apart. -/
def overlapArea (r s : Rect α) : α :=
  let width := min r.ux s.ux - max r.lx s.lx
  let height := min r.uy s.uy - max r.ly s.ly
  if width ≤ 0 ∨ height ≤ 0 then 0 else width * height

def overlaps (r s : Rect α) : Bool := decide (0 < r.overlapArea s)

end Rect

end Floorplanner
