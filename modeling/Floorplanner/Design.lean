import Floorplanner.Problem

/-!
Designs.

A design describes a problem by names. That the names are distinct and refer to something is
checked when the design is resolved.
-/

namespace Floorplanner

namespace Design

/--
A block as a design describes it. With macros it is hard and has the sizes it is limited to; without
it is soft and has the ranges of its aspect ratio.
-/
structure BlockDescription (α : Type) where
  name : String
  area : Option α
  macros : Nat
  ratios : List (Interval α)
  shapes : List (Size α)
  deriving Repr, DecidableEq

structure Sink where
  name : String
  weight : Nat
  deriving Repr, DecidableEq

inductive NetDescription where
  /-- A source that is joined to each of its sinks by a net of their own. -/
  | fanout (source : String) (sinks : List Sink)
  | explicit (blocks terminals : List String) (weight : Nat)
  deriving Repr, DecidableEq

structure Guide (α : Type) where
  block : String
  rect : Rect α
  deriving Repr, DecidableEq

end Design

structure Design (α : Type) where
  outline : Size α
  blocks : List (Design.BlockDescription α)
  terminals : List (Terminal α)
  nets : List Design.NetDescription
  regions : List (Rect α)
  guides : List (Design.Guide α)
  deriving Repr, DecidableEq

end Floorplanner
