import Floorplanner.Block
import Floorplanner.Entity
import Floorplanner.Design.Error

/-!
Floorplanning problems.

A problem is an outline whose lower-left corner is the origin, the blocks to place in it and what
draws them to or keeps them from a place. Everything it refers to, it refers to by position.
-/

namespace Floorplanner

structure Net where
  blocks : List BlockRef
  terminals : List TerminalRef
  weight : Nat
  deriving Repr, DecidableEq

structure Terminal (α : Type) where
  name : String
  x : α
  y : α
  deriving Repr, DecidableEq

structure Location (α : Type) where
  block : BlockRef
  rect : Rect α
  deriving Repr, DecidableEq

structure Problem (α : Type) where
  outline : Size α
  blocks : List (Block α)
  nets : List Net
  terminals : List (Terminal α)
  regions : List (Rect α)
  locations : List (Location α)
  deriving Repr, DecidableEq

variable {α : Type}

namespace Terminal

variable [Number α]

/-- Three points on an edge, at one, three and five sixths of its length. -/
def onEdge (names : List String) (length : α) (point : α → Point α) : List (Terminal α) :=
  List.zipWith
    (fun name sixths =>
      let place := point (length * (sixths : Nat) / (6 : Nat))
      ⟨name, place.x, place.y⟩)
    names [1, 3, 5]

def standard (outline : Size α) : List (Terminal α) :=
  onEdge ["LL", "LM", "LU"] outline.height (fun along => ⟨0, along⟩) ++
    onEdge ["RL", "RM", "RU"] outline.height (fun along => ⟨outline.width, along⟩) ++
    onEdge ["BL", "BM", "BU"] outline.width (fun along => ⟨along, 0⟩) ++
    onEdge ["TL", "TM", "TU"] outline.width (fun along => ⟨along, outline.height⟩)

end Terminal

namespace Problem

def ofOutline [Number α] (outline : Size α) : Problem α where
  outline
  blocks := []
  nets := []
  terminals := Terminal.standard outline
  regions := []
  locations := []

def lastIndex? {β : Type} (p : β → Bool) : List β → Option Nat
  | [] => none
  | entry :: rest =>
      match lastIndex? p rest with
      | some index => some (index + 1)
      | none => if p entry then some 0 else none

/-- The block of a name, and of several the last. -/
def findBlock? (problem : Problem α) (name : String) : Option BlockRef :=
  (lastIndex? (·.name == name) problem.blocks).map .ofIndex

def findTerminal? (problem : Problem α) (name : String) : Option TerminalRef :=
  (lastIndex? (·.name == name) problem.terminals).map .ofIndex

def hardCount (problem : Problem α) : Nat := problem.blocks.countP (·.isHard)

def addBlock (problem : Problem α) (block : Block α) : BlockRef × Problem α :=
  (.ofIndex problem.blocks.length, { problem with blocks := problem.blocks ++ [block] })

def addTerminal (problem : Problem α) (terminal : Terminal α) :
    Except (DesignError α) (TerminalRef × Problem α) :=
  match problem.findTerminal? terminal.name with
  | some _ => .error (.duplicateTerminal terminal.name)
  | none =>
      .ok (.ofIndex problem.terminals.length,
        { problem with terminals := problem.terminals ++ [terminal] })

def addNet (problem : Problem α) (net : Net) : Entity.Ref .net × Problem α :=
  (.ofIndex problem.nets.length, { problem with nets := problem.nets ++ [net] })

def addRegion (problem : Problem α) (region : Rect α) : Entity.Ref .region × Problem α :=
  (.ofIndex problem.regions.length, { problem with regions := problem.regions ++ [region] })

def addLocation (problem : Problem α) (location : Location α) :
    Entity.Ref .location × Problem α :=
  (.ofIndex problem.locations.length,
    { problem with locations := problem.locations ++ [location] })

end Problem

end Floorplanner
