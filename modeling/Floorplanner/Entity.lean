/-!
References to the entities of a problem.

A reference is the position of its entity in the list that owns it. It is a 32-bit number, so a list
is referred to in full while it has at most `2 ^ 32` entries.
-/

namespace Floorplanner

inductive Entity where
  | block
  | net
  | terminal
  | region
  | location
  deriving Repr, DecidableEq

namespace Entity

def all : List Entity := [block, net, terminal, region, location]

def label : Entity → String
  | block => "block"
  | net => "net"
  | terminal => "terminal"
  | region => "region"
  | location => "location"

structure Ref (kind : Entity) where
  position : UInt32
  deriving Repr, DecidableEq

namespace Ref

variable {kind : Entity}

def ofIndex (index : Nat) : Ref kind := ⟨index.toUInt32⟩

def index (ref : Ref kind) : Nat := ref.position.toNat

/-- The kind and the position, as in "block #3". -/
def text (ref : Ref kind) : String := kind.label ++ " #" ++ toString ref.index

@[simp] theorem index_ofIndex {index : Nat} (h : index < UInt32.size) :
    (ofIndex index : Ref kind).index = index := by
  simpa [Ref.index, ofIndex] using Nat.mod_eq_of_lt h

@[simp] theorem ofIndex_index (ref : Ref kind) : ofIndex ref.index = ref := by
  simp [Ref.index, ofIndex]

theorem index_lt (ref : Ref kind) : ref.index < UInt32.size := ref.position.toNat_lt_size

end Ref

end Entity

abbrev BlockRef := Entity.Ref .block

abbrev TerminalRef := Entity.Ref .terminal

end Floorplanner
