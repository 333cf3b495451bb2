/-! Why a design cannot be floorplanned. -/

namespace Floorplanner

inductive DesignError (α : Type) where
  | noBlocks
  | invalidOutline (width height : α)
  | duplicateBlock (name : String)
  | duplicateTerminal (name : String)
  | invalidArea (name : String) (area : α)
  | missingArea (name : String)
  | invalidShapes (name : String)
  | missingRatio (name : String)
  | invalidRatio (name : String) (low high : α)
  | unknownNetBlock (net : Nat) (name : String)
  | unknownNetTerminal (net : Nat) (name : String)
  | unknownLocationBlock (name : String)
  deriving Repr, DecidableEq

namespace DesignError

variable {α : Type}

def quoted (name : String) : String := "\x60" ++ name ++ "\x60"

def message (text : α → String) : DesignError α → String
  | noBlocks => "design has no blocks"
  | invalidOutline width height => "invalid outline " ++ text width ++ " x " ++ text height
  | duplicateBlock name => "duplicate block " ++ quoted name
  | duplicateTerminal name => "duplicate terminal " ++ quoted name
  | invalidArea name area => "block " ++ quoted name ++ " has invalid area " ++ text area
  | missingArea name => "soft block " ++ quoted name ++ " has no area"
  | invalidShapes name =>
      "hard macro " ++ quoted name ++ " needs at least one shape with positive sides"
  | missingRatio name =>
      "soft block " ++ quoted name ++ " has invalid aspect ratio range (none)"
  | invalidRatio name low high =>
      "soft block " ++ quoted name ++ " has invalid aspect ratio range [" ++ text low ++ ", " ++
        text high ++ "]"
  | unknownNetBlock net name =>
      "net " ++ toString net ++ " references unknown block " ++ quoted name
  | unknownNetTerminal net name =>
      "net " ++ toString net ++ " references unknown terminal " ++ quoted name
  | unknownLocationBlock name => "location guide references unknown block " ++ quoted name

end DesignError

end Floorplanner
