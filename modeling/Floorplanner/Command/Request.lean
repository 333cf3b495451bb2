/-! What the command line can be asked to do. -/

namespace Floorplanner

namespace Command

inductive Coloring where
  /-- If there is a terminal. -/
  | auto
  | always
  | never
  deriving Repr, DecidableEq

namespace Coloring

def all : List Coloring := [auto, always, never]

def name : Coloring → String
  | auto => "auto"
  | always => "always"
  | never => "never"

def isOn (hasTerminal : Bool) : Coloring → Bool
  | auto => hasTerminal
  | always => true
  | never => false

end Coloring

inductive ReportForm where
  | text
  | json
  deriving Repr, DecidableEq

namespace ReportForm

def all : List ReportForm := [text, json]

def name : ReportForm → String
  | text => "text"
  | json => "json"

end ReportForm

structure Common where
  quiet : Bool
  verbose : Bool
  coloring : Coloring
  /-- The configuration to use instead of the one beside the design. -/
  config : Option String
  deriving Repr, DecidableEq

structure Placement where
  design : String
  /-- Where to leave the report in JSON instead of printing one. -/
  output : Option String
  form : ReportForm
  seed : Option UInt64
  workers : Option Nat
  levels : Option Nat
  deriving Repr, DecidableEq

inductive Request where
  | version
  | help
  | place (common : Common) (placement : Placement)
  | check (common : Common) (design : String)
  deriving Repr, DecidableEq

end Command

end Floorplanner
