import Floorplanner.Design

/-!
Resolving designs.

Names become positions, and every block gets its first shape. The parts of a design are looked at in
the order they are declared, and the first fault is reported.
-/

namespace Floorplanner

variable {α : Type} [Number α]

namespace Number

def isLength (value : α) : Bool := decide (0 < value) && Number.isFinite value

end Number

namespace Size

def isPositive (size : Size α) : Bool := Number.isLength size.width && Number.isLength size.height

end Size

namespace Design

def isRatioRange (range : Interval α) : Bool :=
  decide (0 < range.low) && decide (range.low ≤ range.high) && Number.isFinite range.high

namespace BlockDescription

def checkArea (name : String) (area : α) : Except (DesignError α) Unit :=
  if Number.isLength area then .ok () else .error (.invalidArea name area)

/-- The hard block of a name and its sizes. Its area is that of the first unless it is given. -/
def resolveHard (description : BlockDescription α) : Except (DesignError α) (Block α) :=
  let { name, area, macros, shapes, .. } := description
  match shapes with
  | [] => .error (.invalidShapes name)
  | first :: _ =>
      if shapes.all Size.isPositive then do
        let area := area.getD first.area
        checkArea name area
        return .hard name area macros shapes
      else .error (.invalidShapes name)

def checkRatios (name : String) (ratios : List (Interval α)) : Except (DesignError α) Unit :=
  if ratios.isEmpty then .error (.missingRatio name)
  else
    match ratios.find? (!isRatioRange ·) with
    | some range => .error (.invalidRatio name range.low range.high)
    | none => .ok ()

def resolveSoft (description : BlockDescription α) : Except (DesignError α) (Block α) :=
  let { name, area, ratios, .. } := description
  match area with
  | none => .error (.missingArea name)
  | some area => do
      checkArea name area
      checkRatios name ratios
      return .soft name area ratios

def resolve (description : BlockDescription α) : Except (DesignError α) (Block α) :=
  if 0 < description.macros then description.resolveHard else description.resolveSoft

end BlockDescription

end Design

namespace Problem

open Design

def withBlock (problem : Problem α) (description : BlockDescription α) :
    Except (DesignError α) (Problem α) :=
  match problem.findBlock? description.name with
  | some _ => .error (.duplicateBlock description.name)
  | none => do
      let block ← description.resolve
      return (problem.addBlock block).2

def withTerminal (problem : Problem α) (terminal : Terminal α) :
    Except (DesignError α) (Problem α) := do
  let (_, problem) ← problem.addTerminal terminal
  return problem

def netBlock (problem : Problem α) (net : Nat) (name : String) :
    Except (DesignError α) BlockRef :=
  match problem.findBlock? name with
  | some block => .ok block
  | none => .error (.unknownNetBlock net name)

def netTerminal (problem : Problem α) (net : Nat) (name : String) :
    Except (DesignError α) TerminalRef :=
  match problem.findTerminal? name with
  | some terminal => .ok terminal
  | none => .error (.unknownNetTerminal net name)

/-- Joins what a name stands for to a net: the terminal of that name, or else the block. -/
def attach (problem : Problem α) (index : Nat) (net : Net) (name : String) :
    Except (DesignError α) Net :=
  match problem.findTerminal? name with
  | some terminal => .ok { net with terminals := net.terminals ++ [terminal] }
  | none => do
      let block ← problem.netBlock index name
      return { net with blocks := net.blocks ++ [block] }

def resolveSink (problem : Problem α) (index : Nat) (source : String) (sink : Sink) :
    Except (DesignError α) Net := do
  let net ← problem.attach index ⟨[], [], sink.weight⟩ source
  problem.attach index net sink.name

def resolveNet (problem : Problem α) (index : Nat) :
    NetDescription → Except (DesignError α) (List Net)
  | .fanout source sinks => sinks.mapM (problem.resolveSink index source)
  | .explicit blocks terminals weight => do
      let blocks ← blocks.mapM (problem.netBlock index)
      let terminals ← terminals.mapM (problem.netTerminal index)
      return [⟨blocks, terminals, weight⟩]

def resolveGuide (problem : Problem α) (guide : Guide α) :
    Except (DesignError α) (Location α) :=
  match problem.findBlock? guide.block with
  | some block => .ok ⟨block, guide.rect⟩
  | none => .error (.unknownLocationBlock guide.block)

end Problem

namespace Design

def checkOutline (outline : Size α) : Except (DesignError α) Unit :=
  if outline.isPositive then .ok () else .error (.invalidOutline outline.width outline.height)

def resolve (design : Design α) : Except (DesignError α) (Problem α) := do
  checkOutline design.outline
  if design.blocks.isEmpty then .error .noBlocks
  else
    let problem ← design.blocks.foldlM Problem.withBlock (.ofOutline design.outline)
    let problem ← design.terminals.foldlM Problem.withTerminal problem
    let nets ← design.nets.zipIdx.mapM fun (net, index) => problem.resolveNet index net
    let locations ← design.guides.mapM problem.resolveGuide
    return { problem with nets := nets.flatten, regions := design.regions, locations }

end Design

end Floorplanner
