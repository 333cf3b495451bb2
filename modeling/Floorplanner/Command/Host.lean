import Floorplanner.Input

/-! The system that a command runs on. -/

namespace Floorplanner

class Host (m : Type → Type) where
  read : String → m (Except FileError String)
  isFile : String → m Bool
  /-- Leaves a text in a file; what the file held before is gone. -/
  write : String → String → m (Except FileError Unit)
  print : String → m Unit
  report : String → m Unit
  hasTerminal : m Bool

end Floorplanner
