import Floorplanner.Diagnostic

/-! The reports of a run in the order they were made, with a tally of each severity. -/

namespace Floorplanner

structure Tally where
  help : Nat
  note : Nat
  warning : Nat
  error : Nat
  deriving Repr, DecidableEq

namespace Tally

def count (tally : Tally) : Severity → Nat
  | .help => tally.help
  | .note => tally.note
  | .warning => tally.warning
  | .error => tally.error

def increment (tally : Tally) : Severity → Tally
  | .help => { tally with help := tally.help + 1 }
  | .note => { tally with note := tally.note + 1 }
  | .warning => { tally with warning := tally.warning + 1 }
  | .error => { tally with error := tally.error + 1 }

end Tally

structure Journal where
  entries : List Diagnostic
  tally : Tally
  deriving Repr, DecidableEq

namespace Journal

def empty : Journal := ⟨[], ⟨0, 0, 0, 0⟩⟩

def emit (journal : Journal) (diagnostic : Diagnostic) : Journal where
  entries := journal.entries ++ [diagnostic]
  tally := journal.tally.increment diagnostic.severity

def emitAll (journal : Journal) (diagnostics : List Diagnostic) : Journal :=
  diagnostics.foldl emit journal

def count (journal : Journal) (severity : Severity) : Nat := journal.tally.count severity

def hasErrors (journal : Journal) : Bool := decide (0 < journal.count .error)

def worst (journal : Journal) : Option Severity :=
  Severity.all.reverse.find? fun severity => decide (0 < journal.count severity)

def contains (journal : Journal) (code : Diagnostic.Code) : Bool :=
  journal.entries.any (·.code == code)

end Journal

end Floorplanner
