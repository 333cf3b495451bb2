/-!
Reports of a run.

A report has a severity, a code and a headline, and further lines that give detail or suggest what
to do.
-/

namespace Floorplanner

inductive Severity where
  | help
  | note
  | warning
  | error
  deriving Repr, DecidableEq

namespace Severity

def all : List Severity := [help, note, warning, error]

def label : Severity → String
  | help => "help"
  | note => "note"
  | warning => "warning"
  | error => "error"

def color : Severity → Nat
  | help => 32
  | note => 36
  | warning => 33
  | error => 31

def rank : Severity → Nat
  | help => 0
  | note => 1
  | warning => 2
  | error => 3

end Severity

namespace Diagnostic

inductive Category where
  | error
  | warning
  | info
  deriving Repr, DecidableEq

namespace Category

def all : List Category := [error, warning, info]

def name : Category → String
  | error => "Error"
  | warning => "Warning"
  | info => "Info"

def letter : Category → Char
  | error => 'E'
  | warning => 'W'
  | info => 'I'

end Category

structure Code where
  category : Category
  number : UInt16
  deriving Repr, DecidableEq

namespace Code

def started : Code := ⟨.info, 1⟩

def sampled : Code := ⟨.info, 2⟩

def finished : Code := ⟨.info, 3⟩

def infeasible : Code := ⟨.warning, 1⟩

/-- The last level that has a code of its own; the levels after it share that code. -/
def lastLevel : Nat := 899

def level (index : Nat) : Code := ⟨.info, (100 + min index lastLevel).toUInt16⟩

/-- The letter of the category and the number, in three digits at least. -/
def text (code : Code) : String :=
  let digits := toString code.number.toNat
  String.ofList (code.category.letter :: List.replicate (3 - digits.length) '0') ++ digits

end Code

end Diagnostic

structure Diagnostic where
  severity : Severity
  code : Diagnostic.Code
  message : String
  notes : List String
  help : List String
  deriving Repr, DecidableEq

namespace Diagnostic

def render (color : Bool) (diagnostic : Diagnostic) : String :=
  let label :=
    if color then
      "\x1b[1;" ++ toString diagnostic.severity.color ++ "m" ++ diagnostic.severity.label ++
        "\x1b[0m"
    else diagnostic.severity.label
  let line := fun (kind text : String) => "   = " ++ kind ++ ": " ++ text ++ "\n"
  label ++ "[" ++ diagnostic.code.text ++ "]: " ++ diagnostic.message ++ "\n" ++
    String.join (diagnostic.notes.map (line "note")) ++
    String.join (diagnostic.help.map (line "help"))

end Diagnostic

end Floorplanner
