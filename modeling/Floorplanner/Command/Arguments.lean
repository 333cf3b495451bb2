import Floorplanner.Command.Request

/-!
Command-line arguments.

Arguments are first taken apart into items: options with their values, the name of the command and
operands. An option is known where it stands: some belong to a command, some may stand before it
too. The items are then put together to a request. Nothing is read beyond the first fault, nor
beyond a request for help or for the version.
-/

namespace Floorplanner

namespace Command

/-! Options. -/

inductive Key where
  | quiet
  | verbose
  | color
  | config
  | output
  | format
  | seed
  | workers
  | levels
  | help
  | version
  deriving Repr, DecidableEq

namespace Key

def long : Key → String
  | quiet => "quiet"
  | verbose => "verbose"
  | color => "color"
  | config => "config"
  | output => "output"
  | format => "format"
  | seed => "seed"
  | workers => "workers"
  | levels => "levels"
  | help => "help"
  | version => "version"

def short? : Key → Option Char
  | quiet => some 'q'
  | verbose => some 'v'
  | output => some 'o'
  | format => some 'f'
  | help => some 'h'
  | version => some 'V'
  | color | config | seed | workers | levels => none

def takesValue : Key → Bool
  | quiet | verbose | help | version => false
  | color | config | output | format | seed | workers | levels => true

end Key

inductive Verb where
  | place
  | check
  deriving Repr, DecidableEq

def Verb.ofText? (text : String) : Option Verb :=
  if text == "place" then some .place
  else if text == "check" then some .check
  else none

def knownKeys : Option Verb → List Key
  | none => [.quiet, .verbose, .color, .config, .help, .version]
  | some .place =>
      [.quiet, .verbose, .color, .config, .output, .format, .seed, .workers, .levels, .help]
  | some .check => [.quiet, .verbose, .color, .config, .help]

inductive UsageError where
  | unexpected (argument : String)
  | valueMissing (key : Key)
  | valueUnexpected (key : Key)
  | valueInvalid (key : Key) (value : String)
  | repeated (key : Key)
  | commandMissing
  | designMissing
  deriving Repr, DecidableEq

def usage : String := "Usage: acre [OPTIONS] <place|check> <DESIGN>"

def UsageError.message : UsageError → String
  | unexpected argument => "unexpected argument '" ++ argument ++ "'"
  | valueMissing key => "a value is required for '--" ++ key.long ++ "'"
  | valueUnexpected key => "no value is expected for '--" ++ key.long ++ "'"
  | valueInvalid key value => "invalid value '" ++ value ++ "' for '--" ++ key.long ++ "'"
  | repeated key => "'--" ++ key.long ++ "' cannot be used multiple times"
  | commandMissing => "a command is required"
  | designMissing => "a design is required"

/-! Items. -/

inductive Token where
  /-- Two dashes alone: all that follows are operands. -/
  | escape
  | long (name : String) (value : Option String)
  | letters (cluster : List Char)
  /-- Anything else; so is a single dash. -/
  | word (text : String)

def Token.ofArgument (argument : String) : Token :=
  match argument.toList with
  | ['-', '-'] => .escape
  | '-' :: '-' :: rest =>
      let name := String.ofList (rest.takeWhile (· != '='))
      match rest.dropWhile (· != '=') with
      | [] => .long name none
      | _ :: value => .long name (some (String.ofList value))
  | ['-'] => .word argument
  | '-' :: rest => .letters rest
  | _ => .word argument

inductive Item where
  | option (key : Key) (value : String)
  | command (verb : Verb)
  | operand (text : String)
  | fault (error : UsageError)

abbrev Options := List Item × Option Key

def longOption (keys : List Key) (name : String) (value : Option String) : Options :=
  match keys.find? (·.long == name) with
  | none => ([.fault (.unexpected ("--" ++ name))], none)
  | some key =>
      match key.takesValue, value with
      | true, some value => ([.option key value], none)
      | true, none => ([], some key)
      | false, some _ => ([.fault (.valueUnexpected key)], none)
      | false, none => ([.option key ""], none)

/-- The value of an option may follow its letter, with or without an equals sign. -/
def letterOptions (keys : List Key) : List Char → Options
  | [] => ([], none)
  | letter :: rest =>
      match keys.find? (·.short? == some letter) with
      | none => ([.fault (.unexpected (String.ofList ['-', letter]))], none)
      | some key =>
          if key.takesValue then
            match rest with
            | [] => ([], some key)
            | '=' :: value => ([.option key (String.ofList value)], none)
            | value => ([.option key (String.ofList value)], none)
          else
            let (items, waiting) := letterOptions keys rest
            (.option key "" :: items, waiting)

def isWord (argument : String) : Bool :=
  match Token.ofArgument argument with
  | .word _ => true
  | _ => false

def helpItems (arguments : List String) : List Item :=
  match arguments with
  | [] => [.option .help ""]
  | [text] =>
      if text == "help" || (Verb.ofText? text).isSome then [.option .help ""]
      else [.fault (.unexpected text)]
  | first :: _ => [.fault (.unexpected first)]

def items : Option Verb → List String → List Item
  | _, [] => []
  | verb, argument :: rest =>
      match Token.ofArgument argument, verb with
      | .escape, some _ => rest.map .operand
      | .escape, none => [.fault (.unexpected argument)]
      | .word text, some verb => .operand text :: items (some verb) rest
      | .word text, none =>
          match Verb.ofText? text with
          | some verb => .command verb :: items (some verb) rest
          | none => if text == "help" then helpItems rest else [.fault (.unexpected text)]
      | .long name value, verb => withValue verb (longOption (knownKeys verb) name value) rest
      | .letters cluster, verb => withValue verb (letterOptions (knownKeys verb) cluster) rest
where
  withValue (verb : Option Verb) (options : Options) (rest : List String) : List Item :=
    match options, rest with
    | (found, none), rest => found ++ items verb rest
    | (found, some key), [] => found ++ [.fault (.valueMissing key)]
    | (found, some key), value :: rest =>
        if isWord value then found ++ .option key value :: items verb rest
        else found ++ [.fault (.valueMissing key)]

/-! Settings. -/

structure Settings where
  quiet : Bool
  verbose : Bool
  color : Option Coloring
  config : Option String
  output : Option String
  format : Option ReportForm
  seed : Option Nat
  workers : Option Nat
  levels : Option Nat

def Settings.none : Settings where
  quiet := false
  verbose := false
  color := .none
  config := .none
  output := .none
  format := .none
  seed := .none
  workers := .none
  levels := .none

/-- A whole number of 64 bits. A plus may come first. -/
def count? (text : String) : Option Nat :=
  let digits :=
    match text.toList with
    | '+' :: rest => rest
    | all => all
  if digits.isEmpty || !digits.all (·.isDigit) then none
  else
    let value := digits.foldl (fun value c => value * 10 + (c.toNat - 48)) 0
    if value < UInt64.size then some value else none

/-- What an option is set to, if its value can be read and it was not set before. -/
def once {β : Type} (key : Key) (earlier : Option β) (read? : String → Option β)
    (value : String) : Except UsageError (Option β) :=
  match read? value, earlier with
  | none, _ => .error (.valueInvalid key value)
  | some _, some _ => .error (.repeated key)
  | some value, none => .ok (some value)

def onceSet (key : Key) (earlier : Bool) : Except UsageError Bool :=
  if earlier then .error (.repeated key) else .ok true

def Settings.set (settings : Settings) (key : Key) (value : String) :
    Except UsageError Settings :=
  match key with
  | .quiet => do return { settings with quiet := ← onceSet key settings.quiet }
  | .verbose => do return { settings with verbose := ← onceSet key settings.verbose }
  | .color => do
      let choice? := fun text => Coloring.all.find? (·.name == text)
      return { settings with color := ← once key settings.color choice? value }
  | .config => do return { settings with config := ← once key settings.config some value }
  | .output => do return { settings with output := ← once key settings.output some value }
  | .format => do
      let choice? := fun text => ReportForm.all.find? (·.name == text)
      return { settings with format := ← once key settings.format choice? value }
  | .seed => do return { settings with seed := ← once key settings.seed count? value }
  | .workers => do return { settings with workers := ← once key settings.workers count? value }
  | .levels => do return { settings with levels := ← once key settings.levels count? value }
  | .help | .version => .ok settings

/-! Requests. -/

structure Reading where
  outer : Settings
  verb : Option Verb
  inner : Settings
  design : Option String

namespace Reading

def start : Reading := ⟨.none, none, .none, none⟩

def set (reading : Reading) (key : Key) (value : String) : Except UsageError Reading := do
  match reading.verb with
  | none => return { reading with outer := ← reading.outer.set key value }
  | some _ => return { reading with inner := ← reading.inner.set key value }

def operand (reading : Reading) (text : String) : Except UsageError Reading :=
  match reading.design with
  | none => .ok { reading with design := some text }
  | some _ => .error (.unexpected text)

/-- Of two values, the one behind the command counts. -/
def common (reading : Reading) : Common :=
  let { outer, inner, .. } := reading
  { quiet := outer.quiet || inner.quiet
    verbose := outer.verbose || inner.verbose
    coloring := (inner.color.or outer.color).getD .auto
    config := inner.config.or outer.config }

def placement (reading : Reading) (design : String) : Placement :=
  let { output, format, seed, workers, levels, .. } := reading.inner
  { design, output, form := format.getD .text, seed := seed.map (·.toUInt64), workers, levels }

def request (reading : Reading) : Except UsageError Request :=
  match reading.verb, reading.design with
  | none, _ => .error .commandMissing
  | some _, none => .error .designMissing
  | some .place, some design => .ok (.place reading.common (reading.placement design))
  | some .check, some design => .ok (.check reading.common design)

def interpret : Reading → List Item → Except UsageError Request
  | reading, [] => reading.request
  | _, .fault error :: _ => .error error
  | _, .option .help _ :: _ => .ok .help
  | _, .option .version _ :: _ => .ok .version
  | reading, .option key value :: rest => do interpret (← reading.set key value) rest
  | reading, .command verb :: rest => interpret { reading with verb := some verb } rest
  | reading, .operand text :: rest => do interpret (← reading.operand text) rest

end Reading

def Request.ofArguments (arguments : List String) : Except UsageError Request :=
  Reading.start.interpret (items none arguments)

end Command

end Floorplanner
