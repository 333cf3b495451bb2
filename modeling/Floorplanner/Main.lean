import Floorplanner.Command.Execution

/-! The command line of the floorplanner. -/

namespace Floorplanner

def FileError.ofSystem : IO.Error → FileError
  | .noFileOrDirectory .. => .notFound
  | error =>
      let text := error.toString
      if text.contains "s a directory" then .isDirectory
      else if text.contains "ot a directory" then .notDirectory
      else if text.contains "ile name too long" then .nameTooLong
      else .other text

def attempt {β : Type} (action : IO β) : IO (Except FileError β) := do
  match ← action.toBaseIO with
  | .ok value => return .ok value
  | .error error => return .error (.ofSystem error)

instance : Host IO where
  read path := do
    match ← attempt (IO.FS.readBinFile path) with
    | .error error => return .error error
    | .ok bytes =>
        match String.fromUTF8? bytes with
        | some text => return .ok text
        | none => return .error .notText
  isFile path := do
    match ← attempt (IO.FS.readBinFile path) with
    | .ok _ => return true
    | .error _ => return false
  write path text := attempt (IO.FS.writeFile path text)
  print text := do (← IO.getStdout).putStr text
  report text := do (← IO.getStderr).putStr text
  hasTerminal := do return (← IO.getEnv "TERM").isSome

end Floorplanner

def main (arguments : List String) : IO UInt32 := Floorplanner.Command.run arguments
