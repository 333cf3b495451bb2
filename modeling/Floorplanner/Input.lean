import Floorplanner.Config.Validation

/-! Why an input file cannot be used. -/

namespace Floorplanner

inductive FileError where
  | notFound
  | notDirectory
  | isDirectory
  | nameTooLong
  /-- The contents are no UTF-8. -/
  | notText
  | other (reason : String)
  deriving Repr, DecidableEq

def FileError.message : FileError → String
  | notFound => "No such file or directory (os error 2)"
  | notDirectory => "Not a directory (os error 20)"
  | isDirectory => "Is a directory (os error 21)"
  | nameTooLong => "File name too long (os error 36)"
  | notText => "stream did not contain valid UTF-8"
  | other reason => reason

inductive InputError (α : Type) where
  | unreadable (cause : FileError)
  /-- The text does not keep to its notation, or a value is of the wrong kind. -/
  | malformed
  | missing (field : String)
  | outline (size : Size α)
  | parameter (violation : Config.Violation α)
  deriving Repr, DecidableEq

def InputError.message {α : Type} (text : α → String) : InputError α → String
  | unreadable cause => "cannot read input file: " ++ cause.message
  | malformed => "malformed input: unexpected text or value"
  | missing field => "\x60" ++ field ++ "\x60 is required"
  | outline size =>
      "invalid value: outline must have positive dimensions, got " ++ text size.width ++ " x " ++
        text size.height
  | parameter violation => "invalid value: " ++ violation.message text

end Floorplanner
