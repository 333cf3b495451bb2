/-!
Names of files.

A path is read as its components: empty ones and single dots say nothing, except for a dot that a
relative path starts with.
-/

namespace Floorplanner

structure Path where
  isAbsolute : Bool
  components : List String
  deriving Repr, DecidableEq

namespace Path

def splitSlashes : List Char → List (List Char)
  | [] => [[]]
  | '/' :: rest => [] :: splitSlashes rest
  | c :: rest =>
      match splitSlashes rest with
      | [] => [[c]]
      | first :: others => (c :: first) :: others

def ofText (text : String) : Path :=
  let parts := (splitSlashes text.toList).map String.ofList
  let isAbsolute := text.toList.head? == some '/'
  let named := parts.filter fun part => part != "" && part != "."
  let leadingDot := !isAbsolute && parts.head? == some "."
  ⟨isAbsolute, if leadingDot then "." :: named else named⟩

def text (path : Path) : String :=
  (if path.isAbsolute then "/" else "") ++ "/".intercalate path.components

/-- The path of the directory, unless the path is empty or the root. -/
def parent? (path : Path) : Option Path :=
  if path.components.isEmpty then none
  else some { path with components := path.components.dropLast }

def child (path : Path) (name : String) : Path :=
  { path with components := path.components ++ [name] }

/-- What follows the last dot of a text, if a character at least comes before that dot. -/
def suffix? (name : List Char) : Option (List Char) :=
  let reversed := name.reverse
  match reversed.dropWhile (· != '.') with
  | [] => none
  | [_] => none
  | _ => some (reversed.takeWhile (· != '.')).reverse

/-- The extension of the file's name. Two dots stand for a directory and have none. -/
def extension? (path : Path) : Option String :=
  match path.components.getLast? with
  | none => none
  | some name =>
      if name == ".." || name == "." then none
      else (suffix? name.toList).map String.ofList

end Path

end Floorplanner
