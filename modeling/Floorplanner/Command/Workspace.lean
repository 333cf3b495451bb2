import Floorplanner.Command.Host
import Floorplanner.Path

/-!
A directory tree in memory, as the system of a command.

The command runs in the tree's topmost directory. Of what lies outside of it, only some directories
and devices are known that every system has: nothing else is found there, and what is written there
is lost.
-/

namespace Floorplanner

namespace Workspace

inductive Node where
  | file (contents : ByteArray)
  | directory

/-- A file that stands for something else than its contents. There is nothing to be read from any. -/
inductive Device where
  | null
  | input
  | output
  | messages
  deriving Repr, DecidableEq

inductive Place where
  | inside (names : List String)
  | above
  | system (names : List String)
  | device (device : Device)
  deriving Repr, DecidableEq

def systemDirectories : List (List String) := [["dev"], ["etc"], ["tmp"], ["usr"], ["var"]]

def Place.ofSystem? (names : List String) : Option Place :=
  match names with
  | [] => some (.system [])
  | ["dev", "null"] => some (.device .null)
  | ["dev", "stdin"] => some (.device .input)
  | ["dev", "stdout"] => some (.device .output)
  | ["dev", "stderr"] => some (.device .messages)
  | names => if systemDirectories.contains names then some (.system names) else none

end Workspace

/-- The nodes of a tree by their names from the top down. Directories on the way are implied. -/
structure Workspace where
  nodes : List (List String × Workspace.Node)

namespace Workspace

def ofFiles (files : List (String × Node)) : Workspace where
  nodes := files.map fun (path, node) =>
    (((Path.splitSlashes path.toList).map String.ofList).filter (· != ""), node)

def nameLimit : Nat := 255

def pathLimit : Nat := 4095

def node? (workspace : Workspace) (names : List String) : Option Node :=
  match workspace.nodes.lookup names with
  | some node => some node
  | none =>
      if workspace.nodes.any fun entry => names.isPrefixOf entry.1 then some .directory
      else if names.isEmpty then some .directory
      else none

def isDirectory (workspace : Workspace) : Place → Bool
  | .inside names =>
      match workspace.node? names with
      | some .directory => true
      | _ => false
  | .above => true
  | .system _ => true
  | .device _ => false

def Place.parent : Place → Place
  | .inside [] => .above
  | .inside names => .inside names.dropLast
  | .system names => .system names.dropLast
  | place => place

def enter? (workspace : Workspace) (name : String) : Place → Option Place
  | .inside names =>
      if (workspace.node? (names ++ [name])).isSome then some (.inside (names ++ [name])) else none
  | .system names => Place.ofSystem? (names ++ [name])
  | _ => none

def step (workspace : Workspace) (place : Place) (part : String) : Except FileError Place :=
  if !workspace.isDirectory place then .error .notDirectory
  else if part == "" || part == "." then .ok place
  else if part == ".." then .ok place.parent
  else if nameLimit < part.utf8ByteSize then .error .nameTooLong
  else
    match workspace.enter? part place with
    | some place => .ok place
    | none => .error .notFound

def parts (path : String) : Except FileError (Place × List String) :=
  let parts := (Path.splitSlashes path.toList).map String.ofList
  if path.isEmpty then .error .notFound
  else if pathLimit < path.utf8ByteSize then .error .nameTooLong
  else .ok (if path.startsWith "/" then .system [] else .inside [], parts)

def find (workspace : Workspace) (path : String) : Except FileError Place := do
  let (start, parts) ← parts path
  parts.foldlM workspace.step start

def fileAt? (workspace : Workspace) : Place → Option ByteArray
  | .inside names =>
      match workspace.node? names with
      | some (.file contents) => some contents
      | _ => none
  | .device _ => some .empty
  | _ => none

def contents (workspace : Workspace) (path : String) : Except FileError ByteArray := do
  match workspace.fileAt? (← workspace.find path) with
  | some contents => .ok contents
  | none => .error .isDirectory

def read (workspace : Workspace) (path : String) : Except FileError String := do
  match String.fromUTF8? (← workspace.contents path) with
  | some text => .ok text
  | none => .error .notText

def isFile (workspace : Workspace) (path : String) : Bool :=
  match workspace.contents path with
  | .ok _ => true
  | .error _ => false

inductive Target where
  | file (names : List String)
  | device (device : Device)
  | lost
  deriving Repr, DecidableEq

def targetIn (workspace : Workspace) (name : String) (place : Place) : Except FileError Target :=
  match workspace.enter? name place, place with
  | some (.device device), _ => .ok (.device device)
  | some found, .inside names =>
      if workspace.isDirectory found then .error .isDirectory else .ok (.file (names ++ [name]))
  | some _, _ => .error .isDirectory
  | none, .inside names => .ok (.file (names ++ [name]))
  | none, _ => .ok .lost

/--
What a path is to be written to. The directory on the way to it has to exist. A path that ends in a
slash or in dots is one of a directory, whether it exists or not.
-/
def target (workspace : Workspace) (path : String) : Except FileError Target := do
  let (start, parts) ← parts path
  let named := (parts.reverse.dropWhile (· == "")).reverse
  let name := named.getLastD ""
  let place ← named.dropLast.foldlM workspace.step start
  if !workspace.isDirectory place then .error .notDirectory
  else if named.length < parts.length || name == "." || name == ".." then .error .isDirectory
  else if nameLimit < name.utf8ByteSize then .error .nameTooLong
  else workspace.targetIn name place

def put (workspace : Workspace) (names : List String) (contents : ByteArray) : Workspace :=
  ⟨(names, .file contents) :: workspace.nodes.filter (·.1 != names)⟩

structure Session where
  workspace : Workspace
  hasTerminal : Bool
  output : String
  messages : String

namespace Session

def print (session : Session) (text : String) : Session :=
  { session with output := session.output ++ text }

def report (session : Session) (text : String) : Session :=
  { session with messages := session.messages ++ text }

def write (session : Session) (text : String) : Target → Session
  | .file names => { session with workspace := session.workspace.put names text.toUTF8 }
  | .device .output => session.print text
  | .device .messages => session.report text
  | .device _ => session
  | .lost => session

end Session

instance : Host (StateM Session) where
  read path := do return (← get).workspace.read path
  isFile path := do return (← get).workspace.isFile path
  write path text := do
    match (← get).workspace.target path with
    | .ok target => do
        modify fun session => session.write text target
        return .ok ()
    | .error error => return .error error
  print text := modify fun session => session.print text
  report text := modify fun session => session.report text
  hasTerminal := do return (← get).hasTerminal

end Workspace

end Floorplanner
