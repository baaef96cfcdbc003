/-
A file tree, and what the system answers when a path is followed in it.

The tree is a list of nodes by their location, the names that lead to them
from the root. Paths are followed one name at a time, as the system does it,
because it depends on the first name that fails whether something is missing
or is no directory. The one user of the tree may read and write everything;
only running a file takes a permission.
-/
import Toolrun.System.Errno

namespace Toolrun

/-- The names that lead from the root to a node. -/
abbrev Location := List Bytes

/-- What can stand at a location. A program is a compiled one, known by its
name. -/
inductive Node where
  | directory
  | file (content : Bytes) (mode : Nat)
  | program (name : String)
  | nullDevice
  deriving DecidableEq, Repr

/-- Whether a node is a directory. -/
def Node.isDirectory : Node → Bool
  | directory => true
  | _ => false

/-- A tree of files. The root is there without being listed. -/
structure Files where
  nodes : List (Location × Node) := []
  deriving DecidableEq, Repr

namespace Files

/-- What stands at a location. -/
def at? (files : Files) (location : Location) : Option Node :=
  if location.isEmpty then some .directory
  else (files.nodes.find? fun n => n.1 = location).map (·.2)

/-- Puts a node at a location. -/
def set (files : Files) (location : Location) (node : Node) : Files :=
  if (files.at? location).isSome then
    ⟨files.nodes.map fun n =>
      if n.1 = location then (location, node) else n⟩
  else ⟨files.nodes ++ [(location, node)]⟩

/-- Takes away a node and everything below it. -/
def remove (files : Files) (location : Location) : Files :=
  ⟨files.nodes.filter fun n => !location.isPrefixOf n.1⟩

/-- The names in a directory, in order. -/
def names (files : Files) (location : Location) : List Bytes :=
  (files.nodes.filterMap fun n =>
    if n.1.dropLast = location then n.1.getLast? else none).mergeSort
      fun a b => decide (a ≤ b)

-- ====================================================== following paths

/-- The byte between the names of a path. -/
def slash : UInt8 := 0x2F

/-- The names of a path. -/
def parts (path : Bytes) : List Bytes := piecesOf slash path

/-- The longest name the system knows. -/
def longestName : Nat := 255

/-- The first length of a path that is too long for the system. -/
def pathLimit : Nat := 4096

/-- Requires a directory. -/
def expectDirectory (files : Files) (location : Location) :
    Except Errno Unit :=
  match files.at? location with
  | some .directory => .ok ()
  | some _ => .error .notDirectory
  | none => .error .noEntry

/-- Follows names from a location. The last of them may lead to nothing. -/
def walk (files : Files) : Location → List Bytes → Except Errno Location
  | location, [] => .ok location
  | location, part :: rest =>
    match files.expectDirectory location with
    | .error errno => .error errno
    | .ok () =>
      if part.isEmpty || part = [0x2E] then walk files location rest
      else if part = [0x2E, 0x2E] then walk files location.dropLast rest
      else if longestName < part.length then .error .nameTooLong
      else walk files (location ++ [part]) rest

/-- Where a path starts: at the root or in the current directory. -/
def startOf (cwd : Location) (path : Bytes) : Location :=
  if path.head? = some slash then [] else cwd

/-- Where a path leads. -/
def locate (files : Files) (cwd : Location) (path : Bytes) :
    Except Errno Location :=
  if path.isEmpty then .error .noEntry
  else if pathLimit ≤ path.length then .error .nameTooLong
  else files.walk (startOf cwd path) (parts path)

/-- What is found at the end of a path. -/
def find (files : Files) (cwd : Location) (path : Bytes) :
    Except Errno Node := do
  match files.at? (← files.locate cwd path) with
  | some node => .ok node
  | none => .error .noEntry

/-- Whether a path leads to something. -/
def present (files : Files) (cwd : Location) (path : Bytes) : Bool :=
  !path.contains 0 && (files.find cwd path).isOk

/-- Whether a path leads to a directory. -/
def leadsToDirectory (files : Files) (cwd : Location) (path : Bytes) : Bool :=
  match files.find cwd path with
  | .ok .directory => true
  | _ => false

/-- A path with a NUL in it cannot be handed to the system. -/
def nulInPath : IoFault :=
  .other "file name contained an unexpected NUL byte"

/-- A path as the system can take it. -/
def checkPath (path : Bytes) : Except IoFault Unit :=
  if path.contains 0 then .error nulInPath else .ok ()

-- ===================================================== reading and making

/-- The content of the file at the end of a path. -/
def read (files : Files) (cwd : Location) (path : Bytes) :
    Except IoFault Bytes :=
  match checkPath path with
  | .error fault => .error fault
  | .ok () =>
    match files.find cwd path with
    | .error errno => .error (.system errno)
    | .ok .directory => .error (.system .isDirectory)
    | .ok (.file content _) => .ok content
    | .ok (.program _) => .ok []
    | .ok .nullDevice => .ok []

/-- The text of the file at the end of a path. -/
def readText (files : Files) (cwd : Location) (path : Bytes) :
    Except IoFault String := do
  match Utf8.decode? (← files.read cwd path) with
  | some text => .ok text
  | none => .error .notUtf8

/-- A path without the slashes at its end. -/
def withoutEndSlashes (path : Bytes) : Bytes :=
  let stripped := (path.reverse.dropWhile (· == slash)).reverse
  if stripped.isEmpty then path.take 1 else stripped

/-- The path that leads to where a path's last name is looked up, if it has
one. -/
def parentPath? (path : Bytes) : Option Bytes :=
  let stripped := withoutEndSlashes path
  let parent := (stripped.reverse.dropWhile (· != slash)).reverse
  if stripped = [slash] || stripped.isEmpty then none
  else if parent.isEmpty then some []
  else some (withoutEndSlashes parent)

/-- Makes a directory. Slashes at the end of its path count for the length of
the path and are then passed over. -/
def makeDirectory (files : Files) (cwd : Location) (path : Bytes) :
    Except Errno Files :=
  if pathLimit ≤ path.length then .error .nameTooLong
  else do
    let location ← files.locate cwd (withoutEndSlashes path)
    match files.at? location with
    | some _ => .error .alreadyThere
    | none => .ok (files.set location .directory)

/-- Makes a directory, unless there is one. -/
def ensureDirectory (files : Files) (cwd : Location) (path : Bytes) :
    Except Errno Files :=
  match files.makeDirectory cwd path with
  | .ok files => .ok files
  | .error errno =>
    if files.leadsToDirectory cwd path then .ok files else .error errno

/-- The number of names a path can have. -/
def depth (path : Bytes) : Nat := path.length + 1

/-- Makes a directory and those above it that are missing: tries the path
itself first, and only goes up as long as something is missing. What was made
before a failure stays. -/
def makeDirectoriesWithin : Nat → Files → Location → Bytes →
    Files × Except Errno Unit
  | 0, files, _, _ => (files, .error .noEntry)
  | fuel + 1, files, cwd, path =>
    if path.isEmpty then (files, .ok ())
    else
      match files.ensureDirectory cwd path with
      | .ok files => (files, .ok ())
      | .error errno =>
        if errno = .noEntry then
          match parentPath? path with
          | none => (files, .error errno)
          | some parent =>
            match makeDirectoriesWithin fuel files cwd parent with
            | (files, .error errno) => (files, .error errno)
            | (files, .ok ()) =>
              match files.ensureDirectory cwd path with
              | .ok files => (files, .ok ())
              | .error errno => (files, .error errno)
        else (files, .error errno)

/-- Makes a directory and those above it that are missing. -/
def makeDirectories (files : Files) (cwd : Location) (path : Bytes) :
    Files × Except IoFault Unit :=
  match checkPath path with
  | .error fault => (files, .error fault)
  | .ok () =>
    match makeDirectoriesWithin (depth path) files cwd path with
    | (files, .ok ()) => (files, .ok ())
    | (files, .error errno) => (files, .error (.system errno))

/-- The permissions of a file that is newly made. -/
def defaultMode : Nat := 0o644

/-- Writes a file, which may be there already. -/
def write (files : Files) (cwd : Location) (path content : Bytes) :
    Except Errno Files := do
  let location ← files.locate cwd path
  match files.at? location with
  | some .directory => .error .isDirectory
  | some (.file _ mode) => .ok (files.set location (.file content mode))
  | some _ => .ok files
  | none => .ok (files.set location (.file content defaultMode))

/-- Opens a file to write on behind what is in it. One that is not there is
made. -/
def openToAppend (files : Files) (cwd : Location) (path : Bytes) :
    Except Errno Files := do
  let location ← files.locate cwd path
  match files.at? location with
  | some .directory => .error .isDirectory
  | some _ => .ok files
  | none => .ok (files.set location (.file [] defaultMode))

-- ================================================================= paths

/-- A path continued by a name. Nothing is normalised: a slash is put between
the two unless one is there or the path is empty. -/
def join (path name : Bytes) : Bytes :=
  match path.getLast? with
  | none => name
  | some b => if b = slash then path ++ name else path ++ slash :: name

/-- The path of a location. -/
def pathOf (location : Location) : Bytes :=
  if location.isEmpty then [slash]
  else location.flatMap fun name => slash :: name

end Files

end Toolrun
