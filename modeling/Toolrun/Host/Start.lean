/-
Starting a program: where it is looked for, what makes a file a program, and
by which error the system refuses.

The working directory is entered first, so that a relative path counts from
there. A name without a slash is looked for in the directories of `PATH`; a
file that is there but may not be run does not end the search, but is what
gets reported if nothing better is found. A file that begins with `#!` is run
by the program it names.
-/
import Toolrun.System.Files

namespace Toolrun.Host

/-- A request to start a program: its name or path, its arguments, where it is
to run, its environment, the search path, and whether the search also finds
files that name no interpreter. -/
structure StartRequest where
  tool : Bytes
  arguments : List Bytes
  workingDir : Option Bytes := none
  environment : List (Bytes × Bytes)
  searchPath : Option Bytes
  withShell : Bool := false

/-- What runs once a start has succeeded: a compiled program with all its
arguments, the zeroth included, in a directory. -/
structure Image where
  program : String
  arguments : List Bytes
  cwd : Location
  deriving DecidableEq, Repr

-- ============================================================ loading

/-- The first length of a single argument that is too long. -/
def argumentLimit : Nat := 131072

/-- The most room that arguments and environment may take together. -/
def argumentRoom : Nat := 2097152

/-- The room that a text takes among the arguments. -/
def roomOf (text : Bytes) : Nat := text.length + 9

/-- Whether arguments and environment fit. -/
def fits (arguments environment : List Bytes) : Bool :=
  (arguments ++ environment).all (fun a => a.length < argumentLimit) &&
    (arguments ++ environment).foldl (fun n a => n + roomOf a) 0 ≤ argumentRoom

/-- An environment as the texts that are handed over. -/
def assignments (environment : List (Bytes × Bytes)) : List Bytes :=
  environment.map fun v => v.1 ++ 0x3D :: v.2

/-- Whether a byte is a blank in the first line of a script. -/
def isBlankByte (b : UInt8) : Bool := b = 0x20 || b = 0x09

/-- What is left of a line without the blanks around it. -/
def trimBlankBytes (line : Bytes) : Bytes :=
  ((line.dropWhile isBlankByte).reverse.dropWhile isBlankByte).reverse

/-- How far into a file the system looks for the name of an interpreter. -/
def headerLength : Nat := 256

/-- The interpreter that a file names in its first line, and the argument for
it, if there is one. -/
def interpreter? (content : Bytes) : Option (Bytes × List Bytes) :=
  match content with
  | 0x23 :: 0x21 :: rest =>
    let line := (rest.take (headerLength - 2)).takeWhile (· != 0x0A)
    let line := trimBlankBytes line
    let name := line.takeWhile fun b => !isBlankByte b
    let argument := trimBlankBytes (line.drop name.length)
    if name.isEmpty then none
    else some (name, if argument.isEmpty then [] else [argument])
  | _ => none

/-- Whether some permission to run a file is given. -/
def isRunnable (mode : Nat) : Bool := mode &&& 0o111 ≠ 0

/-- What can be opened to be run: a compiled program, or another file, which
has to be looked into. -/
inductive Executable where
  | program (name : String)
  | file (content : Bytes)
  deriving DecidableEq, Repr

/-- Opens what is at a path in order to run it. -/
def openExecutable (files : Files) (cwd : Location) (environment : List Bytes)
    (path : Bytes) (arguments : List Bytes) : Except Errno Executable := do
  match ← files.find cwd path with
  | .directory => .error .denied
  | .nullDevice => .error .denied
  | .program name =>
    if fits arguments environment then .ok (.program name)
    else .error .argumentsTooLong
  | .file content mode =>
    if !isRunnable mode then .error .denied
    else if fits arguments environment then .ok (.file content)
    else .error .argumentsTooLong

/-- The number of files that the system takes up, each because the one before
names it as its interpreter. -/
def interpreterLimit : Nat := 6

/-- Loads the program at a path, with so many files still to be taken up. One
more is opened before it is refused for that. -/
def loadWithin (files : Files) (cwd : Location) (environment : List Bytes)
    (n : Nat) (path : Bytes) (arguments : List Bytes) : Except Errno Image :=
  match n, openExecutable files cwd environment path arguments with
  | _, .error errno => .error errno
  | 0, .ok _ => .error .tooManyLinks
  | _ + 1, .ok (.program name) => .ok ⟨name, arguments, cwd⟩
  | n + 1, .ok (.file content) =>
    match interpreter? content with
    | none => .error .notExecutable
    | some (name, extra) =>
      loadWithin files cwd environment n name
        (name :: extra ++ path :: arguments.drop 1)

/-- Loads the program at a path. -/
def load (files : Files) (cwd : Location) (environment : List Bytes)
    (path : Bytes) (arguments : List Bytes) : Except Errno Image :=
  loadWithin files cwd environment interpreterLimit path arguments

-- ============================================================= searching

/-- Where programs are looked for if there is no search path. -/
def usualSearchPath : Bytes := Utf8.encode "/bin:/usr/bin"

/-- The paths at which a name is tried. -/
def candidates (searchPath : Option Bytes) (name : Bytes) : List Bytes :=
  (piecesOf 0x3A (searchPath.getD usualSearchPath)).map fun dir =>
    if dir.isEmpty then name else dir ++ Files.slash :: name

/-- The shell that runs files which name no interpreter. -/
def shellPath : Bytes := Utf8.encode "/bin/sh"

/-- Whether the search goes on after an error. -/
def isPassing (e : Errno) : Bool :=
  e = .noEntry || e = .notDirectory || e = .denied

/-- Tries one path after the other. With `withShell` a file that names no
interpreter is run by the shell. -/
def searchFrom (files : Files) (cwd : Location) (environment : List Bytes)
    (withShell : Bool) (arguments : List Bytes) :
    Bool → Errno → List Bytes → Except Errno Image
  | denied, last, [] => .error (if denied then .denied else last)
  | denied, _, path :: others =>
    match load files cwd environment path arguments with
    | .ok image => .ok image
    | .error errno =>
      if errno = .notExecutable && withShell then
        load files cwd environment shellPath
          (shellPath :: path :: arguments.drop 1)
      else if isPassing errno then
        searchFrom files cwd environment withShell arguments
          (denied || errno = .denied) errno others
      else .error errno

/-- Finds and loads the program that a tool is. -/
def StartRequest.find (r : StartRequest) (files : Files) (cwd : Location) :
    Except Errno Image :=
  let arguments := r.tool :: r.arguments
  let environment := assignments r.environment
  if r.tool.contains Files.slash then
    load files cwd environment r.tool arguments
  else if Files.longestName < r.tool.length then .error .nameTooLong
  else
    searchFrom files cwd environment r.withShell arguments false .noEntry
      (candidates r.searchPath r.tool)

-- ======================================================== handing over

/-- The arguments of `env` that set variables do so, and the others are a
command. -/
def enterEnv (environment : List (Bytes × Bytes)) :
    List Bytes → List (Bytes × Bytes) × List Bytes
  | [] => (environment, [])
  | a :: others =>
    if a.contains 0x3D then
      let name := a.takeWhile (· != 0x3D)
      enterEnv
        ((environment.filter fun v => v.1 ≠ name) ++
          [(name, a.drop (name.length + 1))])
        others
    else if a = Utf8.encode "-i" || a = Utf8.encode "-" then
      enterEnv [] others
    else (environment, a :: others)

/-- The search path in an environment. -/
def searchPathOf (environment : List (Bytes × Bytes)) : Option Bytes :=
  (environment.find? fun v => v.1 = Utf8.encode "PATH").map (·.2)

/-- What the system makes of a command in an environment. -/
def findCommand (files : Files) (cwd : Location)
    (environment : List (Bytes × Bytes)) (tool : Bytes)
    (arguments : List Bytes) : Except Errno Image :=
  let request : StartRequest :=
    { tool := tool
      arguments := arguments
      environment := environment
      searchPath := searchPathOf environment
      withShell := true }
  request.find files cwd

/-- What runs in the end: `env` in front of a command stands for that command,
if there is one. -/
def handOver (files : Files) : Nat → Image → List (Bytes × Bytes) →
    Image × List (Bytes × Bytes)
  | 0, image, environment => (image, environment)
  | n + 1, image, environment =>
    if image.program = "env" then
      match enterEnv environment (image.arguments.drop 1) with
      | (_, []) => (image, environment)
      | (inner, tool :: arguments) =>
        match findCommand files image.cwd inner tool arguments with
        | .ok image => handOver files n image inner
        | .error _ => (image, environment)
    else (image, environment)

/-- The number of programs that may hand over to one another. -/
def handOverLimit : Nat := 8

-- ============================================================== starting

/-- What is handed to the system must not have a NUL in it. -/
def nulInData : IoFault := .other "nul byte found in provided data"

/-- All texts of a request. -/
def StartRequest.texts (r : StartRequest) : List Bytes :=
  r.tool :: r.arguments ++ r.workingDir.toList ++ assignments r.environment

/-- The directory that a program runs in. -/
def StartRequest.directory (r : StartRequest) (files : Files)
    (cwd : Location) : Except Errno Location :=
  match r.workingDir with
  | none => .ok cwd
  | some path => do
    let location ← files.locate cwd path
    match files.expectDirectory location with
    | .ok () => .ok location
    | .error errno => .error errno

/-- Starts a program. -/
def StartRequest.start (r : StartRequest) (files : Files) (cwd : Location) :
    Except IoFault Image :=
  if r.texts.any fun t => t.contains 0 then .error nulInData
  else
    match r.directory files cwd with
    | .error errno => .error (.system errno)
    | .ok directory =>
      match r.find files directory with
      | .error errno => .error (.system errno)
      | .ok image => .ok image

end Toolrun.Host
