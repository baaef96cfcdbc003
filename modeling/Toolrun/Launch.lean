/-
A tool that is to be run, and how its child is set up: what is run with which
arguments, and where the three standard streams lead. Both streams a child
writes to lead into pipes, so that starting one leaves us an end of each to
read from; its input is empty.
-/
import Toolrun.Settings.Basic

namespace Toolrun

/-- The arguments of a tool: the language, then the paths as they come. -/
def Tool.arguments (tool : Tool) (files : List InputPath) : List Bytes :=
  Utf8.encode tool.language :: files

/-- A tool to start, the files it is to look at, and how to run it. -/
structure Launch where
  tool : Tool
  files : List InputPath
  options : RunOptions
  deriving DecidableEq

-- ============================================================== children

/-- Where a standard stream of a child leads: nowhere, into a pipe of its own,
or where ours leads. -/
inductive Wiring where
  | null
  | piped
  | inherited
  deriving DecidableEq, Repr

/-- Everything that a child is started with. -/
structure ChildSetup where
  program : String
  arguments : List Bytes
  env : EnvTable
  workingDir : Option String
  stdin : Wiring
  stdout : Wiring
  stderr : Wiring
  deriving DecidableEq

namespace ChildSetup

/-- Where a stream that the child writes to leads. -/
def wiring (c : ChildSetup) : Stream → Wiring
  | .stdout => c.stdout
  | .stderr => c.stderr

/-- Whether starting the child leaves us an end to read a stream from. -/
def leavesEnd (c : ChildSetup) (stream : Stream) : Bool :=
  c.wiring stream = .piped

end ChildSetup

/-- How the child of a launch is set up. -/
def Launch.setup (l : Launch) : ChildSetup where
  program := l.tool.path
  arguments := l.tool.arguments l.files
  env := l.options.env
  workingDir := l.options.workingDir
  stdin := .null
  stdout := .piped
  stderr := .piped

/-- Starting the child of a launch leaves us an end of every stream. -/
theorem Launch.leavesEnd_setup (l : Launch) (stream : Stream) :
    l.setup.leavesEnd stream = true := by
  cases stream <;> rfl

end Toolrun
