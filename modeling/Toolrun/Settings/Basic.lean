/-
The settings of the program: which tool to run and what language to tell it
about, how to control the run, and where to log.

The settings keep every text as it was given. What a run is made with is
derived from them at the end: names and directories are trimmed there, and a
blank one counts as missing.
-/
import Toolrun.Settings.EnvTable
import Toolrun.Failure
import Toolrun.Text.Blank

namespace Toolrun

-- ============================================================= defaults

/-- How much of each stream is kept if nothing else is said. -/
def defaultCaptureBytes : UInt64 := 10485760

/-- How many milliseconds the streams are read after a kill if nothing else is
said. -/
def defaultKillGraceMs : UInt64 := 2000

/-- Whether anything is logged if nothing else is said. -/
def defaultLoggingEnabled : Bool := true

/-- Whether the log goes to the error stream if nothing else is said. -/
def defaultLoggingConsole : Bool := true

/-- What is logged if nothing else is said. -/
def defaultLoggingLevel : String := "info"

-- ============================================================= sections

/-- Which tool is run, and the language it is told about. -/
structure RunnerSettings where
  toolPath : String := ""
  language : String := ""
  deriving DecidableEq

/-- How a run is controlled. A time limit of zero is none. -/
structure ControlSettings where
  timeoutMs : UInt64 := 0
  captureBytes : UInt64 := defaultCaptureBytes
  killGraceMs : UInt64 := defaultKillGraceMs
  workingDir : Option String := none
  env : EnvTable := .empty
  deriving DecidableEq

/-- What is logged, and where. -/
structure LoggingSettings where
  enabled : Bool := defaultLoggingEnabled
  console : Bool := defaultLoggingConsole
  file : Bool := false
  level : String := defaultLoggingLevel
  directory : Option String := none
  deriving DecidableEq

/-- All settings. -/
structure Settings where
  runner : RunnerSettings := {}
  control : ControlSettings := {}
  logging : LoggingSettings := {}
  deriving DecidableEq

namespace Settings

/-- The settings if nothing is configured. -/
def default : Settings := {}

/-- Settings are there even if nobody has said anything. -/
instance : Inhabited Settings := ⟨default⟩

end Settings

-- ================================================= what a run is made with

/-- A text that counts as missing if it is blank, without the white space
around it. -/
def nonBlank? (s : String) : Option String :=
  if Text.isAllBlank s then none else some (Text.trim s)

/-- The tool to run, and its first argument. -/
structure Tool where
  path : String
  language : String
  deriving DecidableEq, Repr

namespace Tool

/-- A tool has to have a path and a language that are not blank. -/
def check (tool : Tool) : Except RunFailure Unit :=
  if Text.isAllBlank tool.path then
    .error (.badRequest "tool_path is empty")
  else if Text.isAllBlank tool.language then
    .error (.badRequest "language is empty")
  else .ok ()

end Tool

/-- The tool that the settings name. -/
def RunnerSettings.tool (s : RunnerSettings) : Tool :=
  ⟨Text.trim s.toolPath, Text.trim s.language⟩

/-- How one run is made: the time it may take, if there is a limit, how much
of each stream is kept, where the tool runs, what is added to its
environment, and how long its streams are read after it was killed. -/
structure RunOptions where
  timeoutMs : Option Nat := none
  captureBytes : Nat := defaultCaptureBytes.toNat
  workingDir : Option String := none
  env : EnvTable := .empty
  killGraceMs : Nat := 2000
  deriving DecidableEq

/-- How the settings make a run. -/
def ControlSettings.options (s : ControlSettings) : RunOptions where
  timeoutMs := if s.timeoutMs = 0 then none else some s.timeoutMs.toNat
  captureBytes := s.captureBytes.toNat
  workingDir := s.workingDir.bind nonBlank?
  env := s.env
  killGraceMs := s.killGraceMs.toNat

end Toolrun
