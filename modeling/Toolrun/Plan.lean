/-
What a command line comes to once everything around it has been looked at: a
document to print, or a tool to start with its arguments. The steps are taken
in a fixed order and the first that fails is reported; nothing is started
before all of them have succeeded. One of them, setting up the log, can also
break the program off, which is then no failure to be reported.
-/
import Toolrun.ChangeSet
import Toolrun.Launch
import Toolrun.Logging
import Toolrun.Settings.Sources
import Toolrun.Settings.Printer

namespace Toolrun

/-- What the program finds around it. Reading the input stream may meet with a
fault instead of its end. What is written to the error stream when the program
is broken off is up to whoever breaks it off. -/
structure Surroundings where
  files : Files := {}
  cwd : Location := []
  environment : List (Bytes × Bytes) := []
  stdin : Bytes := []
  stdinFault? : Option IoFault := none
  processId : Nat := 1
  lastWords : IoFault → Bytes := fun _ => []

/-- The environment of the program. -/
def Surroundings.env (w : Surroundings) : Variables := fun name =>
  (w.environment.find? fun v => v.1 = Utf8.encode name).map (·.2)

/-- The text on the input stream. -/
def Surroundings.input (w : Surroundings) : Except IoFault String :=
  match w.stdinFault? with
  | some cause => .error cause
  | none =>
    match Utf8.decode? w.stdin with
    | some text => .ok text
    | none => .error .notUtf8

/-- What is left to do. -/
inductive Plan where
  | print (document : String)
  | launch (launch : Launch) (format : Format)
  deriving DecidableEq

/-- Why nothing is left to do: something has failed, or the program has been
broken off. -/
inductive Stop where
  | failed (failure : Failure)
  | brokenOff (cause : IoFault)
  deriving DecidableEq

/-- What comes in the way of the log is in the way of the program. -/
def Stop.ofLog : Logging.Fault → Stop
  | .refused reason => failed (.config reason)
  | .brokenOff cause => brokenOff cause

-- ================================================================ input

/-- The word that stands for the input stream. -/
def streamWord : String := "-"

/-- Reads a change-set. -/
def readChangeSet (document : String) : Except Failure (List InputPath) :=
  match ChangeSet.read document with
  | .ok files => .ok files
  | .error reason => .error (.input ("invalid JSON change-set: " ++ reason))

/-- The change-set of a request, if it names one. -/
def requestedChangeSet (w : Surroundings) (r : RunRequest) :
    Except Failure (List InputPath) :=
  match r.filesFrom with
  | none => .ok []
  | some path =>
    if path = streamWord then
      match w.input with
      | .ok document => readChangeSet document
      | .error cause => .error (.io cause)
    else
      match w.files.readText w.cwd (Utf8.encode path) with
      | .ok document => readChangeSet document
      | .error cause =>
        .error
          (.input ("read change-set " ++ path ++ ": " ++ cause.message))

/-- The files of a request: those of its change-set, then those named on the
command line. -/
def collectInput (w : Surroundings) (r : RunRequest) :
    Except Failure (List InputPath) := do
  .ok ((← requestedChangeSet w r) ++ r.files)

-- ================================================================ plans

namespace Plan

/-- The settings in their surroundings. -/
def settings (w : Surroundings) (named : Option Bytes) :
    Except Failure Settings :=
  match Settings.gather w.files w.cwd w.env named with
  | .ok settings => .ok settings
  | .error fault => .error (.config fault.message)

/-- The settings with what a request says. -/
def requested (s : Settings) (r : RunRequest) : Except Failure Settings :=
  match (s.withRequest r).get with
  | .ok settings => .ok settings
  | .error fault => .error (.config fault.message)

/-- The tool of the settings, if it can be used. -/
def usableTool (s : Settings) : Except Failure Tool :=
  match s.runner.tool.check with
  | .ok () => .ok s.runner.tool
  | .error failure =>
    .error (.config
      (failure.message ++ " (set it in [runner] or pass --tool/--language)"))

/-- The plan of a request. -/
def ofRequest (w : Surroundings) (s : Settings) (r : RunRequest) :
    Except Failure Plan := do
  let s ← requested s r
  let tool ← usableTool s
  let files ← collectInput w r
  .ok (.launch ⟨tool, files, s.control.options⟩ r.format)

/-- The plan of a command. -/
def ofCommand (w : Surroundings) (s : Settings) :
    CommandLine.Command → Except Failure Plan
  | .run request => ofRequest w s request
  | .showConfig => .print <$> s.shown

/-- The plan of a command line. The log is set up on the way, which can
change the files even if something fails afterwards. -/
def of (w : Surroundings) (line : CommandLine) : Files × Except Stop Plan :=
  match settings w line.configPath with
  | .error failure => (w.files, .error (.failed failure))
  | .ok s =>
    match Logging.prepare w.files w.cwd w.env w.processId s.logging with
    | (files, .error fault) => (files, .error (.ofLog fault))
    | (files, .ok ()) =>
      (files,
        (ofCommand { w with files := files } s line.command).mapError .failed)

end Plan

end Toolrun
