/-
The layers that go on top of what a document says: a place for the log files,
the environment of the program, and the command line, in this order. Each
layer only changes the settings it has something to say about.

A layer may fail half-way. What it changed up to there is kept, so that a
failure can be told apart from a layer that was never applied.
-/
import Toolrun.Settings.Basic
import Toolrun.EnvPair
import Toolrun.CommandLine.Basic
import Toolrun.System.Files

namespace Toolrun

/-- The environment of the program: the values of variables, as bytes. -/
abbrev Variables := String → Option Bytes

namespace Variables

/-- The value of a variable, if it is text. -/
def text? (env : Variables) (name : String) : Option String :=
  (env name).bind Utf8.decode?

/-- The value of a variable, if it is text and not blank. -/
def nonBlank? (env : Variables) (name : String) : Option String :=
  (env.text? name).filter fun v => !Text.isAllBlank v

end Variables

namespace Settings

/-- Settings after a layer, and why the layer could not be applied to the
end, if it could not. -/
structure Layered (ε : Type) where
  settings : Settings
  fault? : Option ε := none

namespace Layered

/-- The settings of a layer that did not fail. -/
def get {ε : Type} (l : Layered ε) : Except ε Settings :=
  match l.fault? with
  | some fault => .error fault
  | none => .ok l.settings

end Layered

-- ================================================================ logging

/-- The directory for the program's own files, below the home directory. -/
def dataDir? (env : Variables) : Option Bytes :=
  ((env.text? "HOME") <|> (env.text? "USERPROFILE")).map fun home =>
    Files.join (Utf8.encode home) (Utf8.encode ".toolrun")

/-- A log directory that is not set, or blank, is the directory `logs` of the
program's own files. -/
def withDataDir (dir : Bytes) (s : Settings) : Settings :=
  if (s.logging.directory.bind nonBlank?).isSome then s
  else
    let logs := Utf8.decodeLossy (Files.join dir (Utf8.encode "logs"))
    { s with logging := { s.logging with directory := some logs } }

/-- The place for log files in an environment: without a home directory it
stays as it is. -/
def withHome (env : Variables) (s : Settings) : Settings :=
  match dataDir? env with
  | some dir => s.withDataDir dir
  | none => s

-- ============================================================ environment

/-- The variable for the tool. -/
def toolVariable : String := "TOOLRUN_TOOL_PATH"

/-- The variable for the language. -/
def languageVariable : String := "TOOLRUN_LANGUAGE"

/-- The variable for the time limit. -/
def timeoutVariable : String := "TOOLRUN_TIMEOUT_MS"

/-- A time limit in the environment that is no number. -/
structure TimeoutFault where
  value : String
  reason : Numeral.Fault
  deriving DecidableEq, Repr

/-- The wording of a bad time limit. -/
def TimeoutFault.message (f : TimeoutFault) : String :=
  timeoutVariable ++ " is not a number: " ++ f.value ++ ": " ++
    f.reason.message

/-- Takes tool and language from the environment. -/
def withNames (env : Variables) (s : Settings) : Settings :=
  let tool := (env.nonBlank? toolVariable).getD s.runner.toolPath
  let language := (env.nonBlank? languageVariable).getD s.runner.language
  { s with runner := ⟨tool, language⟩ }

/-- Takes the time limit from the environment. -/
def withTimeout (env : Variables) (s : Settings) : Layered TimeoutFault :=
  match env.nonBlank? timeoutVariable with
  | none => ⟨s, none⟩
  | some value =>
    match Numeral.read (Text.trim value) with
    | .ok ms =>
      ⟨{ s with control := { s.control with timeoutMs := ms } }, none⟩
    | .error reason => ⟨s, some ⟨value, reason⟩⟩

/-- Takes everything from the environment; a blank variable says nothing. -/
def withVariables (env : Variables) (s : Settings) : Layered TimeoutFault :=
  (s.withNames env).withTimeout env

-- =========================================================== command line

/-- Takes the options of a request that have a single value. -/
def withOptions (r : RunRequest) (s : Settings) : Settings where
  runner :=
    ⟨r.tool.getD s.runner.toolPath, r.language.getD s.runner.language⟩
  control :=
    { s.control with
      timeoutMs := r.timeoutMs.getD s.control.timeoutMs
      captureBytes := r.captureBytes.getD s.control.captureBytes
      workingDir := r.workingDir <|> s.control.workingDir }
  logging := s.logging

/-- Sets environment variables for the tool, up to the first pair that is
none. -/
def withPairs (s : Settings) : List String → Layered EnvPair.Fault
  | [] => ⟨s, none⟩
  | raw :: others =>
    match EnvPair.read raw with
    | .error fault => ⟨s, some fault⟩
    | .ok (name, value) =>
      withPairs
        { s with control := { s.control with
          env := s.control.env.insert name value } }
        others

/-- Takes everything a request says. What is given wins, even if it is
blank. -/
def withRequest (r : RunRequest) (s : Settings) : Layered EnvPair.Fault :=
  (s.withOptions r).withPairs r.env

end Settings

end Toolrun
