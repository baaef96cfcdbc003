/-
Settings as a configuration document: three sections, the environment as a
table of its own behind the section it belongs to, and nothing for a
directory that is not set. Reading the document gives the settings back. The
one limit is that numbers in a document have a sign, so the upper half of the
unsigned numbers cannot be written.
-/
import Toolrun.Settings.Basic
import Toolrun.Toml.Printer

namespace Toolrun.Settings

open Toml (Written)

/-- A member that may be missing. -/
def optionalText (name : String) (s : Option String) :
    List (String × Written) :=
  match s with
  | some s => [(name, .text s)]
  | none => []

/-- The members of the section `runner`. -/
def runnerMembers (s : RunnerSettings) : List (String × Written) :=
  [("tool_path", .text s.toolPath), ("language", .text s.language)]

/-- The members of the section `control`, without the environment. -/
def controlMembers (s : ControlSettings) : List (String × Written) :=
  [("timeout_ms", .count s.timeoutMs.toNat),
    ("capture_bytes", .count s.captureBytes.toNat),
    ("kill_grace_ms", .count s.killGraceMs.toNat)] ++
  optionalText "working_dir" s.workingDir

/-- The environment. -/
def envMembers (t : EnvTable) : List (String × Written) :=
  t.pairs.map fun p => (p.1, .text p.2)

/-- The members of the section `logging`. -/
def loggingMembers (s : LoggingSettings) : List (String × Written) :=
  [("enabled", .boolean s.enabled), ("console", .boolean s.console),
    ("file", .boolean s.file), ("level", .text s.level)] ++
  optionalText "directory" s.directory

/-- The tables of the document. -/
def tables (s : Settings) : List (List String × List (String × Written)) :=
  [(["runner"], runnerMembers s.runner),
    (["control"], controlMembers s.control),
    (["control", "env"], envMembers s.control.env),
    (["logging"], loggingMembers s.logging)]

/-- Whether all numbers can be written. -/
def isWritable (s : Settings) : Bool :=
  [s.control.timeoutMs, s.control.captureBytes, s.control.killGraceMs].all
    fun n => n.toNat ≤ Toml.largestInteger

/-- The settings as a document. -/
def document (s : Settings) : String :=
  String.ofList (Toml.writeDocument s.tables)

/-- The settings as shown. -/
def shown (s : Settings) : Except Failure String :=
  if s.isWritable then .ok s.document
  else
    .error
      (.config "serialize config: out-of-range value for u64 type")

end Toolrun.Settings
