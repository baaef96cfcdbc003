/-
Setting up the log. What gets logged is not the concern of this library, but
setting up can fail, and it can leave a directory and a file behind. And it
can be broken off: whoever writes the log opens its file at once, and does not
report it if that is not possible.
-/
import Toolrun.Settings.LogFilter
import Toolrun.Settings.Layers

namespace Toolrun.Logging

/-- The variable that takes the place of the configured filter. -/
def filterVariable : String := "RUST_LOG"

/-- What can come in the way of the log: something that is reported, or that
its file cannot be opened. -/
inductive Fault where
  | refused (reason : String)
  | brokenOff (cause : IoFault)
  deriving DecidableEq, Repr

/-- Checks the configured filter, unless the environment has another. -/
def checkFilter (env : Variables) (s : LoggingSettings) : Except String Unit :=
  if (env.nonBlank? filterVariable).isSome then .ok ()
  else
    match LogFilter.check s.level with
    | .ok () => .ok ()
    | .error fault => .error fault.message

/-- The directory for log files: the one that is set, or one among the
temporary files. -/
def directory (env : Variables) (s : LoggingSettings) : Bytes :=
  match s.directory.bind nonBlank? with
  | some dir => Utf8.encode dir
  | none =>
    Files.join ((env "TMPDIR").getD (Utf8.encode "/tmp"))
      (Utf8.encode "toolrun")

/-- The name of a log file; it has the number of the process in it. -/
def fileName (processId : Nat) : Bytes :=
  Utf8.encode ("toolrun." ++ Numeral.decimal processId ++ ".log")

/-- The path of the log file. -/
def filePath (env : Variables) (processId : Nat) (s : LoggingSettings) :
    Bytes :=
  Files.join (directory env s) (fileName processId)

/-- Makes the directories that the log file needs, and opens it. What has been
logged to it before stays. -/
def makeFile (files : Files) (cwd : Location) (env : Variables)
    (processId : Nat) (s : LoggingSettings) : Files × Except Fault Unit :=
  match files.makeDirectories cwd (directory env s) with
  | (files, .error fault) =>
    (files, .error (.refused ("create log dir failed: " ++ fault.message)))
  | (files, .ok ()) =>
    match files.openToAppend cwd (filePath env processId s) with
    | .ok files => (files, .ok ())
    | .error errno => (files, .error (.brokenOff (.system errno)))

/-- Sets up the log. If it is enabled, it has to go somewhere. -/
def prepare (files : Files) (cwd : Location) (env : Variables)
    (processId : Nat) (s : LoggingSettings) : Files × Except Fault Unit :=
  if !s.enabled then (files, .ok ())
  else
    match checkFilter env s with
    | .error reason => (files, .error (.refused reason))
    | .ok () =>
      if s.file then makeFile files cwd env processId s
      else if s.console then (files, .ok ())
      else
        (files,
          .error (.refused "logging disabled for both console and file"))

end Toolrun.Logging
