/-
Where the settings come from: the file named on the command line, or else the
one among the program's own files in the home directory, or else the one in
the current directory, or else nowhere. The first that is there is the one
that counts, even if it turns out to be unusable. The environment goes on top
in every case: whoever names a file sees to that, and so does whoever looks for
one, each in a place of its own (`loadNamed_eq`, `loadDefault_eq`).
-/
import Toolrun.Settings.Decode
import Toolrun.Settings.Layers

namespace Toolrun.Settings

/-- Why there are no settings. -/
inductive SourceFault where
  | unreadable (path : Bytes) (cause : IoFault)
  | malformed (path : Bytes)
  | mismatch (path : Bytes) (detail : String)
  | badTimeout (fault : TimeoutFault)
  deriving DecidableEq, Repr

namespace SourceFault

/-- The wording of a fault, with its cause. -/
def message : SourceFault → String
  | unreadable path cause =>
    "read config " ++ Utf8.decodeLossy path ++ ": " ++ cause.message
  | malformed path => "parse config " ++ Utf8.decodeLossy path
  | mismatch path detail =>
    "parse config " ++ Utf8.decodeLossy path ++ ": " ++ detail
  | badTimeout fault => fault.message

end SourceFault

/-- The settings in a file. -/
def load (files : Files) (cwd : Location) (path : Bytes) :
    Except SourceFault Settings :=
  match files.readText cwd path with
  | .error cause => .error (.unreadable path cause)
  | .ok document =>
    match ofDocument document with
    | .ok settings => .ok settings
    | .error .malformed => .error (.malformed path)
    | .error (.mismatch detail) => .error (.mismatch path detail)

/-- The configuration file in the home directory, if there is a home
directory. -/
def homePath? (env : Variables) : Option Bytes :=
  (dataDir? env).map fun dir => Files.join dir (Utf8.encode "config.toml")

/-- The configuration file in the current directory. -/
def localPath : Bytes := Utf8.encode "toolrun.toml"

/-- The configuration file that counts if none is named. -/
def defaultPath? (files : Files) (cwd : Location) (env : Variables) :
    Option Bytes :=
  ((homePath? env).toList ++ [localPath]).find? (files.present cwd)

/-- The settings from a file that is named, with the place for log files and
the environment on top. -/
def loadNamed (files : Files) (cwd : Location) (env : Variables)
    (path : Bytes) : Except SourceFault Settings := do
  let s ← load files cwd path
  let s :=
    match dataDir? env with
    | some dir => s.withDataDir dir
    | none => s
  match s.withVariables env with
  | ⟨s, none⟩ => .ok s
  | ⟨_, some fault⟩ => .error (.badTimeout fault)

/-- The settings if no file is named: those from the one that counts, if there
is one, with the place for log files and the environment on top. -/
def loadDefault (files : Files) (cwd : Location) (env : Variables) :
    Except SourceFault Settings := do
  let s ←
    match defaultPath? files cwd env with
    | some path => load files cwd path
    | none => .ok default
  let s :=
    match dataDir? env with
    | some dir => s.withDataDir dir
    | none => s
  match s.withVariables env with
  | ⟨s, none⟩ => .ok s
  | ⟨_, some fault⟩ => .error (.badTimeout fault)

/-- The settings from a file that may be named, with the layers that do not
depend on the command. -/
def gather (files : Files) (cwd : Location) (env : Variables)
    (named : Option Bytes) : Except SourceFault Settings :=
  match named with
  | some path => loadNamed files cwd env path
  | none => loadDefault files cwd env

-- ========================================================== surroundings

variable {files : Files} {cwd : Location} {env : Variables}

/-- The layers that do not depend on the command. -/
def withSurroundings (env : Variables) (s : Settings) :
    Except SourceFault Settings :=
  match ((s.withHome env).withVariables env).get with
  | .ok settings => .ok settings
  | .error fault => .error (.badTimeout fault)

theorem withSurroundings_eq (s : Settings) :
    s.withSurroundings env
      = match (match dataDir? env with
          | some dir => s.withDataDir dir
          | none => s).withVariables env with
        | ⟨s, none⟩ => .ok s
        | ⟨_, some fault⟩ => .error (.badTimeout fault) := by
  unfold withSurroundings withHome
  rcases Settings.withVariables env (match dataDir? env with
    | some dir => s.withDataDir dir
    | none => s) with ⟨s, fault | _⟩ <;> rfl

/-- What whoever names a file puts on top of it are these layers. -/
theorem loadNamed_eq (path : Bytes) :
    loadNamed files cwd env path
      = load files cwd path >>= (withSurroundings env ·) :=
  bind_congr fun s => (withSurroundings_eq s).symm

/-- So are those that whoever looks for a file puts on top. -/
theorem loadDefault_eq :
    loadDefault files cwd env
      = (match defaultPath? files cwd env with
        | some path => load files cwd path
        | none => .ok default) >>= (withSurroundings env ·) := by
  unfold loadDefault
  cases defaultPath? files cwd env with
  | some path => exact bind_congr fun s => (withSurroundings_eq s).symm
  | none => exact (withSurroundings_eq default).symm

end Toolrun.Settings
