/-
What a shell at work has to say and to remember, and the descriptors that its
commands ask for.
-/
import Toolrun.Host.Machine

namespace Toolrun.Host

namespace Machine

open Shell (Redirection Parameters)

-- ============================================================== bookkeeping

/-- A shell that goes on, with what is still to be done. -/
def keep (m : Machine) (p : Proc) (s : ShellState) : Machine :=
  m.put { m.spend p stepCost with task := .shell s }

/-- A shell with the exit status of its last command. -/
def withStatus (s : ShellState) (status : Nat) : ShellState :=
  { s with parameters := { s.parameters with status := status } }

/-- A shell with more to do first. -/
def first (works : List Work) (s : ShellState) : ShellState :=
  { s with todo := works ++ s.todo }

/-- A process that writes something. -/
def saying (p : Proc) (output : List (Nat × Bytes)) : Proc :=
  { p with pending := p.pending ++ output }

/-- A message of a shell about a line of its script. -/
def shellMessage (s : ShellState) (line : Nat) (message : Letters) :
    Nat × Bytes :=
  complaint (s.parameters.name ++ .ofString ": " ++ Parameters.digits line ++
    .ofString ": " ++ message)

/-- A shell that complains and goes on with a status. -/
def complain (m : Machine) (p : Proc) (s : ShellState) (line : Nat)
    (message : Letters) (status : Nat) : Machine :=
  m.keep (saying p [shellMessage s line message]) (withStatus s status)

/-- A shell that complains and ends. -/
def giveUp (m : Machine) (p : Proc) (s : ShellState) (line : Nat)
    (message : Letters) (status : Nat) : Machine :=
  m.complain p { s with todo := [.leave] } line message status

/-- The status that a child's ending gives. -/
def statusOf : Ending → Nat
  | .exited code => code
  | .signalled number => 128 + number

/-- The wording for a child that a signal ended. -/
def signalText (number : Nat) : Option Letters :=
  match number with
  | 2 => none
  | 13 => none
  | 1 => some (.ofString "Hangup")
  | 3 => some (.ofString "Quit")
  | 6 => some (.ofString "Aborted")
  | 9 => some (.ofString "Killed")
  | 14 => some (.ofString "Alarm clock")
  | 15 => some (.ofString "Terminated")
  | n => some (.ofString "Signal " ++ Parameters.digits n)

-- ========================================================== redirections

/-- Why opening a file failed, as a shell says it. -/
def openReason (e : Errno) (missing : String) : Letters :=
  if e = .noEntry || e = .notDirectory then .ofString missing else reason e

/-- Opens a file for reading. -/
def openSource (files : Files) (cwd : Location) (name : Letters) :
    Except Letters Handle :=
  match files.find cwd (Letters.toBytes name) with
  | .ok (.file content _) => .ok (.source content)
  | .ok .nullDevice => .ok .null
  | .ok _ => .ok (.source [])
  | .error e =>
    .error (.ofString "cannot open " ++ name ++ .ofString ": " ++
      openReason e "No such file")

/-- Opens a file for writing. -/
def openTarget (files : Files) (cwd : Location) (append : Bool)
    (name : Letters) : Except Letters (Files × Handle) :=
  let failure (e : Errno) : Letters :=
    .ofString "cannot create " ++ name ++ .ofString ": " ++
      openReason e "Directory nonexistent"
  match files.locate cwd (Letters.toBytes name) with
  | .error e => .error (failure e)
  | .ok location =>
    match files.at? location with
    | some .directory => .error (failure .isDirectory)
    | some .nullDevice => .ok (files, .null)
    | some (.program _) => .ok (files, .null)
    | some (.file content mode) =>
      let kept := if append then content else []
      .ok (files.set location (.file kept mode), .target location)
    | none =>
      .ok (files.set location (.file [] Files.defaultMode), .target location)

/-- Carries out redirections in order. -/
def redirect (cwd : Location) (parameters : Parameters) :
    List Redirection → Files → Handles → Except Letters (Files × Handles)
  | [], files, handles => .ok (files, handles)
  | .input descriptor file :: others, files, handles => do
    let name := Shell.expandText parameters file
    let handle ← openSource files cwd name
    redirect cwd parameters others files (handles.set descriptor handle)
  | .output descriptor append file :: others, files, handles => do
    let name := Shell.expandText parameters file
    let (files, handle) ← openTarget files cwd append name
    redirect cwd parameters others files (handles.set descriptor handle)
  | .same descriptor source :: others, files, handles => do
    let name := Shell.expandText parameters source
    if name = ['-'] then
      redirect cwd parameters others files (handles.close descriptor)
    else
      match handles.get? (Shell.numberOf name) with
      | some handle =>
        redirect cwd parameters others files (handles.set descriptor handle)
      | none => .error (name ++ .ofString ": Bad file descriptor")

end Machine

end Toolrun.Host
