/-
The children of a shell: parts of a script that run beside it, the stages of a
pipeline, and programs.
-/
import Toolrun.Host.Shell.Redirection

namespace Toolrun.Host

namespace Machine

open Shell (Command Parameters)

-- ============================================================== children

/-- A shell that goes on in a child. -/
def childShell (s : ShellState) (todo : List Work) : Task :=
  .shell
    { s with
      background := []
      traps := s.traps.filter fun t => t.2.isEmpty
      todo := todo }

/-- Runs a command in a child and waits for it. -/
def runInChild (m : Machine) (p : Proc) (s : ShellState) (handles : Handles)
    (todo : List Work) : Machine :=
  let (m, child) := m.fork p (childShell s todo) handles
  m.keep p (first [.await [child] child] s)

/-- Makes the children of a pipeline, each reading what the one before it
writes. -/
def forkStages (guarded : Bool) (p : Proc) (s : ShellState) :
    Machine → Handles → List Command → List Nat → Machine × List Nat
  | m, _, [], pids => (m, pids)
  | m, handles, [c], pids =>
    let (m, child) := m.fork p (childShell s [.run guarded c]) handles
    (m, pids ++ [child])
  | m, handles, c :: others, pids =>
    let (m, pipe) := m.newPipe
    let (m, child) :=
      m.fork p (childShell s [.run guarded c])
        (handles.set 1 (.pipeIn pipe))
    forkStages guarded p s m (p.handles.set 0 (.pipeOut pipe)) others
      (pids ++ [child])

/-- The environment of a shell's children, with assignments made for one
command. -/
def environmentOf (s : ShellState) (extra : List (Letters × Letters)) :
    List (Bytes × Bytes) :=
  let exported := s.parameters.exported ++ extra.map (·.1)
  let parameters := extra.foldl
    (fun (q : Parameters) e => q.set e.1 e.2)
    { s.parameters with exported := exported }
  parameters.environment.map fun v =>
    (Letters.toBytes v.1, Letters.toBytes v.2)

/-- Lets a process become the program that some arguments name. -/
def exec (m : Machine) (p : Proc) (searchPath : Bytes)
    (environment : List (Bytes × Bytes)) (arguments : List Letters) :
    Except Errno Machine := do
  let request : StartRequest :=
    { tool := Letters.toBytes (arguments.headD [])
      arguments := (arguments.drop 1).map Letters.toBytes
      environment := environment
      searchPath := some searchPath
      withShell := true }
  let image ← request.find m.files p.cwd
  .ok (m.load p image environment)

/-- The complaint about a command that could not be started, and its
status. -/
def startComplaint (name : Letters) (e : Errno) : Letters × Nat :=
  let status :=
    if e = .noEntry || e = .notDirectory || e = .nameTooLong then 127 else 126
  (name ++ .ofString ": " ++ openReason e "not found", status)

/-- Lets a process become a command, or complain and end. A file that is no
program is run as a script. -/
def become (m : Machine) (p : Proc) (s : ShellState) (line : Nat)
    (extra : List (Letters × Letters)) (saidBefore : Letters)
    (arguments : List Letters) : Machine :=
  let environment := environmentOf s extra
  let name := arguments.headD []
  let searchPath :=
    (extra.find? fun v => v.1 = "PATH".toList).map (·.2) <|>
      s.parameters.lookup? "PATH".toList
  let searchPath := Letters.toBytes (searchPath.getD [])
  match m.exec p searchPath environment arguments with
  | .ok m => m
  | .error e =>
    let asScript :=
      if e = .notExecutable then
        (m.files.read p.cwd (Letters.toBytes name)).toOption
      else none
    match asScript with
    | some script =>
      let (task, pending) :=
        shellTask p.pid environment name (arguments.drop 1) false
          (linesOf (Letters.ofBytes script))
      m.put { m.spend p stepCost with task := task, pending := pending }
    | none =>
      let (message, status) := startComplaint name e
      m.put { m.spend p stepCost with
        task := .job (.finish status)
        pending := p.pending ++
          [shellMessage s line (saidBefore ++ message)] }

end Machine

end Toolrun.Host
