/-
The machine that tools run on: processes, pipes between them, and files, with
a clock of its own.

A process takes one small step at a time, each of which costs some time. The
process whose turn comes first goes on; one that waits for input, for room in
a pipe or for a child is passed over until what it waits for is there. Since
nothing but the clock decides, the machine always does the same.
-/
import Toolrun.Host.Shell.Expansion
import Toolrun.Host.Shell.Reader
import Toolrun.Host.Start
import Toolrun.Host.Utility
import Toolrun.Invocation

namespace Toolrun.Host

-- ============================================================ processes

/-- What a descriptor leads to. What is read from a file is fixed when it is
opened; what is written to one goes to its end. -/
inductive Handle where
  | null
  | pipeOut (pipe : Nat)
  | pipeIn (pipe : Nat)
  | source (rest : Bytes)
  | target (file : Location)
  deriving DecidableEq

/-- The open descriptors of a process. -/
abbrev Handles := List (Nat × Handle)

namespace Handles

/-- What a descriptor leads to. -/
def get? (h : Handles) (descriptor : Nat) : Option Handle :=
  (h.find? fun e => e.1 = descriptor).map (·.2)

/-- Closes a descriptor. -/
def close (h : Handles) (descriptor : Nat) : Handles :=
  h.filter fun e => e.1 ≠ descriptor

/-- Opens a descriptor, or makes it lead elsewhere. -/
def set (h : Handles) (descriptor : Nat) (handle : Handle) : Handles :=
  (descriptor, handle) :: h.close descriptor

end Handles

/-- What a shell still has to do. Guarded commands may fail without ending a
shell that otherwise ends at the first failure. -/
inductive Work where
  | run (guarded : Bool) (command : Shell.Command)
  | resume (guarded : Bool) (command : Shell.Command)
  | ifSucceeded (guarded : Bool) (command : Shell.Command)
  | ifFailed (guarded : Bool) (command : Shell.Command)
  | invert
  | check
  | choose (guarded : Bool) (yes no : Shell.Command)
  | again (guarded whileTrue : Bool) (condition body : Shell.Command)
  | tested (guarded whileTrue : Bool) (condition body : Shell.Command)
  | next (guarded : Bool) (name : Letters) (values : List Letters)
      (body : Shell.Command)
  | reconnect (handles : Handles)
  | await (children : List Nat) (last : Nat)
  | collect (pipe child : Nat) (got : Bytes) (guarded : Bool)
      (command : Shell.Command)
  | readScript (got : Bytes)
  | setStatus (status : Nat)
  | restoreArguments (arguments : List Letters)
  | leave

/-- A shell at work. -/
structure ShellState where
  parameters : Shell.Parameters
  traps : List (Nat × Letters) := []
  background : List Nat := []
  functions : List (Letters × Shell.Command) := []
  endsOnFailure : Bool := false
  todo : List Work := []

/-- What a process does. -/
inductive Task where
  | shell (s : ShellState)
  | job (j : Job)

/-- A process. What it has begun to write comes first; then it goes on with
its task. -/
structure Proc where
  pid : Nat
  cwd : Location
  handles : Handles := []
  ignored : List Nat := []
  pending : List (Nat × Bytes) := []
  task : Task
  wakeAt : Nat := 0
  ending : Option Ending := none

/-- The machine. Some pipes are read from outside. -/
structure Machine where
  now : Nat := 0
  files : Files := {}
  procs : List Proc := []
  pipes : List (Nat × Bytes) := []
  watched : List Nat := []
  nextPid : Nat := 1001
  nextPipe : Nat := 0

namespace Machine

/-- The process with a number. -/
def proc? (m : Machine) (pid : Nat) : Option Proc :=
  m.procs.find? fun p => p.pid = pid

/-- Puts a process in the place of the one with its number. -/
def put (m : Machine) (p : Proc) : Machine :=
  { m with procs := m.procs.map fun q => if q.pid = p.pid then p else q }

/-- Forgets processes. -/
def forget (m : Machine) (pids : List Nat) : Machine :=
  { m with procs := m.procs.filter fun p => !pids.contains p.pid }

/-- What is in a pipe. -/
def inPipe (m : Machine) (pipe : Nat) : Bytes :=
  ((m.pipes.find? fun e => e.1 = pipe).map (·.2)).getD []

/-- Changes what is in a pipe. -/
def setPipe (m : Machine) (pipe : Nat) (bytes : Bytes) : Machine :=
  { m with pipes :=
      m.pipes.map fun e => if e.1 = pipe then (pipe, bytes) else e }

/-- A new pipe. -/
def newPipe (m : Machine) : Machine × Nat :=
  ({ m with
      pipes := m.pipes ++ [(m.nextPipe, [])]
      nextPipe := m.nextPipe + 1 },
    m.nextPipe)

/-- Whether some descriptors lead to something. -/
def areOpen (handles : Handles) (handle : Handle) : Bool :=
  handles.any fun e => e.2 = handle

/-- Whether a work has put aside a descriptor that leads to something. -/
def isAside (handle : Handle) : Work → Bool
  | .reconnect handles => areOpen handles handle
  | _ => false

/-- Whether a descriptor of some process leads to something. Those that a
shell has put aside count. -/
def isOpen (m : Machine) (handle : Handle) : Bool :=
  m.procs.any fun p =>
    areOpen p.handles handle ||
      match p.task with
      | .shell s => s.todo.any (isAside handle)
      | .job _ => false

/-- Whether a pipe can still be written to. -/
def hasWriter (m : Machine) (pipe : Nat) : Bool := m.isOpen (.pipeIn pipe)

/-- Whether a pipe can still be read. -/
def hasReader (m : Machine) (pipe : Nat) : Bool :=
  m.watched.contains pipe || m.isOpen (.pipeOut pipe)

-- =============================================================== costs

/-- The time that a small step takes, in microseconds. -/
def stepCost : Nat := 5

/-- The time that it takes to start a program. -/
def startCost : Nat := 1000

/-- The time that it takes to move some bytes. -/
def moveCost (count : Nat) : Nat := 20 + count / 16

/-- A process that has used some time. -/
def spend (m : Machine) (p : Proc) (cost : Nat) : Proc :=
  { p with wakeAt := m.now + cost }

-- ============================================================== endings

/-- Ends a process. -/
def finish (m : Machine) (p : Proc) (ending : Ending) : Machine :=
  m.put
    { p with
      handles := []
      pending := []
      task := .job (.finish 0)
      ending := some ending }

/-- The signal that nothing can stop. -/
def killSignal : Nat := 9

/-- The signal for writing to a pipe that nobody reads. -/
def pipeSignal : Nat := 13

/-- The signals that do nothing unless they are caught. -/
def harmlessSignals : List Nat := [17, 18, 23, 28]

/-- What a shell still has to do once a trap has sprung: a child that it is
waiting for comes first. -/
def withTrap (action : List Shell.Command) (todo : List Work) : List Work :=
  let works := action.map (Work.run true)
  match todo with
  | .await children last :: rest => .await children last :: works ++ rest
  | todo => works ++ todo

/-- Delivers a signal to a process. -/
def signal (m : Machine) (pid number : Nat) : Machine :=
  match m.proc? pid with
  | none => m
  | some p =>
    if p.ending.isSome || number = 0 then m
    else if number = killSignal then m.finish p (.signalled number)
    else if p.ignored.contains number then m
    else
      let default :=
        if harmlessSignals.contains number then m
        else m.finish p (.signalled number)
      match p.task with
      | .job _ => default
      | .shell s =>
        match s.traps.find? fun t => t.1 = number with
        | none => default
        | some (_, action) =>
          let todo := withTrap (Shell.readScript action) s.todo
          m.put { p with task := .shell { s with todo := todo } }

-- =================================================== reading and writing

/-- What reading gives: some bytes, the end, or nothing yet. -/
inductive Supply where
  | bytes (bytes : Bytes)
  | ended
  | wait

/-- Reads from a descriptor of a process. -/
def read (m : Machine) (p : Proc) (descriptor most : Nat) :
    Supply × Machine × Proc :=
  match p.handles.get? descriptor with
  | some (.pipeOut pipe) =>
    let bytes := m.inPipe pipe
    if !bytes.isEmpty then
      (.bytes (bytes.take most), m.setPipe pipe (bytes.drop most), p)
    else if m.hasWriter pipe then (.wait, m, p)
    else (.ended, m, p)
  | some (.source rest) =>
    if rest.isEmpty then (.ended, m, p)
    else
      let handles := p.handles.set descriptor (.source (rest.drop most))
      (.bytes (rest.take most), m, { p with handles := handles })
  | _ => (.ended, m, p)

/-- The room in a pipe. -/
def pipeRoom : Nat := 65536

/-- Adds bytes to a file. -/
def appendTo (m : Machine) (file : Location) (bytes : Bytes) : Machine :=
  match m.files.at? file with
  | some (.file content mode) =>
    { m with files := m.files.set file (.file (content ++ bytes) mode) }
  | _ => m

/-- Goes on with what a process has begun to write, if it can. -/
def write (m : Machine) (p : Proc) (descriptor : Nat) (bytes : Bytes)
    (others : List (Nat × Bytes)) : Option Machine :=
  let done := m.spend { p with pending := others } (moveCost bytes.length)
  if bytes.isEmpty then some (m.put { p with pending := others })
  else
    match p.handles.get? descriptor with
    | some (.pipeIn pipe) =>
      if !m.hasReader pipe then
        if p.ignored.contains pipeSignal then some (m.put done)
        else some (m.finish p (.signalled pipeSignal))
      else
        let before := m.inPipe pipe
        let room := pipeRoom - before.length
        if room = 0 then none
        else
          let left := bytes.drop room
          let pending :=
            if left.isEmpty then others else (descriptor, left) :: others
          let m := m.setPipe pipe (before ++ bytes.take room)
          some (m.put { done with pending := pending })
    | some (.target file) => some ((m.appendTo file bytes).put done)
    | _ => some (m.put done)

-- ================================================================= jobs

/-- The most that a program reads at once. -/
def blockSize : Nat := 8192

/-- The first lines of some bytes, and how many lines are still wanted. -/
def takeLines : Nat → Bytes → Bytes → Bytes × Nat
  | 0, got, _ => (got.reverse, 0)
  | n, got, [] => (got.reverse, n)
  | n + 1, got, b :: rest =>
    if b = 0x0A then takeLines n (b :: got) rest
    else takeLines (n + 1) (b :: got) rest

/-- Lets a program take a step, if it can. -/
def stepJob (m : Machine) (p : Proc) (job : Job) : Option Machine :=
  let goOn (m : Machine) (p : Proc) (job : Job) (out : Bytes) : Machine :=
    m.put { m.spend p stepCost with
      task := .job job, pending := [(1, out)] }
  match job with
  | .finish code => some (m.finish p (.exited code))
  | .sleep wakeAt =>
    if wakeAt ≤ m.now then some (m.finish p (.exited 0))
    else some (m.put { p with wakeAt := wakeAt })
  | .copy [] code => some (m.finish p (.exited code))
  | .copy (.content bytes :: others) code =>
    some (goOn m p (.copy others code) bytes)
  | .copy (.input :: others) code =>
    match m.read p 0 blockSize with
    | (.bytes bytes, m, p) => some (goOn m p job bytes)
    | (.ended, m, p) => some (goOn m p (.copy others code) [])
    | (.wait, _, _) => none
  | .flood block => some (goOn m p job block)
  | .headBytes 0 => some (m.finish p (.exited 0))
  | .headBytes (n + 1) =>
    match m.read p 0 blockSize with
    | (.bytes bytes, m, p) =>
      some (goOn m p (.headBytes (n + 1 - bytes.length)) (bytes.take (n + 1)))
    | (.ended, m, p) => some (m.finish p (.exited 0))
    | (.wait, _, _) => none
  | .headLines 0 => some (m.finish p (.exited 0))
  | .headLines (n + 1) =>
    match m.read p 0 blockSize with
    | (.bytes bytes, m, p) =>
      let (taken, left) := takeLines (n + 1) [] bytes
      some (goOn m p (.headLines left) taken)
    | (.ended, m, p) => some (m.finish p (.exited 0))
    | (.wait, _, _) => none
  | .gather got filter =>
    match m.read p 0 pipeRoom with
    | (.bytes bytes, m, p) =>
      some (goOn m p (.gather (got ++ bytes) filter) [])
    | (.ended, m, p) => some (goOn m p (.finish 0) (filter.apply got))
    | (.wait, _, _) => none

-- ============================================================== loading

/-- A shell that complains and ends. -/
def refusing (zeroth message : Letters) : Task × List (Nat × Bytes) :=
  (.job (.finish 2),
    [complaint (zeroth ++ .ofString ": 0: " ++ message)])

/-- The option letters that a shell knows. -/
def shellOptions : Letters := "aCefnuvxIimqVEbsc".toList

/-- The search path of a shell that inherits none. -/
def shellSearchPath : Letters :=
  ("/usr/local/sbin:/usr/local/bin:/usr/sbin:/usr/bin:/sbin:/bin").toList

/-- The parameters that a shell begins with. -/
def shellParameters (pid : Nat) (environment : List (Bytes × Bytes))
    (name : Letters) (arguments : List Letters) : Shell.Parameters :=
  let values := environment.map fun v =>
    (Letters.ofBytes v.1, Letters.ofBytes v.2)
  let searchPath :=
    if values.any fun v => v.1 = "PATH".toList then []
    else [("PATH".toList, shellSearchPath)]
  { name := name
    arguments := arguments
    values := values ++ searchPath
    exported := values.map (·.1)
    processId := pid }

/-- A shell that is to run a script. -/
def shellTask (pid : Nat) (environment : List (Bytes × Bytes))
    (name : Letters) (arguments : List Letters) (endsOnFailure : Bool)
    (todo : List Work) : Task × List (Nat × Bytes) :=
  (.shell
    { parameters := shellParameters pid environment name arguments
      endsOnFailure := endsOnFailure
      todo := todo },
    [])

/-- What a shell is to do for the lines of a script. -/
def linesOf (script : Letters) : List Work :=
  (Shell.readScript script).map (Work.run false)

/-- Starts a shell: with a script among its arguments, in a file, or in its
input. -/
def startShell (pid : Nat) (files : Files) (cwd : Location)
    (environment : List (Bytes × Bytes)) (zeroth : Letters)
    (arguments : List Letters) : Task × List (Nat × Bytes) :=
  let isOption (a : Letters) : Bool :=
    a.head? = some '-' && 1 < a.length && a ≠ ['-', '-']
  let options := ((arguments.takeWhile isOption).map (List.drop 1)).flatten
  let operands := arguments.dropWhile isOption
  let operands :=
    if operands.head? = some ['-', '-'] then operands.drop 1 else operands
  let fails := options.contains 'e'
  match options.find? fun c => !shellOptions.contains c with
  | some c => refusing zeroth (.ofString "Illegal option -" ++ [c])
  | none =>
    if options.contains 'c' then
      match operands with
      | [] => refusing zeroth (.ofString "-c requires an argument")
      | [script] =>
        shellTask pid environment zeroth [] fails (linesOf script)
      | script :: name :: others =>
        shellTask pid environment name others fails (linesOf script)
    else
      match operands with
      | [] => shellTask pid environment zeroth [] fails [.readScript []]
      | file :: others =>
        match files.read cwd (Letters.toBytes file) with
        | .ok script =>
          shellTask pid environment file others fails
            (linesOf (Letters.ofBytes script))
        | .error cause =>
          if cause = .system .isDirectory then
            shellTask pid environment file others fails []
          else
            refusing zeroth (.ofString "cannot open " ++ file ++
              .ofString ": No such file")

/-- Whether a program is a shell. -/
def isShell (program : String) : Bool := program = "sh" || program = "dash"

/-- Lets a process become another program. -/
def load (m : Machine) (p : Proc) (image : Image)
    (environment : List (Bytes × Bytes)) : Machine :=
  let (image, environment) :=
    handOver m.files handOverLimit image environment
  let arguments := image.arguments.map Letters.ofBytes
  let zeroth := arguments.headD []
  let p := m.spend { p with cwd := image.cwd } startCost
  if isShell image.program then
    let (task, pending) :=
      startShell p.pid m.files p.cwd environment zeroth (arguments.drop 1)
    m.put { p with task := task, pending := pending }
  else
    let begun :=
      startProgram image.program p.wakeAt m.files p.cwd environment zeroth
        (arguments.drop 1)
    let handles :=
      match begun.input with
      | some bytes => p.handles.set 0 (.source bytes)
      | none => p.handles
    { m with files := begun.files }.put
      { p with
        task := .job begun.job
        pending := begun.output
        handles := handles }

/-- Adds a process that goes on from where another one is. -/
def fork (m : Machine) (p : Proc) (task : Task) (handles : Handles) :
    Machine × Nat :=
  let child : Proc :=
    { pid := m.nextPid
      cwd := p.cwd
      handles := handles
      ignored := p.ignored
      task := task
      wakeAt := m.now + stepCost }
  ({ m with procs := m.procs ++ [child], nextPid := m.nextPid + 1 },
    m.nextPid)

end Machine

end Toolrun.Host
