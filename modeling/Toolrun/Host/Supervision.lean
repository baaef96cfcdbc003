/-
Children on the machine: the machine supplies the events that an invocation
takes, and the invocation's decisions act on the machine.

As long as the child runs, a reader wakes up for a good many bytes only;
otherwise whatever has been written is read at once, and a chunk that was read
is handed over before anything else happens. What an invocation can notice it
notices before the machine goes on. Someone may be watching for a file to
appear in order to cancel the run; they look every few milliseconds.
-/
import Toolrun.Host.Runner
import Toolrun.Host.Shell.Step

namespace Toolrun.Host

/-- A run on the machine, with its child, and with the file that is watched
for and the time of the next look. -/
structure Supervision where
  machine : Machine
  invocation : Invocation
  cwd : Location
  child : Nat
  watchedFile : Option Bytes := none
  nextLook : Nat := 0

namespace Supervision

/-- The pipe for what a child writes to a stream. -/
def pipeOf : Stream → Nat
  | .stdout => 0
  | .stderr => 1

/-- The time between two looks for the watched file. -/
def lookInterval : Nat := 5000

/-- How the child ended, if it has. -/
def childEnding? (v : Supervision) : Option Ending :=
  (v.machine.proc? v.child).bind (·.ending)

/-- The number of bytes that wakes up a reader while the child runs. -/
def wakingCount : Nat := 1024

/-- Whether a reader takes what is there. -/
def isAwake (v : Supervision) (bytes : Bytes) : Bool :=
  match v.invocation.phase with
  | .running => decide (wakingCount ≤ bytes.length)
  | _ => !bytes.isEmpty

/-- What there is to do for the reader of a stream. -/
def readEvent? (v : Supervision) (stream : Stream) : Option Invocation.Event :=
  let pipe := pipeOf stream
  let bytes := v.machine.inPipe pipe
  let held := (v.invocation.readers.get stream).held
  if !held.isEmpty then some (.reader stream (.pushed held))
  else if v.isAwake bytes then
    some (.reader stream (.read (bytes.take Reader.chunkLimit)))
  else if !bytes.isEmpty || v.machine.hasWriter pipe then none
  else some (.reader stream .ended)

/-- The nanoseconds in the unit of the machine's clock. -/
def nanosPerTick : Nat := 1000

/-- The events that the state of the machine gives rise to. -/
def machineEvents (v : Supervision) : List Invocation.Event :=
  let passed := v.machine.now * nanosPerTick - v.invocation.clock
  (if passed = 0 then [] else [.timePassed passed]) ++
    (v.readEvent? .stdout).toList ++ (v.readEvent? .stderr).toList ++
    match v.childEnding? with
    | some ending => [.exited ending, .killed none]
    | none => []

/-- What an invocation may notice or do by itself. -/
def notices : List Invocation.Event :=
  [.noticedDrained, .noticed .cancelled, .noticed .timedOut, .noticedGrace,
    .looked .stdout, .looked .stderr]

/-- The first of some events that can happen, with the invocation after
it. -/
def firstPossible? (v : Invocation) (events : List Invocation.Event) :
    Option (Invocation.Event × Invocation) :=
  events.findSome? fun e => (v.step e).map fun w => (e, w)

/-- What an event that was taken does to the machine: bytes that were read
are gone from their pipe. -/
def settle (m : Machine) : Invocation.Event → Machine
  | .reader stream (.read bytes) =>
    let pipe := pipeOf stream
    m.setPipe pipe ((m.inPipe pipe).drop bytes.length)
  | _ => m

/-- Looks for the watched file. -/
def look (v : Supervision) (file : Bytes) : Supervision :=
  let v := { v with nextLook := v.machine.now + lookInterval }
  if v.machine.files.present v.cwd file then
    match v.invocation.step .cancelRequested with
    | some invocation =>
      { v with invocation := invocation, watchedFile := none }
    | none => v
  else v

/-- The times at which something happens without the machine's doing. -/
def alarms (v : Supervision) : List Nat :=
  let timers := v.invocation.deadline?.toList ++
    match v.invocation.phase with
    | .flushing _ graceEnd => [graceEnd]
    | _ => []
  timers.map (· / nanosPerTick) ++
    (if v.watchedFile.isSome then [v.nextLook] else [])

/-- The next of these times that is still to come. -/
def nextAlarm? (v : Supervision) : Option Nat :=
  (v.alarms.filter fun t => v.machine.now < t).min?

/-- Lets the machine go on, at most up to the next alarm. -/
def goOn (v : Supervision) : Option Supervision :=
  match v.machine.stepBy v.nextAlarm? with
  | some m => some { v with machine := m }
  | none =>
    v.nextAlarm?.map fun t => { v with machine := { v.machine with now := t } }

/-- Kills the child. -/
def kill (v : Supervision) : Supervision :=
  { v with machine := v.machine.signal v.child Machine.killSignal }

/-- The file to look for, if it is time to. -/
def dueLook? (v : Supervision) : Option Bytes :=
  if v.nextLook ≤ v.machine.now then v.watchedFile else none

/-- One step of a run: an event if one is possible, and else something on the
machine. Nothing is left to do if neither is. -/
def step (v : Supervision) : Option Supervision :=
  if v.invocation.isOver then none
  else
    match v.dueLook? with
    | some file => some (v.look file)
    | none =>
      match firstPossible? v.invocation (v.machineEvents ++ notices) with
      | some (event, invocation) =>
        some
          { v with
            machine := settle v.machine event
            invocation := invocation }
      | none =>
        match v.invocation.phase with
        | .stopping _ => some v.kill
        | .discarding _ => some v.kill
        | _ => v.goOn

/-- Takes steps as long as there are any, at most so many. -/
def run : Nat → Supervision → Supervision
  | 0, v => v
  | n + 1, v =>
    match v.step with
    | some w => run n w
    | none => v

/-- The most steps of a run. -/
def stepLimit : Nat := 50000000

/-- The child on a machine, with its input empty and its output going to the
two pipes. -/
def attend (c : Circumstances) (child : StartedChild) (v : Invocation) :
    Supervision :=
  let m : Machine := { files := child.files }
  let (m, out) := m.newPipe
  let (m, err) := m.newPipe
  let m := { m with watched := [out, err] }
  let handles : Handles :=
    [(0, .null), (1, .pipeIn out), (2, .pipeIn err)]
  let pid := m.nextPid
  let proc : Proc :=
    { pid := pid, cwd := child.image.cwd, handles := handles
      task := .job (.finish 0) }
  let m := { m with procs := m.procs ++ [proc], nextPid := pid + 1 }
  { machine := m.load proc child.image child.environment
    invocation := v
    cwd := c.cwd
    child := pid
    watchedFile := c.cancelOnFile }

-- ================================================================ moves

variable {v w : Supervision}

/-- Nothing, or one move of the invocation. -/
def Follows (v w : Supervision) : Prop :=
  ∃ events, v.invocation.run events = some w.invocation

theorem Follows.of_eq (h : w.invocation = v.invocation) : v.Follows w :=
  ⟨[], congrArg some h.symm⟩

theorem Follows.of_step {event : Invocation.Event}
    (h : v.invocation.step event = some w.invocation) : v.Follows w := by
  refine ⟨[event], ?_⟩
  unfold Invocation.run
  rw [List.foldlM_cons, h]
  rfl

theorem look_follows (file : Bytes) : v.Follows (v.look file) := by
  unfold look
  simp only
  split
  next =>
    split
    next hstep => exact .of_step hstep
    next => exact .of_eq rfl
  next => exact .of_eq rfl

theorem goOn_follows (h : v.goOn = some w) : v.Follows w := by
  unfold goOn at h
  split at h
  next =>
    cases h
    exact .of_eq rfl
  next =>
    obtain ⟨_, _, rfl⟩ := Option.map_eq_some_iff.1 h
    exact .of_eq rfl

theorem step_of_firstPossible? {invocation after : Invocation}
    {events : List Invocation.Event} {event : Invocation.Event}
    (h : firstPossible? invocation events = some (event, after)) :
    invocation.step event = some after := by
  obtain ⟨candidate, -, hcandidate⟩ := List.exists_of_findSome?_eq_some h
  obtain ⟨_, hstep, hpair⟩ := Option.map_eq_some_iff.1 hcandidate
  cases hpair
  exact hstep

/-- Whatever happens on the machine, the invocation makes no moves but its
own. -/
theorem step_follows (h : v.step = some w) : v.Follows w := by
  unfold step at h
  split at h
  next => cases h
  next =>
    split at h
    next file _ =>
      cases h
      exact look_follows file
    next =>
      split at h
      next hfirst =>
        cases h
        exact .of_step (step_of_firstPossible? hfirst)
      next =>
        split at h
        next =>
          cases h
          exact .of_eq rfl
        next =>
          cases h
          exact .of_eq rfl
        next => exact goOn_follows h

theorem run_follows (n : Nat) (v : Supervision) : v.Follows (v.run n) := by
  induction n generalizing v with
  | zero => exact .of_eq rfl
  | succ n ih =>
      rw [run]
      cases hstep : v.step with
      | none => exact .of_eq rfl
      | some w =>
          obtain ⟨first, hfirst⟩ := step_follows hstep
          obtain ⟨later, hlater⟩ := ih w
          refine ⟨first ++ later, ?_⟩
          unfold Invocation.run at *
          rw [List.foldlM_append, hfirst]
          exact hlater

end Supervision

-- ============================================================== runners

/-- What happens to a child on the machine of this library. -/
def machineAftermath : Aftermath where
  play := fun c child v =>
    let final := (Supervision.attend c child v).run Supervision.stepLimit
    (final.machine.files, final.invocation)
  moves := fun c child v =>
    Supervision.run_follows _ (Supervision.attend c child v)

/-- Runs a tool on the machine of this library. -/
def runTool (c : Circumstances) : Files → Launch → Files × Outcome :=
  runToolWith machineAftermath c

/-- The directories of the machine. -/
def standardDirectories : List String :=
  ["bin", "usr", "usr/bin", "usr/local", "usr/local/bin", "etc", "dev", "tmp"]

/-- The names that a path consists of. -/
def locationOf (path : String) : Location :=
  (Files.parts (Utf8.encode path)).filter fun part => !part.isEmpty

/-- The files of a machine on which nothing has been done yet. -/
def standardFiles : Files :=
  ⟨(standardDirectories.map fun d => (locationOf d, .directory)) ++
    (["bin/", "usr/bin/"].flatMap fun dir =>
      programNames.map fun name => (locationOf (dir ++ name), .program name)) ++
    [(locationOf "dev/null", .nullDevice)]⟩

end Toolrun.Host
