/-
One run of a tool, from the check of the request to its outcome, as a machine
that takes one event at a time.

Around the machine a child process runs, two readers take what it writes,
time passes and someone may ask to cancel; all of that comes in as events, in
any order in which it can happen. What the machine decides by itself are
events as well, the notices: that a cancellation or a passed deadline is to
end the run, that both streams were read to the end, or that the time for
reading on after a kill is over. Where more than one of them is possible,
either may come; so a statement about all runs of the machine holds however
the parts are scheduled.

A run that leaves its readers behind asks them to stop, and then looks at the
two captures, at one and then at the other. It does not wait for the readers
in between, so that a chunk can still come into a capture before the look at
it, or after.

A run that has come to its end takes no more events.
-/
import Toolrun.Clock
import Toolrun.Readers

namespace Toolrun

-- =============================================================== phases

/-- How a child process ended. -/
inductive Ending where
  | exited (code : Nat)
  | signalled (signal : Nat)
  deriving DecidableEq, Repr

namespace Ending

/-- Success is the exit code zero. -/
def isSuccess (e : Ending) : Bool := e = exited 0

/-- The exit code, if there is one. -/
def code? : Ending → Option Int
  | exited code => some code
  | signalled _ => none

/-- What comes of a child that ended by itself and was read to the end. -/
def outcome (e : Ending) (output : Output) : Outcome :=
  if e.isSuccess then .ok output else .error (.unsuccessful e.code? output)

end Ending

/-- Why a run that has started a child is ended from outside. -/
inductive Interruption where
  | cancelled
  | timedOut
  deriving DecidableEq, Repr

/-- Where a run stands: about to start the child, waiting for its end, waiting
for a kill to come back (because of an interruption, or because the child's end
cannot be waited for), reading on after the child's end, reading on after a
kill up to some time, looking at the captures of readers that it leaves behind
(with the reading of the clock it is to report, if that was taken before),
finished, or broken off before anything was started. -/
inductive Phase where
  | starting
  | running
  | stopping (why : Interruption)
  | discarding (cause : IoFault)
  | draining (ending : Ending)
  | flushing (why : Interruption) (graceEnd : Nat)
  | leaving (why : Interruption) (readAt : Option Nat)
  | finished (outcome : Outcome)
  | brokenOff

/-- What a run finds when it begins: whether it has been cancelled already,
and two readings of the clock, the second of which the deadline counts from. -/
structure Entry where
  cancelled : Bool := false
  startedAt : Nat := 0
  timedFrom : Nat := startedAt
  startedAt_le : startedAt ≤ timedFrom := by exact Nat.le_refl _

/-- A run of a tool, with what it has seen in the captures of readers that it
leaves behind. -/
structure Invocation where
  launch : Launch
  entry : Entry
  cancelRequested : Bool
  clock : Nat
  readers : Readers
  seen : PerStream (Option String) := ⟨none, none⟩
  phase : Phase

namespace Invocation

/-- How the run is to be made. -/
def options (v : Invocation) : RunOptions := v.launch.options

/-- Whether the deadline of a run is in the clock's range. -/
def canBeTimed (options : RunOptions) (timedFrom : Nat) : Bool :=
  match options.timeoutMs with
  | some ms => (Clock.after? timedFrom (ms * Clock.nanosPerMilli)).isSome
  | none => true

/-- The run of a tool before its child is started. A bad request and a
cancellation made beforehand end it here; a deadline that cannot be formed
breaks it off. -/
def begin (launch : Launch) (entry : Entry) : Invocation where
  launch := launch
  entry := entry
  cancelRequested := entry.cancelled
  clock := entry.timedFrom
  readers := .fresh launch.options.captureBytes
  phase :=
    match launch.tool.check with
    | .error failure => .finished (.error failure)
    | .ok () =>
      if entry.cancelled then .finished (.error (.cancelled .none))
      else if canBeTimed launch.options entry.timedFrom then .starting
      else .brokenOff

/-- The outcome of a run, once there is one. -/
def outcome? (v : Invocation) : Option Outcome :=
  match v.phase with
  | .finished outcome => some outcome
  | _ => none

/-- Whether nothing can happen in the run any more. -/
def isOver (v : Invocation) : Bool :=
  match v.phase with
  | .finished _ => true
  | .brokenOff => true
  | _ => false

/-- Whether the readers are at work. -/
def isReading (v : Invocation) : Bool :=
  match v.phase with
  | .starting => false
  | .finished _ => false
  | .brokenOff => false
  | _ => true

/-- The nanoseconds from the start to a reading of the clock. -/
def elapsedAt (v : Invocation) (reading : Nat) : Nat :=
  reading - v.entry.startedAt

/-- The nanoseconds since the start. -/
def elapsed (v : Invocation) : Nat := v.elapsedAt v.clock

/-- When the deadline is, if there is one. -/
def deadline? (v : Invocation) : Option Nat :=
  v.options.timeoutMs.map fun ms =>
    v.entry.timedFrom + ms * Clock.nanosPerMilli

/-- Whether the deadline has passed. -/
def isOverdue (v : Invocation) : Bool :=
  match v.deadline? with
  | some deadline => deadline ≤ v.clock
  | none => false

/-- Whether there is reason for an interruption. -/
def isDue (v : Invocation) : Interruption → Bool
  | .cancelled => v.cancelRequested
  | .timedOut => v.isOverdue

-- =============================================================== events

/-- What can happen in a run. A kill comes back with a fault or without; what
it does to the child is the system's part. -/
inductive Event where
  | cancelRequested
  | timePassed (nanos : Nat)
  | started
  | startFailed (cause : IoFault)
  | reader (stream : Stream) (event : Reader.Event)
  | exited (ending : Ending)
  | waitFailed (cause : IoFault)
  | killed (fault : Option IoFault)
  | noticed (why : Interruption)
  | noticedDrained
  | noticedGrace
  | looked (stream : Stream)
  deriving DecidableEq, Repr

/-- The failure to start a child: a tool that is not there has a kind of its
own. -/
def startFailure (tool : Tool) (cause : IoFault) : RunFailure :=
  if cause = .system .noEntry then .toolNotFound tool.path
  else .startFailed tool.path cause

/-- The outcome of a child that ended by itself, once both readers have come
to their end. -/
def ownOutcome (ending : Ending) (readers : Readers) :
    Except RunFailure Unit → Outcome
  | .error failure => .error failure
  | .ok () => ending.outcome readers.output

/-- What a run has to show of the child's output: for each stream what it has
seen in the capture, or else what is in it now. -/
def output (v : Invocation) : Output where
  stdout := v.seen.stdout.getD v.readers.output.stdout
  stderr := v.seen.stderr.getD v.readers.output.stderr

/-- The failure of a run that was interrupted. -/
def interruption (v : Invocation) (reading : Nat) : Interruption → RunFailure
  | .cancelled => .cancelled v.output
  | .timedOut => .timedOut (Clock.wholeMillis (v.elapsedAt reading)) v.output

/-- Ends a run. -/
def finish (v : Invocation) (outcome : Outcome) : Invocation :=
  { v with phase := .finished outcome }

/-- Asks the readers to stop. -/
def abort (v : Invocation) : Invocation :=
  { v with readers := v.readers.askToStop }

/-- Goes on to look at the captures, without waiting for the readers. -/
def leave (v : Invocation) (why : Interruption) (readAt : Option Nat) :
    Invocation :=
  { v.abort with phase := .leaving why readAt }

/-- Looks at the capture of a stream. -/
def look (v : Invocation) (stream : Stream) : Invocation :=
  let text := (v.readers.get stream).capture.text
  { v with seen := v.seen.set stream (some text) }

/-- Ends a run that was interrupted. -/
def stop (v : Invocation) (why : Interruption) (reading : Nat) : Invocation :=
  v.finish (.error (v.interruption reading why))

/-- Starts the child: from here on readers are at work. -/
def attach (v : Invocation) : Invocation :=
  match Readers.start v.launch.setup v.options.captureBytes with
  | .ok readers => { v with readers := readers, phase := .running }
  | .error failure => v.finish (.error failure)

/-- Lets a reader take an event. -/
def withReader (v : Invocation) (stream : Stream) (event : Reader.Event) :
    Option Invocation :=
  if v.isReading then
    ((v.readers.get stream).step event).map fun reader =>
      { v with readers := v.readers.set stream reader }
  else none

/-- Takes an event, if it can happen now. While the child runs, an
interruption has it killed first; after its end nothing is left to wait for,
and the time that is reported is that of the notice. -/
def step (v : Invocation) : Event → Option Invocation
  | .cancelRequested =>
    if v.isOver then none else some { v with cancelRequested := true }
  | .timePassed nanos =>
    if v.isOver then none else some { v with clock := v.clock + nanos }
  | .started =>
    match v.phase with
    | .starting => some v.attach
    | _ => none
  | .startFailed cause =>
    match v.phase with
    | .starting =>
      some (v.finish (.error (startFailure v.launch.tool cause)))
    | _ => none
  | .reader stream event => v.withReader stream event
  | .exited ending =>
    match v.phase with
    | .running => some { v with phase := .draining ending }
    | _ => none
  | .waitFailed cause =>
    match v.phase with
    | .running => some { v with phase := .discarding cause }
    | _ => none
  | .killed _ =>
    match v.phase with
    | .stopping why =>
      let grace := v.options.killGraceMs * Clock.nanosPerMilli
      some { v with phase := .flushing why (v.clock + grace) }
    | .discarding cause => some (v.abort.finish (.error (.waitFailed cause)))
    | _ => none
  | .noticed why =>
    if v.isDue why then
      match v.phase with
      | .running => some { v with phase := .stopping why }
      | .draining _ => some (v.leave why (some v.clock))
      | _ => none
    else none
  | .noticedDrained =>
    match v.readers.result? with
    | none => none
    | some result =>
      match v.phase with
      | .draining ending =>
        some (v.finish (ownOutcome ending v.readers result))
      | .flushing why _ => some (v.stop why v.clock)
      | _ => none
  | .noticedGrace =>
    match v.phase with
    | .flushing why graceEnd =>
      if graceEnd ≤ v.clock then some (v.leave why none) else none
    | _ => none
  | .looked stream =>
    match v.phase with
    | .leaving why readAt =>
      match stream, v.seen.stdout with
      | .stdout, none => some (v.look .stdout)
      | .stderr, some _ =>
        some ((v.look .stderr).stop why (readAt.getD v.clock))
      | _, _ => none
    | _ => none

/-- Takes events one after the other, if each can happen in its turn. -/
def run (v : Invocation) (events : List Event) : Option Invocation :=
  events.foldlM step v

end Invocation

end Toolrun
