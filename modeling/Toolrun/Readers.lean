/-
Reading what a child writes. Each of its two streams has a reader, a task of
its own that takes one chunk after the other off the stream's pipe and hands
it to a capture. A reader goes on when its capture is full, so that the child
never has to wait for room; it comes to its end when the stream ends, when a
read fails, or when the task itself breaks down.

Taking a chunk and handing it over are two steps, and others may be at work
between them: a chunk can have left the pipe and not be in the capture yet.

A reader can also be asked to stop. That is a request only, and nobody waits
until it is granted: the reader stops where it would have to wait for more to
read, never with a chunk in hand, and until then it goes on as before.
-/
import Toolrun.Capture
import Toolrun.Launch

namespace Toolrun

-- =============================================================== one reader

/-- How far a reader has come: it goes on, saw the end of its stream, failed,
or has stopped on request. -/
inductive ReaderState where
  | going
  | ended
  | failed (cause : IoFault)
  | abandoned
  deriving DecidableEq, Repr

/-- The reader of a stream, with the chunk it has in hand, what has gone into
its capture, its own count of that, and whether it has been asked to stop. -/
structure Reader where
  stream : Stream
  capture : Capture
  held : Bytes := []
  passed : Nat := 0
  asked : Bool := false
  state : ReaderState := .going

namespace Reader

/-- What a reader can meet with, or do. -/
inductive Event where
  | read (bytes : Bytes)
  | pushed (bytes : Bytes)
  | ended
  | failed (cause : IoFault)
  | crashed (reason : String)
  | stopped
  deriving DecidableEq, Repr

/-- The most bytes that are read at once. -/
def chunkLimit : Nat := 16384

/-- A reader that has read nothing. -/
def fresh (stream : Stream) (limit : Nat) : Reader where
  stream := stream
  capture := .empty limit

/-- What a reader that goes on makes of an event. A read brings at least a
byte and at most a chunk, and only to a reader with free hands; what is pushed
into the capture is the chunk in hand. A reader breaks down anywhere. -/
def take (r : Reader) : Event → Option Reader
  | .read bytes =>
    if bytes.isEmpty || chunkLimit < bytes.length || !r.held.isEmpty then none
    else some { r with held := bytes }
  | .pushed bytes =>
    if bytes.isEmpty || bytes ≠ r.held then none
    else
      some
        { r with
          capture := r.capture.push bytes
          held := []
          passed := r.passed + bytes.length }
  | .ended =>
    if r.held.isEmpty then some { r with state := .ended } else none
  | .failed cause =>
    if r.held.isEmpty then some { r with state := .failed cause } else none
  | .crashed reason => some { r with state := .failed (.other reason) }
  | .stopped =>
    if r.asked && r.held.isEmpty then some { r with state := .abandoned }
    else none

/-- Takes an event, if the reader still goes on. -/
def step (r : Reader) (event : Event) : Option Reader :=
  if r.state = .going then r.take event else none

/-- Takes events one after the other. -/
def run (r : Reader) (events : List Event) : Option Reader :=
  events.foldlM step r

/-- What a reader that has come to its end by itself has to say: how many
bytes have passed, or why it failed. -/
def result? (r : Reader) : Option (Except RunFailure Nat) :=
  match r.state with
  | .ended => some (.ok r.passed)
  | .failed cause => some (.error (.streamFailed r.stream cause))
  | _ => none

/-- Asks a reader to stop. -/
def askToStop (r : Reader) : Reader := { r with asked := true }

end Reader

-- ============================================================= both readers

/-- The readers of the two streams. -/
abbrev Readers := PerStream Reader

namespace Readers

/-- Two readers that have read nothing. -/
def fresh (limit : Nat) : Readers :=
  ⟨.fresh .stdout limit, .fresh .stderr limit⟩

/-- The failure to read a stream of which no end was left to us. -/
def notPiped (stream : Stream) : RunFailure :=
  .streamFailed stream (.other (stream.name ++ " not piped"))

/-- Sets readers to work on what starting a child has left us. -/
def start (c : ChildSetup) (limit : Nat) : Except RunFailure Readers :=
  if !c.leavesEnd .stdout then .error (notPiped .stdout)
  else if !c.leavesEnd .stderr then .error (notPiped .stderr)
  else .ok (fresh limit)

/-- Asks both readers to stop. -/
def askToStop (r : Readers) : Readers :=
  ⟨r.stdout.askToStop, r.stderr.askToStop⟩

/-- What is in both captures. -/
def output (r : Readers) : Output :=
  ⟨r.stdout.capture.text, r.stderr.capture.text⟩

/-- Once both readers have come to their end: whether one has failed, the
output stream's being asked first. -/
def result? (r : Readers) : Option (Except RunFailure Unit) :=
  match r.stdout.result?, r.stderr.result? with
  | some (.error failure), some _ => some (.error failure)
  | some (.ok _), some (.error failure) => some (.error failure)
  | some (.ok _), some (.ok _) => some (.ok ())
  | _, _ => none

end Readers

end Toolrun
