/-
A run together with the pipes that its child writes into. Between the child
and the readers there is, for each stream, a pipe that holds what was written
and has not been read yet; and a pipe stays open until nobody is left that
could write to it, which may well be after the child's own end.

An invocation takes whatever a read is said to bring. In a session a read
brings the next bytes of the pipe, and the end of a stream comes when its pipe
is closed and empty; what a reader does with a chunk it has taken no longer
concerns the pipe. How much a pipe can hold is left open: a writer that has
to wait for room is a writer that writes later.
-/
import Toolrun.Invocation

namespace Toolrun

-- ================================================================== pipes

/-- A pipe: what was written and not read yet, and whether anybody can still
write. -/
structure Pipe where
  unread : Bytes := []
  isOpen : Bool := false
  deriving DecidableEq, Repr

namespace Pipe

/-- What is left of a pipe once its reader has met with an event, if the pipe
allows it. A reader fails for reasons of its own. -/
def after? (p : Pipe) : Reader.Event → Option Pipe
  | .read bytes =>
    if bytes.isPrefixOf p.unread then
      some { p with unread := p.unread.drop bytes.length }
    else none
  | .ended => if p.unread.isEmpty && !p.isOpen then some p else none
  | _ => some p

end Pipe

/-- The pipes of the two streams. -/
abbrev Pipes := PerStream Pipe

namespace Pipes

/-- No pipes yet. -/
def none : Pipes := ⟨{}, {}⟩

/-- Opens both pipes. -/
def opened (p : Pipes) : Pipes where
  stdout := { p.stdout with isOpen := true }
  stderr := { p.stderr with isOpen := true }

end Pipes

-- =============================================================== sessions

/-- A run with the pipes of its child. -/
structure Session where
  invocation : Invocation
  pipes : Pipes

namespace Session

/-- A session before its child is started. -/
def begin (launch : Launch) (entry : Entry) : Session where
  invocation := .begin launch entry
  pipes := .none

/-- What can happen in a session: something is written, the last writer of a
stream goes away, or something happens in the run. -/
inductive Event where
  | wrote (stream : Stream) (bytes : Bytes)
  | closed (stream : Stream)
  | inRun (event : Invocation.Event)
  deriving DecidableEq, Repr

/-- Takes an event of the run. Starting the child opens its pipes; a reader
gets what its own pipe has to give. -/
def stepRun (s : Session) (event : Invocation.Event) : Option Session := do
  let invocation ← s.invocation.step event
  match event with
  | .started => some ⟨invocation, s.pipes.opened⟩
  | .reader stream reading =>
    let pipe ← (s.pipes.get stream).after? reading
    some ⟨invocation, s.pipes.set stream pipe⟩
  | _ => some ⟨invocation, s.pipes⟩

/-- Takes an event, if it can happen now. -/
def step (s : Session) : Event → Option Session
  | .wrote stream bytes =>
    let pipe := s.pipes.get stream
    if pipe.isOpen then
      let filled := { pipe with unread := pipe.unread ++ bytes }
      some { s with pipes := s.pipes.set stream filled }
    else none
  | .closed stream =>
    let pipe := s.pipes.get stream
    if pipe.isOpen then
      some { s with pipes := s.pipes.set stream { pipe with isOpen := false } }
    else none
  | .inRun event => s.stepRun event

/-- Takes events one after the other, if each can happen in its turn. -/
def run (s : Session) (events : List Event) : Option Session :=
  events.foldlM step s

end Session

end Toolrun
