/-
The integrity of what a run keeps of its child's output. For each stream, what
was written is what has been read, and then what is still in the pipe
(`Traced.written_eq`); what has been read is what has gone into the capture of
that very stream, and then the chunk that its reader has in hand; and the
capture holds the head of what has gone into it. So bytes are only ever
underway: between the pipe and the capture none is lost, and none is doubled
or changes places.

A run that leaves its readers behind shows what the captures hold when it looks
at them, and at that moment a reader may have a chunk in hand. No more than
that is missing, and nothing at all once the reader has come to its end
(`Invocation.ShownBut`).

The session says where bytes come from and the record of the run where they
go; the two meet in `bytesRead`, which both speak of.

Where the child ended by itself there is more to say. A stream ends only when
its pipe is drained (`Sealed`), and without the ends of both streams there is
no such outcome; so the output is that of all that was ever written, and not
just of what happened to be read (`whole_output`).
-/
import Toolrun.Proofs.Invocation.Outcome
import Toolrun.Session

namespace Toolrun

namespace Pipes

/-- Opening a pipe puts nothing into it. -/
theorem unread_opened (p : Pipes) (stream : Stream) :
    (p.opened.get stream).unread = (p.get stream).unread := by
  cases stream <;> rfl

end Pipes

namespace Pipe

/-- A pipe that nothing comes out of any more. -/
structure IsDrained (p : Pipe) : Prop where
  empty : p.unread = []
  closed : p.isOpen = false

/-- A stream ends when its pipe is drained. -/
theorem isDrained_of_ended {p p' : Pipe} (h : p.after? .ended = some p') :
    p'.IsDrained := by
  simp only [after?] at h
  split at h
  next hdrained =>
    injection h with hp
    rw [Bool.and_eq_true, List.isEmpty_iff, Bool.not_eq_true'] at hdrained
    exact hp ▸ ⟨hdrained.1, hdrained.2⟩
  next => cases h

/-- A pipe that is drained stays so. -/
theorem IsDrained.after {p p' : Pipe} {event : Reader.Event}
    (h : p.IsDrained) (hafter : p.after? event = some p') :
    p'.IsDrained := by
  cases event with
  | read bytes =>
      simp only [after?] at hafter
      split at hafter
      next hhead =>
        injection hafter with hp
        refine hp ▸ ⟨?_, h.closed⟩
        show p.unread.drop bytes.length = []
        rw [h.empty, List.drop_nil]
      next => cases hafter
  | ended => exact isDrained_of_ended hafter
  | _ =>
      injection hafter with hp
      exact hp ▸ h

/-- A pipe gives its bytes in order: what an event brings comes off the head
of what there was to read. -/
theorem unread_eq {p p' : Pipe} {event : Reader.Event}
    (h : p.after? event = some p') : p.unread = event.bytes ++ p'.unread := by
  cases event with
  | read bytes =>
      simp only [after?] at h
      split at h
      next hhead =>
        injection h with hp
        obtain ⟨rest, hrest⟩ := List.isPrefixOf_iff_prefix.1 hhead
        rw [← hp]
        show p.unread = bytes ++ p.unread.drop bytes.length
        rw [← hrest, List.drop_left]
      next => cases h
  | ended =>
      simp only [after?] at h
      split at h
      next =>
        injection h with hp
        rw [← hp]
        rfl
      next => cases h
  | _ =>
      injection h with hp
      rw [← hp]
      rfl

end Pipe

namespace Session

-- ================================================================ records

/-- What an event of a session is for the run in it. -/
def Event.inRun? : Event → Option Invocation.Event
  | .inRun event => some event
  | _ => none

/-- What an event writes to a stream. -/
def Event.written (stream : Stream) : Event → Bytes
  | .wrote other bytes => if other = stream then bytes else []
  | _ => []

/-- The events of the run in a session, in order. -/
def inRun (events : List Event) : List Invocation.Event :=
  events.filterMap Event.inRun?

/-- All bytes that are written to a stream, in order. -/
def bytesWritten (stream : Stream) (events : List Event) : Bytes :=
  events.flatMap (Event.written stream)

/-- All bytes that are read from a stream, in order. -/
def bytesRead (stream : Stream) (events : List Event) : Bytes :=
  Invocation.bytesRead stream (inRun events)

/-- All bytes of a stream that go into its capture, in order. -/
def bytesHanded (stream : Stream) (events : List Event) : Bytes :=
  Invocation.bytesHanded stream (inRun events)

/-- The bytes of a stream that have gone into its capture when the run looks at
it, or at the end of all. -/
def bytesShown (stream : Stream) (events : List Event) : Bytes :=
  Invocation.bytesShown stream (inRun events)

variable {l : Launch} {e : Entry} {events : List Event}
  {event : Event} {s t : Session}

theorem inRun_append (first second : List Event) :
    inRun (first ++ second) = inRun first ++ inRun second :=
  List.filterMap_append

theorem bytesWritten_append (stream : Stream) (first second : List Event) :
    bytesWritten stream (first ++ second)
      = bytesWritten stream first ++ bytesWritten stream second :=
  List.flatMap_append

theorem bytesRead_append (stream : Stream) (first second : List Event) :
    bytesRead stream (first ++ second)
      = bytesRead stream first ++ bytesRead stream second := by
  unfold bytesRead
  rw [inRun_append, Invocation.bytesRead_append]

-- ================================================================ the step

/-- An event of the run is one that the run takes, and what it reads comes off
the pipes. -/
theorem stepRun_eq {event : Invocation.Event} (h : s.stepRun event = some t) :
    s.invocation.step event = some t.invocation
      ∧ ∀ stream, (s.pipes.get stream).unread
          = Invocation.bytesRead stream [event]
            ++ (t.pipes.get stream).unread := by
  obtain ⟨v, hstep, h⟩ := Option.bind_eq_some_iff.1 h
  cases event with
  | started =>
      injection h with ht
      subst ht
      exact ⟨hstep, fun stream => (Pipes.unread_opened s.pipes stream).symm⟩
  | reader stream reading =>
      obtain ⟨pipe, hpipe, h⟩ := Option.bind_eq_some_iff.1 h
      injection h with ht
      subst ht
      refine ⟨hstep, fun other => ?_⟩
      unfold Invocation.bytesRead
      by_cases hother : other = stream
      · subst hother
        rw [PerStream.get_set_self, Pipe.unread_eq hpipe,
          Invocation.eventsOn_reader_self]
        simp only [Reader.bytesOf, List.flatMap_cons, List.flatMap_nil,
          List.append_nil]
      · rw [PerStream.get_set_of_ne _ hother,
          Invocation.eventsOn_reader_of_ne hother]
        rfl
  | _ =>
      injection h with ht
      subst ht
      exact ⟨hstep, fun _ => rfl⟩

/-- A session with its events: what happens in the run is a run, and for each
stream the bytes that were written and not read are in the pipe. -/
structure Traced (l : Launch) (e : Entry) (events : List Event)
    (s : Session) : Prop where
  run_eq : (Invocation.begin l e).run (inRun events) = some s.invocation
  written_eq : ∀ stream, bytesWritten stream events
    = bytesRead stream events ++ (s.pipes.get stream).unread

/-- An event outside the run moves bytes into a pipe, or none at all. -/
theorem Traced.outside (h : Traced l e events s) {pipes : Pipes}
    (hinRun : inRun [event] = [])
    (hpipes : ∀ stream, (pipes.get stream).unread
      = (s.pipes.get stream).unread ++ bytesWritten stream [event]) :
    Traced l e (events ++ [event]) { s with pipes := pipes } where
  run_eq := by
    rw [inRun_append, hinRun, List.append_nil]
    exact h.run_eq
  written_eq := fun stream => by
    have hread : bytesRead stream [event] = [] := by
      unfold bytesRead
      rw [hinRun]
      rfl
    rw [bytesWritten_append, bytesRead_append, hread, List.append_nil,
      h.written_eq stream, List.append_assoc]
    exact congrArg _ (hpipes stream).symm

/-- Every event is traced. -/
theorem Traced.step (h : Traced l e events s) (hstep : s.step event = some t) :
    Traced l e (events ++ [event]) t := by
  cases event with
  | wrote stream bytes =>
      simp only [Session.step] at hstep
      split at hstep
      next hopen =>
        injection hstep with ht
        subst ht
        refine h.outside rfl fun other => ?_
        by_cases hother : other = stream
        · subst hother
          rw [PerStream.get_set_self]
          simp [bytesWritten, Event.written]
        · rw [PerStream.get_set_of_ne _ hother]
          simp [bytesWritten, Event.written, Ne.symm hother]
      next => cases hstep
  | closed stream =>
      simp only [Session.step] at hstep
      split at hstep
      next hopen =>
        injection hstep with ht
        subst ht
        refine h.outside rfl fun other => ?_
        show _ = _ ++ []
        rw [List.append_nil]
        by_cases hother : other = stream
        · subst hother
          rw [PerStream.get_set_self]
        · rw [PerStream.get_set_of_ne _ hother]
      next => cases hstep
  | inRun event =>
      -- what the run reads now has been in the pipe, at its head
      obtain ⟨hmove, hpipes⟩ := stepRun_eq hstep
      refine ⟨?_, fun stream => ?_⟩
      · rw [inRun_append]
        exact Runs.append_eq_some.2
          ⟨s.invocation, h.run_eq, (Runs.singleton _ event).trans hmove⟩
      · have hwritten : bytesWritten stream [.inRun event] = [] := rfl
        have hread : bytesRead stream [.inRun event]
            = Invocation.bytesRead stream [event] := rfl
        rw [bytesWritten_append, bytesRead_append, h.written_eq stream,
          hpipes stream, hwritten, hread, List.append_nil, List.append_assoc]

/-- Every run of a session is traced. -/
theorem traced_run (hrun : (begin l e).run events = some s) :
    Traced l e events s :=
  Runs.induction (P := Traced l e)
    ⟨rfl, fun stream => by cases stream <;> rfl⟩
    (fun _ h hstep => h.step hstep) hrun

-- ============================================================ whole streams

/-- A reader that has seen the end of its stream has left nothing in the pipe,
and nothing will come into it any more. -/
def Sealed (s : Session) : Prop :=
  ∀ stream, (s.invocation.readers.get stream).state = .ended →
    (s.pipes.get stream).IsDrained

/-- What moves in the run keeps the pipes sealed. -/
theorem Sealed.stepRun {event : Invocation.Event} (h : Sealed s)
    (hstep : s.stepRun event = some t) : Sealed t := by
  obtain ⟨v, hmove, hstep⟩ := Option.bind_eq_some_iff.1 hstep
  have hcases (stream : Stream) :=
    @Invocation.Step.ended_cases _ _ _ stream (Invocation.step_iff.1 hmove)
  cases event with
  | started =>
      injection hstep with ht
      subst ht
      intro stream hended
      -- the pipes are opened, but the readers are new
      cases Invocation.step_iff.1 hmove with
      | start hphase =>
          have hfresh : ((Readers.fresh _).get stream).state = .ended := hended
          rw [Readers.get_fresh] at hfresh
          cases hfresh
  | reader stream reading =>
      obtain ⟨pipe, hpipe, hstep⟩ := Option.bind_eq_some_iff.1 hstep
      injection hstep with ht
      subst ht
      intro other hended
      by_cases hother : other = stream
      · subst hother
        show ((s.pipes.set other pipe).get other).IsDrained
        rw [PerStream.get_set_self]
        rcases hcases _ hended with hbefore | hnow
        · exact (h other hbefore).after hpipe
        · injection hnow with _ hreading
          subst hreading
          exact Pipe.isDrained_of_ended hpipe
      · show ((s.pipes.set stream pipe).get other).IsDrained
        rw [PerStream.get_set_of_ne _ hother]
        rcases hcases _ hended with hbefore | hnow
        · exact h other hbefore
        · injection hnow with hstream
          exact absurd hstream.symm hother
  | _ =>
      injection hstep with ht
      subst ht
      intro stream hended
      rcases hcases _ hended with hbefore | hnow
      · exact h stream hbefore
      · cases hnow

/-- Pipes stay sealed. -/
theorem Sealed.step (h : Sealed s) (hstep : s.step event = some t) :
    Sealed t := by
  -- who can still write has an open pipe, and a sealed one is not open
  have hopen {stream : Stream} (pipe : Pipe)
      (hopen : (s.pipes.get stream).isOpen = true) :
      Sealed { s with pipes := s.pipes.set stream pipe } := by
    intro other hended
    have hdrained := h other hended
    show ((s.pipes.set stream pipe).get other).IsDrained
    by_cases hother : other = stream
    · subst hother
      rw [hdrained.closed] at hopen
      cases hopen
    · rw [PerStream.get_set_of_ne _ hother]
      exact hdrained
  cases event with
  | wrote stream bytes =>
      simp only [Session.step] at hstep
      split at hstep
      next hwriter =>
        injection hstep with ht
        exact ht ▸ hopen _ hwriter
      next => cases hstep
  | closed stream =>
      simp only [Session.step] at hstep
      split at hstep
      next hwriter =>
        injection hstep with ht
        exact ht ▸ hopen _ hwriter
      next => cases hstep
  | inRun event => exact h.stepRun hstep

/-- In every session, whoever has seen the end of a stream has handed over all
that was written to it. -/
theorem bytesHanded_eq_of_ended (hrun : (begin l e).run events = some s)
    {stream : Stream}
    (hended : (s.invocation.readers.get stream).state = .ended) :
    bytesHanded stream events = bytesWritten stream events := by
  have hsealed : Sealed s := by
    refine Runs.induction (P := fun _ => Sealed) ?_
      (fun _ h hstep => h.step hstep) hrun
    intro stream hended
    cases stream <;> cases hended
  have htraced := traced_run hrun
  have hlog := ((Invocation.recorded_run htraced.run_eq).readers stream).log
  have hread : bytesRead stream events = bytesHanded stream events ++ _ :=
    hlog.bytesOf_eq
  rw [hlog.held_eq_nil (.inl hended), List.append_nil] at hread
  rw [htraced.written_eq stream, (hsealed stream hended).empty,
    List.append_nil, hread]

/-- Nothing that a child has written is missing where it ended by itself: the
output is, for each stream, the text of the head of all that was ever written
to it. -/
theorem whole_output (hrun : (begin l e).run events = some s)
    {outcome : Outcome} {output : Output}
    (houtcome : s.invocation.outcome? = some outcome)
    (hown : outcome = .ok output
      ∨ ∃ code, outcome = .error (.unsuccessful code output))
    (stream : Stream) :
    output.get stream
      = Utf8.decodeLossy
          ((bytesWritten stream events).take l.options.captureBytes) := by
  have h := Invocation.recorded_run (traced_run hrun).run_eq
  obtain ⟨hresult, houtput⟩ :=
    (Invocation.closed_of_outcome? h houtcome).own hown
  have hended := Readers.ended_of_result? hresult stream
  rw [← bytesHanded_eq_of_ended hrun hended, houtput]
  exact h.captures_get stream

-- ============================================================== the result

end Session

end Toolrun
