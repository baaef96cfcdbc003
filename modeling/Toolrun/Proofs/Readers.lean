/-
What a reader has done, read off the events it has taken. It takes a chunk and
hands it over, again and again, until an event brings it to its end; its state
says which, and what it has in hand is the chunk between the two steps (`Log`).
All that it has handed over is in its capture, and its own count agrees with
the capture's (`logged_run`). What it has read beyond that is at most the one
chunk in hand, and who has come to an end in good order has none.

The converse, that a reader accepts what a stream has to give, is `run_feed`:
any chunks of lawful size, and then the end of the stream.
-/
import Toolrun.Proofs.Capture
import Toolrun.Proofs.Runs
import Toolrun.Readers

namespace Toolrun

namespace Reader

-- ================================================================== events

/-- The bytes that an event brings. -/
def Event.bytes : Event → Bytes
  | .read bytes => bytes
  | _ => []

/-- The bytes that go into the capture by an event. -/
def Event.handed : Event → Bytes
  | .pushed bytes => bytes
  | _ => []

/-- Whether an event is the failure of a reader. -/
def Event.isFailure : Event → Bool
  | .failed _ => true
  | .crashed _ => true
  | _ => false

/-- Whether an event is an end in good order, of the stream or of the reading:
all but a breakdown. -/
def Event.isEnd : Event → Bool
  | .ended => true
  | .failed _ => true
  | .stopped => true
  | _ => false

/-- All that some events bring, in order. -/
def bytesOf (events : List Event) : Bytes := events.flatMap Event.bytes

/-- All that goes into the capture by some events, in order. -/
def handedOf (events : List Event) : Bytes := events.flatMap Event.handed

/-- Whether a read may bring these bytes. -/
def IsChunk (bytes : Bytes) : Prop := bytes ≠ [] ∧ bytes.length ≤ chunkLimit

/-- Chunks that are read and handed over, one after the other. -/
def passes (chunks : List Bytes) : List Event :=
  chunks.flatMap fun chunk => [.read chunk, .pushed chunk]

theorem mem_passes {chunks : List Bytes} {event : Event} :
    event ∈ passes chunks
      ↔ ∃ chunk ∈ chunks, event = .read chunk ∨ event = .pushed chunk := by
  simp [passes]

theorem passes_concat (chunks : List Bytes) (chunk : Bytes) :
    passes (chunks ++ [chunk])
      = passes chunks ++ [.read chunk] ++ [.pushed chunk] := by
  simp [passes]

/-- What several events bring is joined. -/
theorem bytesOf_append (first second : List Event) :
    bytesOf (first ++ second) = bytesOf first ++ bytesOf second :=
  List.flatMap_append

theorem handedOf_append (first second : List Event) :
    handedOf (first ++ second) = handedOf first ++ handedOf second :=
  List.flatMap_append

theorem bytesOf_concat (events : List Event) (event : Event) :
    bytesOf (events ++ [event]) = bytesOf events ++ event.bytes := by
  rw [bytesOf_append]
  exact congrArg _ (List.append_nil _)

theorem handedOf_concat (events : List Event) (event : Event) :
    handedOf (events ++ [event]) = handedOf events ++ event.handed := by
  rw [handedOf_append]
  exact congrArg _ (List.append_nil _)

/-- Chunks that pass are brought, and go into the capture. -/
theorem bytesOf_passes (chunks : List Bytes) :
    bytesOf (passes chunks) = chunks.flatten := by
  induction chunks with
  | nil => rfl
  | cons chunk chunks ih =>
      show chunk ++ ([] ++ bytesOf (passes chunks)) = _
      rw [ih]
      rfl

theorem handedOf_passes (chunks : List Bytes) :
    handedOf (passes chunks) = chunks.flatten := by
  induction chunks with
  | nil => rfl
  | cons chunk chunks ih =>
      show [] ++ (chunk ++ handedOf (passes chunks)) = _
      rw [ih]
      rfl

-- =================================================================== rules

/-- What a reader that goes on makes of an event, one rule for each. -/
inductive Takes (r : Reader) : Event → Reader → Prop where
  | read {bytes : Bytes} (hfree : r.held = []) (hchunk : IsChunk bytes) :
      Takes r (.read bytes) { r with held := bytes }
  | push {bytes : Bytes} (hheld : r.held = bytes) (hne : bytes ≠ []) :
      Takes r (.pushed bytes)
        { r with
          capture := r.capture.push bytes
          held := []
          passed := r.passed + bytes.length }
  | finish (hfree : r.held = []) :
      Takes r .ended { r with state := .ended }
  | fail {cause : IoFault} (hfree : r.held = []) :
      Takes r (.failed cause) { r with state := .failed cause }
  | crash {reason : String} :
      Takes r (.crashed reason) { r with state := .failed (.other reason) }
  | stop (hasked : r.asked = true) (hfree : r.held = []) :
      Takes r .stopped { r with state := .abandoned }

variable {r r' : Reader} {event : Event} {stream : Stream} {limit : Nat}
  {events : List Event} {chunks : List Bytes} {state : ReaderState}
  {held bytes : Bytes}

theorem Takes.take_eq (h : Takes r event r') : r.take event = some r' := by
  cases h with
  | read hfree hchunk => simp [take, hfree, hchunk.1, hchunk.2]
  | push hheld hne => simp [take, hheld, hne]
  | finish hfree => simp [take, hfree]
  | fail hfree => simp [take, hfree]
  | crash => rfl
  | stop hasked hfree => simp [take, hasked, hfree]

theorem Takes.of_take (h : r.take event = some r') : Takes r event r' := by
  cases event with
  | read bytes =>
      obtain ⟨⟨⟨hne, hlength⟩, hfree⟩, rfl⟩ : ((bytes ≠ [] ∧
          bytes.length ≤ chunkLimit) ∧ r.held = []) ∧ _ = r' := by
        simpa [take] using h
      exact .read hfree ⟨hne, hlength⟩
  | pushed bytes =>
      obtain ⟨⟨hne, hheld⟩, rfl⟩ : (bytes ≠ [] ∧ bytes = r.held) ∧ _ = r' := by
        simpa [take] using h
      exact .push hheld.symm hne
  | ended =>
      obtain ⟨hfree, rfl⟩ : r.held = [] ∧ _ = r' := by simpa [take] using h
      exact .finish hfree
  | failed cause =>
      obtain ⟨hfree, rfl⟩ : r.held = [] ∧ _ = r' := by simpa [take] using h
      exact .fail hfree
  | crashed reason =>
      injection h with h
      exact h ▸ .crash
  | stopped =>
      obtain ⟨⟨hasked, hfree⟩, rfl⟩ : (r.asked = true ∧ r.held = [])
          ∧ _ = r' := by simpa [take] using h
      exact .stop hasked hfree

/-- A reader takes events while it goes on, and by these rules. -/
theorem step_iff :
    r.step event = some r' ↔ r.state = .going ∧ Takes r event r' := by
  unfold step
  rw [Option.ite_none_right_eq_some]
  exact and_congr_right fun _ => ⟨Takes.of_take, Takes.take_eq⟩

-- ==================================================================== logs

/-- The events that bring a reader into a state, with these bytes in hand:
chunks that have passed, perhaps one that was read and is still to pass, and
then what the state says. A reader can break down with a chunk in hand. -/
inductive Log : ReaderState → Bytes → List Event → Prop where
  | going (chunks : List Bytes) : Log .going [] (passes chunks)
  | holding (chunks : List Bytes) {bytes : Bytes} (hchunk : IsChunk bytes) :
      Log .going bytes (passes chunks ++ [.read bytes])
  | ended (chunks : List Bytes) : Log .ended [] (passes chunks ++ [.ended])
  | failed (chunks : List Bytes) (cause : IoFault) :
      Log (.failed cause) [] (passes chunks ++ [.failed cause])
  | stopped (chunks : List Bytes) :
      Log .abandoned [] (passes chunks ++ [.stopped])
  | crashed {held : Bytes} {events : List Event}
      (hbefore : Log .going held events) (reason : String) :
      Log (.failed (.other reason)) held (events ++ [.crashed reason])

/-- Who goes on with free hands has let all pass that it has read. -/
theorem Log.eq_passes (h : Log state held events) (hgoing : state = .going)
    (hfree : held = []) : ∃ chunks, events = passes chunks := by
  cases h with
  | going chunks => exact ⟨chunks, rfl⟩
  | holding chunks hchunk => exact absurd hfree hchunk.1
  | ended chunks => cases hgoing
  | failed chunks cause => cases hgoing
  | stopped chunks => cases hgoing
  | crashed hbefore reason => cases hgoing

/-- Who has something in hand has read it last. -/
theorem Log.eq_holding (h : Log state held events) (hgoing : state = .going)
    (hheld : held ≠ []) :
    ∃ chunks, events = passes chunks ++ [.read held] := by
  cases h with
  | going chunks => exact absurd rfl hheld
  | holding chunks hchunk => exact ⟨chunks, rfl⟩
  | ended chunks => cases hgoing
  | failed chunks cause => cases hgoing
  | stopped chunks => cases hgoing
  | crashed hbefore reason => cases hgoing

/-- What has been read has been handed over, or is in hand. -/
theorem Log.bytesOf_eq (h : Log state held events) :
    bytesOf events = handedOf events ++ held := by
  induction h with
  | crashed hbefore reason ih =>
      simp [bytesOf_concat, handedOf_concat, ih, Event.bytes, Event.handed]
  | _ =>
      simp [bytesOf_concat, handedOf_concat, bytesOf_passes, handedOf_passes,
        Event.bytes, Event.handed]

/-- Nobody ever has more in hand than a chunk. -/
theorem Log.held_cases (h : Log state held events) :
    held = [] ∨ IsChunk held := by
  induction h with
  | holding chunks hchunk => exact .inr hchunk
  | crashed hbefore reason ih => exact ih
  | _ => exact .inl rfl

/-- Who has come to an end in good order has nothing in hand. -/
theorem Log.held_eq_nil (h : Log state held events)
    (hstate : state = .ended ∨ state = .abandoned) : held = [] := by
  cases h with
  | ended chunks => rfl
  | stopped chunks => rfl
  | failed chunks cause => rfl
  | going chunks => rfl
  | holding chunks hchunk => rcases hstate with h | h <;> cases h
  | crashed hbefore reason => rcases hstate with h | h <;> cases h

/-- Who goes on has met with no end. -/
theorem Log.ne_end (h : Log .going held events) (hmem : event ∈ events) :
    ¬ event.isEnd = true := by
  have hpassed {chunks : List Bytes} (hmem : event ∈ passes chunks) :
      ¬ event.isEnd = true := by
    obtain ⟨chunk, -, rfl | rfl⟩ := mem_passes.1 hmem
    · exact Bool.false_ne_true
    · exact Bool.false_ne_true
  cases h with
  | going chunks => exact hpassed hmem
  | holding chunks hchunk =>
      rcases List.mem_append.1 hmem with hmem | hmem
      · exact hpassed hmem
      · cases List.mem_singleton.1 hmem
        exact Bool.false_ne_true

/-- Nothing comes after an end in good order, and it finds no chunk in hand. -/
theorem Log.eq_of_isEnd (h : Log state held events) {before : List Event}
    (hbefore : before <+: events)
    (hend : ∃ event ∈ before, event.isEnd = true) :
    before = events ∧ held = [] := by
  obtain ⟨event, hmem, hisEnd⟩ := hend
  -- the end can only be the last event: those before it are none
  have hlast {first : List Event} {last : Event} {bytes : Bytes}
      (hfirst : Log .going bytes first) (hbefore : before <+: first ++ [last]) :
      before = first ++ [last] :=
    (List.prefix_concat_iff.1 hbefore).resolve_right fun hwithin =>
      hfirst.ne_end (hwithin.subset hmem) hisEnd
  have hevent := hbefore.subset hmem
  cases h with
  | going chunks => exact absurd hisEnd ((Log.going chunks).ne_end hevent)
  | holding chunks hchunk =>
      exact absurd hisEnd ((Log.holding chunks hchunk).ne_end hevent)
  | ended chunks => exact ⟨hlast (.going chunks) hbefore, rfl⟩
  | failed chunks cause => exact ⟨hlast (.going chunks) hbefore, rfl⟩
  | stopped chunks => exact ⟨hlast (.going chunks) hbefore, rfl⟩
  | crashed hlog reason =>
      rcases List.mem_append.1 hevent with hevent | hevent
      · exact absurd hisEnd (hlog.ne_end hevent)
      · cases List.mem_singleton.1 hevent
        cases hisEnd

/-- Who has seen the end of a stream has come to its end by that. -/
theorem Log.eq_ended (h : Log state held events) (hended : .ended ∈ events) :
    state = .ended := by
  induction h with
  | ended chunks => rfl
  | crashed hbefore reason ih =>
      cases ih (by simpa using hended)
  | _ => simp [mem_passes] at hended

/-- Who has only read and handed over has not come to an end. -/
theorem Log.unsettled (h : Log state held events)
    (hpasses : ∀ event ∈ events, ∃ bytes,
      event = .read bytes ∨ event = .pushed bytes) : state = .going := by
  cases h with
  | going chunks => rfl
  | holding chunks hchunk => rfl
  | ended chunks => simpa using hpasses .ended
  | failed chunks cause => simpa using hpasses (.failed cause)
  | stopped chunks => simpa using hpasses .stopped
  | crashed hbefore reason => simpa using hpasses (.crashed reason)

/-- A reader of a stream after some events: what it has kept and counted is
what has gone into its capture by these, and its state and what it has in hand
are those they lead to. -/
structure Logged (stream : Stream) (limit : Nat) (events : List Event)
    (r : Reader) : Prop where
  stream_eq : r.stream = stream
  limit_eq : r.capture.limit = limit
  holds : r.capture.Holds (handedOf events)
  passed_eq : r.passed = (handedOf events).length
  log : Log r.state r.held events

/-- A new reader has done nothing. -/
theorem logged_fresh (stream : Stream) (limit : Nat) :
    Logged stream limit [] (fresh stream limit) where
  stream_eq := rfl
  limit_eq := rfl
  holds := Capture.holds_empty limit
  passed_eq := rfl
  log := .going []

/-- An event by which nothing goes into the capture. -/
theorem Logged.move (h : Logged stream limit events r)
    (hhanded : event.handed = []) (hlog : Log state held (events ++ [event])) :
    Logged stream limit (events ++ [event])
      { r with state := state, held := held } := by
  have hsame : handedOf (events ++ [event]) = handedOf events := by
    rw [handedOf_concat, hhanded, List.append_nil]
  exact ⟨h.stream_eq, h.limit_eq, hsame ▸ h.holds, hsame ▸ h.passed_eq, hlog⟩

/-- The chunk in hand goes into the capture. -/
theorem Logged.push (h : Logged stream limit events r)
    (hlog : Log r.state [] (events ++ [.pushed bytes])) :
    Logged stream limit (events ++ [.pushed bytes])
      { r with
        capture := r.capture.push bytes
        held := []
        passed := r.passed + bytes.length } := by
  have hmore : handedOf (events ++ [.pushed bytes])
      = handedOf events ++ bytes := handedOf_concat _ _
  refine ⟨h.stream_eq, h.limit_eq, ?_, ?_, hlog⟩
  · rw [hmore]
    exact h.holds.push bytes
  · rw [hmore, List.length_append, ← h.passed_eq]

/-- One more event, taken by a reader that goes on. -/
theorem Logged.step (h : Logged stream limit events r)
    (hstep : r.step event = some r') :
    Logged stream limit (events ++ [event]) r' := by
  obtain ⟨hgoing, htakes⟩ := step_iff.1 hstep
  have hlog := h.log
  -- with free hands, everything so far has passed
  have hpasses (hfree : r.held = []) : ∃ chunks, events = passes chunks :=
    hlog.eq_passes hgoing hfree
  cases htakes with
  | read hfree hchunk =>
      obtain ⟨chunks, rfl⟩ := hpasses hfree
      refine h.move rfl ?_
      rw [hgoing]
      exact .holding chunks hchunk
  | @push bytes hheld hne =>
      subst hheld
      obtain ⟨chunks, rfl⟩ := hlog.eq_holding hgoing hne
      refine h.push ?_
      rw [hgoing, ← passes_concat]
      exact .going _
  | finish hfree =>
      obtain ⟨chunks, rfl⟩ := hpasses hfree
      exact h.move rfl (hfree ▸ .ended chunks)
  | @fail cause hfree =>
      obtain ⟨chunks, rfl⟩ := hpasses hfree
      exact h.move rfl (hfree ▸ .failed chunks cause)
  | crash => exact h.move rfl (.crashed (hgoing ▸ hlog) _)
  | stop hasked hfree =>
      obtain ⟨chunks, rfl⟩ := hpasses hfree
      exact h.move rfl (hfree ▸ .stopped chunks)

/-- Every run of a new reader is logged. -/
theorem logged_run (hrun : (fresh stream limit).run events = some r) :
    Logged stream limit events r :=
  Runs.induction (P := Logged stream limit) (logged_fresh stream limit)
    (fun _ h hstep => h.step hstep) hrun

/-- A reader comes to the end of its stream by seeing it. -/
theorem ended_of_step (hstep : r.step event = some r')
    (hended : r'.state = .ended) : event = .ended := by
  obtain ⟨hgoing, htakes⟩ := step_iff.1 hstep
  cases htakes with
  | finish hfree => rfl
  | read hfree hchunk => cases hgoing.symm.trans hended
  | push hheld hne => cases hgoing.symm.trans hended
  | fail hfree => cases hended
  | crash => cases hended
  | stop hasked hfree => cases hended

/-- To be asked to stop is no event for a reader. -/
theorem Logged.askToStop (h : Logged stream limit events r) :
    Logged stream limit events r.askToStop :=
  ⟨h.stream_eq, h.limit_eq, h.holds, h.passed_eq, h.log⟩

-- =================================================================== feeds

/-- What a stream has to give to its reader: all of its bytes, cut into
chunks, and then its end. -/
def IsFeed (bytes : Bytes) (events : List Event) : Prop :=
  ∃ chunks : List Bytes, (∀ chunk ∈ chunks, IsChunk chunk)
    ∧ chunks.flatten = bytes ∧ events = passes chunks ++ [.ended]

/-- A reader that goes on with free hands takes any number of chunks, and hands
all of them over. -/
theorem run_passes (hchunks : ∀ chunk ∈ chunks, IsChunk chunk) :
    ∀ {r : Reader}, r.state = .going → r.held = [] →
      r.run (passes chunks) = some
        { r with
          capture := chunks.foldl Capture.push r.capture
          passed := r.passed + chunks.flatten.length } := by
  induction chunks with
  | nil => exact fun _ _ => rfl
  | cons chunk chunks ih =>
      intro r hgoing hfree
      obtain ⟨hchunk, hothers⟩ := List.forall_mem_cons.1 hchunks
      let next : Reader :=
        { r with
          capture := r.capture.push chunk
          passed := r.passed + chunk.length }
      have hread : r.step (.read chunk) = some { r with held := chunk } :=
        step_iff.2 ⟨hgoing, .read hfree hchunk⟩
      have hpush : Reader.step { r with held := chunk } (.pushed chunk)
          = some next := by
        refine step_iff.2 ⟨hgoing, ?_⟩
        have hpushed := Takes.push (r := { r with held := chunk }) rfl hchunk.1
        rwa [show next = { next with held := [] } by rw [← hfree]]
      have hrest := ih hothers (r := next) hgoing hfree
      rw [show next.passed = r.passed + chunk.length from rfl,
        Nat.add_assoc, ← List.length_append, ← List.flatten_cons] at hrest
      exact Runs.cons_eq_some.2 ⟨_, hread,
        Runs.cons_eq_some.2 ⟨next, hpush, hrest⟩⟩

/-- A new reader takes all that a stream has to give, up to its end. -/
theorem run_feed {feed : List Event} (hfeed : IsFeed bytes feed) :
    ∃ r, (fresh stream limit).run feed = some r ∧ r.state = .ended := by
  obtain ⟨chunks, hchunks, -, rfl⟩ := hfeed
  have hpasses := run_passes hchunks (r := fresh stream limit) rfl rfl
  exact ⟨_, Runs.append_eq_some.2 ⟨_, hpasses, rfl⟩, rfl⟩

/-- A reader that has come to its end on what a stream has to give has handed
over all of it: it saw the stream's end, which comes last. -/
theorem ended_of_feed {feed : List Event} (hfeed : IsFeed bytes feed)
    (hbefore : events <+: feed) (hlogged : Logged stream limit events r)
    (hresult : r.result? ≠ none) :
    r.state = .ended ∧ handedOf events = bytes := by
  obtain ⟨chunks, -, rfl, rfl⟩ := hfeed
  rcases List.prefix_concat_iff.1 hbefore with hall | hpasses
  · have hended : Event.ended ∈ events := by
      rw [hall]
      exact List.mem_append_right _ List.mem_cons_self
    refine ⟨hlogged.log.eq_ended hended, ?_⟩
    rw [hall, handedOf_concat, handedOf_passes]
    exact List.append_nil _
  · have hstate := hlogged.log.unsettled fun event hevent => by
      obtain ⟨chunk, -, hchunk⟩ := mem_passes.1 (hpasses.subset hevent)
      exact ⟨chunk, hchunk⟩
    refine absurd ?_ hresult
    unfold result?
    rw [hstate]

-- ================================================================= results

/-- A reader that reports bytes saw the end of its stream. -/
theorem result?_eq_ok {r : Reader} {count : Nat}
    (h : r.result? = some (.ok count)) : r.state = .ended := by
  unfold result? at h
  split at h
  next hstate => exact hstate
  next => cases h
  next => cases h

/-- A reader that reports a failure has failed, and says of which stream. -/
theorem result?_eq_error {r : Reader} {failure : RunFailure}
    (h : r.result? = some (.error failure)) :
    ∃ cause, r.state = .failed cause
      ∧ failure = .streamFailed r.stream cause := by
  unfold result? at h
  split at h
  next => cases h
  next cause hstate =>
    injection h with h
    injection h with h
    exact ⟨cause, hstate, h.symm⟩
  next => cases h

/-- A reader that saw the end of its stream has a result. -/
theorem result?_of_ended {r : Reader} (h : r.state = .ended) :
    r.result? = some (.ok r.passed) := by
  unfold result?
  rw [h]

end Reader

-- ============================================================= both readers

namespace Readers

@[simp] theorem get_fresh (limit : Nat) (stream : Stream) :
    (fresh limit).get stream = .fresh stream limit := by
  cases stream <;> rfl

@[simp] theorem get_askToStop (r : Readers) (stream : Stream) :
    r.askToStop.get stream = (r.get stream).askToStop := by
  cases stream <;> rfl

/-- What is kept of a stream is the text of its reader's capture. -/
theorem get_output (r : Readers) (stream : Stream) :
    r.output.get stream = (r.get stream).capture.text := by
  cases stream <;> rfl

/-- There is a joint result only once each reader has one. -/
theorem result?_ne_none {r : Readers} {result : Except RunFailure Unit}
    (h : r.result? = some result) (stream : Stream) :
    (r.get stream).result? ≠ none := by
  unfold result? at h
  intro hnone
  cases stream with
  | stdout =>
      rw [show r.stdout.result? = none from hnone] at h
      cases h
  | stderr =>
      rw [show r.stderr.result? = none from hnone] at h
      split at h
      · contradiction
      · contradiction
      · contradiction
      · cases h

/-- The joint result is good only if both readers saw the end of their
streams. -/
theorem ended_of_result? {r : Readers} (h : r.result? = some (.ok ()))
    (stream : Stream) : (r.get stream).state = .ended := by
  unfold result? at h
  split at h
  next => cases h
  next => cases h
  next hout herr =>
    cases stream with
    | stdout => exact Reader.result?_eq_ok hout
    | stderr => exact Reader.result?_eq_ok herr
  next => cases h

/-- The joint result is bad only if one of the readers has failed. -/
theorem failed_of_result? {r : Readers} {failure : RunFailure}
    (h : r.result? = some (.error failure)) :
    ∃ stream cause, (r.get stream).state = .failed cause
      ∧ failure = .streamFailed (r.get stream).stream cause := by
  unfold result? at h
  split at h
  next hout herr =>
    injection h with h
    injection h with h
    exact ⟨.stdout, h ▸ Reader.result?_eq_error hout⟩
  next hout herr =>
    injection h with h
    injection h with h
    exact ⟨.stderr, h ▸ Reader.result?_eq_error herr⟩
  next =>
    injection h with h
    cases h
  next => cases h

/-- Two readers that saw the end of their streams have a good joint result. -/
theorem result?_of_ended {r : Readers}
    (h : ∀ stream, (r.get stream).state = .ended) :
    r.result? = some (.ok ()) := by
  have hout := Reader.result?_of_ended (h .stdout)
  have herr := Reader.result?_of_ended (h .stderr)
  unfold result?
  rw [show r.stdout.result? = _ from hout, show r.stderr.result? = _ from herr]

end Readers

end Toolrun
