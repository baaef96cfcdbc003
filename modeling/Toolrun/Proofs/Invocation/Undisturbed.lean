/-
An undisturbed run has one outcome, however it is scheduled. If a child is
started, nobody cancels, the deadline is not reached and nothing fails, then
the outcome depends on how the child ended, on what it wrote and on the limit
of the captures. It does not depend on the chunks that are read, on the order
in which the two streams are read and end, nor on when the end of the child is
noticed among all that.

There are two halves to this. Such a schedule can always be carried out, and
after it the run comes to its outcome (`run_ready`): the child's end and the
two readers each take their own events and do not stand in each other's way.
And wherever on the way something is noticed that ends the run, the outcome is
the one outcome (`concluded_eq`): a reader comes to an end only by the end of
its stream, and that comes after all bytes.
-/
import Toolrun.Proofs.Invocation.Record

namespace Toolrun.Invocation

-- =============================================================== schedules

/-- Whether an event is one of the ordinary course of things, once a child is
started. -/
def Event.isOrdinary : Event → Bool
  | .timePassed _ => true
  | .reader _ _ => true
  | .exited _ => true
  | _ => false

/-- Whether an event is something that the run notices, or looks at, by
itself. -/
def Event.isNotice : Event → Bool
  | .noticed _ => true
  | .noticedDrained => true
  | .noticedGrace => true
  | .looked _ => true
  | _ => false

/-- The time that passes by an event. -/
def Event.nanos : Event → Nat
  | .timePassed nanos => nanos
  | _ => 0

/-- The time that passes over some events. -/
def timeTaken : List Event → Nat
  | [] => 0
  | event :: events => event.nanos + timeTaken events

/-- A schedule of an undisturbed run: after some time the child starts; then,
in any order, both streams are read in any chunks and up to their ends, each
chunk being handed over before the next is read, the child ends, and time
passes, but not up to the deadline. -/
structure Undisturbed (l : Launch) (e : Entry) (out err : Bytes)
    (ending : Ending) (events : List Event) : Prop
    extends Admitted l e where
  timed : canBeTimed l.options e.timedFrom = true
  course : ∃ (delays : List Nat) (rest : List Event),
    events = delays.map .timePassed ++ .started :: rest
      ∧ ∀ event ∈ rest, event.isOrdinary = true
  ends : endings events = [ending]
  outFeed : Reader.IsFeed out (eventsOn .stdout events)
  errFeed : Reader.IsFeed err (eventsOn .stderr events)
  inTime : ∀ ms, l.options.timeoutMs = some ms →
    timeTaken events < ms * Clock.nanosPerMilli

/-- The one outcome of an undisturbed run: by the child's ending, with the
text of the head of each stream. -/
def undisturbedOutcome (l : Launch) (out err : Bytes) (ending : Ending) :
    Outcome :=
  ending.outcome
    { stdout := Utf8.decodeLossy (out.take l.options.captureBytes)
      stderr := Utf8.decodeLossy (err.take l.options.captureBytes) }

variable {l : Launch} {e : Entry} {out err : Bytes} {ending : Ending}
  {events before rest : List Event} {event : Event} {v w : Invocation}

/-- What a schedule has to give to the reader of a stream. -/
theorem Undisturbed.feed (h : Undisturbed l e out err ending events)
    (stream : Stream) :
    ∃ bytes, Reader.IsFeed bytes (eventsOn stream events) := by
  cases stream with
  | stdout => exact ⟨out, h.outFeed⟩
  | stderr => exact ⟨err, h.errFeed⟩

/-- On the way nothing is noticed, and nothing happens that should not. -/
theorem Undisturbed.mem_cases (h : Undisturbed l e out err ending events)
    (hmem : event ∈ events) : event = .started ∨ event.isOrdinary = true := by
  obtain ⟨delays, rest, rfl, hrest⟩ := h.course
  rcases List.mem_append.1 hmem with hdelay | hlater
  · obtain ⟨nanos, -, rfl⟩ := List.mem_map.1 hdelay
    exact Or.inr rfl
  · rcases List.mem_cons.1 hlater with hstart | hrest'
    · exact Or.inl hstart
    · exact Or.inr (hrest event hrest')

-- ================================================================ progress

/-- A run that has started its child, and what is still to come in it: the end
of the child, unless it has ended, and for each reader what brings it to the
end of its stream. -/
structure Ready (v : Invocation) (rest : List Event) (ending : Ending) :
    Prop where
  ordinary : ∀ event ∈ rest, event.isOrdinary = true
  child : v.phase = .running ∧ endings rest = [ending]
    ∨ v.phase = .draining ending ∧ endings rest = []
  readers : ∀ stream, ∃ r,
    (v.readers.get stream).run (eventsOn stream rest) = some r
      ∧ r.state = .ended

/-- Who is ready is reading. -/
theorem Ready.isReading (h : Ready v rest ending) : v.isReading = true := by
  unfold Invocation.isReading
  rcases h.child with ⟨hphase, -⟩ | ⟨hphase, -⟩
  · rw [hphase]
  · rw [hphase]

/-- The next event can happen, and leaves the run ready for the others. -/
theorem Ready.step (h : Ready v (event :: rest) ending) :
    ∃ w, v.step event = some w ∧ Ready w rest ending := by
  have hordinary : ∀ event ∈ rest, event.isOrdinary = true :=
    fun event hmem => h.ordinary event (List.mem_cons_of_mem _ hmem)
  cases event with
  | timePassed nanos =>
      exact ⟨_, (Step.passTime (not_isOver_of_isReading h.isReading)).step_eq,
        hordinary, h.child, h.readers⟩
  | exited other =>
      rcases h.child with ⟨hphase, hends⟩ | ⟨-, hends⟩
      · obtain ⟨rfl, hrest⟩ : other = ending ∧ endings rest = [] :=
          List.cons.inj hends
        exact ⟨_, (Step.exit hphase).step_eq, hordinary,
          Or.inr ⟨rfl, hrest⟩, h.readers⟩
      · cases hends
  | reader stream reading =>
      have hself : eventsOn stream (.reader stream reading :: rest)
          = reading :: eventsOn stream rest := by
        simp [eventsOn, Event.on?]
      obtain ⟨r, hrun, hended⟩ := h.readers stream
      rw [hself] at hrun
      obtain ⟨next, hnext, hrun⟩ := Runs.cons_eq_some.1 hrun
      refine ⟨_, (Step.read h.isReading hnext).step_eq, hordinary, h.child,
        fun other => ?_⟩
      by_cases hother : other = stream
      · subst hother
        rw [PerStream.get_set_self]
        exact ⟨r, hrun, hended⟩
      · have hsame : eventsOn other (.reader stream reading :: rest)
            = eventsOn other rest := by
          simp [eventsOn, Event.on?, Ne.symm hother]
        obtain ⟨r, hrun, hended⟩ := h.readers other
        rw [hsame] at hrun
        rw [PerStream.get_set_of_ne _ hother]
        exact ⟨r, hrun, hended⟩
  | _ => cases h.ordinary _ List.mem_cons_self

/-- All that is to come can happen. -/
theorem run_ready : ∀ {rest : List Event} {v : Invocation},
    Ready v rest ending → ∃ w, v.run rest = some w ∧ Ready w [] ending := by
  intro rest
  induction rest with
  | nil =>
      intro v h
      exact ⟨v, rfl, h⟩
  | cons event rest ih =>
      intro v h
      obtain ⟨next, hstep, hnext⟩ := h.step
      obtain ⟨w, hrun, hw⟩ := ih hnext
      exact ⟨w, Runs.cons_eq_some.2 ⟨next, hstep, hrun⟩, hw⟩

/-- When nothing is left to come, both streams have come to their ends. -/
theorem Ready.ended (h : Ready w [] ending) (stream : Stream) :
    (w.readers.get stream).state = .ended := by
  obtain ⟨r, hrun, hended⟩ := h.readers stream
  injection hrun with hr
  exact hr ▸ hended

/-- When nothing is left to come, the run can conclude. -/
theorem Ready.conclude (h : Ready w [] ending) :
    ∃ u, w.step .noticedDrained = some u := by
  rcases h.child with ⟨-, hends⟩ | ⟨hphase, -⟩
  · cases hends
  · exact ⟨_, (Step.conclude (Readers.result?_of_ended h.ended)
      hphase).step_eq⟩

/-- Time may pass before the child is started. -/
theorem run_delays : ∀ (delays : List Nat) {v : Invocation},
    v.phase = .starting →
      ∃ w, v.run (delays.map .timePassed) = some w ∧ w.phase = .starting := by
  intro delays
  induction delays with
  | nil =>
      intro v hphase
      exact ⟨v, rfl, hphase⟩
  | cons nanos delays ih =>
      intro v hphase
      have hgoes : v.isOver = false := by
        unfold isOver
        rw [hphase]
      have hstep : v.step (.timePassed nanos)
          = some { v with clock := v.clock + nanos } :=
        (Step.passTime hgoes).step_eq
      obtain ⟨w, hrun, hw⟩ :=
        ih (v := { v with clock := v.clock + nanos }) hphase
      exact ⟨w, Runs.cons_eq_some.2 ⟨_, hstep, hrun⟩, hw⟩

/-- Before the child has started a schedule tells of no ending. -/
theorem endings_course (delays : List Nat) (rest : List Event) :
    endings (delays.map .timePassed ++ .started :: rest) = endings rest := by
  induction delays with
  | nil => rfl
  | cons nanos delays ih => exact ih

/-- Before the child has started there is nothing to read. -/
theorem eventsOn_course (stream : Stream) (delays : List Nat)
    (rest : List Event) :
    eventsOn stream (delays.map .timePassed ++ .started :: rest)
      = eventsOn stream rest := by
  induction delays with
  | nil => rfl
  | cons nanos delays ih => exact ih

/-- A request that is let through, with a deadline that can be formed, is
about to start its child. -/
theorem phase_begin (hadmitted : Admitted l e)
    (htimed : canBeTimed l.options e.timedFrom = true) :
    (begin l e).phase = .starting := by
  rw [phase_begin_of_valid hadmitted.valid, hadmitted.notCancelled, htimed]
  rfl

/-- Every schedule of an undisturbed run can be carried out, and then the run
can conclude. -/
theorem Undisturbed.progress (h : Undisturbed l e out err ending events) :
    ∃ w, (begin l e).run events = some w ∧ Ready w [] ending := by
  obtain ⟨delays, rest, rfl, hordinary⟩ := h.course
  have hbegin := phase_begin h.toAdmitted h.timed
  obtain ⟨v, hdelays, hphase⟩ := run_delays delays hbegin
  have hstart := (Step.start hphase).step_eq
  have hready : Ready
      { v with
        readers := .fresh v.options.captureBytes
        phase := .running } rest ending := by
    refine ⟨hordinary, Or.inl ⟨rfl, ?_⟩, fun stream => ?_⟩
    · rw [← endings_course delays rest]
      exact h.ends
    · obtain ⟨bytes, hfeed⟩ := h.feed stream
      rw [eventsOn_course] at hfeed
      rw [Readers.get_fresh]
      exact Reader.run_feed hfeed
  obtain ⟨w, hrest, hw⟩ := run_ready hready
  refine ⟨w, Runs.append_eq_some.2 ⟨v, hdelays, ?_⟩, hw⟩
  exact Runs.cons_eq_some.2 ⟨_, hstart, hrest⟩

-- ============================================================== the outcome

theorem timeTaken_append (first second : List Event) :
    timeTaken (first ++ second) = timeTaken first + timeTaken second := by
  induction first with
  | nil => exact (Nat.zero_add _).symm
  | cons event first ih =>
      show event.nanos + timeTaken (first ++ second)
        = event.nanos + timeTaken first + timeTaken second
      rw [ih]
      omega

/-- The clock shows what time has passed. -/
theorem Step.clock_eq (h : Step v event w) :
    w.clock = v.clock + event.nanos := by
  cases h <;> rfl

/-- After a run the clock shows all the time that has passed. -/
theorem clock_eq (hrun : (begin l e).run events = some v) :
    v.clock = e.timedFrom + timeTaken events := by
  refine Runs.induction (P := fun events (v : Invocation) =>
    v.clock = e.timedFrom + timeTaken events) rfl ?_ hrun
  intro events s event t _ hclock hstep
  have hpassed : timeTaken [event] = event.nanos := Nat.add_zero _
  rw [(step_iff.1 hstep).clock_eq, hclock, timeTaken_append, hpassed]
  omega

/-- On the way nothing is due. -/
theorem Undisturbed.not_isDue (h : Undisturbed l e out err ending events)
    (hbefore : before <+: events) (hrun : (begin l e).run before = some v)
    (why : Interruption) : v.isDue why ≠ true := by
  have hrecorded := recorded_run hrun
  intro hdue
  cases why with
  | cancelled =>
      rcases hrecorded.asked hdue with hcancelled | hasked
      · rw [h.notCancelled] at hcancelled
        cases hcancelled
      · rcases h.mem_cases (hbefore.subset hasked) with hstart | hordinary
        · cases hstart
        · cases hordinary
  | timedOut =>
      obtain ⟨after, rfl⟩ := hbefore
      obtain ⟨ms, hms, hpassed⟩ := isOverdue_iff.1 hdue
      unfold options at hms
      rw [hrecorded.launch_eq] at hms
      rw [hrecorded.entry_eq] at hpassed
      have hinTime := h.inTime ms hms
      rw [timeTaken_append] at hinTime
      rw [clock_eq hrun] at hpassed
      omega

/-- A run that drains, and whose readers have come to their end, has the one
outcome: its readers have seen the ends of their streams, and so all of them. -/
theorem Undisturbed.concluded_eq (h : Undisturbed l e out err ending events)
    (hbefore : before <+: events) (hrun : (begin l e).run before = some v)
    {other : Ending} {result : Except RunFailure Unit}
    (hphase : v.phase = .draining other)
    (hresult : v.readers.result? = some result) :
    ownOutcome other v.readers result
      = undisturbedOutcome l out err ending := by
  have hrecorded := recorded_run hrun
  -- a result of both readers is one of each, and so the end of each stream
  have hread : ∀ stream bytes,
      Reader.IsFeed bytes (eventsOn stream events) →
        (v.readers.get stream).state = .ended
          ∧ bytesHanded stream before = bytes := by
    intro stream bytes hfeed
    exact Reader.ended_of_feed hfeed (hbefore.filterMap _)
      (hrecorded.readers stream) (Readers.result?_ne_none hresult stream)
  have hends : endings before <+: endings events := hbefore.filterMap _
  obtain ⟨-, hending⟩ := hrecorded.shows_at hphase
  rw [hending, h.ends] at hends
  obtain rfl : other = ending := by
    obtain ⟨after, hafter⟩ := hends
    exact (List.cons.inj hafter).1
  have hgood : v.readers.result? = some (.ok ()) := by
    refine Readers.result?_of_ended fun stream => ?_
    obtain ⟨bytes, hfeed⟩ := h.feed stream
    exact (hread stream bytes hfeed).1
  rw [hgood] at hresult
  injection hresult with hresult
  subst hresult
  have hout := hrecorded.captures_get .stdout
  have herr := hrecorded.captures_get .stderr
  rw [(hread .stdout out h.outFeed).2] at hout
  rw [(hread .stderr err h.errFeed).2] at herr
  show other.outcome ⟨v.readers.output.get .stdout,
    v.readers.output.get .stderr⟩ = _
  rw [hout, herr]
  rfl

/-- Whatever is noticed on the way ends the run with the one outcome. -/
theorem Undisturbed.outcome_of_notice
    (h : Undisturbed l e out err ending events) (hbefore : before <+: events)
    (hrun : (begin l e).run before = some v) {notice : Event}
    (hnotice : notice.isNotice = true) (hstep : v.step notice = some w) :
    w.outcome? = some (undisturbedOutcome l out err ending) := by
  have hnoKill : ∀ {why graceEnd}, v.phase ≠ .flushing why graceEnd := by
    intro why graceEnd hphase
    obtain ⟨-, -, fault, hkilled⟩ := (recorded_run hrun).shows_at hphase
    rcases h.mem_cases (hbefore.subset hkilled) with hstart | hordinary
    · cases hstart
    · cases hordinary
  have hnoLeaving : ∀ {why readAt}, v.phase ≠ .leaving why readAt := by
    intro why readAt hphase
    obtain ⟨-, -, hdue, -⟩ := (recorded_run hrun).shows_at hphase
    exact h.not_isDue hbefore hrun why hdue
  cases Step.of_step hstep with
  | interrupt hdue => exact absurd hdue (h.not_isDue hbefore hrun _)
  | cutShort hdue => exact absurd hdue (h.not_isDue hbefore hrun _)
  | flush hresult hphase => exact absurd hphase hnoKill
  | expire hphase => exact absurd hphase hnoKill
  | lookOut hphase => exact absurd hphase hnoLeaving
  | lookErr hphase => exact absurd hphase hnoLeaving
  | conclude hresult hphase =>
      rw [← h.concluded_eq hbefore hrun hphase hresult]
      rfl
  | _ => cases hnotice

/-- Until something is noticed there is no outcome. -/
theorem Undisturbed.no_outcome (h : Undisturbed l e out err ending events)
    (hbefore : before <+: events) (hrun : (begin l e).run before = some v) :
    v.outcome? = none := by
  obtain ⟨after, rfl⟩ := hbefore
  obtain ⟨w, hall, hready⟩ := h.progress
  obtain ⟨v', hrun', hafter⟩ := Runs.append_eq_some.1 hall
  obtain rfl : v = v' := Option.some.inj (hrun.symm.trans hrun')
  cases houtcome : v.outcome? with
  | none => rfl
  | some outcome =>
      have hover : v.isOver = true := by
        unfold outcome? at houtcome
        unfold isOver
        split at houtcome
        next hphase => rw [hphase]
        next => cases houtcome
      -- nothing can come after it, but the schedule leads to a run that reads
      obtain ⟨-, rfl⟩ := run_of_isOver hover hafter
      rw [not_isOver_of_isReading hready.isReading] at hover
      cases hover

-- ================================================================ the result

/-- An undisturbed run has one outcome, whatever its schedule. The schedule can
be carried out, and when it has been, the run concludes with that outcome; up
to then there is no other outcome, and whatever the run notices on the way
ends it with the same. -/
theorem undisturbed_outcome (h : Undisturbed l e out err ending events) :
    (∃ v, (begin l e).run (events ++ [.noticedDrained]) = some v
        ∧ v.outcome? = some (undisturbedOutcome l out err ending))
      ∧ ∀ before, before <+: events →
          (∀ v, (begin l e).run before = some v → v.outcome? = none)
            ∧ ∀ notice v, notice.isNotice = true →
                (begin l e).run (before ++ [notice]) = some v →
                v.outcome? = some (undisturbedOutcome l out err ending) := by
  refine ⟨?_, fun before hbefore => ⟨fun v => h.no_outcome hbefore, ?_⟩⟩
  · obtain ⟨v, hrun, hready⟩ := h.progress
    obtain ⟨w, hstep⟩ := hready.conclude
    refine ⟨w, Runs.append_eq_some.2 ⟨v, hrun, ?_⟩, ?_⟩
    · exact (Runs.singleton v Event.noticedDrained).trans hstep
    · exact h.outcome_of_notice (List.prefix_refl events) hrun rfl hstep
  · intro notice w hnotice hrun
    obtain ⟨v, hbefore', hstep⟩ := Runs.append_eq_some.1 hrun
    rw [Runs.singleton] at hstep
    exact h.outcome_of_notice hbefore hbefore' hnotice hstep

/-- A tool that fails after it has written more than is kept of it: the end of
the child is noticed between the reads. -/
theorem undisturbed_outcome_unsuccessful :
    ∃ (l : Launch) (events : List Event) (v : Invocation),
      (begin l {}).run (events ++ [.noticedDrained]) = some v
        ∧ v.outcome? = some (.error (.unsuccessful (some 3) ⟨"hi", "!"⟩)) := by
  let l : Launch :=
    ⟨⟨"lint", "rust"⟩, [], { timeoutMs := some 1, captureBytes := 2 }⟩
  let events : List Event :=
    [.timePassed 10, .started, .reader .stdout (.read [104]),
      .exited (.exited 3), .reader .stderr (.read [33]),
      .reader .stdout (.pushed [104]), .timePassed 20,
      .reader .stdout (.read [105, 63]), .reader .stderr (.pushed [33]),
      .reader .stderr .ended, .reader .stdout (.pushed [105, 63]),
      .reader .stdout .ended]
  have hundisturbed :
      Undisturbed l {} [104, 105, 63] [33] (.exited 3) events := by
    refine ⟨⟨by decide, rfl⟩, by decide, ⟨[10], events.drop 2, rfl, ?_⟩, rfl,
      ⟨[[104], [105, 63]], ?_, rfl, rfl⟩, ⟨[[33]], ?_, rfl, rfl⟩, ?_⟩
    · decide
    · unfold Reader.IsChunk
      decide
    · unfold Reader.IsChunk
      decide
    · intro ms hms
      injection hms with hms
      subst hms
      decide
  obtain ⟨⟨v, hrun, houtcome⟩, -⟩ := undisturbed_outcome hundisturbed
  exact ⟨l, events, v, hrun, houtcome⟩

end Toolrun.Invocation
