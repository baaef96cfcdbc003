/-
What has happened in a run, as far as its state shows it. The events of a run
are its record; this file says what the record has to contain for the run to
be where it is.

- Each reader has taken the events of its own stream and no others
  (`Recorded.readers`).
- What has been seen of a capture is what was in it when the run looked, and
  each capture is looked at once (`Recorded.seen`).
- Each phase has its history (`Shows`): who waits for the child has spawned it
  and nothing else, who drains has been told how it ended, who flushes has seen
  a kill come back, and so on.
- A finished run has come to its end in one of six ways (`Closed`), and its
  outcome is the one that belongs to the way.

`recorded_run` is the invariant: every run is recorded. Beside the rules it
needs that reasons for an interruption do not go away again: a token stays
cancelled and the clock never goes back (`isDue_mono`).
-/
import Mathlib.Data.List.Basic
import Mathlib.Data.List.TakeWhile
import Toolrun.Proofs.Invocation.Rules

namespace Toolrun

/-- A tool that is refused is refused as a bad request. -/
theorem Tool.badRequest_of_check {tool : Tool} {failure : RunFailure}
    (h : tool.check = .error failure) :
    ∃ reason, failure = .badRequest reason := by
  unfold check at h
  split at h
  · injection h with h
    exact ⟨_, h.symm⟩
  · split at h
    · injection h with h
      exact ⟨_, h.symm⟩
    · cases h

namespace Invocation

-- ================================================================ records

/-- Whether an event answers a request to spawn the child. -/
def Event.isSpawn : Event → Bool
  | .started => true
  | .startFailed _ => true
  | _ => false

/-- The ending that an event tells of. -/
def Event.ending? : Event → Option Ending
  | .exited ending => some ending
  | _ => none

/-- What an event brings to the reader of a stream. -/
def Event.on? (stream : Stream) : Event → Option Reader.Event
  | .reader other event => if other = stream then some event else none
  | _ => none

/-- The answers to requests to spawn, in order. -/
def spawns (events : List Event) : List Event := events.filter Event.isSpawn

/-- The endings that events tell of, in order. -/
def endings (events : List Event) : List Ending :=
  events.filterMap Event.ending?

/-- What events bring to the reader of a stream, in order. -/
def eventsOn (stream : Stream) (events : List Event) : List Reader.Event :=
  events.filterMap (Event.on? stream)

/-- All bytes that are read from a stream, in order. -/
def bytesRead (stream : Stream) (events : List Event) : Bytes :=
  Reader.bytesOf (eventsOn stream events)

/-- All bytes of a stream that go into its capture, in order. -/
def bytesHanded (stream : Stream) (events : List Event) : Bytes :=
  Reader.handedOf (eventsOn stream events)

/-- The events up to the look at the capture of a stream, or all of them. -/
def beforeLook (stream : Stream) (events : List Event) : List Event :=
  events.takeWhile (· ≠ .looked stream)

/-- The bytes of a stream that have gone into its capture when the run looks at
it, or at the end of all. -/
def bytesShown (stream : Stream) (events : List Event) : Bytes :=
  bytesHanded stream (beforeLook stream events)

/-- What the record shows of a look at the capture of a stream, if the run has
looked. -/
def sight? (limit : Nat) (stream : Stream) (events : List Event) :
    Option String :=
  if .looked stream ∈ events then
    some (Utf8.decodeLossy ((bytesShown stream events).take limit))
  else none

theorem spawns_append (first second : List Event) :
    spawns (first ++ second) = spawns first ++ spawns second :=
  List.filter_append ..

theorem endings_append (first second : List Event) :
    endings (first ++ second) = endings first ++ endings second :=
  List.filterMap_append

theorem eventsOn_append (stream : Stream) (first second : List Event) :
    eventsOn stream (first ++ second)
      = eventsOn stream first ++ eventsOn stream second :=
  List.filterMap_append

theorem bytesRead_append (stream : Stream) (first second : List Event) :
    bytesRead stream (first ++ second)
      = bytesRead stream first ++ bytesRead stream second := by
  unfold bytesRead
  rw [eventsOn_append, Reader.bytesOf_append]

/-- What a reader takes counts for its own stream. -/
theorem eventsOn_reader_self (stream : Stream) (event : Reader.Event) :
    eventsOn stream [.reader stream event] = [event] := by
  simp [eventsOn, Event.on?]

/-- What a reader takes does not count for the other stream. -/
theorem eventsOn_reader_of_ne {stream other : Stream} (hne : other ≠ stream)
    (event : Reader.Event) : eventsOn other [.reader stream event] = [] := by
  simp [eventsOn, Event.on?, hne.symm]

/-- An ending in the record is one that an event tells of. -/
theorem exited_mem {events : List Event} {ending : Ending}
    (h : endings events = [ending]) : .exited ending ∈ events := by
  have hmem : ending ∈ endings events := h ▸ List.mem_cons_self
  obtain ⟨event, hevent, htold⟩ := List.mem_filterMap.1 hmem
  cases event with
  | exited other =>
      injection htold with hother
      exact hother ▸ hevent
  | _ => cases htold

theorem beforeLook_prefix (stream : Stream) (events : List Event) :
    beforeLook stream events <+: events :=
  List.takeWhile_prefix _

/-- Without a look, everything comes before it. -/
theorem beforeLook_of_not_mem {stream : Stream} {events : List Event}
    (h : .looked stream ∉ events) : beforeLook stream events = events :=
  List.takeWhile_eq_self_iff.2 fun event hmem => by
    have hne : event ≠ .looked stream := fun heq => h (heq ▸ hmem)
    simpa using hne

/-- What comes after a look changes nothing before it. -/
theorem beforeLook_append_of_mem {stream : Stream} {events : List Event}
    (h : .looked stream ∈ events) (later : List Event) :
    beforeLook stream (events ++ later) = beforeLook stream events := by
  unfold beforeLook
  induction events with
  | nil => cases h
  | cons event events ih =>
      rw [List.cons_append, List.takeWhile_cons, List.takeWhile_cons]
      split
      next hother =>
        have hne : event ≠ .looked stream := by simpa using hother
        rw [ih ((List.mem_cons.1 h).resolve_left fun heq => hne heq.symm)]
      next => rfl

-- ================================================================= shapes

/-- A request that is let through to the start of a child. -/
structure Admitted (l : Launch) (e : Entry) : Prop where
  valid : l.tool.check = .ok ()
  notCancelled : e.cancelled = false

/-- The child has been spawned, once. -/
structure Spawned (l : Launch) (e : Entry) (events : List Event) : Prop
    extends Admitted l e where
  spawns_eq : spawns events = [.started]

/-- The end of the child was told, or a kill has come back. -/
def Reaped (events : List Event) : Prop :=
  (∃ ending, .exited ending ∈ events) ∨ ∃ fault, .killed fault ∈ events

/-- There was reason for an interruption at some reading of the clock. -/
structure WasDue (v : Invocation) (why : Interruption) (reading : Nat) :
    Prop where
  reading_le : reading ≤ v.clock
  due : ({ v with clock := reading } : Invocation).isDue why = true

/-- The ways in which a run comes to its end, with the outcome of each. -/
inductive Closed (v : Invocation) (events : List Event) : Outcome → Prop where
  | refused {failure : RunFailure}
      (hcheck : v.launch.tool.check = .error failure)
      (hevents : events = []) :
      Closed v events (.error failure)
  | forestalled (hcheck : v.launch.tool.check = .ok ())
      (hcancelled : v.entry.cancelled = true) (hevents : events = []) :
      Closed v events (.error (.cancelled .none))
  | notStarted {cause : IoFault} (hadmitted : Admitted v.launch v.entry)
      (hspawns : spawns events = [.startFailed cause]) :
      Closed v events (.error (startFailure v.launch.tool cause))
  | concluded {ending : Ending} {result : Except RunFailure Unit}
      (hspawned : Spawned v.launch v.entry events)
      (hending : endings events = [ending])
      (hresult : v.readers.result? = some result)
      (hseen : v.seen = ⟨none, none⟩) :
      Closed v events (ownOutcome ending v.readers result)
  | interrupted {why : Interruption} {reading : Nat}
      (hspawned : Spawned v.launch v.entry events) (hreaped : Reaped events)
      (hdue : WasDue v why reading) :
      Closed v events (.error (v.interruption reading why))
  | discarded {cause : IoFault} {fault : Option IoFault}
      (hspawned : Spawned v.launch v.entry events)
      (hfailed : .waitFailed cause ∈ events)
      (hkilled : .killed fault ∈ events) :
      Closed v events (.error (.waitFailed cause))

/-- What the record of a run shows in each phase. -/
def ShowsAt (v : Invocation) (events : List Event) : Phase → Prop
  | .starting =>
      Admitted v.launch v.entry ∧ spawns events = [] ∧ endings events = []
        ∧ ∀ stream, eventsOn stream events = []
  | .running => Spawned v.launch v.entry events ∧ endings events = []
  | .stopping why => Spawned v.launch v.entry events ∧ v.isDue why = true
  | .discarding cause =>
      Spawned v.launch v.entry events ∧ .waitFailed cause ∈ events
  | .draining ending =>
      Spawned v.launch v.entry events ∧ endings events = [ending]
  | .flushing why _ =>
      Spawned v.launch v.entry events ∧ v.isDue why = true
        ∧ ∃ fault, .killed fault ∈ events
  | .leaving why readAt =>
      Spawned v.launch v.entry events ∧ Reaped events ∧ v.isDue why = true
        ∧ ∀ reading, readAt = some reading → WasDue v why reading
  | .finished outcome => Closed v events outcome
  | .brokenOff =>
      events = [] ∧ canBeTimed v.options v.entry.timedFrom = false

/-- What the record of a run shows where the run stands. -/
def Shows (v : Invocation) (events : List Event) : Prop :=
  ShowsAt v events v.phase

/-- What can have been seen of the captures in each phase: who is leaving has
not looked at the second one, and who is not has looked at none. -/
def SeenAt (seen : PerStream (Option String)) : Phase → Prop
  | .leaving _ _ => seen.stderr = none
  | .finished _ => True
  | _ => seen = ⟨none, none⟩

/-- A run of a launch with its record. -/
structure Recorded (l : Launch) (e : Entry) (events : List Event)
    (v : Invocation) : Prop where
  launch_eq : v.launch = l
  entry_eq : v.entry = e
  clock_le : e.timedFrom ≤ v.clock
  asked : v.cancelRequested = true →
    e.cancelled = true ∨ .cancelRequested ∈ events
  readers : ∀ stream, Reader.Logged stream l.options.captureBytes
    (eventsOn stream events) (v.readers.get stream)
  seen : ∀ stream, v.seen.get stream
    = sight? l.options.captureBytes stream events
  looks : SeenAt v.seen v.phase
  shows : Shows v events

-- ============================================================ quiet events

/-- An event that neither starts anything nor tells of an ending. -/
structure Event.IsQuiet (event : Event) : Prop where
  noSpawn : spawns [event] = []
  noEnding : endings [event] = []

theorem Event.IsQuiet.spawns_eq {event : Event} (h : event.IsQuiet)
    (events : List Event) : spawns (events ++ [event]) = spawns events := by
  rw [spawns_append, h.noSpawn, List.append_nil]

theorem Event.IsQuiet.endings_eq {event : Event} (h : event.IsQuiet)
    (events : List Event) : endings (events ++ [event]) = endings events := by
  rw [endings_append, h.noEnding, List.append_nil]

/-- A quiet event leaves the child spawned, once. -/
theorem Spawned.quiet {l : Launch} {e : Entry} {events : List Event}
    {event : Event} (h : Spawned l e events) (hquiet : event.IsQuiet) :
    Spawned l e (events ++ [event]) where
  valid := h.valid
  notCancelled := h.notCancelled
  spawns_eq := (hquiet.spawns_eq events).trans h.spawns_eq

/-- The end of a child is no second start. -/
theorem Spawned.exited {l : Launch} {e : Entry} {events : List Event}
    (h : Spawned l e events) (ending : Ending) :
    Spawned l e (events ++ [.exited ending]) where
  valid := h.valid
  notCancelled := h.notCancelled
  spawns_eq := by
    rw [spawns_append, h.spawns_eq]
    rfl

-- ============================================================== the step

variable {l : Launch} {e : Entry} {events : List Event} {event : Event}
  {v w : Invocation} {why : Interruption} {reading : Nat}

/-- What no move changes, or changes in one direction only. -/
theorem Step.frame (h : Step v event w) :
    w.launch = v.launch ∧ w.entry = v.entry ∧ v.clock ≤ w.clock
      ∧ (v.cancelRequested = true → w.cancelRequested = true)
      ∧ (w.cancelRequested = true →
          v.cancelRequested = true ∨ event = .cancelRequested) := by
  cases h with
  | askCancel hgoes =>
      exact ⟨rfl, rfl, Nat.le_refl _, fun _ => rfl, fun _ => .inr rfl⟩
  | passTime hgoes =>
      exact ⟨rfl, rfl, Nat.le_add_right _ _, fun h => h, .inl⟩
  | _ => exact ⟨rfl, rfl, Nat.le_refl _, fun h => h, .inl⟩

/-- A deadline has passed once the time limit has gone by since the time from
which it counts. -/
theorem isOverdue_iff :
    v.isOverdue = true ↔ ∃ ms, v.options.timeoutMs = some ms
      ∧ v.entry.timedFrom + ms * Clock.nanosPerMilli ≤ v.clock := by
  unfold isOverdue deadline?
  cases v.options.timeoutMs with
  | none => simp
  | some ms => simp

/-- A reason for an interruption does not go away. -/
theorem isDue_mono (hlaunch : w.launch = v.launch) (hentry : w.entry = v.entry)
    (hclock : v.clock ≤ w.clock)
    (hasked : v.cancelRequested = true → w.cancelRequested = true)
    (h : v.isDue why = true) : w.isDue why = true := by
  cases why with
  | cancelled => exact hasked h
  | timedOut =>
      obtain ⟨ms, hms, hpassed⟩ := isOverdue_iff.1 h
      refine isOverdue_iff.2 ⟨ms, ?_, ?_⟩
      · unfold options at hms ⊢
        rw [hlaunch, hms]
      · rw [hentry]
        exact Nat.le_trans hpassed hclock

theorem Step.isDue (h : Step v event w) (hdue : v.isDue why = true) :
    w.isDue why = true := by
  obtain ⟨hlaunch, hentry, hclock, hasked, -⟩ := h.frame
  exact isDue_mono hlaunch hentry hclock hasked hdue

theorem Step.wasDue (h : Step v event w) (hdue : WasDue v why reading) :
    WasDue w why reading := by
  obtain ⟨hlaunch, hentry, hclock, hasked, -⟩ := h.frame
  exact ⟨Nat.le_trans hdue.reading_le hclock,
    isDue_mono (v := { v with clock := reading })
      (w := { w with clock := reading }) hlaunch hentry (Nat.le_refl _) hasked
      hdue.due⟩

theorem wasDue_clock (h : v.isDue why = true) : WasDue v why v.clock :=
  ⟨Nat.le_refl _, h⟩

theorem WasDue.isDue (h : WasDue v why reading) : v.isDue why = true :=
  isDue_mono (v := { v with clock := reading }) rfl rfl h.reading_le
    (fun h => h) h.due

/-- More may happen after the child was reaped. -/
theorem Reaped.append (h : Reaped events) (later : List Event) :
    Reaped (events ++ later) :=
  h.imp (fun ⟨ending, hmem⟩ => ⟨ending, List.mem_append_left _ hmem⟩)
    fun ⟨fault, hmem⟩ => ⟨fault, List.mem_append_left _ hmem⟩

/-- A run that reads has started. -/
theorem ne_starting_of_isReading (h : v.isReading = true) :
    v.phase ≠ .starting := by
  unfold isReading at h
  intro hphase
  rw [hphase] at h
  cases h

/-- A quiet event that changes no phase takes nothing from what the record
shows. -/
theorem Shows.quiet (h : Shows v events) (hstep : Step v event w)
    (hquiet : event.IsQuiet) (hphase : w.phase = v.phase)
    (hreader : v.phase = .starting → ∀ stream, eventsOn stream [event] = []) :
    Shows w (events ++ [event]) := by
  obtain ⟨hlaunch, hentry, -, -, -⟩ := hstep.frame
  have hgoes := hstep.goes
  unfold isOver at hgoes
  unfold Shows at h ⊢
  rw [hphase]
  cases hv : v.phase with
  | starting =>
      rw [hv] at h
      obtain ⟨hadmitted, hspawns, hendings, hevents⟩ := h
      refine ⟨hlaunch ▸ hentry ▸ hadmitted, ?_, ?_, fun stream => ?_⟩
      · rw [hquiet.spawns_eq, hspawns]
      · rw [hquiet.endings_eq, hendings]
      · rw [eventsOn_append, hevents, hreader hv]
        rfl
  | running =>
      rw [hv] at h
      obtain ⟨hspawned, hendings⟩ := h
      refine ⟨hlaunch ▸ hentry ▸ hspawned.quiet hquiet, ?_⟩
      rw [hquiet.endings_eq, hendings]
  | stopping why =>
      rw [hv] at h
      obtain ⟨hspawned, hdue⟩ := h
      exact ⟨hlaunch ▸ hentry ▸ hspawned.quiet hquiet, hstep.isDue hdue⟩
  | discarding cause =>
      rw [hv] at h
      obtain ⟨hspawned, hfailed⟩ := h
      exact ⟨hlaunch ▸ hentry ▸ hspawned.quiet hquiet,
        List.mem_append_left _ hfailed⟩
  | draining ending =>
      rw [hv] at h
      obtain ⟨hspawned, hending⟩ := h
      refine ⟨hlaunch ▸ hentry ▸ hspawned.quiet hquiet, ?_⟩
      rw [hquiet.endings_eq, hending]
  | flushing why graceEnd =>
      rw [hv] at h
      obtain ⟨hspawned, hdue, fault, hkilled⟩ := h
      exact ⟨hlaunch ▸ hentry ▸ hspawned.quiet hquiet, hstep.isDue hdue, fault,
        List.mem_append_left _ hkilled⟩
  | leaving why readAt =>
      rw [hv] at h
      obtain ⟨hspawned, hreaped, hdue, hread⟩ := h
      exact ⟨hlaunch ▸ hentry ▸ hspawned.quiet hquiet, hreaped.append _,
        hstep.isDue hdue, fun reading h => hstep.wasDue (hread reading h)⟩
  | finished outcome =>
      rw [hv] at hgoes
      cases hgoes
  | brokenOff =>
      rw [hv] at hgoes
      cases hgoes

/-- The record of a run that shows where it stands, at a given phase. -/
theorem Recorded.shows_at {phase : Phase} (h : Recorded l e events v)
    (hphase : v.phase = phase) : ShowsAt v events phase :=
  hphase ▸ h.shows

-- ---------------------------------------------------------------- readers

/-- An event that goes to no reader changes no reader's record. -/
theorem Recorded.readers_silent (h : Recorded l e events v)
    (hsilent : ∀ stream, eventsOn stream [event] = []) (stream : Stream) :
    Reader.Logged stream l.options.captureBytes
      (eventsOn stream (events ++ [event])) (v.readers.get stream) := by
  rw [eventsOn_append, hsilent, List.append_nil]
  exact h.readers stream

/-- The same if the readers are asked to stop. -/
theorem Recorded.readers_asked (h : Recorded l e events v)
    (hsilent : ∀ stream, eventsOn stream [event] = []) (stream : Stream) :
    Reader.Logged stream l.options.captureBytes
      (eventsOn stream (events ++ [event]))
      (v.readers.askToStop.get stream) := by
  rw [Readers.get_askToStop]
  exact (h.readers_silent hsilent stream).askToStop

/-- Every move leaves each reader with its record. -/
theorem Recorded.readers_step (h : Recorded l e events v)
    (hstep : Step v event w) (stream : Stream) :
    Reader.Logged stream l.options.captureBytes
      (eventsOn stream (events ++ [event])) (w.readers.get stream) := by
  cases hstep with
  | start hphase =>
      -- the readers are new, but so is their record: nothing was read before
      obtain ⟨-, -, -, hevents⟩ := h.shows_at hphase
      rw [eventsOn_append, hevents, Readers.get_fresh]
      show Reader.Logged stream _ []
        (.fresh stream v.launch.options.captureBytes)
      rw [h.launch_eq]
      exact Reader.logged_fresh stream _
  | @read own taken reader hreading hread =>
      rw [eventsOn_append]
      by_cases hown : stream = own
      · subst hown
        rw [PerStream.get_set_self, eventsOn_reader_self]
        exact (h.readers stream).step hread
      · rw [PerStream.get_set_of_ne _ hown, eventsOn_reader_of_ne hown,
          List.append_nil]
        exact h.readers stream
  | discard hphase => exact h.readers_asked (fun _ => rfl) stream
  | cutShort hdue hphase => exact h.readers_asked (fun _ => rfl) stream
  | expire hphase hgrace => exact h.readers_asked (fun _ => rfl) stream
  | _ => exact h.readers_silent (fun _ => rfl) stream

-- ------------------------------------------------------------------ looks

/-- An event that is no look changes nothing that was seen. -/
theorem Recorded.seen_other (h : Recorded l e events v) (stream : Stream)
    (hother : event ≠ .looked stream) :
    v.seen.get stream
      = sight? l.options.captureBytes stream (events ++ [event]) := by
  rw [h.seen stream]
  unfold sight?
  by_cases hmem : .looked stream ∈ events
  · unfold bytesShown
    rw [if_pos hmem, if_pos (List.mem_append_left _ hmem),
      beforeLook_append_of_mem hmem]
  · have hnone : .looked stream ∉ events ++ [event] := by
      simpa [hmem] using hother.symm
    rw [if_neg hmem, if_neg hnone]

/-- What a look at a capture sees is all that has been handed over. -/
theorem Recorded.seen_look (h : Recorded l e events v) (own : Stream)
    (hfirst : v.seen.get own = none) (stream : Stream) :
    (v.look own).seen.get stream
      = sight? l.options.captureBytes stream (events ++ [.looked own]) := by
  by_cases hown : stream = own
  · subst hown
    have hnone : .looked stream ∉ events := fun hmem => by
      rw [h.seen stream, sight?, if_pos hmem] at hfirst
      cases hfirst
    have hbefore : beforeLook stream (events ++ [.looked stream]) = events := by
      have hself := beforeLook_of_not_mem hnone
      unfold beforeLook at hself ⊢
      rw [List.takeWhile_append, hself]
      simp
    have hlogged := h.readers stream
    rw [sight?, if_pos (List.mem_append_right _ List.mem_cons_self)]
    unfold look bytesShown bytesHanded
    rw [hbefore, PerStream.get_set_self, hlogged.holds.text, hlogged.limit_eq]
  · unfold look
    rw [PerStream.get_set_of_ne _ hown]
    exact h.seen_other stream fun heq => hown (Event.looked.inj heq).symm

/-- Every move leaves on record what was seen. -/
theorem Recorded.seen_step (h : Recorded l e events v) (hstep : Step v event w)
    (stream : Stream) :
    w.seen.get stream
      = sight? l.options.captureBytes stream (events ++ [event]) := by
  cases hstep with
  | lookOut hphase hseen => exact h.seen_look .stdout hseen stream
  | lookErr hphase hseen =>
      have hlooks := h.looks
      rw [hphase] at hlooks
      exact h.seen_look .stderr hlooks stream
  | _ => exact h.seen_other stream fun heq => nomatch heq

theorem Step.looks (h : Step v event w) (hlooks : SeenAt v.seen v.phase) :
    SeenAt w.seen w.phase := by
  have seen {phase : Phase} (hphase : v.phase = phase) : SeenAt v.seen phase :=
    hphase ▸ hlooks
  cases h with
  | askCancel hgoes => exact hlooks
  | passTime hgoes => exact hlooks
  | read hreading hread => exact hlooks
  | start hphase => exact (seen hphase : v.seen = ⟨none, none⟩)
  | exit hphase => exact (seen hphase : v.seen = ⟨none, none⟩)
  | failWait hphase => exact (seen hphase : v.seen = ⟨none, none⟩)
  | kill hphase => exact (seen hphase : v.seen = ⟨none, none⟩)
  | interrupt hdue hphase => exact (seen hphase : v.seen = ⟨none, none⟩)
  | cutShort hdue hphase => exact congrArg PerStream.stderr (seen hphase)
  | expire hphase hgrace => exact congrArg PerStream.stderr (seen hphase)
  | lookOut hphase hseen =>
      have hnone := seen hphase
      show SeenAt _ v.phase
      rw [hphase]
      exact hnone
  | _ => trivial

-- ----------------------------------------------------------------- phases

/-- Every move leaves on record how the run has come to where it stands. -/
theorem Recorded.shows_step (h : Recorded l e events v)
    (hstep : Step v event w) : Shows w (events ++ [event]) := by
  cases id hstep with
  | askCancel hgoes =>
      exact h.shows.quiet hstep ⟨rfl, rfl⟩ rfl fun _ _ => rfl
  | passTime hgoes =>
      exact h.shows.quiet hstep ⟨rfl, rfl⟩ rfl fun _ _ => rfl
  | read hreading hread =>
      exact h.shows.quiet hstep ⟨rfl, rfl⟩ rfl fun hphase =>
        absurd hphase (ne_starting_of_isReading hreading)
  | start hphase =>
      obtain ⟨hadmitted, hspawns, hendings, -⟩ := h.shows_at hphase
      refine ⟨⟨hadmitted, ?_⟩, ?_⟩
      · rw [spawns_append, hspawns]
        rfl
      · rw [endings_append, hendings]
        rfl
  | failStart hphase =>
      obtain ⟨hadmitted, hspawns, -, -⟩ := h.shows_at hphase
      refine Closed.notStarted hadmitted ?_
      rw [spawns_append, hspawns]
      rfl
  | @exit ending hphase =>
      obtain ⟨hspawned, hendings⟩ := h.shows_at hphase
      refine ⟨hspawned.exited ending, ?_⟩
      rw [endings_append, hendings]
      rfl
  | failWait hphase =>
      obtain ⟨hspawned, -⟩ := h.shows_at hphase
      exact ⟨hspawned.quiet ⟨rfl, rfl⟩,
        List.mem_append_right _ List.mem_cons_self⟩
  | @kill why fault hphase =>
      obtain ⟨hspawned, hdue⟩ := h.shows_at hphase
      exact ⟨hspawned.quiet ⟨rfl, rfl⟩, hstep.isDue hdue, fault,
        List.mem_append_right _ List.mem_cons_self⟩
  | discard hphase =>
      obtain ⟨hspawned, hfailed⟩ := h.shows_at hphase
      exact Closed.discarded (hspawned.quiet ⟨rfl, rfl⟩)
        (List.mem_append_left _ hfailed)
        (List.mem_append_right _ List.mem_cons_self)
  | interrupt hdue hphase =>
      obtain ⟨hspawned, -⟩ := h.shows_at hphase
      exact ⟨hspawned.quiet ⟨rfl, rfl⟩, hstep.isDue hdue⟩
  | cutShort hdue hphase =>
      obtain ⟨hspawned, hending⟩ := h.shows_at hphase
      have hreaped : Reaped events := .inl ⟨_, exited_mem hending⟩
      refine ⟨hspawned.quiet ⟨rfl, rfl⟩, hreaped.append _, hstep.isDue hdue,
        fun reading hreading => ?_⟩
      obtain rfl := Option.some.inj hreading
      exact hstep.wasDue (wasDue_clock hdue)
  | conclude hresult hphase =>
      obtain ⟨hspawned, hendings⟩ := h.shows_at hphase
      have hquiet : Event.noticedDrained.IsQuiet := ⟨rfl, rfl⟩
      have hseen := h.looks
      rw [hphase] at hseen
      exact Closed.concluded (hspawned.quiet hquiet)
        ((hquiet.endings_eq _).trans hendings) hresult hseen
  | flush hresult hphase =>
      obtain ⟨hspawned, hdue, hkilled⟩ := h.shows_at hphase
      have hreaped : Reaped events := .inr hkilled
      exact Closed.interrupted (v := v.stop _ _) (hspawned.quiet ⟨rfl, rfl⟩)
        (hreaped.append _) (hstep.wasDue (wasDue_clock hdue))
  | expire hphase hgrace =>
      obtain ⟨hspawned, hdue, hkilled⟩ := h.shows_at hphase
      have hreaped : Reaped events := .inr hkilled
      exact ⟨hspawned.quiet ⟨rfl, rfl⟩, hreaped.append _, hstep.isDue hdue,
        fun reading hreading => nomatch hreading⟩
  | lookOut hphase hseen =>
      have hshows := h.shows.quiet hstep ⟨rfl, rfl⟩ rfl fun _ _ => rfl
      exact hshows
  | @lookErr why readAt text hphase hseen =>
      obtain ⟨hspawned, hreaped, hdue, hread⟩ := h.shows_at hphase
      have hreading : WasDue v why (readAt.getD v.clock) := by
        cases readAt with
        | none => exact wasDue_clock hdue
        | some reading => exact hread reading rfl
      exact Closed.interrupted (v := (v.look .stderr).stop _ _)
        (hspawned.quiet ⟨rfl, rfl⟩) (hreaped.append _)
        (hstep.wasDue hreading)

/-- Every move by the rules is recorded. -/
theorem Recorded.step (h : Recorded l e events v) (hstep : Step v event w) :
    Recorded l e (events ++ [event]) w := by
  obtain ⟨hlaunch, hentry, hclock, -, hasked⟩ := hstep.frame
  constructor
  case launch_eq => exact hlaunch.trans h.launch_eq
  case entry_eq => exact hentry.trans h.entry_eq
  case clock_le => exact Nat.le_trans h.clock_le hclock
  case asked =>
    intro hw
    rcases hasked hw with hv | rfl
    · exact (h.asked hv).imp_right (List.mem_append_left _)
    · exact .inr (List.mem_append_right _ List.mem_cons_self)
  case readers => exact h.readers_step hstep
  case seen => exact h.seen_step hstep
  case looks => exact hstep.looks h.looks
  case shows => exact h.shows_step hstep

-- ================================================================== runs

/-- A run that has just begun is recorded: it is either let through, or over
already, for a reason that lies in the request. -/
theorem recorded_begin (l : Launch) (e : Entry) :
    Recorded l e [] (begin l e) where
  launch_eq := rfl
  entry_eq := rfl
  clock_le := Nat.le_refl _
  asked := Or.inl
  readers := fun stream => by
    show Reader.Logged stream _ [] ((Readers.fresh _).get stream)
    rw [Readers.get_fresh]
    exact Reader.logged_fresh stream _
  seen := fun stream => by cases stream <;> rfl
  looks := by
    show SeenAt ⟨none, none⟩ (begin l e).phase
    cases (begin l e).phase with
    | finished outcome => trivial
    | _ => rfl
  shows := by
    unfold Shows
    cases hcheck : l.tool.check with
    | error failure =>
        rw [phase_begin_of_refused hcheck]
        exact Closed.refused hcheck rfl
    | ok _ =>
        rw [phase_begin_of_valid hcheck]
        by_cases hcancelled : e.cancelled = true
        · simp only [hcancelled, if_true]
          exact Closed.forestalled hcheck hcancelled rfl
        · simp only [hcancelled]
          by_cases htimed : canBeTimed l.options e.timedFrom = true
          · simp only [htimed, if_true]
            exact ⟨⟨hcheck, eq_false_of_ne_true hcancelled⟩, rfl, rfl,
              fun _ => rfl⟩
          · simp only [htimed]
            exact ⟨rfl, eq_false_of_ne_true htimed⟩

/-- Every run is recorded. -/
theorem recorded_run (hrun : (begin l e).run events = some v) :
    Recorded l e events v :=
  Runs.induction (P := Recorded l e) (recorded_begin l e)
    (fun _ h hstep => h.step (step_iff.1 hstep)) hrun

-- ================================================================ results

/-- A run that has an outcome came to its end in one of the ways there are. -/
theorem closed_of_outcome? {outcome : Outcome} (h : Recorded l e events v)
    (houtcome : v.outcome? = some outcome) : Closed v events outcome := by
  unfold outcome? at houtcome
  split at houtcome
  next hphase =>
    injection houtcome with houtcome
    exact houtcome ▸ h.shows_at hphase
  next => cases houtcome

theorem mem_spawns_of_started (hstarted : .started ∈ events) :
    .started ∈ spawns events :=
  List.mem_filter.2 ⟨hstarted, rfl⟩

/-- A run that has spawned its child and has an outcome has made a last move,
which led from a phase after the start to the outcome. -/
theorem exists_last_move (hrun : (begin l e).run events = some v)
    {outcome : Outcome} (houtcome : v.outcome? = some outcome)
    (hstarted : .started ∈ events) :
    ∃ (before : List Event) (event : Event) (u : Invocation),
      events = before ++ [event] ∧ (begin l e).run before = some u
        ∧ Step u event v ∧ u.outcome? = none ∧ u.phase ≠ .starting := by
  obtain rfl | ⟨before, event, rfl⟩ := List.eq_nil_or_concat' events
  · cases hstarted
  · obtain ⟨u, hu, hstep⟩ := Runs.append_eq_some.1 hrun
    rw [Runs.singleton] at hstep
    have hmove := step_iff.1 hstep
    refine ⟨before, event, u, rfl, hu, hmove, hmove.outcome?_eq_none,
      fun hphase => ?_⟩
    -- otherwise the last move is the start itself, and that has no outcome
    obtain ⟨-, hspawns, -, -⟩ := (recorded_run hu).shows_at hphase
    have hmem := mem_spawns_of_started hstarted
    rw [spawns_append, hspawns, List.nil_append] at hmem
    obtain rfl := List.mem_singleton.1 (List.mem_filter.1 hmem).1
    cases hmove with
    | start hphase => cases houtcome

/-- What an outcome brings of the child's output, if anything. -/
def captured? : Outcome → Option Output
  | .ok output => some output
  | .error failure => failure.partialOutput?

/-- A child's own ending brings the output on to its outcome. -/
theorem captured?_outcome (ending : Ending) (output : Output) :
    captured? (ending.outcome output) = some output := by
  unfold Ending.outcome
  split
  · rfl
  · rfl

/-- An interruption brings on what the run has to show. -/
theorem captured?_interruption (v : Invocation) (reading : Nat)
    (why : Interruption) :
    captured? (.error (v.interruption reading why)) = some v.output := by
  cases why <;> rfl

theorem get_output (v : Invocation) (stream : Stream) :
    v.output.get stream
      = (v.seen.get stream).getD (v.readers.output.get stream) := by
  cases stream <;> rfl

/-- Who has not looked at the captures shows what is in them. -/
theorem output_of_unseen (h : v.seen = ⟨none, none⟩) :
    v.output = v.readers.output := by
  unfold output
  rw [h]
  rfl

/-- The output that a run ends with is what it has to show, or none if the run
never got as far. -/
theorem Closed.captured_eq {outcome : Outcome} {output : Output}
    (h : Closed v events outcome) (houtput : captured? outcome = some output) :
    output = v.output ∨ events = [] ∧ output = .none := by
  cases h with
  | @refused failure hcheck hevents =>
      obtain ⟨reason, rfl⟩ := Tool.badRequest_of_check hcheck
      cases houtput
  | forestalled hcheck hcancelled hevents =>
      injection houtput with houtput
      exact Or.inr ⟨hevents, houtput.symm⟩
  | notStarted hadmitted hspawns =>
      unfold startFailure at houtput
      split at houtput
      · cases houtput
      · cases houtput
  | @concluded ending result hspawned hending hresult hseen =>
      cases result with
      | ok _ =>
          rw [show ownOutcome ending v.readers (.ok ())
            = ending.outcome v.readers.output from rfl,
            captured?_outcome] at houtput
          injection houtput with houtput
          exact Or.inl (houtput.symm.trans (output_of_unseen hseen).symm)
      | error failure =>
          obtain ⟨stream, cause, -, rfl⟩ := Readers.failed_of_result? hresult
          cases houtput
  | interrupted hspawned hreaped hdue =>
      rw [captured?_interruption] at houtput
      injection houtput with houtput
      exact Or.inl houtput.symm
  | discarded hspawned hfailed hkilled => cases houtput

/-- A child's own ending is reported once both readers have seen the end of
their streams, with what is in the captures. -/
theorem Closed.own {outcome : Outcome} {output : Output}
    (h : Closed v events outcome)
    (hown : outcome = .ok output
      ∨ ∃ code, outcome = .error (.unsuccessful code output)) :
    v.readers.result? = some (.ok ()) ∧ output = v.readers.output := by
  cases h with
  | refused hcheck hevents =>
      obtain ⟨reason, rfl⟩ := Tool.badRequest_of_check hcheck
      simp at hown
  | forestalled hcheck hcancelled hevents => simp at hown
  | notStarted hadmitted hspawns =>
      unfold startFailure at hown
      split at hown
      · simp at hown
      · simp at hown
  | @concluded ending result hspawned hending hresult hseen =>
      cases result with
      | ok _ =>
          refine ⟨hresult, ?_⟩
          have hcaptured := captured?_outcome ending v.readers.output
          rcases hown with hown | ⟨code, hown⟩
          · rw [show ending.outcome v.readers.output = .ok output from hown]
              at hcaptured
            injection hcaptured
          · rw [show ending.outcome v.readers.output = .error _ from hown]
              at hcaptured
            injection hcaptured
      | error failure =>
          obtain ⟨stream, cause, -, rfl⟩ := Readers.failed_of_result? hresult
          simp [ownOutcome] at hown
  | @interrupted why reading hspawned hreaped hdue =>
      cases why <;> simp [interruption] at hown
  | discarded hspawned hfailed hkilled => simp at hown

/-- What is in the capture of a stream is the text of the head of what has been
handed over. -/
theorem Recorded.captures_get (h : Recorded l e events v) (stream : Stream) :
    v.readers.output.get stream
      = Utf8.decodeLossy
          ((bytesHanded stream events).take l.options.captureBytes) := by
  have hlogged := h.readers stream
  rw [Readers.get_output, hlogged.holds.text, hlogged.limit_eq]
  rfl

/-- What a look finds, against what was read: all of it, but for the chunk that
is in hand at that moment. Once the reader has come to its end in good order
there is none, and no more is read. -/
structure ShownBut (held : Bytes) (stream : Stream) (events : List Event) :
    Prop where
  read_eq : bytesRead stream (beforeLook stream events)
    = bytesShown stream events ++ held
  held_cases : held = [] ∨ Reader.IsChunk held
  whole : (∃ event ∈ eventsOn stream (beforeLook stream events),
      event.isEnd = true) →
    bytesShown stream events = bytesRead stream events

theorem ShownBut.prefix_read {held : Bytes} {stream : Stream}
    (h : ShownBut held stream events) :
    bytesShown stream events <+: bytesRead stream events := by
  obtain ⟨later, hlater⟩ := beforeLook_prefix stream events
  refine List.IsPrefix.trans ⟨held, h.read_eq.symm⟩
    ⟨bytesRead stream later, ?_⟩
  rw [← bytesRead_append, hlater]

/-- In every run no more than a chunk is missing at a look. -/
theorem exists_shownBut (hrun : (begin l e).run events = some v)
    (stream : Stream) : ∃ held, ShownBut held stream events := by
  have hprefix := beforeLook_prefix stream events
  have hbefore : eventsOn stream (beforeLook stream events)
      <+: eventsOn stream events := hprefix.filterMap _
  obtain ⟨later, hlater⟩ := hprefix
  -- what happens up to the look is a run of its own
  have hsplit := hrun
  rw [← hlater] at hsplit
  obtain ⟨u, hu, -⟩ := Runs.append_eq_some.1 hsplit
  have hlog := ((recorded_run hu).readers stream).log
  refine ⟨_, hlog.bytesOf_eq, hlog.held_cases, fun hend => ?_⟩
  obtain ⟨hall, -⟩ :=
    ((recorded_run hrun).readers stream).log.eq_of_isEnd hbefore hend
  obtain ⟨-, hfree⟩ := hlog.eq_of_isEnd (List.prefix_refl _) hend
  have hread := hlog.bytesOf_eq
  rw [hfree, List.append_nil, hall] at hread
  show Reader.handedOf _ = Reader.bytesOf _
  rw [hread, hall]

/-- What a run has to show of a stream is the text of the head of what has been
handed over: up to the look at the capture, once the run has looked. -/
theorem Recorded.output_get (h : Recorded l e events v) (stream : Stream) :
    v.output.get stream
      = Utf8.decodeLossy
          ((bytesShown stream events).take l.options.captureBytes) := by
  rw [get_output, h.seen stream, sight?]
  by_cases hmem : .looked stream ∈ events
  · rw [if_pos hmem]
    rfl
  · unfold bytesShown
    rw [if_neg hmem, beforeLook_of_not_mem hmem]
    exact h.captures_get stream

/-- So is the output that it ends with. -/
theorem Recorded.captured_eq {outcome : Outcome} {output : Output}
    (h : Recorded l e events v) (houtcome : v.outcome? = some outcome)
    (houtput : captured? outcome = some output) (stream : Stream) :
    output.get stream
      = Utf8.decodeLossy
          ((bytesShown stream events).take l.options.captureBytes) := by
  rcases (closed_of_outcome? h houtcome).captured_eq houtput with
    rfl | ⟨rfl, rfl⟩
  · exact h.output_get stream
  · show Output.none.get stream = Utf8.decodeLossy (([] : Bytes).take _)
    rw [List.take_nil]
    cases stream <;> rfl

end Invocation

end Toolrun
