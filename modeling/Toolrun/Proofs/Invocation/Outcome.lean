/-
No outcome without its cause. Whatever the order of events, the outcome that a
run reports is warranted by what happened in it: success needs an admitted
request, a child that ended with success and two streams read to their end; a
timeout needs a deadline that has passed; and so on for each kind of failure
(`Warranted`).

The proof goes by the way in which the run came to its end (`Closed`). Two of
these ways report the readers' result, and there the record of the readers
says what a result stands for; the other ways carry their cause with them.
-/
import Toolrun.Proofs.Invocation.Record

namespace Toolrun

/-- Who has failed has met with a failure. -/
theorem Reader.Log.failure_mem {state : ReaderState} {cause : IoFault}
    {held : Bytes} {events : List Event} (h : Log state held events)
    (hfailed : state = .failed cause) :
    ∃ event ∈ events, event.isFailure = true := by
  cases h with
  | failed chunks cause =>
      exact ⟨_, List.mem_append_right _ List.mem_cons_self, rfl⟩
  | crashed hbefore reason =>
      exact ⟨_, List.mem_append_right _ List.mem_cons_self, rfl⟩
  | going chunks => cases hfailed
  | holding chunks hchunk => cases hfailed
  | stopped chunks => cases hfailed
  | ended chunks => cases hfailed

namespace Invocation

-- ================================================================ warrants

/-- A stream has been read to its end: chunks were read and handed over, then
came the end, and nothing else. -/
def ReadToEnd (stream : Stream) (events : List Event) : Prop :=
  ∃ chunks : List Bytes,
    eventsOn stream events = Reader.passes chunks ++ [.ended]

/-- What must have happened in a run for it to have an outcome. -/
def Warranted (l : Launch) (e : Entry) (events : List Event)
    (v : Invocation) : Outcome → Prop
  | .ok _ =>
      Spawned l e events ∧ endings events = [.exited 0]
        ∧ ∀ stream, ReadToEnd stream events
  | .error (.unsuccessful code _) =>
      Spawned l e events
        ∧ (∃ ending, endings events = [ending] ∧ ending.isSuccess = false
            ∧ code = ending.code?)
        ∧ ∀ stream, ReadToEnd stream events
  | .error (.cancelled _) =>
      e.cancelled = true ∨ .cancelRequested ∈ events
  | .error (.timedOut afterMs _) =>
      ∃ ms, l.options.timeoutMs = some ms
        ∧ e.timedFrom + ms * Clock.nanosPerMilli ≤ v.clock
        ∧ (v.elapsed < UInt64.size * Clock.nanosPerMilli → ms ≤ afterMs)
  | .error (.streamFailed stream _) =>
      ∃ event : Reader.Event, event.isFailure = true
        ∧ .reader stream event ∈ events
  | .error (.waitFailed cause) => .waitFailed cause ∈ events
  | .error (.startFailed _ cause) => .startFailed cause ∈ events
  | .error (.toolNotFound _) => .startFailed (.system .noEntry) ∈ events
  | .error (.badRequest reason) =>
      l.tool.check = .error (.badRequest reason) ∧ events = []

variable {l : Launch} {e : Entry} {events : List Event} {v : Invocation}

/-- What a reader has taken has happened in the run. -/
theorem mem_of_mem_eventsOn {stream : Stream} {event : Reader.Event}
    (h : event ∈ eventsOn stream events) : .reader stream event ∈ events := by
  obtain ⟨source, hmem, hsource⟩ := List.mem_filterMap.1 h
  cases source with
  | reader other reading =>
      simp only [Event.on?] at hsource
      split at hsource
      next hother =>
        injection hsource with hreading
        exact hreading ▸ hother ▸ hmem
      next => cases hsource
  | _ => cases hsource

/-- A reader that saw the end of its stream has read all of it. -/
theorem Recorded.readToEnd (h : Recorded l e events v) {stream : Stream}
    (hended : (v.readers.get stream).state = .ended) :
    ReadToEnd stream events := by
  have hlog := (h.readers stream).log
  rw [hended] at hlog
  generalize heventsOn : eventsOn stream events = taken at hlog
  generalize (v.readers.get stream).held = held at hlog
  cases hlog with
  | ended chunks => exact ⟨chunks, heventsOn⟩

/-- A good result of the readers stands for two streams read to their end; a
child's own ending then warrants its outcome. -/
theorem Recorded.warranted_ending (h : Recorded l e events v)
    {ending : Ending} (hspawned : Spawned l e events)
    (hending : endings events = [ending])
    (hresult : v.readers.result? = some (.ok ())) (output : Output) :
    Warranted l e events v (ending.outcome output) := by
  have hread : ∀ stream, ReadToEnd stream events := fun stream =>
    h.readToEnd (Readers.ended_of_result? hresult stream)
  unfold Ending.outcome
  by_cases hsuccess : ending.isSuccess = true
  · rw [if_pos hsuccess]
    have hzero : ending = .exited 0 := of_decide_eq_true hsuccess
    exact ⟨hspawned, hzero ▸ hending, hread⟩
  · rw [if_neg hsuccess]
    exact ⟨hspawned, ⟨ending, hending, eq_false_of_ne_true hsuccess, rfl⟩,
      hread⟩

/-- A bad result of the readers stands for a failure that one of them has
met with. -/
theorem Recorded.warranted_readers (h : Recorded l e events v)
    {failure : RunFailure}
    (hresult : v.readers.result? = some (.error failure)) :
    Warranted l e events v (.error failure) := by
  obtain ⟨stream, cause, hstate, rfl⟩ := Readers.failed_of_result? hresult
  have hlogged := h.readers stream
  obtain ⟨event, hmem, hfailure⟩ := hlogged.log.failure_mem hstate
  rw [hlogged.stream_eq]
  exact ⟨event, hfailure, mem_of_mem_eventsOn hmem⟩

/-- A deadline that has passed warrants a timeout: since the start, which was
no later than the time the deadline counts from, at least the time limit has
gone by. -/
theorem warranted_timedOut (hlaunch : v.launch = l) (hentry : v.entry = e)
    {reading : Nat} (hdue : WasDue v .timedOut reading) (output : Output) :
    Warranted l e events v
      (.error
        (.timedOut (Clock.wholeMillis (v.elapsedAt reading)) output)) := by
  subst hlaunch hentry
  have hreading := hdue.reading_le
  obtain ⟨ms, htimeout, hpassed⟩ := isOverdue_iff.1 hdue.due
  have hstarted := v.entry.startedAt_le
  refine ⟨ms, htimeout, Nat.le_trans hpassed hreading, fun hfits => ?_⟩
  have hsooner : v.elapsedAt reading ≤ v.elapsed :=
    Nat.sub_le_sub_right hreading _
  refine Clock.le_wholeMillis (Nat.lt_of_le_of_lt hsooner hfits) ?_
  show _ ≤ reading - v.entry.startedAt
  have hpassed : v.entry.timedFrom + ms * Clock.nanosPerMilli ≤ reading :=
    hpassed
  omega

/-- Reason for an interruption warrants the failure it ends in. -/
theorem Recorded.warranted_interruption (h : Recorded l e events v)
    {why : Interruption} {reading : Nat} (hdue : WasDue v why reading) :
    Warranted l e events v (.error (v.interruption reading why)) := by
  cases why with
  | cancelled => exact h.asked hdue.isDue
  | timedOut => exact warranted_timedOut h.launch_eq h.entry_eq hdue _

/-- Whichever way a run came to its end warrants its outcome. -/
theorem Recorded.warranted (h : Recorded l e events v) {outcome : Outcome}
    (houtcome : v.outcome? = some outcome) :
    Warranted l e events v outcome := by
  have hlaunch := h.launch_eq
  have hentry := h.entry_eq
  cases closed_of_outcome? h houtcome with
  | refused hcheck hevents =>
      obtain ⟨reason, rfl⟩ := Tool.badRequest_of_check hcheck
      exact ⟨hlaunch ▸ hcheck, hevents⟩
  | forestalled hcheck hcancelled hevents => exact Or.inl (hentry ▸ hcancelled)
  | @notStarted cause hadmitted hspawns =>
      have hspawn : .startFailed cause ∈ spawns events :=
        hspawns ▸ List.mem_cons_self
      have hfailed : .startFailed cause ∈ events := (List.mem_filter.1 hspawn).1
      -- a tool that is not there is a cause like the others, by another name
      unfold startFailure
      split
      next hcause =>
        rw [hcause] at hfailed
        exact hfailed
      next => exact hfailed
  | @concluded ending result hspawned hending hresult =>
      rw [hlaunch, hentry] at hspawned
      cases result with
      | ok _ => exact h.warranted_ending hspawned hending hresult _
      | error failure => exact h.warranted_readers hresult
  | interrupted hspawned hreaped hdue => exact h.warranted_interruption hdue
  | discarded hspawned hfailed hkilled => exact hfailed

-- =============================================================== beginnings

/-- A request that is refused is over before anything has happened. -/
theorem run_of_refused {failure : RunFailure}
    (hcheck : l.tool.check = .error failure)
    (hrun : (begin l e).run events = some v) :
    v.outcome? = some (.error failure) := by
  have hphase := phase_begin_of_refused (e := e) hcheck
  have hover : (begin l e).isOver = true := by simp [isOver, hphase]
  obtain ⟨-, rfl⟩ := run_of_isOver hover hrun
  simp [outcome?, hphase]

/-- Only a bad request is answered as one, and it always is. -/
theorem badRequest_iff (hrun : (begin l e).run events = some v) :
    (∃ reason, v.outcome? = some (.error (.badRequest reason)))
      ↔ l.tool.check ≠ .ok () := by
  have h := recorded_run hrun
  constructor
  · rintro ⟨reason, houtcome⟩ hcheck
    obtain ⟨hrefused, -⟩ := h.warranted houtcome
    rw [hcheck] at hrefused
    cases hrefused
  · intro hcheck
    cases hcheck' : l.tool.check with
    | ok _ => exact absurd hcheck' hcheck
    | error failure =>
        obtain ⟨reason, rfl⟩ := Tool.badRequest_of_check hcheck'
        exact ⟨reason, run_of_refused hcheck' hrun⟩

/-- On a clock that is early enough in its range, a deadline of any 64-bit
number of milliseconds can be formed. -/
theorem canBeTimed_of_lt {options : RunOptions} {timedFrom : Nat}
    (htimeout : ∀ ms, options.timeoutMs = some ms → ms < UInt64.size)
    (hclock : timedFrom ≤ Clock.limit / 2) :
    canBeTimed options timedFrom = true := by
  unfold canBeTimed
  split
  next ms hms => exact Clock.after?_isSome hclock (htimeout ms hms)
  next => rfl

-- ================================================================ the result

/-- Every outcome is warranted, whatever the order of events: no run reports
a success, a failure of the tool, an interruption or a fault that has not
taken place. Without a time limit there is no timeout; a bad request is
answered as one, and nothing else is; and no run is broken off for its
deadline, if the limit has 64 bits and the clock is in the first half of its
range. -/
theorem outcome_warranted (hrun : (begin l e).run events = some v) :
    (∀ outcome, v.outcome? = some outcome → Warranted l e events v outcome)
      ∧ (l.options.timeoutMs = none → ∀ afterMs output,
          v.outcome? ≠ some (.error (.timedOut afterMs output)))
      ∧ ((∃ reason, v.outcome? = some (.error (.badRequest reason)))
          ↔ l.tool.check ≠ .ok ())
      ∧ ((∀ ms, l.options.timeoutMs = some ms → ms < UInt64.size) →
          e.timedFrom ≤ Clock.limit / 2 → v.phase ≠ .brokenOff) := by
  have h := recorded_run hrun
  refine ⟨fun _ => h.warranted, ?_, badRequest_iff hrun, ?_⟩
  · intro hnone afterMs output houtcome
    obtain ⟨ms, hms, -⟩ := h.warranted houtcome
    rw [hnone] at hms
    cases hms
  · intro htimeout hclock hbroken
    obtain ⟨-, huntimed⟩ := h.shows_at hbroken
    have htimed := canBeTimed_of_lt htimeout hclock
    unfold options at huntimed
    rw [h.launch_eq, h.entry_eq, htimed] at huntimed
    cases huntimed

/-- A run that is noticed to be late after six of its five milliseconds ends
in a timeout, and what warrants it can be named. -/
theorem outcome_warranted_late :
    ∃ (l : Launch) (e : Entry) (events : List Event) (v : Invocation),
      (begin l e).run events = some v
        ∧ v.outcome? = some (.error (.timedOut 6 .none))
        ∧ Warranted l e events v (.error (.timedOut 6 .none)) := by
  let l : Launch := ⟨⟨"lint", "rust"⟩, [], { timeoutMs := some 5 }⟩
  let events : List Event :=
    [.started, .timePassed 6000000, .noticed .timedOut, .killed none,
      .reader .stdout .ended, .reader .stderr .ended, .noticedDrained]
  have hlast : ((begin l {}).run events).bind outcome?
      = some (.error (.timedOut 6 .none)) := by decide
  obtain ⟨v, hrun, hlate⟩ := Option.bind_eq_some_iff.1 hlast
  exact ⟨l, {}, events, v, hrun, hlate, (outcome_warranted hrun).1 _ hlate⟩

end Invocation

end Toolrun
