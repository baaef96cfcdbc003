/-
The output that comes with a failure. A run that fails after its child was
spawned has output to show for it: what the captures held when it looked at
them. Most failures bring it on, and every report of them shows it. Two do not:
a failure to wait for the child, and a failure to read one of its streams, even
if the readers have kept something and the other stream is sound.

So there is a rule that is kept (`partialOutput_of_started`), with the
exception that the run has lost sight of its child (`losesSight`). Losing sight
is a matter of the events alone. A failed wait decides a run at once, for
nothing is noticed after it; a failed read is only asked about when the child
has ended and no interruption has been noticed, for an interrupted run does
not care how its readers ended. `TurnedAt` is the invariant behind that: where
a run stands shows which of these turns it has taken.
-/
import Toolrun.Proofs.Invocation.Outcome
import Toolrun.Proofs.Report
import Toolrun.Proofs.Session

namespace Toolrun

/-- Who has read a stream to its end has met with no failure. -/
theorem Reader.Log.isFailure_eq_false {state : ReaderState} {held : Bytes}
    {events : List Event} (h : Log state held events)
    (hended : state = .ended) : ∀ event ∈ events, event.isFailure = false := by
  cases h with
  | ended chunks =>
      intro event hmem
      rcases List.mem_append.1 hmem with hpassed | hlast
      · obtain ⟨chunk, -, rfl | rfl⟩ := mem_passes.1 hpassed
        · rfl
        · rfl
      · rw [List.mem_singleton.1 hlast]
        rfl
  | going chunks => cases hended
  | holding chunks hchunk => cases hended
  | stopped chunks => cases hended
  | failed chunks cause => cases hended
  | crashed hbefore reason => cases hended

-- ================================================================== reports

namespace Report

/-- What has been written to the two streams shows an output. In text the
output stream has its part and nothing else, and the error stream begins with
the other part; in JSON both are members of the one line. -/
def ShowsOutput : Format → Sinks → Output → Prop
  | .text, sinks, output =>
      sinks.out.taken = Utf8.encode output.stdout
        ∧ Utf8.encode output.stderr <+: sinks.err.taken
  | .json, sinks, output =>
      ∃ members, Json.read sinks.out.taken = .ok (.object members)
        ∧ textOf? "stdout" members = some output.stdout
        ∧ textOf? "stderr" members = some output.stderr

/-- A report of a failure shows the output that comes with it. -/
theorem shows_partialOutput (format : Format) {failure : RunFailure}
    {output : Output} (houtput : failure.partialOutput? = some output) :
    ∃ sinks, deliver {} (pieces format (.error failure)) = (sinks, .ok ())
      ∧ ShowsOutput format sinks output := by
  refine ⟨_, deliver_unbounded _ [] [], ?_⟩
  cases format with
  | text =>
      constructor
      · simp [pieces, textPieces, forwarded, Pieces.on, houtput]
      · simp [pieces, textPieces, forwarded, Pieces.on, houtput]
  | json =>
      have hbreak : ∀ b ∈ [0x0A], Json.Reader.isSpace b = true :=
        List.forall_mem_singleton.2 rfl
      obtain ⟨members, hread, -, -, -, hout, herr⟩ :=
        read_report (.error failure) hbreak
      rw [houtput] at hout herr
      refine ⟨members, ?_, hout, herr⟩
      rw [← hread]
      simp [pieces, jsonPieces, Pieces.on]

end Report

namespace Invocation

variable {l : Launch} {e : Entry} {events : List Event} {event : Event}
  {v w : Invocation}

-- ==================================================================== turns

/-- Whether an event is the notice of an interruption. -/
def Event.isInterrupt : Event → Bool
  | .noticed _ => true
  | _ => false

/-- Whether an event is the failure to wait for the child. -/
def Event.isWaitFailure : Event → Bool
  | .waitFailed _ => true
  | _ => false

/-- Whether an event is the failure to read a stream. -/
def Event.isReadFailure : Event → Bool
  | .reader _ event => event.isFailure
  | _ => false

/-- Whether a run loses sight of its child: the child cannot be waited for, or
a stream of it cannot be read and no interruption is noticed. -/
def losesSight (events : List Event) : Bool :=
  events.any Event.isWaitFailure
    || (!events.any Event.isInterrupt && events.any Event.isReadFailure)

/-- What the record of a run has, in each phase, of interruptions that were
noticed and of failures to wait. -/
def TurnedAt (events : List Event) : Phase → Prop
  | .stopping _ =>
      events.any Event.isInterrupt = true
        ∧ events.any Event.isWaitFailure = false
  | .flushing _ _ =>
      events.any Event.isInterrupt = true
        ∧ events.any Event.isWaitFailure = false
  | .leaving _ _ =>
      events.any Event.isInterrupt = true
        ∧ events.any Event.isWaitFailure = false
  | .discarding _ => events.any Event.isWaitFailure = true
  | .finished _ => True
  | _ =>
      events.any Event.isInterrupt = false
        ∧ events.any Event.isWaitFailure = false

/-- Any other event is no turn. -/
theorem TurnedAt.other {phase : Phase} (h : TurnedAt events phase)
    (hnotice : event.isInterrupt = false)
    (hwait : event.isWaitFailure = false) :
    TurnedAt (events ++ [event]) phase := by
  cases phase with
  | finished outcome => trivial
  | _ => simpa [TurnedAt, hnotice, hwait] using h

theorem TurnedAt.step (h : TurnedAt events v.phase)
    (hstep : Step v event w) : TurnedAt (events ++ [event]) w.phase := by
  cases hstep with
  | askCancel hgoes => exact h.other rfl rfl
  | passTime hgoes => exact h.other rfl rfl
  | read hreading hread => exact h.other rfl rfl
  | start hphase =>
      rw [hphase] at h
      exact h.other rfl rfl
  | exit hphase =>
      rw [hphase] at h
      exact h.other rfl rfl
  | kill hphase =>
      rw [hphase] at h
      exact h.other rfl rfl
  | failWait hphase => simp [TurnedAt, Event.isWaitFailure]
  | interrupt hdue hphase =>
      rw [hphase] at h
      simp [TurnedAt, Event.isInterrupt, Event.isWaitFailure, h.2]
  | cutShort hdue hphase =>
      rw [hphase] at h
      simp [TurnedAt, leave, Event.isInterrupt, Event.isWaitFailure, h.2]
  | expire hphase hgrace =>
      rw [hphase] at h
      exact h.other rfl rfl
  | lookOut hphase hseen => exact h.other rfl rfl
  | failStart hphase => trivial
  | discard hphase => trivial
  | conclude hresult hphase => trivial
  | flush hresult hphase => trivial
  | lookErr hphase hseen => trivial

/-- Every run has taken the turns that led to where it stands. -/
theorem turned_run (hrun : (begin l e).run events = some v) :
    TurnedAt events v.phase := by
  refine Runs.induction
    (P := fun events (v : Invocation) => TurnedAt events v.phase) ?_
    (fun _ h hstep => h.step (step_iff.1 hstep)) hrun
  cases hcheck : l.tool.check with
  | error failure =>
      rw [phase_begin_of_refused hcheck]
      trivial
  | ok _ =>
      rw [phase_begin_of_valid hcheck]
      by_cases hcancelled : e.cancelled = true
      · rw [if_pos hcancelled]
        trivial
      · rw [if_neg hcancelled]
        by_cases htimed : canBeTimed l.options e.timedFrom = true
        · rw [if_pos htimed]
          exact ⟨rfl, rfl⟩
        · rw [if_neg htimed]
          exact ⟨rfl, rfl⟩

-- ================================================================= failures

/-- The joint result of the readers is bad just if a stream could not be
read. -/
theorem Recorded.isReadFailure_iff (h : Recorded l e events v)
    {result : Except RunFailure Unit}
    (hresult : v.readers.result? = some result) :
    events.any Event.isReadFailure = true
      ↔ ∃ failure, result = .error failure := by
  rw [List.any_eq_true]
  constructor
  · rintro ⟨event, hmem, hfailure⟩
    cases result with
    | error failure => exact ⟨failure, rfl⟩
    | ok _ =>
        cases event with
        | reader stream event =>
            have hended := Readers.ended_of_result? hresult stream
            have htaken : event ∈ eventsOn stream events :=
              List.mem_filterMap.2 ⟨_, hmem, if_pos rfl⟩
            have hsound := (h.readers stream).log.isFailure_eq_false hended
              event htaken
            exact absurd hfailure (ne_true_of_eq_false hsound)
        | _ => cases hfailure
  · rintro ⟨failure, rfl⟩
    obtain ⟨stream, cause, hstate, -⟩ := Readers.failed_of_result? hresult
    obtain ⟨event, hmem, hfailure⟩ :=
      (h.readers stream).log.failure_mem hstate
    exact ⟨_, mem_of_mem_eventsOn hmem, hfailure⟩

/-- A run that concludes fails with what its readers have kept, unless a
stream could not be read. -/
theorem Recorded.partialOutput_ownOutcome (h : Recorded l e events v)
    {ending : Ending} {result : Except RunFailure Unit}
    (hresult : v.readers.result? = some result) {failure : RunFailure}
    (hfailed : ownOutcome ending v.readers result = .error failure) :
    failure.partialOutput?
      = if events.any Event.isReadFailure then none
        else some v.readers.output := by
  have hread := h.isReadFailure_iff hresult
  cases result with
  | error bad =>
      obtain ⟨stream, cause, -, rfl⟩ := Readers.failed_of_result? hresult
      injection hfailed with hfailed
      rw [if_pos (hread.2 ⟨_, rfl⟩), ← hfailed]
      rfl
  | ok _ =>
      have hsound : ¬events.any Event.isReadFailure = true := by
        rw [hread]
        rintro ⟨bad, hbad⟩
        cases hbad
      have hown := captured?_outcome ending v.readers.output
      rw [show ending.outcome v.readers.output = .error failure from
        hfailed] at hown
      rw [if_neg hsound]
      exact hown

/-- Before the start of the child an outcome comes without output, or with
none. -/
theorem Closed.captured?_of_not_started {outcome : Outcome}
    (h : Closed v events outcome) (hstarted : .started ∉ events) :
    captured? outcome = none ∨ captured? outcome = some .none := by
  have unspawned {l : Launch} {e : Entry} : ¬Spawned l e events := by
    intro hspawned
    have hmem : .started ∈ spawns events :=
      hspawned.spawns_eq ▸ List.mem_cons_self
    exact hstarted (List.mem_filter.1 hmem).1
  cases h with
  | refused hcheck hevents =>
      obtain ⟨reason, rfl⟩ := Tool.badRequest_of_check hcheck
      exact Or.inl rfl
  | forestalled hcheck hcancelled hevents => exact Or.inr rfl
  | notStarted hadmitted hspawns =>
      unfold startFailure
      split
      · exact Or.inl rfl
      · exact Or.inl rfl
  | concluded hspawned hending hresult => exact absurd hspawned unspawned
  | interrupted hspawned hreaped hdue => exact absurd hspawned unspawned
  | discarded hspawned hfailed hkilled => exact absurd hspawned unspawned

/-- An interruption fails with what the run has to show. -/
theorem partialOutput_of_stop {why : Interruption} {reading : Nat}
    {failure : RunFailure}
    (hstop : (v.stop why reading).outcome? = some (.error failure)) :
    failure.partialOutput? = some v.output := by
  injection hstop with hstop
  injection hstop with hstop
  rw [← hstop]
  exact captured?_interruption v reading why

/-- A failure after the start of the child comes with what the run has to show,
unless it has lost sight of the child; then it comes without output. -/
theorem partialOutput_of_started (hrun : (begin l e).run events = some v)
    {failure : RunFailure} (hfailed : v.outcome? = some (.error failure))
    (hstarted : .started ∈ events) :
    failure.partialOutput?
      = if losesSight events then none else some v.output := by
  obtain ⟨before, event, u, rfl, hu, hmove, hnone, hafter⟩ :=
    exists_last_move hrun hfailed hstarted
  have hturned := turned_run hu
  cases hmove with
  | askCancel hgoes => cases hnone.symm.trans hfailed
  | passTime hgoes => cases hnone.symm.trans hfailed
  | read hreading hread => cases hnone.symm.trans hfailed
  | lookOut hphase hseen => cases hnone.symm.trans hfailed
  | failStart hphase => exact absurd hphase hafter
  | @discard cause fault hphase =>
      rw [hphase] at hturned
      have hwait : before.any Event.isWaitFailure = true := hturned
      have hlost : losesSight (before ++ [.killed fault]) = true := by
        simp [losesSight, hwait]
      injection hfailed with hfailed
      injection hfailed with hfailed
      rw [hlost, ← hfailed]
      rfl
  | flush hresult hphase =>
      rw [hphase] at hturned
      have hkept : losesSight (before ++ [.noticedDrained]) = false := by
        simp [losesSight, hturned.1, hturned.2, Event.isWaitFailure]
      rw [hkept]
      exact partialOutput_of_stop hfailed
  | lookErr hphase hseen =>
      rw [hphase] at hturned
      have hkept : losesSight (before ++ [.looked .stderr]) = false := by
        simp [losesSight, hturned.1, hturned.2, Event.isWaitFailure]
      rw [hkept]
      exact partialOutput_of_stop hfailed
  | @conclude ending result hresult hphase =>
      -- no interruption was noticed, so the readers' result decides
      rw [hphase] at hturned
      have hlost : losesSight (before ++ [.noticedDrained])
          = before.any Event.isReadFailure := by
        simp [losesSight, hturned.1, hturned.2, Event.isInterrupt,
          Event.isWaitFailure, Event.isReadFailure]
      have hrecorded := recorded_run hu
      have hseen := hrecorded.looks
      rw [hphase] at hseen
      injection hfailed with hfailed
      rw [hlost, show (u.finish _).output = u.output from rfl,
        output_of_unseen hseen]
      exact hrecorded.partialOutput_ownOutcome hresult hfailed
  | _ => cases hfailed

-- =============================================================== the result

/-- **What a failure brings of the child's output.** Where no child was
spawned, that is nothing. Where one was, it is what the captures held when the
run looked at them, for each stream the text of the head of what had gone into
its capture: of all that was read, but for a chunk in hand. A run which has
lost sight of its child, though, brings nothing. What is brought is shown by
the report, in text and in JSON. -/
theorem diagnostics_kept (hrun : (begin l e).run events = some v)
    {failure : RunFailure} (hfailed : v.outcome? = some (.error failure)) :
    (.started ∉ events →
        failure.partialOutput? = none
          ∨ failure.partialOutput? = some .none)
      ∧ (.started ∈ events →
        failure.partialOutput?
          = if losesSight events then none else some v.output)
      ∧ (∀ stream,
        v.output.get stream
            = Utf8.decodeLossy
                ((bytesShown stream events).take l.options.captureBytes)
          ∧ ∃ held, ShownBut held stream events)
      ∧ ∀ output, failure.partialOutput? = some output → ∀ format,
          ∃ sinks,
            Report.deliver {} (Report.pieces format (.error failure))
                = (sinks, .ok ())
              ∧ Report.ShowsOutput format sinks output := by
  have hrecorded := recorded_run hrun
  exact ⟨(closed_of_outcome? hrecorded hfailed).captured?_of_not_started,
    partialOutput_of_started hrun hfailed,
    fun stream => ⟨hrecorded.output_get stream, exists_shownBut hrun stream⟩,
    fun _ houtput format => Report.shows_partialOutput format houtput⟩

/-- A run that is cancelled brings on what it has read, though one of the
streams could not be read to its end. -/
theorem diagnostics_kept_cancelled :
    ∃ (l : Launch) (events : List Event) (v : Invocation),
      (begin l {}).run events = some v
        ∧ events.any Event.isReadFailure = true
        ∧ v.outcome? = some (.error (.cancelled ⟨"ok", ""⟩))
        ∧ v.output = ⟨"ok", ""⟩ := by
  let l : Launch := ⟨⟨"lint", "rust"⟩, [], {}⟩
  let events : List Event :=
    [.started, .reader .stdout (.read [0x6F, 0x6B]),
      .reader .stdout (.pushed [0x6F, 0x6B]),
      .reader .stderr (.failed (.other "lost")), .cancelRequested,
      .noticed .cancelled, .killed none, .reader .stdout .ended,
      .noticedDrained]
  have hlast : ((begin l {}).run events).bind outcome?
      = some (.error (.cancelled ⟨"ok", ""⟩)) := by decide
  obtain ⟨v, hrun, hcancelled⟩ := Option.bind_eq_some_iff.1 hlast
  obtain ⟨-, hkept, -, -⟩ := diagnostics_kept hrun hcancelled
  have houtput := hkept (by decide)
  rw [if_neg (by decide)] at houtput
  exact ⟨l, events, v, hrun, by decide, hcancelled,
    (Option.some.inj houtput).symm⟩

/-- A child has written something and a reader has kept it. If the child cannot
be waited for then, or its other stream cannot be read, the failure comes
without that. -/
theorem diagnostics_lost :
    ∃ (l : Launch) (unwaited unread : List Session.Event) (cause : IoFault),
      (∃ s, (Session.begin l {}).run unwaited = some s
        ∧ .started ∈ Session.inRun unwaited
        ∧ s.invocation.readers.output = ⟨"ok", ""⟩
        ∧ s.invocation.outcome? = some (.error (.waitFailed cause))
        ∧ (RunFailure.waitFailed cause).partialOutput? = none)
      ∧ ∃ s, (Session.begin l {}).run unread = some s
        ∧ .started ∈ Session.inRun unread
        ∧ s.invocation.readers.output = ⟨"ok", ""⟩
        ∧ s.invocation.outcome?
          = some (.error (.streamFailed .stderr cause))
        ∧ (RunFailure.streamFailed .stderr cause).partialOutput? = none := by
  let l : Launch := ⟨⟨"lint", "rust"⟩, [], {}⟩
  let cause : IoFault := .other "lost"
  let before : List Session.Event :=
    [.inRun .started, .wrote .stdout [0x6F, 0x6B],
      .inRun (.reader .stdout (.read [0x6F, 0x6B])),
      .inRun (.reader .stdout (.pushed [0x6F, 0x6B]))]
  let unwaited : List Session.Event :=
    before ++ [.inRun (.waitFailed cause), .inRun (.killed none)]
  let unread : List Session.Event :=
    before ++ [.inRun (.reader .stderr (.failed cause)),
      .inRun (.exited (.exited 0)), .closed .stdout,
      .inRun (.reader .stdout .ended), .inRun .noticedDrained]
  let view (s : Session) : Output × Option Outcome :=
    (s.invocation.readers.output, s.invocation.outcome?)
  have hunwaited : ((Session.begin l {}).run unwaited).map view
      = some (⟨"ok", ""⟩, some (.error (.waitFailed cause))) := by decide
  have hunread : ((Session.begin l {}).run unread).map view
      = some (⟨"ok", ""⟩,
        some (.error (.streamFailed .stderr cause))) := by decide
  obtain ⟨s, hs, hview⟩ := Option.map_eq_some_iff.1 hunwaited
  obtain ⟨t, ht, hview'⟩ := Option.map_eq_some_iff.1 hunread
  exact ⟨l, unwaited, unread, cause,
    ⟨s, hs, by decide, congrArg Prod.fst hview, congrArg Prod.snd hview, rfl⟩,
    t, ht, by decide, congrArg Prod.fst hview', congrArg Prod.snd hview', rfl⟩

end Invocation

end Toolrun
