/-
What a run can do, one rule for each move. `Step` lists the moves of an
invocation with the guards they need; `step_iff` says that the machine makes
these moves and no others. Whatever is said about all runs follows the cases of
`Step`, and does not look into the machine again.

The list has no move that fails to set the readers to work: a child's streams
always lead into pipes, so starting it leaves us an end of both (`start_eq`).
-/
import Toolrun.Invocation
import Toolrun.Proofs.Readers

namespace Toolrun

/-- Starting the child of a launch leaves us what the readers need. -/
theorem Readers.start_eq (l : Launch) (limit : Nat) :
    Readers.start l.setup limit = .ok (.fresh limit) := by
  unfold Readers.start
  rw [l.leavesEnd_setup .stdout, l.leavesEnd_setup .stderr]
  rfl

namespace Invocation

/-- A started child is running and read from. -/
theorem attach_eq (v : Invocation) :
    v.attach
      = { v with
          readers := .fresh v.options.captureBytes
          phase := .running } := by
  unfold attach
  rw [Readers.start_eq]

-- ============================================================== beginnings

/-- A request that is refused is over before anything has happened. -/
theorem phase_begin_of_refused {l : Launch} {e : Entry} {failure : RunFailure}
    (hcheck : l.tool.check = .error failure) :
    (begin l e).phase = .finished (.error failure) := by
  simp only [begin, hcheck]

/-- Any other is over if it is cancelled, or else about to start its child,
provided that its deadline can be formed. -/
theorem phase_begin_of_valid {l : Launch} {e : Entry}
    (hcheck : l.tool.check = .ok ()) :
    (begin l e).phase
      = if e.cancelled then .finished (.error (.cancelled .none))
        else if canBeTimed l.options e.timedFrom then .starting
        else .brokenOff := by
  simp only [begin, hcheck]

-- =================================================================== moves

/-- The moves of a run. -/
inductive Step : Invocation → Event → Invocation → Prop where
  | askCancel {v : Invocation} (hgoes : v.isOver = false) :
      Step v .cancelRequested { v with cancelRequested := true }
  | passTime {v : Invocation} {nanos : Nat} (hgoes : v.isOver = false) :
      Step v (.timePassed nanos) { v with clock := v.clock + nanos }
  | start {v : Invocation} (hphase : v.phase = .starting) :
      Step v .started
        { v with
          readers := .fresh v.options.captureBytes
          phase := .running }
  | failStart {v : Invocation} {cause : IoFault}
      (hphase : v.phase = .starting) :
      Step v (.startFailed cause)
        (v.finish (.error (startFailure v.launch.tool cause)))
  | read {v : Invocation} {stream : Stream} {event : Reader.Event}
      {reader : Reader} (hreading : v.isReading = true)
      (hstep : (v.readers.get stream).step event = some reader) :
      Step v (.reader stream event)
        { v with readers := v.readers.set stream reader }
  | exit {v : Invocation} {ending : Ending} (hphase : v.phase = .running) :
      Step v (.exited ending) { v with phase := .draining ending }
  | failWait {v : Invocation} {cause : IoFault}
      (hphase : v.phase = .running) :
      Step v (.waitFailed cause) { v with phase := .discarding cause }
  | kill {v : Invocation} {why : Interruption} {fault : Option IoFault}
      (hphase : v.phase = .stopping why) :
      Step v (.killed fault)
        { v with
          phase := .flushing why
            (v.clock + v.options.killGraceMs * Clock.nanosPerMilli) }
  | discard {v : Invocation} {cause : IoFault} {fault : Option IoFault}
      (hphase : v.phase = .discarding cause) :
      Step v (.killed fault) (v.abort.finish (.error (.waitFailed cause)))
  | interrupt {v : Invocation} {why : Interruption}
      (hdue : v.isDue why = true) (hphase : v.phase = .running) :
      Step v (.noticed why) { v with phase := .stopping why }
  | cutShort {v : Invocation} {why : Interruption} {ending : Ending}
      (hdue : v.isDue why = true) (hphase : v.phase = .draining ending) :
      Step v (.noticed why) (v.leave why (some v.clock))
  | conclude {v : Invocation} {ending : Ending}
      {result : Except RunFailure Unit}
      (hresult : v.readers.result? = some result)
      (hphase : v.phase = .draining ending) :
      Step v .noticedDrained (v.finish (ownOutcome ending v.readers result))
  | flush {v : Invocation} {why : Interruption} {graceEnd : Nat}
      {result : Except RunFailure Unit}
      (hresult : v.readers.result? = some result)
      (hphase : v.phase = .flushing why graceEnd) :
      Step v .noticedDrained (v.stop why v.clock)
  | expire {v : Invocation} {why : Interruption} {graceEnd : Nat}
      (hphase : v.phase = .flushing why graceEnd)
      (hgrace : graceEnd ≤ v.clock) :
      Step v .noticedGrace (v.leave why none)
  | lookOut {v : Invocation} {why : Interruption} {readAt : Option Nat}
      (hphase : v.phase = .leaving why readAt) (hseen : v.seen.stdout = none) :
      Step v (.looked .stdout) (v.look .stdout)
  | lookErr {v : Invocation} {why : Interruption} {readAt : Option Nat}
      {text : String} (hphase : v.phase = .leaving why readAt)
      (hseen : v.seen.stdout = some text) :
      Step v (.looked .stderr)
        ((v.look .stderr).stop why (readAt.getD v.clock))

/-- A move by the rules is one that the machine makes. -/
theorem Step.step_eq {v w : Invocation} {event : Event}
    (h : Step v event w) : v.step event = some w := by
  cases h with
  | askCancel hgoes => simp [step, hgoes]
  | passTime hgoes => simp [step, hgoes]
  | start hphase => simp [step, hphase, attach_eq]
  | failStart hphase => simp [step, hphase]
  | read hreading hstep => simp [step, withReader, hreading, hstep]
  | exit hphase => simp [step, hphase]
  | failWait hphase => simp [step, hphase]
  | kill hphase => simp [step, hphase]
  | discard hphase => simp [step, hphase]
  | interrupt hdue hphase => simp [step, hdue, hphase]
  | cutShort hdue hphase => simp [step, hdue, hphase]
  | conclude hresult hphase => simp [step, hresult, hphase]
  | flush hresult hphase => simp [step, hresult, hphase]
  | expire hphase hgrace => simp [step, hphase, hgrace]
  | lookOut hphase hseen => simp [step, hphase, hseen]
  | lookErr hphase hseen => simp [step, hphase, hseen]

/-- A move that the machine makes is one by the rules. -/
theorem Step.of_step {v w : Invocation} {event : Event}
    (h : v.step event = some w) : Step v event w := by
  cases event with
  | cancelRequested =>
      simp only [step] at h
      split at h
      next => cases h
      next hgoes =>
        injection h with hw
        exact hw ▸ .askCancel (by simpa using hgoes)
  | timePassed nanos =>
      simp only [step] at h
      split at h
      next => cases h
      next hgoes =>
        injection h with hw
        exact hw ▸ .passTime (by simpa using hgoes)
  | started =>
      simp only [step] at h
      split at h
      next hphase =>
        injection h with hw
        rw [← hw, attach_eq]
        exact .start hphase
      next => cases h
  | startFailed cause =>
      simp only [step] at h
      split at h
      next hphase =>
        injection h with hw
        exact hw ▸ .failStart hphase
      next => cases h
  | reader stream event =>
      simp only [step, withReader] at h
      split at h
      next hreading =>
        obtain ⟨reader, hstep, hw⟩ := Option.map_eq_some_iff.1 h
        exact hw ▸ .read hreading hstep
      next => cases h
  | exited ending =>
      simp only [step] at h
      split at h
      next hphase =>
        injection h with hw
        exact hw ▸ .exit hphase
      next => cases h
  | waitFailed cause =>
      simp only [step] at h
      split at h
      next hphase =>
        injection h with hw
        exact hw ▸ .failWait hphase
      next => cases h
  | killed fault =>
      simp only [step] at h
      split at h
      next why hphase =>
        injection h with hw
        exact hw ▸ .kill hphase
      next cause hphase =>
        injection h with hw
        exact hw ▸ .discard hphase
      next => cases h
  | noticed why =>
      simp only [step] at h
      split at h
      next hdue =>
        split at h
        next hphase =>
          injection h with hw
          exact hw ▸ .interrupt hdue hphase
        next ending hphase =>
          injection h with hw
          exact hw ▸ .cutShort hdue hphase
        next => cases h
      next => cases h
  | noticedDrained =>
      simp only [step] at h
      split at h
      next => cases h
      next result hresult =>
        split at h
        next ending hphase =>
          injection h with hw
          exact hw ▸ .conclude hresult hphase
        next why graceEnd hphase =>
          injection h with hw
          exact hw ▸ .flush hresult hphase
        next => cases h
  | noticedGrace =>
      simp only [step] at h
      split at h
      next why graceEnd hphase =>
        split at h
        next hgrace =>
          injection h with hw
          exact hw ▸ .expire hphase hgrace
        next => cases h
      next => cases h
  | looked stream =>
      simp only [step] at h
      split at h
      next why readAt hphase =>
        split at h
        next hseen =>
          injection h with hw
          exact hw ▸ .lookOut hphase hseen
        next text hseen =>
          injection h with hw
          exact hw ▸ .lookErr hphase hseen
        next => cases h
      next => cases h

/-- The machine moves by the rules. -/
theorem step_iff {v w : Invocation} {event : Event} :
    v.step event = some w ↔ Step v event w :=
  ⟨Step.of_step, Step.step_eq⟩

-- =========================================================== ends of streams

/-- A reader that has seen the end of its stream has done so before, or does
so now. -/
theorem Step.ended_cases {v w : Invocation} {event : Event} {stream : Stream}
    (h : Step v event w) (hended : (w.readers.get stream).state = .ended) :
    (v.readers.get stream).state = .ended
      ∨ event = .reader stream .ended := by
  have asked (readers : Readers)
      (h : (readers.askToStop.get stream).state = .ended) :
      (readers.get stream).state = .ended := by
    rwa [Readers.get_askToStop] at h
  cases h with
  | start hphase =>
      rw [Readers.get_fresh] at hended
      cases hended
  | @read other event reader hreading hstep =>
      by_cases hsame : stream = other
      · subst hsame
        rw [PerStream.get_set_self] at hended
        rw [Reader.ended_of_step hstep hended]
        exact Or.inr rfl
      · rw [PerStream.get_set_of_ne _ hsame] at hended
        exact Or.inl hended
  | discard hphase => exact Or.inl (asked _ hended)
  | cutShort hdue hphase => exact Or.inl (asked _ hended)
  | expire hphase hgrace => exact Or.inl (asked _ hended)
  | _ => exact Or.inl hended

-- ============================================================= over is over

/-- A run in one of the phases in which it moves is not over. -/
theorem not_isOver_of_isReading {v : Invocation} (h : v.isReading = true) :
    v.isOver = false := by
  unfold isReading at h
  unfold isOver
  cases hphase : v.phase with
  | finished outcome =>
      rw [hphase] at h
      cases h
  | brokenOff =>
      rw [hphase] at h
      cases h
  | _ => rfl

/-- Only a run that is not over moves. -/
theorem Step.goes {v w : Invocation} {event : Event} (h : Step v event w) :
    v.isOver = false := by
  cases h with
  | askCancel hgoes => exact hgoes
  | passTime hgoes => exact hgoes
  | read hreading => exact not_isOver_of_isReading hreading
  | start hphase => simp [isOver, hphase]
  | failStart hphase => simp [isOver, hphase]
  | exit hphase => simp [isOver, hphase]
  | failWait hphase => simp [isOver, hphase]
  | kill hphase => simp [isOver, hphase]
  | discard hphase => simp [isOver, hphase]
  | interrupt hdue hphase => simp [isOver, hphase]
  | cutShort hdue hphase => simp [isOver, hphase]
  | conclude hresult hphase => simp [isOver, hphase]
  | flush hresult hphase => simp [isOver, hphase]
  | expire hphase hgrace => simp [isOver, hphase]
  | lookOut hphase hseen => simp [isOver, hphase]
  | lookErr hphase hseen => simp [isOver, hphase]

/-- A run that moves has no outcome yet. -/
theorem Step.outcome?_eq_none {v w : Invocation} {event : Event}
    (h : Step v event w) : v.outcome? = none := by
  have hgoes := h.goes
  unfold isOver at hgoes
  unfold outcome?
  cases hphase : v.phase with
  | finished _ =>
      rw [hphase] at hgoes
      cases hgoes
  | _ => rfl

/-- Where a run is over, nothing happens any more. -/
theorem run_of_isOver {v w : Invocation} {events : List Event}
    (hover : v.isOver = true) (hrun : v.run events = some w) :
    events = [] ∧ w = v := by
  cases events with
  | nil =>
      injection hrun with hw
      exact ⟨rfl, hw.symm⟩
  | cons event events =>
      obtain ⟨next, hstep, -⟩ := Runs.cons_eq_some.1 hrun
      have hgoes := (Step.of_step hstep).goes
      rw [hover] at hgoes
      cases hgoes

end Invocation

end Toolrun
