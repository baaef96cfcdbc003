/-
A run that is to be interrupted comes back without the help of the pipes. Some
other process may hold a pipe's end for ever, so that a reader waits in vain:
no byte comes, no failure, and no end of the stream. A run that is cancelled or
late does not wait with it.

Each phase after the start has a way on that needs no pipe: what the run
notices by itself, the return of a kill, the passing of the time of grace, and
the looks at the two captures (`Event.isUnaided`). The ways lead from phase to
phase and end in a return after six events at most, the looks among them, and
no later than the time of grace from now (`graceEnd_le`); so they are taken
here from the last phase backwards, one lemma each. `Invocation.returnsUnaided`
puts them together for the phases, and `Session.returns_unaided` says it of all
sessions, where it can be seen that no pipe has moved.
-/
import Toolrun.Proofs.Invocation.Child
import Toolrun.Proofs.Session

namespace Toolrun

namespace Invocation

-- ================================================================ unaided

/-- Whether an event needs nothing from the pipes: something the run notices
by itself, the return of a kill, which comes with a given fault or without,
the passing of time, or a look at a capture. -/
def Event.isUnaided (fault : Option IoFault) : Event → Bool
  | .timePassed _ => true
  | .killed other => other = fault
  | .noticed _ => true
  | .noticedGrace => true
  | .looked _ => true
  | _ => false

/-- The outcome of a run that was interrupted, with an output. How late a late
run was is left open. -/
def IsInterrupted (output : Output) : Outcome → Prop
  | .error (.cancelled shown) => shown = output
  | .error (.timedOut _ shown) => shown = output
  | _ => False

/-- A run comes back by unaided events, so many at most and no later than
this, with an outcome of this kind. -/
def ReturnsUnaided (fault : Option IoFault) (count latest : Nat)
    (P : Outcome → Prop) (v : Invocation) : Prop :=
  ∃ (events : List Event) (w : Invocation) (outcome : Outcome),
    events.length ≤ count ∧ (∀ event ∈ events, event.isUnaided fault = true)
      ∧ v.run events = some w ∧ w.clock ≤ latest
      ∧ w.outcome? = some outcome ∧ P outcome

/-- A run was settled otherwise than by an interruption: its child could not be
waited for, or it was seen to end and its streams to be read out. -/
def Settled (events : List Event) : Prop :=
  (∃ cause, .waitFailed cause ∈ events)
    ∨ (∃ ending, .exited ending ∈ events) ∧ .noticedDrained ∈ events

def grace (v : Invocation) : Nat := v.options.killGraceMs * Clock.nanosPerMilli

variable {l : Launch} {e : Entry} {events : List Event} {event : Event}
  {fault : Option IoFault} {count latest : Nat} {P : Outcome → Prop}
  {v w : Invocation}

theorem returnsUnaided_of_outcome? {outcome : Outcome}
    (houtcome : v.outcome? = some outcome) (hP : P outcome) :
    ReturnsUnaided fault 0 v.clock P v :=
  ⟨[], v, outcome, Nat.le_refl _, fun _ hmem => (List.not_mem_nil hmem).elim,
    rfl, Nat.le_refl _, houtcome, hP⟩

theorem ReturnsUnaided.step (h : ReturnsUnaided fault count latest P w)
    (hstep : Step v event w) (hunaided : event.isUnaided fault = true) :
    ReturnsUnaided fault (count + 1) latest P v := by
  obtain ⟨events, u, outcome, hcount, hall, hrun, hrest⟩ := h
  refine ⟨event :: events, u, outcome, Nat.succ_le_succ hcount, ?_, ?_, hrest⟩
  · intro other hmem
    rcases List.mem_cons.1 hmem with rfl | hmem
    · exact hunaided
    · exact hall other hmem
  · exact Runs.cons_eq_some.2 ⟨w, hstep.step_eq, hrun⟩

/-- There may be less to do than allowed for, and less time needed. -/
theorem ReturnsUnaided.mono {more later : Nat} {Q : Outcome → Prop}
    (h : ReturnsUnaided fault count latest P v) (hcount : count ≤ more)
    (hlatest : latest ≤ later) (himp : ∀ outcome, P outcome → Q outcome) :
    ReturnsUnaided fault more later Q v := by
  obtain ⟨events, w, outcome, hlength, hall, hrun, hclock, houtcome, hP⟩ := h
  exact ⟨events, w, outcome, Nat.le_trans hlength hcount, hall, hrun,
    Nat.le_trans hclock hlatest, houtcome, himp outcome hP⟩

theorem isInterrupted_interruption (v : Invocation) (reading : Nat)
    (why : Interruption) :
    IsInterrupted v.output (.error (v.interruption reading why)) := by
  cases why <;> rfl

/-- A first look at a capture changes nothing about what there is to show. -/
theorem output_look (stream : Stream) (hfirst : v.seen.get stream = none) :
    (v.look stream).output = v.output := by
  cases stream with
  | stdout =>
      show Output.mk _ _ = Output.mk _ _
      rw [show v.seen.stdout = none from hfirst]
      rfl
  | stderr =>
      show Output.mk _ _ = Output.mk _ _
      rw [show v.seen.stderr = none from hfirst]
      rfl

-- ============================================================== the phases

theorem returnsUnaided_stop (fault : Option IoFault) (v : Invocation)
    (why : Interruption) (reading : Nat) :
    ReturnsUnaided fault 0 v.clock (IsInterrupted v.output)
      (v.stop why reading) :=
  returnsUnaided_of_outcome? (v := v.stop why reading) rfl
    (isInterrupted_interruption v reading why)

/-- Whoever has only the second capture left to look at comes back after that
look. -/
theorem returnsUnaided_of_seen {why : Interruption} {readAt : Option Nat}
    {text : String} (hphase : v.phase = .leaving why readAt)
    (hseen : v.seen.stdout = some text) (hleft : v.seen.stderr = none) :
    ReturnsUnaided fault 1 v.clock (IsInterrupted v.output) v := by
  have hstop := returnsUnaided_stop fault (v.look .stderr) why
    (readAt.getD v.clock)
  rw [output_look .stderr hleft] at hstop
  exact hstop.step (.lookErr hphase hseen) rfl

/-- Whoever leaves the readers behind looks at the captures and comes back. -/
theorem returnsUnaided_of_leaving {why : Interruption} {readAt : Option Nat}
    (hphase : v.phase = .leaving why readAt)
    (hleft : SeenAt v.seen (.leaving why readAt)) :
    ReturnsUnaided fault 2 v.clock (IsInterrupted v.output) v := by
  cases hseen : v.seen.stdout with
  | some text =>
      exact (returnsUnaided_of_seen hphase hseen hleft).mono (by decide)
        (Nat.le_refl _) fun _ h => h
  | none =>
      have hlast : ReturnsUnaided fault 1 v.clock
          (IsInterrupted (v.look .stdout).output) (v.look .stdout) :=
        returnsUnaided_of_seen hphase rfl hleft
      rw [output_look .stdout hseen] at hlast
      exact hlast.step (.lookOut hphase hseen) rfl

/-- Reading on after a kill ends with the time of grace. -/
theorem returnsUnaided_of_flushing {why : Interruption} {graceEnd : Nat}
    (hphase : v.phase = .flushing why graceEnd)
    (hseen : v.seen = ⟨none, none⟩) :
    ReturnsUnaided fault 4 (v.clock + (graceEnd - v.clock))
      (IsInterrupted v.output) v := by
  have hgoes : v.isOver = false := by simp [isOver, hphase]
  let late := { v with clock := v.clock + (graceEnd - v.clock) }
  have hpass : Step v (.timePassed (graceEnd - v.clock)) late := .passTime hgoes
  have hgrace : graceEnd ≤ v.clock + (graceEnd - v.clock) := by omega
  have hexpire : Step late .noticedGrace (late.leave why none) :=
    .expire hphase hgrace
  have hleave : ReturnsUnaided fault 2 late.clock
      (IsInterrupted late.output) (late.leave why none) :=
    returnsUnaided_of_leaving rfl (congrArg PerStream.stderr hseen)
  exact (hleave.step hexpire rfl).step hpass rfl

/-- A kill comes back and leads to reading on. -/
theorem returnsUnaided_of_stopping {why : Interruption}
    (hphase : v.phase = .stopping why) (hseen : v.seen = ⟨none, none⟩) :
    ReturnsUnaided fault 5 (v.clock + v.grace)
      (IsInterrupted v.output) v := by
  let killed := { v with phase := .flushing why (v.clock + v.grace) }
  have hkill : Step v (.killed fault) killed := .kill hphase
  have hback : ReturnsUnaided fault 4 _ _ killed :=
    returnsUnaided_of_flushing rfl hseen
  have hlatest : v.clock + (v.clock + v.grace - v.clock) ≤ v.clock + v.grace :=
    by omega
  exact (hback.mono (Nat.le_refl _) hlatest fun _ h => h).step hkill
    (decide_eq_true rfl)

/-- A run that waits for its child notices the interruption. -/
theorem returnsUnaided_of_running {why : Interruption}
    (hdue : v.isDue why = true) (hphase : v.phase = .running)
    (hseen : v.seen = ⟨none, none⟩) :
    ReturnsUnaided fault 6 (v.clock + v.grace)
      (IsInterrupted v.output) v := by
  have hback : ReturnsUnaided fault 5 _ _ { v with phase := .stopping why } :=
    returnsUnaided_of_stopping rfl hseen
  exact hback.step (.interrupt hdue hphase) rfl

/-- So does one that reads on after its child's end; there is nothing left to
kill then, and it comes back at once. -/
theorem returnsUnaided_of_draining {why : Interruption} {ending : Ending}
    (hdue : v.isDue why = true) (hphase : v.phase = .draining ending)
    (hseen : v.seen = ⟨none, none⟩) :
    ReturnsUnaided fault 3 v.clock (IsInterrupted v.output) v := by
  have hleave : ReturnsUnaided fault 2 v.clock (IsInterrupted v.output)
      (v.leave why (some v.clock)) :=
    returnsUnaided_of_leaving rfl (congrArg PerStream.stderr hseen)
  exact hleave.step (.cutShort hdue hphase) rfl

/-- A run that could not wait for its child comes back after the kill. -/
theorem returnsUnaided_of_discarding {cause : IoFault}
    (hphase : v.phase = .discarding cause) :
    ReturnsUnaided fault 1 v.clock (· = .error (.waitFailed cause)) v := by
  have hback : ReturnsUnaided fault 0 v.clock
      (· = .error (.waitFailed cause))
      (v.abort.finish (.error (.waitFailed cause))) :=
    returnsUnaided_of_outcome?
      (v := v.abort.finish (.error (.waitFailed cause))) rfl rfl
  have hkill : Step v (.killed fault) _ := .discard hphase
  exact hback.step hkill (decide_eq_true rfl)

/-- The time of grace ends no later than if it began now. -/
theorem graceEnd_le (hrun : (begin l e).run events = some v)
    {why : Interruption} {graceEnd : Nat}
    (hphase : v.phase = .flushing why graceEnd) :
    graceEnd ≤ v.clock + v.grace := by
  refine Runs.induction
    (P := fun _ (v : Invocation) => ∀ why graceEnd,
      v.phase = .flushing why graceEnd → graceEnd ≤ v.clock + v.grace)
    ?_ ?_ hrun why graceEnd hphase
  · intro why graceEnd hphase
    obtain ⟨-, -, fault, hkilled⟩ := (recorded_begin l e).shows_at hphase
    cases hkilled
  · intro events v event w _ hbound hstep why graceEnd hphase
    cases step_iff.1 hstep with
    | kill hstopping =>
        injection hphase with _ hend
        exact Nat.le_of_eq hend.symm
    | askCancel hgoes => exact hbound why graceEnd hphase
    | read hreading hread => exact hbound why graceEnd hphase
    | lookOut hleaving hseen => exact hbound why graceEnd hphase
    | @passTime nanos hgoes =>
        have hbefore := hbound why graceEnd hphase
        show graceEnd ≤ v.clock + nanos + v.grace
        omega
    | _ => cases hphase

-- ================================================== runs that have returned

/-- A run that has spawned its child and come back was interrupted, unless it
was settled otherwise. -/
theorem isInterrupted_of_outcome? (hrun : (begin l e).run events = some v)
    {outcome : Outcome} (houtcome : v.outcome? = some outcome)
    (hstarted : .started ∈ events) (hsettled : ¬Settled events) :
    IsInterrupted v.output outcome := by
  have stopped (v : Invocation) (why : Interruption) (reading : Nat)
      {outcome : Outcome}
      (hstop : (v.stop why reading).outcome? = some outcome) :
      IsInterrupted v.output outcome := by
    injection hstop with hstop
    exact hstop ▸ isInterrupted_interruption v reading why
  obtain ⟨before, event, u, rfl, hu, hmove, hnone, hafter⟩ :=
    exists_last_move hrun houtcome hstarted
  have hrecorded := recorded_run hu
  cases hmove with
  | askCancel hgoes => cases hnone.symm.trans houtcome
  | passTime hgoes => cases hnone.symm.trans houtcome
  | read hreading hread => cases hnone.symm.trans houtcome
  | lookOut hphase hseen => cases hnone.symm.trans houtcome
  | failStart hphase => exact absurd hphase hafter
  | discard hphase =>
      obtain ⟨-, hfailed⟩ := hrecorded.shows_at hphase
      exact absurd (.inl ⟨_, List.mem_append_left _ hfailed⟩) hsettled
  | flush hresult hphase => exact stopped u _ _ houtcome
  | lookErr hphase hseen => exact stopped (u.look .stderr) _ _ houtcome
  | conclude hresult hphase =>
      obtain ⟨-, hending⟩ := hrecorded.shows_at hphase
      have hexited := exited_mem hending
      exact absurd (.inr ⟨⟨_, List.mem_append_left _ hexited⟩,
        List.mem_append_right _ List.mem_cons_self⟩) hsettled
  | _ => cases houtcome

-- ============================================================ all phases

/-- A run that is due an interruption comes back unaided from every phase
after the start, and interrupted unless it was settled otherwise before. -/
theorem returnsUnaided (hrun : (begin l e).run events = some v)
    (hstarted : .started ∈ events) {why : Interruption}
    (hdue : v.isDue why = true) (fault : Option IoFault) :
    ReturnsUnaided fault 6 (v.clock + v.grace)
      (fun outcome => ¬Settled events → IsInterrupted v.output outcome) v := by
  have hrecorded := recorded_run hrun
  have hseen := hrecorded.looks
  have hnow : v.clock ≤ v.clock + v.grace := Nat.le_add_right _ _
  cases hphase : v.phase with
  | starting =>
      obtain ⟨-, hspawns, -⟩ := hrecorded.shows_at hphase
      have hmem := mem_spawns_of_started hstarted
      rw [hspawns] at hmem
      cases hmem
  | brokenOff =>
      obtain ⟨rfl, -⟩ := hrecorded.shows_at hphase
      cases hstarted
  | running =>
      rw [hphase] at hseen
      exact (returnsUnaided_of_running hdue hphase hseen).mono (Nat.le_refl _)
        (Nat.le_refl _) fun _ h _ => h
  | stopping why =>
      rw [hphase] at hseen
      exact (returnsUnaided_of_stopping hphase hseen).mono (by decide)
        (Nat.le_refl _) fun _ h _ => h
  | flushing why graceEnd =>
      have hend := graceEnd_le hrun hphase
      rw [hphase] at hseen
      exact (returnsUnaided_of_flushing hphase hseen).mono (by decide)
        (by omega) fun _ h _ => h
  | draining ending =>
      rw [hphase] at hseen
      exact (returnsUnaided_of_draining hdue hphase hseen).mono (by decide)
        hnow fun _ h _ => h
  | leaving why readAt =>
      rw [hphase] at hseen
      exact (returnsUnaided_of_leaving hphase hseen).mono (by decide) hnow
        fun _ h _ => h
  | discarding cause =>
      obtain ⟨-, hfailed⟩ := hrecorded.shows_at hphase
      exact (returnsUnaided_of_discarding hphase).mono (by decide) hnow
        fun _ _ hsettled => absurd (.inl ⟨cause, hfailed⟩) hsettled
  | finished outcome =>
      have houtcome : v.outcome? = some outcome := by
        unfold outcome?
        rw [hphase]
      refine (returnsUnaided_of_outcome? houtcome ?_).mono (by decide) hnow
        fun _ h => h
      exact isInterrupted_of_outcome? hrun houtcome hstarted

end Invocation

namespace Session

variable {l : Launch} {e : Entry} {events : List Event} {s : Session}

-- ============================================================== the pipes

/-- Events that need no pipe move none. -/
theorem run_unaided {fault : Option IoFault} :
    ∀ {more : List Invocation.Event} {s : Session} {v : Invocation},
      (∀ event ∈ more, event.isUnaided fault = true) →
      s.invocation.run more = some v →
      s.run (more.map .inRun) = some ⟨v, s.pipes⟩ := by
  intro more
  induction more with
  | nil =>
      intro s v _ hrun
      injection hrun with hv
      exact hv ▸ rfl
  | cons event more ih =>
      intro s v hunaided hrun
      obtain ⟨w, hstep, hrun⟩ := Runs.cons_eq_some.1 hrun
      have hmove : s.step (.inRun event) = some ⟨w, s.pipes⟩ := by
        have hevent := hunaided event List.mem_cons_self
        show s.stepRun event = _
        unfold stepRun
        rw [hstep]
        cases event with
        | started => cases hevent
        | reader stream reading => cases hevent
        | _ => rfl
      refine Runs.cons_eq_some.2 ⟨_, hmove, ?_⟩
      exact ih (s := ⟨w, s.pipes⟩)
        (fun other hmem => hunaided other (List.mem_cons_of_mem _ hmem)) hrun

-- ============================================================== the result

/-- A pipe that is held open for ever cannot keep a run that is cancelled or
late. Wherever such a run stands after its child was spawned, at most four
events and the two looks bring it to an outcome, and these events are its own
notices, the return of a kill, whatever the kill comes back with, and time, of
which no more than the time of grace is needed; no pipe moves meanwhile. Unless
the run was settled otherwise before, the outcome is that of an interruption,
with all that the run has to show. -/
theorem returns_unaided (hrun : (begin l e).run events = some s)
    (hstarted : .started ∈ inRun events) {why : Interruption}
    (hdue : s.invocation.isDue why = true) (fault : Option IoFault) :
    ∃ (more : List Invocation.Event) (t : Session) (outcome : Outcome),
      more.length ≤ 6
        ∧ (∀ event ∈ more, event.isUnaided fault = true)
        ∧ s.run (more.map .inRun) = some t
        ∧ t.pipes = s.pipes
        ∧ t.invocation.clock ≤ s.invocation.clock + s.invocation.grace
        ∧ t.invocation.outcome? = some outcome
        ∧ (¬Invocation.Settled (inRun events) →
            Invocation.IsInterrupted s.invocation.output outcome) := by
  have h := traced_run hrun
  obtain ⟨more, v, outcome, hlength, hunaided, hmore, hclock, houtcome,
      hkind⟩ := Invocation.returnsUnaided h.run_eq hstarted hdue fault
  exact ⟨more, ⟨v, s.pipes⟩, outcome, hlength, hunaided,
    run_unaided hunaided hmore, rfl, hclock, houtcome, hkind⟩

/-- A tool that has ended while something it has started holds on to both
pipes: a cancelled run comes back with what was read, and both pipes are still
open. -/
theorem returns_unaided_held :
    ∃ (l : Launch) (events : List Event) (s : Session)
      (more : List Invocation.Event) (t : Session) (outcome : Outcome),
      (begin l {}).run events = some s
        ∧ s.run (more.map .inRun) = some t
        ∧ t.pipes = ⟨⟨[33], true⟩, ⟨[], true⟩⟩
        ∧ t.invocation.outcome? = some outcome
        ∧ Invocation.IsInterrupted ⟨"hi", ""⟩ outcome := by
  let l : Launch := ⟨⟨"lint", "rust"⟩, [], {}⟩
  let events : List Event :=
    [.inRun .started, .wrote .stdout [104, 105, 33],
      .inRun (.reader .stdout (.read [104, 105])),
      .inRun (.reader .stdout (.pushed [104, 105])),
      .inRun (.exited (.exited 0)), .inRun .cancelRequested]
  have hlast : ((begin l {}).run events).map
      (fun s => (s.pipes, s.invocation.output,
        s.invocation.isDue .cancelled))
      = some (⟨⟨[33], true⟩, ⟨[], true⟩⟩, ⟨"hi", ""⟩, true) := by decide
  obtain ⟨s, hrun, hs⟩ := Option.map_eq_some_iff.1 hlast
  obtain ⟨hpipes, hs⟩ := Prod.mk.inj hs
  obtain ⟨houtput, hdue⟩ := Prod.mk.inj hs
  obtain ⟨more, t, outcome, -, -, hmore, hkept, -, houtcome, hkind⟩ :=
    returns_unaided hrun (by decide) hdue none
  refine ⟨l, events, s, more, t, outcome, hrun, hmore,
    hkept.trans hpipes, houtcome, ?_⟩
  rw [← houtput]
  exact hkind (by simp [Invocation.Settled, events, inRun, Event.inRun?])

end Session

end Toolrun
