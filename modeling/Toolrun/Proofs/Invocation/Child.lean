/-
No child outlives its run. A run spawns at most one child, and none if its
request is refused or cancelled beforehand; and wherever a run that has spawned
one comes to its end, the child's end was waited for, or a kill of it has come
back.

The carrying fact is that the phases keep books on the child: it is left in
just those phases in which the run still has to do something about it
(`unreaped_eq`). Each move settles the books by itself, so none of the many
ways out of a run has to be looked at for what it forgets.
-/
import Toolrun.Proofs.Invocation.Record

namespace Toolrun

-- ============================================================== the books

/-- Whether a run in this phase has still to see to its child. -/
def Phase.holdsChild : Phase → Bool
  | .running => true
  | .stopping _ => true
  | .discarding _ => true
  | _ => false

namespace Invocation

/-- Whether a child is left after an event, if one was `left` before: a start
leaves one, the news of its end or of its kill do not. -/
def Event.leaves (left : Bool) : Event → Bool
  | .started => true
  | .exited _ => false
  | .killed _ => false
  | _ => left

/-- Whether events leave a child that nobody has waited for or killed. -/
def unreaped (events : List Event) : Bool :=
  events.foldl Event.leaves false

variable {l : Launch} {e : Entry} {events : List Event} {event : Event}
  {v w : Invocation}

/-- Every move keeps the books: it changes what the run has to see to just as
its event changes what is left. -/
theorem Step.leaves_eq (h : Step v event w) :
    event.leaves v.phase.holdsChild = w.phase.holdsChild := by
  cases h with
  | askCancel hgoes => rfl
  | passTime hgoes => rfl
  | read hreading hstep => rfl
  | start hphase => rfl
  | exit hphase => rfl
  | kill hphase => rfl
  | discard hphase => rfl
  | failStart hphase =>
      show v.phase.holdsChild = false
      rw [hphase]
      rfl
  | failWait hphase =>
      show v.phase.holdsChild = true
      rw [hphase]
      rfl
  | interrupt hdue hphase =>
      show v.phase.holdsChild = true
      rw [hphase]
      rfl
  | cutShort hdue hphase =>
      show v.phase.holdsChild = false
      rw [hphase]
      rfl
  | lookOut hphase hseen => rfl
  | lookErr hphase hseen =>
      show v.phase.holdsChild = false
      rw [hphase]
      rfl
  | conclude hresult hphase =>
      show v.phase.holdsChild = false
      rw [hphase]
      rfl
  | flush hresult hphase =>
      show v.phase.holdsChild = false
      rw [hphase]
      rfl
  | expire hphase hgrace =>
      show v.phase.holdsChild = false
      rw [hphase]
      rfl

/-- Nothing is left before anything has happened. -/
theorem holdsChild_begin (l : Launch) (e : Entry) :
    (begin l e).phase.holdsChild = false := by
  cases hcheck : l.tool.check with
  | error failure =>
      rw [phase_begin_of_refused hcheck]
      rfl
  | ok _ =>
      rw [phase_begin_of_valid hcheck]
      split
      · rfl
      · split
        · rfl
        · rfl

/-- A child is left in just those phases in which the run has to see to it. -/
theorem unreaped_eq (hrun : (begin l e).run events = some v) :
    unreaped events = v.phase.holdsChild := by
  refine Runs.induction
    (P := fun events (v : Invocation) => unreaped events = v.phase.holdsChild)
    ?_ ?_ hrun
  · exact (holdsChild_begin l e).symm
  · intro events s event t _ hbooks hstep
    show (events ++ [event]).foldl Event.leaves false = t.phase.holdsChild
    rw [List.foldl_append]
    show event.leaves (unreaped events) = t.phase.holdsChild
    rw [hbooks]
    exact (step_iff.1 hstep).leaves_eq

/-- Who has come to an end has no child to see to. -/
theorem holdsChild_of_outcome? (h : v.outcome?.isSome = true) :
    v.phase.holdsChild = false := by
  unfold outcome? at h
  split at h
  next outcome hphase =>
    rw [hphase]
    rfl
  next => cases h

-- ============================================================ the spawning

/-- Only a request that was let through gets to spawn, and only once. -/
theorem Recorded.spawns_cases (h : Recorded l e events v) :
    spawns events = []
      ∨ Admitted l e ∧ ∃ event, spawns events = [event] := by
  have once : Spawned l e events →
      spawns events = [] ∨ Admitted l e ∧ ∃ event, spawns events = [event] :=
    fun hspawned => Or.inr ⟨hspawned.toAdmitted, _, hspawned.spawns_eq⟩
  obtain rfl := h.launch_eq
  obtain rfl := h.entry_eq
  cases hphase : v.phase with
  | starting => exact Or.inl (h.shows_at hphase).2.1
  | running => exact once (h.shows_at hphase).1
  | stopping why => exact once (h.shows_at hphase).1
  | discarding cause => exact once (h.shows_at hphase).1
  | draining ending => exact once (h.shows_at hphase).1
  | flushing why graceEnd => exact once (h.shows_at hphase).1
  | leaving why readAt => exact once (h.shows_at hphase).1
  | brokenOff =>
      obtain ⟨rfl, -⟩ := h.shows_at hphase
      exact Or.inl rfl
  | finished outcome =>
      have hclosed : Closed v events outcome := h.shows_at hphase
      cases hclosed with
      | refused hcheck hevents =>
          rw [hevents]
          exact Or.inl rfl
      | forestalled hcheck hcancelled hevents =>
          rw [hevents]
          exact Or.inl rfl
      | notStarted hadmitted hspawns => exact Or.inr ⟨hadmitted, _, hspawns⟩
      | concluded hspawned => exact once hspawned
      | interrupted hspawned => exact once hspawned
      | discarded hspawned => exact once hspawned

/-- Every way in which a run that has started a child comes to its end leads
past the child's own end or past a kill. -/
theorem Closed.reaped {outcome : Outcome} (h : Closed v events outcome)
    (hstarted : .started ∈ events) : Reaped events := by
  cases h with
  | refused hcheck hevents =>
      rw [hevents] at hstarted
      cases hstarted
  | forestalled hcheck hcancelled hevents =>
      rw [hevents] at hstarted
      cases hstarted
  | notStarted hadmitted hspawns =>
      have hspawn : .started ∈ spawns events :=
        List.mem_filter.2 ⟨hstarted, rfl⟩
      rw [hspawns] at hspawn
      cases List.mem_singleton.1 hspawn
  | concluded hspawned hending => exact Or.inl ⟨_, exited_mem hending⟩
  | interrupted hspawned hreaped => exact hreaped
  | discarded hspawned hfailed hkilled => exact Or.inr ⟨_, hkilled⟩

-- ============================================================== the result

/-- No child is left behind. A run asks for at most one child, and for none if
the request is refused or cancelled at its entry. If it has started one and has
an outcome, no child is left, since its end was told or its kill came back
before. And a child that was started is always read from: the run does not end
for want of an end to read. -/
theorem no_child_left (hrun : (begin l e).run events = some v) :
    (spawns events).length ≤ 1
      ∧ (l.tool.check ≠ .ok () ∨ e.cancelled = true → spawns events = [])
      ∧ (v.outcome?.isSome = true → .started ∈ events →
          unreaped events = false
            ∧ ((∃ ending, .exited ending ∈ events)
              ∨ ∃ fault, .killed fault ∈ events))
      ∧ (∀ w, v.step .started = some w → w.phase = .running) := by
  have h := recorded_run hrun
  refine ⟨?_, ?_, ?_, ?_⟩
  · rcases h.spawns_cases with hnone | ⟨-, event, hone⟩
    · rw [hnone]
      exact Nat.zero_le 1
    · rw [hone]
      exact Nat.le_refl 1
  · intro hturned
    rcases h.spawns_cases with hnone | ⟨hadmitted, -⟩
    · exact hnone
    · rcases hturned with hrefused | hcancelled
      · exact absurd hadmitted.valid hrefused
      · rw [hadmitted.notCancelled] at hcancelled
        cases hcancelled
  · intro hover hstarted
    obtain ⟨outcome, houtcome⟩ := Option.isSome_iff_exists.1 hover
    refine ⟨?_, (closed_of_outcome? h houtcome).reaped hstarted⟩
    rw [unreaped_eq hrun]
    exact holdsChild_of_outcome? hover
  · intro w hstep
    cases Step.of_step hstep with
    | start hphase => rfl

/-- A child that cannot be waited for is killed before the run reports so. -/
theorem no_child_left_unwaited :
    ∃ (l : Launch) (events : List Event) (v : Invocation),
      (begin l {}).run events = some v
        ∧ v.outcome? = some (.error (.waitFailed (.other "lost")))
        ∧ unreaped events = false := by
  let l : Launch := ⟨⟨"lint", "rust"⟩, [], {}⟩
  let events : List Event :=
    [.started, .reader .stdout (.read [104, 105]),
      .waitFailed (.other "lost"), .cancelRequested, .killed none]
  have hlast : ((begin l {}).run events).bind outcome?
      = some (.error (.waitFailed (.other "lost"))) := by decide
  obtain ⟨v, hrun, houtcome⟩ := Option.bind_eq_some_iff.1 hlast
  have hover : v.outcome?.isSome = true := Option.isSome_of_eq_some houtcome
  obtain ⟨-, -, hreaped, -⟩ := no_child_left hrun
  exact ⟨l, events, v, hrun, houtcome, (hreaped hover List.mem_cons_self).1⟩

end Invocation

end Toolrun
