/-
What comes of a tool that is run on a machine.

Whatever happens once its child has been started, the invocation moves by its
own steps and by no others; so what is known of all runs of an invocation holds
of a run on any machine (`runToolWith_traced`). What the machine adds to this
is that a start fails just if the system refuses it.

So a tool is reported as not found just if its start fails for want of an
entry (`runToolWith_toolNotFound`). Which entry that was the report does not
say: it may be the tool, but also its working directory or its interpreter
(`found_tool_reported`).
-/
import Toolrun.Host.Runner
import Toolrun.Proofs.Host.Start
import Toolrun.Proofs.Invocation.Outcome

namespace Toolrun

namespace Invocation

/-- Only a run that is about to start its child can fail to. -/
theorem phase_of_startFailed {v w : Invocation} {cause : IoFault}
    (h : v.step (.startFailed cause) = some w) : v.phase = .starting := by
  cases Step.of_step h with
  | failStart hphase => exact hphase

/-- A run that has moved on from the start does not come back to it. -/
theorem Step.phase_ne_starting {v w : Invocation} {event : Event}
    (h : Step v event w) (hphase : v.phase ≠ .starting) :
    w.phase ≠ .starting := by
  cases h with
  | askCancel => exact hphase
  | passTime => exact hphase
  | read => exact hphase
  | lookOut => exact hphase
  | _ => exact fun h => nomatch h

/-- It does not fail to start its child any more. -/
theorem startFailed_not_mem {v w : Invocation} {events : List Event}
    (hphase : v.phase ≠ .starting) (hrun : v.run events = some w)
    (cause : IoFault) : .startFailed cause ∉ events := by
  have hall : w.phase ≠ .starting ∧ .startFailed cause ∉ events := by
    refine Runs.induction
      (P := fun events (w : Invocation) =>
        w.phase ≠ .starting ∧ .startFailed cause ∉ events)
      ⟨hphase, List.not_mem_nil⟩ ?_ hrun
    rintro events u event w - ⟨hbehind, hnone⟩ hstep
    refine ⟨(Step.of_step hstep).phase_ne_starting hbehind, fun hmem => ?_⟩
    rcases List.mem_append.1 hmem with hmem | hmem
    · exact hnone hmem
    · rw [← List.mem_singleton.1 hmem] at hstep
      exact hbehind (phase_of_startFailed hstep)
  exact hall.2

end Invocation

namespace Host

-- ==================================================================== tools

variable {after : Aftermath} {c : Circumstances} {files : Files} {l : Launch}

theorem Circumstances.request_tool (c : Circumstances) (l : Launch) :
    (c.request l).tool = Utf8.encode l.tool.path := rfl

/-- A run that gets as far as starting its child. -/
structure ReachesStart (c : Circumstances) (l : Launch) : Prop
    extends Invocation.Admitted l { cancelled := c.cancelledBefore } where
  timed : Invocation.canBeTimed l.options 0 = true

theorem phase_beginning_eq_starting :
    (c.beginning l).phase = .starting ↔ ReachesStart c l := by
  unfold Circumstances.beginning
  cases hcheck : l.tool.check with
  | error failure =>
      rw [Invocation.phase_begin_of_refused hcheck]
      refine iff_of_false (fun h => nomatch h) fun h => ?_
      cases hcheck.symm.trans h.valid
  | ok _ =>
      rw [Invocation.phase_begin_of_valid hcheck]
      simp only
      split
      next hcancelled =>
        refine iff_of_false (fun h => nomatch h) fun h => ?_
        cases hcancelled.symm.trans h.notCancelled
      next hcancelled =>
        have hadmitted :
            Invocation.Admitted l { cancelled := c.cancelledBefore } :=
          ⟨hcheck, eq_false_of_ne_true hcancelled⟩
        split
        next htimed => exact iff_of_true rfl ⟨hadmitted, htimed⟩
        next htimed =>
          exact iff_of_false (fun h => nomatch h) fun h => htimed h.timed

/-- If the system refuses a start, that is the outcome, and nothing has been
done. -/
theorem runToolWith_of_refused {cause : IoFault} (hreaches : ReachesStart c l)
    (hstart : (c.request l).start files c.cwd = .error cause) :
    runToolWith after c files l
      = (files, .error (Invocation.startFailure l.tool cause)) := by
  have hphase := phase_beginning_eq_starting.2 hreaches
  have hstep : (c.beginning l).step (.startFailed cause) = some _ :=
    (Invocation.Step.failStart hphase).step_eq
  have hrefused : (c.request (c.beginning l).launch).start files c.cwd
      = .error cause := hstart
  unfold runToolWith start
  simp only [hphase, hrefused, hstep]
  rfl

/-- A tool that is run on a machine goes through a run of its invocation, in
which a start has failed only if the system has refused it. -/
theorem runToolWith_traced (after : Aftermath) (c : Circumstances)
    (files : Files) (l : Launch) :
    ∃ events v, (c.beginning l).run events = some v
        ∧ (runToolWith after c files l).2 = v.outcome?.getD endless
        ∧ ∀ cause, .startFailed cause ∈ events →
          ReachesStart c l
            ∧ (c.request l).start files c.cwd = .error cause := by
  by_cases hphase : (c.beginning l).phase = .starting
  · have hreaches := phase_beginning_eq_starting.1 hphase
    cases hstart : (c.request l).start files c.cwd with
    | error cause =>
        have hstep : (c.beginning l).step (.startFailed cause) = some _ :=
          (Invocation.Step.failStart hphase).step_eq
        refine ⟨[.startFailed cause], _, (Runs.singleton _ _).trans hstep, ?_,
          fun other hmem => ?_⟩
        · rw [runToolWith_of_refused hreaches hstart]
          rfl
        · cases List.mem_singleton.1 hmem
          exact ⟨hreaches, rfl⟩
    | ok image =>
        have hstep := (Invocation.Step.start hphase).step_eq
        let started :=
          { c.beginning l with
            readers := .fresh (c.beginning l).options.captureBytes
            phase := .running }
        let child : StartedChild :=
          ⟨image, (c.request l).environment, files⟩
        have hbehind : started.phase ≠ .starting := fun h => nomatch h
        obtain ⟨events, hrun⟩ := after.moves c child started
        refine ⟨.started :: events, _, Runs.cons_eq_some.2 ⟨_, hstep, hrun⟩,
          ?_, fun cause hmem => ?_⟩
        · have hallowed : (c.request (c.beginning l).launch).start files c.cwd
              = .ok image := hstart
          unfold runToolWith start
          simp only [hphase, hallowed, hstep]
          rfl
        · -- the start is behind the run, so none of these events is one
          rcases List.mem_cons.1 hmem with hmem | hmem
          · cases hmem
          · exact absurd hmem
              (Invocation.startFailed_not_mem hbehind hrun cause)
  · refine ⟨[], c.beginning l, rfl, ?_, nofun⟩
    unfold runToolWith
    simp only

/-- A tool is reported as not found just if its start fails for want of an
entry. -/
theorem runToolWith_toolNotFound :
    (∃ name, (runToolWith after c files l).2 = .error (.toolNotFound name))
      ↔ ReachesStart c l
        ∧ (c.request l).start files c.cwd = .error (.system .noEntry) := by
  constructor
  · rintro ⟨name, hreported⟩
    obtain ⟨events, v, hrun, houtcome, hstarts⟩ :=
      runToolWith_traced after c files l
    rw [hreported] at houtcome
    cases hover : v.outcome? with
    | none =>
        rw [hover] at houtcome
        cases houtcome
    | some outcome =>
        rw [hover] at houtcome
        cases houtcome
        -- no such outcome without the failed start that it stands for
        exact hstarts _ ((Invocation.recorded_run hrun).warranted hover)
  · rintro ⟨hreaches, hstart⟩
    refine ⟨l.tool.path, ?_⟩
    rw [runToolWith_of_refused hreaches hstart]
    rfl

-- ================================================================ the result

/-- A tool that has been found can be reported as not found. If there is a
file for it that may be run, looked for from where it is to run, then it is so
reported just if the run comes to the start and either the working directory
is missing, or the file that was found lacks its interpreter and nothing else
is run in its place. Whatever else a start fails for is reported as a failed
start. -/
theorem found_tool_reported (after : Aftermath)
    (hfound : ∀ dir, (c.request l).directory files c.cwd = .ok dir →
      ∃ path, (c.request l).found? files dir = some path) :
    ((∃ name, (runToolWith after c files l).2 = .error (.toolNotFound name))
        ↔ ReachesStart c l ∧ (c.request l).IsNulFree
          ∧ ((c.request l).LacksDirectory files c.cwd
            ∨ ∃ dir path, (c.request l).directory files c.cwd = .ok dir
              ∧ (c.request l).found? files dir = some path
              ∧ (c.request l).LacksInterpreter files dir path
              ∧ (c.request l).Missing files dir))
      ∧ (ReachesStart c l → ∀ cause,
          (c.request l).start files c.cwd = .error cause →
            cause ≠ .system .noEntry →
              (runToolWith after c files l).2
                = .error (.startFailed l.tool.path cause)) := by
  constructor
  · rw [runToolWith_toolNotFound, StartRequest.start_eq_noEntry]
    refine and_congr_right fun _ => and_congr_right fun _ =>
      or_congr_right ?_
    constructor
    · rintro ⟨dir, hdirectory, hmissing⟩
      obtain ⟨path, hpath⟩ := hfound dir hdirectory
      exact ⟨dir, path, hdirectory, hpath, hmissing.lacksInterpreter hpath,
        hmissing⟩
    · rintro ⟨dir, path, hdirectory, -, -, hmissing⟩
      exact ⟨dir, hdirectory, hmissing⟩
  · intro hreaches cause hstart hcause
    rw [runToolWith_of_refused hreaches hstart]
    unfold Invocation.startFailure
    rw [if_neg hcause]

/-- A script is there and may be run; but its interpreter is missing, and so
the script is reported as not found. -/
theorem found_tool_reported_script :
    ∃ (c : Circumstances) (files : Files) (l : Launch),
      (∀ dir, (c.request l).directory files c.cwd = .ok dir →
        ∃ path, (c.request l).found? files dir = some path)
      ∧ files.find c.cwd (Utf8.encode "/t")
        = .ok (.file (Utf8.encode "#!/nope\n") 0o755)
      ∧ ∀ after, ∃ name,
          (runToolWith after c files l).2 = .error (.toolNotFound name) := by
  let files : Files :=
    ⟨[([Utf8.encode "t"], .file (Utf8.encode "#!/nope\n") 0o755)]⟩
  let c : Circumstances := { cwd := [] }
  let l : Launch := ⟨⟨"/t", "go"⟩, [], {}⟩
  have htool : (c.request l).tool = Utf8.encode "/t" := c.request_tool l
  have hscript : files.find [] (Utf8.encode "/t")
      = .ok (.file (Utf8.encode "#!/nope\n") 0o755) := by decide +kernel
  have hfound : (c.request l).found? files [] = some (Utf8.encode "/t") := by
    decide +kernel
  have hnone : files.find [] (Utf8.encode "/nope") = .error .noEntry := by
    decide +kernel
  have hnamed : interpreter? (Utf8.encode "#!/nope\n")
      = some (Utf8.encode "/nope", []) := by decide +kernel
  have hfits : fits (Utf8.encode "/t" :: (c.request l).arguments)
      (assignments (c.request l).environment) = true := by decide +kernel
  have hrefused : RefusedAt files [] (assignments (c.request l).environment)
      ((c.request l).tool :: (c.request l).arguments) (c.request l).tool
      .noEntry := by
    rw [htool]
    exact .script (.file hscript rfl hfits) hnamed (.unopened (.lost hnone))
  have hstill (dir : Location)
      (hdirectory : (c.request l).directory files c.cwd = .ok dir) :
      ∃ path, (c.request l).found? files dir = some path := by
    cases hdirectory
    exact ⟨_, hfound⟩
  have hnul : (c.request l).IsNulFree := by
    unfold StartRequest.IsNulFree
    decide +kernel
  have hlacks : (c.request l).LacksInterpreter files [] (Utf8.encode "/t") :=
    .named (e := .noEntry) hscript hnamed rfl (.unopened (.lost hnone))
  refine ⟨c, files, l, hstill, hscript, fun after =>
    (found_tool_reported after hstill).1.2 ⟨⟨⟨by decide, rfl⟩, rfl⟩, hnul,
      .inr ⟨[], _, rfl, hfound, hlacks, .path (by decide +kernel) hrefused⟩⟩⟩

/-- A program is there, and found from everywhere; but the working directory
is missing, and so the program is reported as not found. -/
theorem present_tool_not_found :
    ∃ (c : Circumstances) (files : Files) (l : Launch),
      l.tool.path = "/bin/true" ∧ l.options.workingDir = some "/nope"
        ∧ (∀ dir, (c.request l).found? files dir
            = some (Utf8.encode "/bin/true"))
        ∧ ∀ after, (runToolWith after c files l).2
            = .error (.toolNotFound "/bin/true") := by
  let files : Files :=
    ⟨[([Utf8.encode "bin"], .directory),
      ([Utf8.encode "bin", Utf8.encode "true"], .program "true")]⟩
  let c : Circumstances := { cwd := [] }
  let l : Launch := ⟨⟨"/bin/true", "go"⟩, [], { workingDir := some "/nope" }⟩
  have hreaches : ReachesStart c l := ⟨⟨by decide, rfl⟩, rfl⟩
  have hfound (dir : Location) : (c.request l).found? files dir
      = some (c.request l).tool :=
    StartRequest.found?_of_absolute (by decide +kernel)
      (show files.leadsToExecutable [] _ = true by decide +kernel) dir
  have hnone : files.find [] (Utf8.encode "/nope") = .error .noEntry := by
    decide +kernel
  have hnul : (c.request l).IsNulFree := by
    unfold StartRequest.IsNulFree
    decide +kernel
  have hstart : (c.request l).start files c.cwd
      = .error (.system .noEntry) :=
    StartRequest.start_eq_noEntry.2 ⟨hnul, .inl ⟨_, rfl, hnone⟩⟩
  rw [c.request_tool] at hfound
  refine ⟨c, files, l, rfl, rfl, hfound, fun after => ?_⟩
  rw [runToolWith_of_refused hreaches hstart]
  rfl

end Host

end Toolrun
