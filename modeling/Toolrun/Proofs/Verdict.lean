/-
The verdict on a run, which is given three times: as the exit code, as what is
printed in JSON, and as the outcome that both are made from. They agree
(`verdicts_agree`).

The codes and the names of the kinds are two tables of their own. That they
fit each other is put as a relation between a kind and a code (`CodeFor`),
and most of what there is to know of the codes follows from it: no failure has
the code zero, and no code has more than one byte if the tool's own has not.
For a run of a tool that last condition is one on how its child exits, since a
code is taken over only from a child that has exited with it.
-/
import Toolrun.Program
import Toolrun.Proofs.Report
import Toolrun.Proofs.Invocation.Outcome
import Toolrun.Proofs.Invocation.Child

namespace Toolrun

namespace RunFailure

/-- The exit code the tool itself ended with, where the failure is that it
ended so. -/
def ownCode? : RunFailure → Option Int
  | unsuccessful code? _ => code?
  | _ => none

/-- Which exit code goes with which kind of failure. Where the tool ended
without success it is the tool's own, if that can pass for a failure. -/
inductive CodeFor (own? : Option Int) : String → Int → Prop
  | config : CodeFor own? "config" 11
  | notFound : CodeFor own? "not_found" 20
  | spawn : CodeFor own? "spawn" 20
  | streamIo : CodeFor own? "stream_io" 20
  | wait : CodeFor own? "wait" 20
  | timedOut : CodeFor own? "timed_out" 30
  | cancelled : CodeFor own? "cancelled" 130
  | ownCode {code : Int} (hown : own? = some code) (hcode : code ≠ 0) :
      CodeFor own? "non_zero_exit" code
  | signal (hown : own? = none) : CodeFor own? "non_zero_exit" 1
  | zero (hown : own? = some 0) : CodeFor own? "non_zero_exit" 1

/-- Every failure has the exit code that goes with its kind. -/
theorem codeFor_exitCode (failure : RunFailure) :
    CodeFor failure.ownCode? failure.kind failure.exitCode := by
  cases failure with
  | badRequest reason => exact .config
  | toolNotFound tool => exact .notFound
  | startFailed tool cause => exact .spawn
  | cancelled output => exact .cancelled
  | timedOut afterMs output => exact .timedOut
  | streamFailed stream cause => exact .streamIo
  | waitFailed cause => exact .wait
  | unsuccessful code? output =>
      cases code? with
      | none => exact .signal rfl
      | some code =>
          by_cases hcode : code = 0
          · rw [hcode]
            exact .zero rfl
          · have hexit : exitCode (.unsuccessful (some code) output) = code :=
              if_neg hcode
            rw [hexit]
            exact .ownCode rfl hcode

theorem CodeFor.ne_zero {own? : Option Int} {kind : String} {code : Int}
    (h : CodeFor own? kind code) : code ≠ 0 := by
  cases h with
  | ownCode hown hcode => exact hcode
  | _ => decide

/-- All codes are of one byte if the tool's own is. -/
theorem CodeFor.range {own? : Option Int} {kind : String} {code : Int}
    (h : CodeFor own? kind code)
    (hown : ∀ own, own? = some own → 0 ≤ own ∧ own < 256) :
    0 ≤ code ∧ code < 256 := by
  cases h with
  | ownCode hcode => exact hown code hcode
  | _ => decide

end RunFailure

/-- Success, and nothing else, has the exit code zero. -/
theorem Outcome.exitCode_eq_zero_iff {outcome : Outcome} :
    outcome.exitCode = 0 ↔ ∃ output, outcome = .ok output := by
  cases outcome with
  | ok output => exact iff_of_true rfl ⟨output, rfl⟩
  | error failure =>
      exact iff_of_false failure.codeFor_exitCode.ne_zero
        fun ⟨_, hok⟩ => nomatch hok

namespace Report

/-- The verdict in a report is that of the outcome. -/
theorem Says.verdict {members : List (Bytes × Json)} {outcome : Outcome}
    (h : Says members outcome) :
    Json.valuesOf (Utf8.encode "ok") members = [.bool true]
      ↔ ∃ output, outcome = .ok output := by
  cases outcome with
  | ok output => exact iff_of_true h.2.1 ⟨output, rfl⟩
  | error failure =>
      refine iff_of_false (fun htrue => ?_) fun ⟨_, hok⟩ => nomatch hok
      cases h.2.1.symm.trans htrue

end Report

namespace Invocation

variable {l : Launch} {e : Entry} {events : List Event} {v : Invocation}

/-- A child that has ended without success never has the code zero. -/
theorem code?_ne_zero {ending : Ending} (h : ending.isSuccess = false) :
    ending.code? ≠ some 0 := by
  cases ending with
  | exited code =>
      intro hcode
      injection hcode with hcode
      have hzero : code = 0 := Int.ofNat_eq_zero.1 hcode
      rw [hzero] at h
      cases h
  | signalled signal => exact Option.some_ne_none _ ∘ Eq.symm

/-- A code that a run takes over from the tool is one with which its child
has ended, and not zero. -/
theorem ownCode_exited (hrun : (begin l e).run events = some v)
    {failure : RunFailure} (houtcome : v.outcome? = some (.error failure))
    {own : Int} (hown : failure.ownCode? = some own) :
    own ≠ 0 ∧ ∃ code : Nat, own = code ∧ .exited (.exited code) ∈ events := by
  have hwarranted := (recorded_run hrun).warranted houtcome
  -- no other failure has a code of the tool's own
  cases failure with
  | unsuccessful code? output =>
      obtain ⟨-, ⟨ending, hending, hfailed, rfl⟩, -⟩ := hwarranted
      refine ⟨fun hzero => code?_ne_zero hfailed (hzero ▸ hown), ?_⟩
      cases ending with
      | exited code =>
          injection hown with hown
          exact ⟨code, hown.symm, exited_mem hending⟩
      | signalled signal => cases hown
  | _ => cases hown

/-- Where a child that exits does so with a code of one byte, so does every
run. -/
theorem exitCode_range (hrun : (begin l e).run events = some v)
    (hcodes : ∀ code, .exited (.exited code) ∈ events → code < 256)
    {outcome : Outcome} (houtcome : v.outcome? = some outcome) :
    0 ≤ outcome.exitCode ∧ outcome.exitCode < 256 := by
  cases outcome with
  | ok output => exact ⟨Int.le_refl 0, (by decide : (0 : Int) < 256)⟩
  | error failure =>
      refine failure.codeFor_exitCode.range fun own hown => ?_
      obtain ⟨-, code, rfl, hexited⟩ := ownCode_exited hrun houtcome hown
      have hcode := hcodes code hexited
      omega

end Invocation

namespace Program

variable {sinks sinks' : Report.Sinks} {format : Format} {outcome : Outcome}
variable {code : Int}

/-- A run whose report is delivered ends with the exit code of its outcome. -/
theorem delivered_of_conclude
    (h : conclude sinks format outcome = (sinks', .ok code)) :
    Report.deliver sinks (Report.pieces format outcome) = (sinks', .ok ())
      ∧ outcome.exitCode = code := by
  unfold conclude at h
  split at h
  next delivered hdelivered =>
    injection h with hsinks hcode
    injection hcode with hcode
    exact ⟨hsinks ▸ hdelivered, hcode⟩
  next => cases h

/-- What is printed in JSON reads back as members that say the outcome. -/
theorem printed_of_conclude
    (h : conclude sinks .json outcome = (sinks', .ok code)) :
    ∃ printed members, sinks'.out.taken = sinks.out.taken ++ printed
      ∧ Json.read printed = .ok (.object members)
      ∧ Report.Says members outcome := by
  obtain ⟨hdelivered, -⟩ := delivered_of_conclude h
  have hbreak : ∀ b ∈ [0x0A], Json.Reader.isSpace b = true :=
    List.forall_mem_singleton.2 rfl
  obtain ⟨members, hread, hsays⟩ := Report.read_report outcome hbreak
  refine ⟨_, members, (Report.taken_of_deliver hdelivered).1, ?_, hsays⟩
  show Json.read (Report.Pieces.on .stdout (Report.jsonPieces outcome)) = _
  rw [← hread]
  congr 1
  exact List.append_nil _

/-- **One verdict.** Whenever the report of an outcome is delivered, the exit
code is zero for success alone, and for a failure it goes with its kind. The
object that is printed in JSON says the same: its verdict is good for the code
zero alone, and it names the kind of the very failure whose code is returned.
If the outcome is that of a run whose child, if it exits, does so with a code
of one byte, then one byte is enough for the exit code as well. -/
theorem verdicts_agree
    (h : conclude sinks format outcome = (sinks', .ok code)) :
    (code = 0 ↔ ∃ output, outcome = .ok output)
      ∧ (∀ failure, outcome = .error failure →
          RunFailure.CodeFor failure.ownCode? failure.kind code)
      ∧ (format = .json → ∃ printed members,
          sinks'.out.taken = sinks.out.taken ++ printed
            ∧ Json.read printed = .ok (.object members)
            ∧ (code = 0
                ↔ Json.valuesOf (Utf8.encode "ok") members = [.bool true])
            ∧ ∀ failure, outcome = .error failure → ∃ reason,
                Json.valuesOf (Utf8.encode "error") members
                    = [.object reason]
                  ∧ Report.textOf? "kind" reason = some failure.kind)
      ∧ ∀ (l : Launch) (e : Entry) (events : List Invocation.Event)
          (v : Invocation),
        (Invocation.begin l e).run events = some v →
        v.outcome? = some outcome →
        (∀ own, .exited (.exited own) ∈ events → own < 256) →
          code % 256 = code
            ∧ (code % 256 = 0 ↔ ∃ output, outcome = .ok output) := by
  obtain ⟨-, rfl⟩ := delivered_of_conclude h
  have hzero : outcome.exitCode = 0 ↔ ∃ output, outcome = .ok output :=
    Outcome.exitCode_eq_zero_iff
  refine ⟨hzero, ?_, ?_, ?_⟩
  · rintro failure rfl
    exact failure.codeFor_exitCode
  · rintro rfl
    obtain ⟨printed, members, htaken, hread, hsays⟩ := printed_of_conclude h
    refine ⟨printed, members, htaken, hread,
      hzero.trans hsays.verdict.symm, ?_⟩
    rintro failure rfl
    obtain ⟨-, -, ⟨reason, hreason, -, hkind, -⟩, -⟩ := hsays
    exact ⟨reason, hreason, hkind⟩
  · intro l e events v hrun houtcome hcodes
    obtain ⟨hleast, hless⟩ := Invocation.exitCode_range hrun hcodes houtcome
    have hbyte := Int.emod_eq_of_lt hleast hless
    exact ⟨hbyte, by rw [hbyte]; exact hzero⟩

/-- A tool that exits with the code three is reported as just that. -/
theorem verdicts_agree_three :
    ∃ sinks' printed members,
      conclude {} .json (.error (.unsuccessful (some 3) .none))
          = (sinks', .ok 3)
        ∧ sinks'.out.taken = printed
        ∧ Json.read printed = .ok (.object members)
        ∧ Json.valuesOf (Utf8.encode "ok") members ≠ [.bool true]
        ∧ (3 : Int) % 256 ≠ 0 := by
  let failure : RunFailure := .unsuccessful (some 3) .none
  let l : Launch := ⟨⟨"lint", "rust"⟩, [], {}⟩
  let events : List Invocation.Event :=
    [.started, .exited (.exited 3), .reader .stdout .ended,
      .reader .stderr .ended, .noticedDrained]
  have hconclude : conclude {} .json (.error failure)
      = ((conclude {} .json (.error failure)).1, .ok 3) := rfl
  have hlast : ((Invocation.begin l {}).run events).bind Invocation.outcome?
      = some (.error failure) := by decide
  obtain ⟨v, hrun, houtcome⟩ := Option.bind_eq_some_iff.1 hlast
  have hcodes : ∀ own, .exited (.exited own) ∈ events → own < 256 := by
    intro own hown
    simp [events] at hown
    omega
  obtain ⟨-, -, hjson, hbyte⟩ := verdicts_agree hconclude
  obtain ⟨printed, members, htaken, hread, hverdict, -⟩ := hjson rfl
  obtain ⟨hkept, -⟩ := hbyte l {} events v hrun houtcome hcodes
  exact ⟨_, printed, members, hconclude, htaken, hread,
    fun hgood => absurd (hverdict.2 hgood) (by decide),
    by rw [hkept]; decide⟩

end Program

end Toolrun
