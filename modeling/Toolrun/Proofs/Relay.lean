/-
A tool seen through the program, in text. If the tool ends by itself, and
nothing disturbs its run, then whoever reads what the program writes reads
what the tool has written, byte for byte; a tool that has failed has one line
added to its errors, on a line of its own (`Ending.relayed`).

Three things have to fit together for this. In a session with such a run all
that the child has written is read (`Session.written_of_undisturbed`), the run
ends with the text of that (`Session.outcome_of_notice`), and the report of
the outcome gives the bytes of the text back (`reported_own`). What is lost
elsewhere is not lost here: bytes over the limit of a capture, and bytes that
are not text. What the program itself may have to say in its log is not a part
of what is seen.
-/
import Toolrun.Program
import Toolrun.Proofs.Report
import Toolrun.Proofs.Fallible
import Toolrun.Proofs.Session
import Toolrun.Proofs.Invocation.Undisturbed

namespace Toolrun

-- ============================================================= what is seen

/-- What is to be seen of a tool that has written to its two streams and has
then ended by itself. -/
def Ending.relayed (out err : Bytes) (left : Files) : Ending → Completion
  | .exited 0 =>
    { exitCode := 0
      stdout := out
      stderr := err
      files := left }
  | .exited code =>
    { exitCode := code
      stdout := out
      stderr := err ++ lineEnd err ++
        Utf8.encode ("toolrun: tool exited with status "
          ++ Numeral.decimal code ++ "\n")
      files := left }
  | .signalled _ =>
    { exitCode := 1
      stdout := out
      stderr := err ++ lineEnd err ++
        Utf8.encode "toolrun: tool terminated by signal\n"
      files := left }

namespace Program

/-- Where both streams take everything, a report is seen whole. -/
theorem reported_eq (left : Files) (format : Format) (outcome : Outcome) :
    reported left format outcome
      = { exitCode := outcome.exitCode
          stdout := Report.Pieces.on .stdout (Report.pieces format outcome)
          stderr := Report.Pieces.on .stderr (Report.pieces format outcome)
          files := left } := by
  unfold reported conclude
  rw [show ({} : Report.Sinks) = ⟨{ taken := [] }, { taken := [] }⟩ from rfl,
    Report.deliver_unbounded]
  rfl

/-- A success in text is what the tool wrote. -/
theorem reported_success (output : Output) (left : Files) :
    reported left .text (.ok output)
      = { exitCode := 0
          stdout := Utf8.encode output.stdout
          stderr := Utf8.encode output.stderr
          files := left } := by
  rw [reported_eq]
  simp [Report.pieces, Report.textPieces, Report.forwarded, Report.Pieces.on,
    Outcome.exitCode]

/-- A failure in text is what the tool wrote, and one line more. -/
theorem reported_failure (failure : RunFailure) {output : Output}
    (houtput : failure.partialOutput? = some output) (left : Files) :
    reported left .text (.error failure)
      = { exitCode := failure.exitCode
          stdout := Utf8.encode output.stdout
          stderr := Utf8.encode output.stderr
            ++ lineEnd (Utf8.encode output.stderr)
            ++ Report.failureLine failure.message
          files := left } := by
  rw [reported_eq, ← Report.missingBreak_eq]
  simp [Report.pieces, Report.textPieces, Report.forwarded, Report.Pieces.on,
    Outcome.exitCode, houtput]

/-- The report of a tool that has ended by itself gives back the bytes of its
output. -/
theorem reported_own (ending : Ending) (out err : String) (left : Files) :
    reported left .text (ending.outcome ⟨out, err⟩)
      = ending.relayed (Utf8.encode out) (Utf8.encode err) left := by
  have hfailed (code? : Option Int) :=
    reported_failure (.unsuccessful code? ⟨out, err⟩) rfl left
  cases ending with
  | exited code =>
      cases code with
      | zero => exact reported_success ⟨out, err⟩ left
      | succ code =>
          have hexit : RunFailure.exitCode
              (.unsuccessful (some (code + 1 : Nat)) ⟨out, err⟩)
                = (code + 1 : Nat) := by
            unfold RunFailure.exitCode
            exact if_neg (by omega)
          have hreported := hfailed (some (code + 1 : Nat))
          rw [hexit] at hreported
          exact hreported
  | signalled signal => exact hfailed none

end Program

namespace Session

open Invocation (Undisturbed)

/-- Running a tool by letting some events happen one after the other. There is
an answer if they can happen and lead to an outcome; the files are left in
some state. -/
def runner (e : Entry) (events : List Event) (left : Files) :
    RunnerIn Option := fun _ launch => do
  let s ← (begin launch e).run events
  let outcome ← s.invocation.outcome?
  some (left, outcome)

variable {l : Launch} {e : Entry} {out err : Bytes} {ending : Ending}
  {events before : List Event} {s t : Session}

/-- In a session with an undisturbed run all that is written is read. -/
theorem written_of_undisturbed (hrun : (begin l e).run events = some s)
    (h : Undisturbed l e out err ending (inRun events)) :
    bytesWritten .stdout events = out ∧ bytesWritten .stderr events = err := by
  have hinRun := (traced_run hrun).run_eq
  obtain ⟨v, hv, hready⟩ := h.progress
  obtain rfl : s.invocation = v := Option.some.inj (hinRun.symm.trans hv)
  have hwritten (stream : Stream) {bytes : Bytes}
      (hfeed : Reader.IsFeed bytes
        (Invocation.eventsOn stream (inRun events))) :
      bytesWritten stream events = bytes := by
    have hended := hready.ended stream
    have hresult : (s.invocation.readers.get stream).result? ≠ none := by
      rw [Reader.result?_of_ended hended]
      exact Option.some_ne_none _
    rw [← bytesHanded_eq_of_ended hrun hended]
    exact (Reader.ended_of_feed hfeed (List.prefix_refl _)
      ((Invocation.recorded_run hinRun).readers stream) hresult).2
  exact ⟨hwritten .stdout h.outFeed, hwritten .stderr h.errFeed⟩

/-- After all its events, a session with an undisturbed run can conclude. -/
theorem concludes_of_undisturbed (hrun : (begin l e).run events = some s)
    (h : Undisturbed l e out err ending (inRun events)) :
    ∃ t, (begin l e).run (events ++ [.inRun .noticedDrained]) = some t := by
  obtain ⟨v, hv, hready⟩ := h.progress
  obtain rfl : s.invocation = v :=
    Option.some.inj ((traced_run hrun).run_eq.symm.trans hv)
  obtain ⟨u, hu⟩ := hready.conclude
  refine ⟨⟨u, s.pipes⟩, Runs.append_eq_some.2 ⟨s, hrun, ?_⟩⟩
  rw [Runs.singleton]
  show s.stepRun .noticedDrained = _
  unfold stepRun
  rw [hu]
  rfl

/-- Whatever is noticed in a session with an undisturbed run, the outcome is
that of the child's ending with all that was written. -/
theorem outcome_of_notice
    (h : Undisturbed l e out err ending (inRun events))
    (hbefore : before <+: events) {notice : Invocation.Event}
    (hnotice : notice.isNotice = true)
    (hrun : (begin l e).run (before ++ [.inRun notice]) = some t) :
    t.invocation.outcome?
      = some (Invocation.undisturbedOutcome l out err ending) := by
  have hinRun := (traced_run hrun).run_eq
  rw [inRun_append] at hinRun
  obtain ⟨v, hv, hstep⟩ := Runs.append_eq_some.1 hinRun
  exact h.outcome_of_notice (hbefore.filterMap _) hv hnotice
    ((Runs.singleton _ _).symm.trans hstep)

/-- Texts that fit into the captures are what an undisturbed run has for its
output. -/
theorem undisturbedOutcome_of_fits {outText errText : String}
    (hout : (Utf8.encode outText).length ≤ l.options.captureBytes)
    (herr : (Utf8.encode errText).length ≤ l.options.captureBytes) :
    Invocation.undisturbedOutcome l (Utf8.encode outText)
        (Utf8.encode errText) ending
      = ending.outcome ⟨outText, errText⟩ := by
  unfold Invocation.undisturbedOutcome
  rw [List.take_of_length_le hout, List.take_of_length_le herr,
    Utf8.decodeLossy_encode, Utf8.decodeLossy_encode]

end Session

namespace Program

variable {w : Surroundings} {words : List Bytes} {line : CommandLine}
  {files : Files} {l : Launch} {e : Entry} {out err : Bytes}
  {ending : Ending} {events : List Session.Event} {s : Session}

/-- **What a tool writes is what is seen.** Let a request in text come to a
launch, and let a session with it go undisturbed, in which the child ends by
itself, having written two texts that fit into the captures. Then the program
comes to its end with just these bytes on its two streams, where a failure has
its line added; and wherever in such a session the program comes to an end, it
does so in no other way. -/
theorem passes_through (hwords : CommandLine.read words = .ok line)
    (hplan : Plan.of w line = (files, .ok (.launch l .text)))
    (hsession : (Session.begin l e).run events = some s)
    (hundisturbed : Invocation.Undisturbed l e out err ending
      (Session.inRun events))
    (houtText : ∃ text, out = Utf8.encode text)
    (herrText : ∃ text, err = Utf8.encode text)
    (houtFits : out.length ≤ l.options.captureBytes)
    (herrFits : err.length ≤ l.options.captureBytes) (left : Files) :
    Session.bytesWritten .stdout events = out
      ∧ Session.bytesWritten .stderr events = err
      ∧ runWith (Session.runner e (events ++ [.inRun .noticedDrained]) left)
            w words
          = some (.completed (ending.relayed out err left))
      ∧ ∀ before notice conclusion, before <+: events →
          notice.isNotice = true →
          runWith (Session.runner e (before ++ [.inRun notice]) left) w words
            = some conclusion →
          conclusion = .completed (ending.relayed out err left) := by
  obtain ⟨outText, rfl⟩ := houtText
  obtain ⟨errText, rfl⟩ := herrText
  obtain ⟨hout, herr⟩ := Session.written_of_undisturbed hsession hundisturbed
  have hends {before : List Session.Event} {notice : Invocation.Event}
      (hbefore : before <+: events) (hnotice : notice.isNotice = true)
      {t : Session}
      (ht : (Session.begin l e).run (before ++ [.inRun notice]) = some t) :
      runWith (Session.runner e (before ++ [.inRun notice]) left) w words
        = some (.completed (ending.relayed (Utf8.encode outText)
            (Utf8.encode errText) left)) := by
    have houtcome :=
      Session.outcome_of_notice hundisturbed hbefore hnotice ht
    rw [Session.undisturbedOutcome_of_fits houtFits herrFits] at houtcome
    rw [runWith_of_launch hwords hplan]
    unfold Session.runner
    rw [ht]
    simp only [Option.bind_eq_bind, Option.bind_some, houtcome,
      Option.map_eq_map, Option.map_some, reported_own]
  refine ⟨hout, herr, ?_, ?_⟩
  · obtain ⟨t, ht⟩ :=
      Session.concludes_of_undisturbed hsession hundisturbed
    exact hends (List.prefix_refl events) rfl ht
  · intro before notice conclusion hbefore hnotice hconclusion
    -- where the notice cannot come there is no answer
    cases ht : (Session.begin l e).run (before ++ [.inRun notice]) with
    | none =>
        rw [runWith_of_launch hwords hplan] at hconclusion
        unfold Session.runner at hconclusion
        rw [ht] at hconclusion
        cases hconclusion
    | some t =>
        rw [hends hbefore hnotice ht] at hconclusion
        exact (Option.some.inj hconclusion).symm

/-- A tool that fails, having written a character in two pieces, a byte zero
and a line without its end: all of that is seen, and then the failure. -/
theorem passes_through_unsuccessful :
    ∃ (w : Surroundings) (words : List Bytes) (events : List Session.Event),
      Session.bytesWritten .stdout events = Utf8.encode "é\x00"
        ∧ Session.bytesWritten .stderr events = Utf8.encode "no"
        ∧ runWith (Session.runner {} events {}) w words
          = some (.completed
              { exitCode := 3
                stdout := Utf8.encode "é\x00"
                stderr := Utf8.encode
                  "no\ntoolrun: tool exited with status 3\n" }) := by
  let words : List Bytes :=
    ["run", "--tool", "lint", "--language", "rust"].map Utf8.encode
  let line : CommandLine :=
    ⟨none, .run { tool := some "lint", language := some "rust" }⟩
  let l : Launch := ⟨⟨"lint", "rust"⟩, [], {}⟩
  let events : List Session.Event :=
    [.inRun .started, .wrote .stdout [0xC3], .wrote .stderr [0x6E, 0x6F],
      .inRun (.reader .stdout (.read [0xC3])), .wrote .stdout [0xA9, 0x00],
      .inRun (.reader .stdout (.pushed [0xC3])),
      .inRun (.exited (.exited 3)), .closed .stdout, .closed .stderr,
      .inRun (.reader .stderr (.read [0x6E, 0x6F])),
      .inRun (.reader .stderr (.pushed [0x6E, 0x6F])),
      .inRun (.reader .stderr .ended),
      .inRun (.reader .stdout (.read [0xA9, 0x00])),
      .inRun (.reader .stdout (.pushed [0xA9, 0x00])),
      .inRun (.reader .stdout .ended)]
  have hwords : CommandLine.read words = .ok line :=
    Fallible.eq_ok_of_toOption (by decide +kernel)
  have hplan : Plan.of {} line = ({}, .ok (.launch l .text)) :=
    Prod.ext (by decide +kernel)
      (Fallible.eq_ok_of_toOption (by decide +kernel))
  have hundisturbed : Invocation.Undisturbed l {} (Utf8.encode "é\x00")
      (Utf8.encode "no") (.exited 3) (Session.inRun events) := by
    refine ⟨⟨by decide, rfl⟩, by decide, ⟨[], _, rfl, ?_⟩, rfl,
      ⟨[[0xC3], [0xA9, 0x00]], ?_, by decide, rfl⟩,
      ⟨[[0x6E, 0x6F]], ?_, by decide, rfl⟩, ?_⟩
    · decide
    · unfold Reader.IsChunk
      decide
    · unfold Reader.IsChunk
      decide
    · intro ms hms
      cases hms
  have hsession : ((Session.begin l {}).run events).isSome = true := by
    decide
  obtain ⟨s, hs⟩ := Option.isSome_iff_exists.1 hsession
  obtain ⟨hout, herr, hseen, -⟩ := passes_through hwords hplan hs
    hundisturbed ⟨_, rfl⟩ ⟨_, rfl⟩ (by decide) (by decide) {}
  refine ⟨{}, words, events ++ [.inRun .noticedDrained], ?_, ?_, ?_⟩
  · rw [Session.bytesWritten_append, hout]
    rfl
  · rw [Session.bytesWritten_append, herr]
    rfl
  · rw [hseen]
    congr 2

end Program

end Toolrun
