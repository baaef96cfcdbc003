/-
The whole program: a command line in its surroundings, and what comes of it.
How a tool runs is a parameter, with whatever effects it may have; the program
calls it at most once, and only with a complete plan.
-/
import Toolrun.Plan
import Toolrun.CommandLine.Reader

namespace Toolrun

/-- What a run of the program leaves behind: its exit code, what it wrote,
and the files. -/
structure Completion where
  exitCode : Int
  stdout : Bytes := []
  stderr : Bytes := []
  files : Files := {}
  deriving DecidableEq

/-- How the program ends: with an answer about its usage, or after having
done something. -/
inductive Conclusion where
  | usage (refusal : CommandLine.Refusal)
  | completed (completion : Completion)
  deriving DecidableEq

/-- Something that runs tools, with effects of some kind. -/
abbrev RunnerIn (m : Type → Type) := Files → Launch → m (Files × Outcome)

/-- Something that runs tools, without any effect but on the files. -/
abbrev Runner := Files → Launch → Files × Outcome

namespace Program

-- ================================================================ endings

/-- Shows how a run ended, and turns it into an exit code. A report that is not
taken whole is a failure of the program's own. -/
def conclude (sinks : Report.Sinks) (format : Format) (outcome : Outcome) :
    Report.Sinks × Except Failure Int :=
  match Report.deliver sinks (Report.pieces format outcome) with
  | (sinks, .ok ()) => (sinks, .ok outcome.exitCode)
  | (sinks, .error cause) => (sinks, .error (.io cause))

/-- What is left behind in the end: a failure is one more line on the error
stream. -/
def completion (files : Files) (sinks : Report.Sinks) :
    Except Failure Int → Completion
  | .ok code =>
    { exitCode := code
      stdout := sinks.out.taken
      stderr := sinks.err.taken
      files := files }
  | .error failure =>
    { exitCode := failure.exitCode
      stdout := sinks.out.taken
      stderr := sinks.err.taken ++ Report.failureLine failure.message
      files := files }

/-- What is left behind after the run of a tool. -/
def reported (files : Files) (format : Format) (outcome : Outcome) :
    Completion :=
  let (sinks, result) := conclude {} format outcome
  completion files sinks result

/-- The exit code of a program that is broken off. -/
def brokenOffCode : Int := 101

/-- What is left behind by a program that is broken off. -/
def brokenOff (w : Surroundings) (files : Files) (cause : IoFault) :
    Completion where
  exitCode := brokenOffCode
  stderr := w.lastWords cause
  files := files

-- =================================================================== runs

variable {m : Type → Type} [Monad m]

/-- Carries out a plan. -/
def carryOut (runner : RunnerIn m) (files : Files) : Plan → m Completion
  | .print document =>
    let sinks : Report.Sinks := { out := { taken := Utf8.encode document } }
    pure (completion files sinks (.ok 0))
  | .launch launch format => do
    let (files, outcome) ← runner files launch
    pure (reported files format outcome)

/-- What comes of a command line that has been read. -/
def perform (runner : RunnerIn m) (w : Surroundings) (line : CommandLine) :
    m Completion :=
  match Plan.of w line with
  | (files, .error (.failed failure)) =>
    pure (completion files {} (.error failure))
  | (files, .error (.brokenOff cause)) => pure (brokenOff w files cause)
  | (files, .ok plan) => carryOut runner files plan

/-- Runs the program with the words of a command line and something that runs
tools. -/
def runWith (runner : RunnerIn m) (w : Surroundings) (words : List Bytes) :
    m Conclusion :=
  match CommandLine.read words with
  | .error refusal => pure (.usage refusal)
  | .ok line => .completed <$> perform runner w line

/-- Runs the program where tools have no effect but on the files. -/
def run (runner : Runner) (w : Surroundings) (words : List Bytes) :
    Conclusion :=
  Id.run (runWith (fun files launch => pure (runner files launch)) w words)

-- ============================================================= by the plan

variable {runner : RunnerIn m} {w : Surroundings} {words : List Bytes}
  {line : CommandLine} {files : Files}

/-- Without a plan no tool is run, and the failure is all there is to see. -/
theorem runWith_of_failure {failure : Failure}
    (hwords : CommandLine.read words = .ok line)
    (hplan : Plan.of w line = (files, .error (.failed failure)))
    [LawfulMonad m] :
    runWith runner w words
      = pure (.completed (completion files {} (.error failure))) := by
  unfold runWith perform
  rw [hwords]
  simp only [hplan, map_pure]

/-- If the program is broken off, no tool is run either. -/
theorem runWith_of_brokenOff {cause : IoFault}
    (hwords : CommandLine.read words = .ok line)
    (hplan : Plan.of w line = (files, .error (.brokenOff cause)))
    [LawfulMonad m] :
    runWith runner w words = pure (.completed (brokenOff w files cause)) := by
  unfold runWith perform
  rw [hwords]
  simp only [hplan, map_pure]

/-- With a plan to print a document, that is all there is to see. -/
theorem runWith_of_print {document : String}
    (hwords : CommandLine.read words = .ok line)
    (hplan : Plan.of w line = (files, .ok (.print document)))
    [LawfulMonad m] :
    runWith runner w words
      = pure (.completed
          { exitCode := 0
            stdout := Utf8.encode document
            files := files }) := by
  unfold runWith perform
  rw [hwords]
  simp only [hplan, carryOut, map_pure]
  rfl

/-- With a plan to launch a tool, what is seen is the report of that one
launch. -/
theorem runWith_of_launch {launch : Launch} {format : Format}
    (hwords : CommandLine.read words = .ok line)
    (hplan : Plan.of w line = (files, .ok (.launch launch format)))
    [LawfulMonad m] :
    runWith runner w words
      = (fun answer => .completed (reported answer.1 format answer.2))
          <$> runner files launch := by
  unfold runWith perform
  rw [hwords]
  simp only [hplan, carryOut, bind_pure_comp, Functor.map_map]

end Program

end Toolrun
