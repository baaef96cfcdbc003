/-
What stands between a command line and the start of a tool: six steps, each of
which can fail. Here each is judged on its own, by what it is about: the
document that counts, a variable of the environment, the log, the pairs on the
command line, the names of the tool and its language, and the change-set
(`Step.stop?`). The log can also break the program off, and nothing else can.

The plan of a request stops if one of the steps does, and then as the first of
these does (`fault?_of`). So a bad request is answered without anything being
run, by a line on the error stream and by an exit code that depends on the step
(`bad_request_runs_nothing`); a program that is broken off runs nothing either,
and has no line of its own; and if no step stops it, one tool is launched, and
there is no second refusal after that. Whatever goes to the log on the way is
not a part of the answer.
-/
import Toolrun.Program
import Toolrun.Proofs.Fallible
import Toolrun.Proofs.Layers
import Toolrun.Proofs.Logging
import Toolrun.Proofs.Invocation.Outcome

namespace Toolrun

open Fallible
  (fault? fault?_error fault?_ok fault?_eq_some fault?_mapError)

-- ============================================================ single checks

namespace Settings

/-- The first of some pairs that is none. -/
def badPair? (raws : List String) : Option EnvPair.Fault :=
  raws.findSome? fun raw => fault? (EnvPair.read raw)

/-- The pairs in front of that, or all of them. -/
def takenPairs : List String → List (String × String)
  | [] => []
  | raw :: others =>
    match EnvPair.read raw with
    | .error _ => []
    | .ok pair => pair :: takenPairs others

/-- The pairs of a request are set up to the first that is none, and it fails
by that. -/
theorem withPairs_eq (raws : List String) (s : Settings) :
    s.withPairs raws
      = ⟨{ s with control := { s.control with
            env := s.control.env.insertAll (takenPairs raws) } },
          badPair? raws⟩ := by
  induction raws generalizing s with
  | nil => rfl
  | cons raw others ih =>
      unfold withPairs takenPairs badPair?
      rw [List.findSome?_cons]
      cases EnvPair.read raw with
      | error fault => rfl
      | ok pair => exact ih _

end Settings

namespace Preparation

/-- The steps that come before the start of a tool. -/
inductive Step where
  | load
  | environment
  | log
  | flags
  | tool
  | input
  deriving DecidableEq, Repr

/-- The steps in their order. -/
def Step.all : List Step := [load, environment, log, flags, tool, input]

/-- The settings that a command line leads to, as configured. -/
def configured (w : Surroundings) (line : CommandLine) :
    Except Settings.SourceFault Settings :=
  Settings.loaded w.files w.cwd w.env line.configPath

/-- Setting up the log for settings as configured. -/
def logged (w : Surroundings) (s : Settings) :
    Files × Except Logging.Fault Unit :=
  Logging.prepare w.files w.cwd w.env w.processId (s.withHome w.env).logging

/-- The tool that a request leads to, on top of the environment and of
settings as configured. -/
def namedTool (env : Variables) (r : RunRequest) (s : Settings) : Tool where
  path := Text.trim
    ((r.tool <|> env.nonBlank? Settings.toolVariable).getD s.runner.toolPath)
  language := Text.trim
    ((r.language <|> env.nonBlank? Settings.languageVariable).getD
      s.runner.language)

/-- The failure of a tool that cannot be used. -/
def badTool (failure : RunFailure) : Failure :=
  .config
    (failure.message ++ " (set it in [runner] or pass --tool/--language)")

/-- How a step stops the program, if it does. A step that builds on settings
has nothing to stop it by where there are none. -/
def Step.stop? (w : Surroundings) (line : CommandLine) (r : RunRequest) :
    Step → Option Stop
  | load =>
    (fault? (configured w line)).map fun fault =>
      .failed (.config fault.message)
  | environment =>
    (Settings.badTimeout? w.env).map fun fault =>
      .failed (.config fault.message)
  | log => do
    let s ← (configured w line).toOption
    (fault? (logged w s).2).map .ofLog
  | flags =>
    (Settings.badPair? r.env).map fun fault =>
      .failed (.config fault.message)
  | tool => do
    let s ← (configured w line).toOption
    (fault? (namedTool w.env r s).check).map fun failure =>
      .failed (badTool failure)
  | input => do
    let s ← (configured w line).toOption
    (fault? (requestedChangeSet { w with files := (logged w s).1 } r)).map
      .failed

/-- The first step that stops the program. -/
def firstStopping? (w : Surroundings) (line : CommandLine) (r : RunRequest) :
    Option Step :=
  Step.all.find? fun step => (step.stop? w line r).isSome

/-- The exit code for a step that fails: only where the change-set comes from
the input stream and that cannot be read, it is not that of a bad request. -/
def Step.exitCode (w : Surroundings) (r : RunRequest) : Step → Int
  | input =>
    if r.filesFrom = some streamWord ∧ (fault? w.input).isSome then 20 else 11
  | _ => 11

variable {w : Surroundings} {line : CommandLine} {r : RunRequest}
  {s : Settings} {step : Step} {failure : Failure} {cause : IoFault}

theorem settings_eq (w : Surroundings) (line : CommandLine) :
    Plan.settings w line.configPath
      = match configured w line with
        | .error fault => .error (.config fault.message)
        | .ok s =>
          match Settings.badTimeout? w.env with
          | some fault => .error (.config fault.message)
          | none => .ok ((s.withHome w.env).withVariables w.env).settings := by
  unfold Plan.settings configured
  rw [Settings.gather_eq]
  cases Settings.loaded w.files w.cwd w.env line.configPath with
  | error fault => rfl
  | ok s =>
      simp only [bind, Except.bind]
      unfold Settings.withSurroundings Settings.Layered.get
      rw [Settings.withVariables_eq]
      cases Settings.badTimeout? w.env <;> rfl

theorem requested_eq (s : Settings) (r : RunRequest) :
    Plan.requested s r
      = match Settings.badPair? r.env with
        | some fault => .error (.config fault.message)
        | none => .ok (s.withRequest r).settings := by
  unfold Plan.requested Settings.Layered.get Settings.withRequest
  rw [Settings.withPairs_eq]
  cases Settings.badPair? r.env <;> rfl

/-- The tool of a request, whatever else is wrong with it. -/
theorem tool_eq (w : Surroundings) (r : RunRequest) (s : Settings) :
    (((s.withHome w.env).withVariables w.env).settings.withRequest
        r).settings.runner.tool = namedTool w.env r s := by
  unfold Settings.withRequest RunnerSettings.tool namedTool
  rw [Settings.withPairs_eq]
  unfold Settings.withOptions
  rw [Settings.withVariables_eq, Settings.withHome_eq, getD_orElse,
    getD_orElse]
  rfl

/-- Looking for the first step with something is looking at one after the
other. -/
theorem findSome?_all {α : Type} (f : Step → Option α) :
    Step.all.findSome? f
      = (f .load).or ((f .environment).or ((f .log).or
          ((f .flags).or ((f .tool).or (f .input))))) := by
  have hcons (step : Step) (steps : List Step) :
      (step :: steps).findSome? f = (f step).or (steps.findSome? f) := by
    rw [List.findSome?_cons]
    cases f step <;> rfl
  unfold Step.all
  simp only [hcons, List.findSome?_nil, Option.or_none]

/-- A request fails by its flags, or else by its tool, or else by its
input. -/
theorem fault?_ofRequest (w : Surroundings) (s : Settings) (r : RunRequest) :
    fault? (Plan.ofRequest w s r)
      = ((Settings.badPair? r.env).map (Failure.config ·.message)).or
          (((fault? (s.withRequest r).settings.runner.tool.check).map
              badTool).or
            (fault? (requestedChangeSet w r))) := by
  unfold Plan.ofRequest
  rw [requested_eq]
  cases Settings.badPair? r.env with
  | some fault =>
      simp only [bind, Except.bind, fault?_error, Option.map_some,
        Option.some_or]
  | none =>
      unfold Plan.usableTool
      simp only [bind, Except.bind, Option.map_none, Option.none_or]
      cases (s.withRequest r).settings.runner.tool.check with
      | error failure =>
          simp only [fault?_error, Option.map_some, Option.some_or, badTool]
      | ok done =>
          unfold collectInput
          simp only [bind, Except.bind, fault?_ok, Option.map_none,
            Option.none_or]
          cases requestedChangeSet w r with
          | error failure => simp only [fault?_error]
          | ok files => simp only [fault?_ok]

/-- A plan stops as the first step does that stops. -/
theorem fault?_of (hline : line.command = .run r) :
    fault? (Plan.of w line).2
      = Step.all.findSome? fun step => step.stop? w line r := by
  rw [findSome?_all]
  unfold Plan.of Step.stop?
  rw [settings_eq, hline]
  -- in each case a step stops, and those before it have passed
  cases configured w line with
  | error fault => simp only [fault?_error, Option.map_some, Option.some_or]
  | ok s =>
      simp only [fault?_ok, Option.map_none, Option.none_or, Except.toOption,
        Option.bind_eq_bind, Option.bind_some]
      cases Settings.badTimeout? w.env with
      | some fault => simp only [fault?_error, Option.map_some, Option.some_or]
      | none =>
          simp only [Option.map_none, Option.none_or]
          rw [Settings.logging_withVariables]
          unfold logged
          rcases Logging.prepare w.files w.cwd w.env w.processId
            (s.withHome w.env).logging with ⟨files, fault | done⟩
          · simp only [fault?_error, Option.map_some, Option.some_or]
          · -- what is left is judged with the files that the log has left
            simp only [fault?_ok, Option.map_none, Option.none_or]
            rw [← tool_eq w r s, fault?_mapError]
            unfold Plan.ofCommand
            rw [fault?_ofRequest]
            simp only [Option.map_or, Option.map_map, Function.comp_def]

-- ================================================================== tools

/-- A tool is good if neither its path nor its language is blank. -/
theorem check_eq_ok_iff {tool : Tool} : tool.check = .ok ()
    ↔ Text.isAllBlank tool.path = false
      ∧ Text.isAllBlank tool.language = false := by
  unfold Tool.check
  cases Text.isAllBlank tool.path <;>
    cases Text.isAllBlank tool.language <;> simp

-- ============================================================= exit codes

/-- A change-set that cannot be made out is a bad request. -/
theorem exitCode_readChangeSet {document : String}
    (h : readChangeSet document = .error failure) : failure.exitCode = 11 := by
  unfold readChangeSet at h
  split at h
  next => cases h
  next =>
    injection h with h
    rw [← h]
    rfl

/-- Only the input stream is read with an exit code of its own. -/
theorem exitCode_requestedChangeSet
    (h : requestedChangeSet w r = .error failure) :
    failure.exitCode = Step.exitCode w r .input := by
  unfold requestedChangeSet at h
  unfold Step.exitCode
  split at h
  next => cases h
  next path hpath =>
    simp only [hpath, Option.some.injEq]
    split at h
    next hstream =>
      cases hinput : w.input with
      | ok document =>
          rw [hinput] at h
          rw [fault?_ok, if_neg (by simp)]
          exact exitCode_readChangeSet h
      | error cause =>
          rw [hinput] at h
          injection h with h
          rw [fault?_error, ← h, if_pos ⟨hstream, rfl⟩]
          rfl
    next hfile =>
      rw [if_neg fun hboth => hfile hboth.1]
      split at h
      next => exact exitCode_readChangeSet h
      next =>
        injection h with h
        rw [← h]
        rfl

/-- The exit code for a failure is that of its step. -/
theorem exitCode_of_stop? (h : step.stop? w line r = some (.failed failure)) :
    failure.exitCode = step.exitCode w r := by
  cases step with
  | load | environment | flags =>
      obtain ⟨fault, -, hfailed⟩ := Option.map_eq_some_iff.1 h
      cases hfailed
      rfl
  | log =>
      obtain ⟨s, -, h⟩ := Option.bind_eq_some_iff.1 h
      obtain ⟨fault, -, hfailed⟩ := Option.map_eq_some_iff.1 h
      cases fault with
      | refused reason =>
          cases hfailed
          rfl
      | brokenOff cause => cases hfailed
  | tool =>
      obtain ⟨s, -, h⟩ := Option.bind_eq_some_iff.1 h
      obtain ⟨fault, -, hfailed⟩ := Option.map_eq_some_iff.1 h
      cases hfailed
      rfl
  | input =>
      obtain ⟨s, -, h⟩ := Option.bind_eq_some_iff.1 h
      obtain ⟨fault, hfault, hfailed⟩ := Option.map_eq_some_iff.1 h
      cases hfailed
      have hexit := exitCode_requestedChangeSet (fault?_eq_some.1 hfault)
      exact hexit

/-- Only the log breaks the program off, for want of room for its file. -/
theorem lacksRoom_of_stop?
    (h : step.stop? w line r = some (.brokenOff cause)) :
    step = .log ∧ ∃ s, configured w line = .ok s
      ∧ Logging.LacksRoom (logged w s).1 w.cwd w.env w.processId
          (s.withHome w.env).logging := by
  cases step with
  | load | environment | flags =>
      obtain ⟨fault, -, hbroken⟩ := Option.map_eq_some_iff.1 h
      cases hbroken
  | tool | input =>
      obtain ⟨s, -, h⟩ := Option.bind_eq_some_iff.1 h
      obtain ⟨fault, -, hbroken⟩ := Option.map_eq_some_iff.1 h
      cases hbroken
  | log =>
      obtain ⟨s, hs, h⟩ := Option.bind_eq_some_iff.1 h
      obtain ⟨fault, hfault, hbroken⟩ := Option.map_eq_some_iff.1 h
      refine ⟨rfl, s, Fallible.eq_ok_of_toOption hs, ?_⟩
      cases fault with
      | refused reason => cases hbroken
      | brokenOff cause =>
          exact Logging.prepare_brokenOff
            (Prod.ext rfl (fault?_eq_some.1 hfault))

-- ============================================================= the result

/-- The plan of a request stops as the first step that stops. -/
theorem of_firstStopping {stop : Stop} (hline : line.command = .run r)
    (hfirst : firstStopping? w line r = some step)
    (hstop : step.stop? w line r = some stop) :
    Plan.of w line = ((Plan.of w line).1, .error stop) := by
  have hfault := fault?_of (w := w) hline
  rw [Fallible.findSome?_eq_of_find? hfirst, hstop] at hfault
  exact Prod.ext rfl (fault?_eq_some.1 hfault)

/-- If no step stops, the plan is to launch a tool with a name and a
language. -/
theorem of_noneStopping (hline : line.command = .run r)
    (hnone : firstStopping? w line r = none) :
    ∃ launch,
      Plan.of w line = ((Plan.of w line).1, .ok (.launch launch r.format))
        ∧ launch.tool.check = .ok () := by
  have hfault : fault? (Plan.of w line).2 = none := by
    rw [fault?_of hline, List.findSome?_eq_none_iff]
    intro step hstep
    have hpasses := List.find?_eq_none.1 hnone step hstep
    exact Option.not_isSome_iff_eq_none.1 hpasses
  rcases Plan.of_cases (w := w) hline with
    ⟨reason, hrefused⟩ | ⟨-, cause, -, -, hrefused⟩
      | ⟨s, s', files, -, -, -, hcheck, hof⟩
  · rw [hrefused] at hfault
    cases hfault
  · rw [hrefused] at hfault
    cases hfault
  · rw [hof] at hfault ⊢
    cases hinputs : collectInput { w with files := files } r with
    | error failure =>
        rw [hinputs] at hfault
        cases hfault
    | ok inputs => exact ⟨_, rfl, hcheck⟩

end Preparation

end Toolrun
