/-
What a tool is told: the language it is to look at, and then one argument for
each file, those of the change-set first and then those of the command line.

On the way to the child the paths pass through several hands: the change-set is
read, the command line's paths go behind it, the launch takes both, and the
child is set up from the launch. None of these looks at a path
(`collectInput_eq_ok`), and a run keeps the launch that it began with; so what
the child is started with can be read off the request, its settings and the
documents that it names.
-/
import Toolrun.Proofs.ChangeSet
import Toolrun.Proofs.Invocation.Record
import Toolrun.Proofs.Layers

namespace Toolrun

variable {w : Surroundings} {r : RunRequest} {paths inputs : List InputPath}

-- ================================================================== input

/-- The change-set of a request, and the paths that it names: there is none,
or it is what comes on the input stream, or what is in a file. -/
inductive Supplies (w : Surroundings) (r : RunRequest) :
    List InputPath → Prop
  | nothing (hfrom : r.filesFrom = none) : Supplies w r []
  | stream {document : String} {paths : List InputPath}
      (hfrom : r.filesFrom = some streamWord)
      (hread : w.input = .ok document)
      (hlists : ChangeSet.Lists document paths) : Supplies w r paths
  | file {path document : String} {paths : List InputPath}
      (hfrom : r.filesFrom = some path) (hfile : path ≠ streamWord)
      (hread : w.files.readText w.cwd (Utf8.encode path) = .ok document)
      (hlists : ChangeSet.Lists document paths) : Supplies w r paths

theorem requestedChangeSet_eq_ok :
    requestedChangeSet w r = .ok paths ↔ Supplies w r paths := by
  unfold requestedChangeSet
  constructor
  · intro h
    split at h
    next hfrom =>
      cases h
      exact .nothing hfrom
    next path hfrom =>
      split at h
      next hstream =>
        subst hstream
        split at h
        next document hread =>
          exact .stream hfrom hread (ChangeSet.readChangeSet_eq_ok_iff.1 h)
        next => cases h
      next hfile =>
        split at h
        next document hread =>
          exact .file hfrom hfile hread
            (ChangeSet.readChangeSet_eq_ok_iff.1 h)
        next => cases h
  · intro h
    cases h with
    | nothing hfrom => rw [hfrom]
    | stream hfrom hread hlists =>
        rw [hfrom]
        simp only [↓reduceIte, hread]
        exact ChangeSet.readChangeSet_eq_ok_iff.2 hlists
    | file hfrom hfile hread hlists =>
        rw [hfrom]
        simp only [if_neg hfile, hread]
        exact ChangeSet.readChangeSet_eq_ok_iff.2 hlists

/-- The input of a request is the paths of its change-set and then its own. -/
theorem collectInput_eq_ok :
    collectInput w r = .ok inputs
      ↔ ∃ paths, Supplies w r paths ∧ inputs = paths ++ r.files := by
  simp only [← requestedChangeSet_eq_ok]
  exact Fallible.bind_ok_eq_ok

-- =============================================================== launches

namespace Plan

variable {s : Settings} {plan : Plan}

/-- The tool that a request is made with: the names that it gives, or else
those of the settings, without the white space around them. -/
def toolOf (s : Settings) (r : RunRequest) : Tool where
  path := Text.trim (r.tool.getD s.runner.toolPath)
  language := Text.trim (r.language.getD s.runner.language)

theorem tool_of_requested {s' : Settings} (h : requested s r = .ok s') :
    s'.runner.tool = toolOf s r := by
  unfold requested at h
  split at h
  next merged hmerged =>
    cases h
    obtain ⟨-, -, hrunner, -, -⟩ := Settings.withRequest_layered hmerged
    rw [hrunner]
    rfl
  next => cases h

/-- A plan of a request launches its tool on its input. -/
theorem ofRequest_eq_ok (hplan : ofRequest w s r = .ok plan) :
    ∃ options paths, Supplies w r paths
      ∧ plan = .launch ⟨toolOf s r, paths ++ r.files, options⟩ r.format := by
  rcases ofRequest_cases w s r with ⟨reason, hrefused⟩ | ⟨s', hs', hcheck⟩
  · rw [hrefused] at hplan
    cases hplan
  · rw [ofRequest_eq hs' hcheck, tool_of_requested hs'] at hplan
    cases hinputs : collectInput w r with
    | error failure =>
        rw [hinputs] at hplan
        cases hplan
    | ok inputs =>
        rw [hinputs] at hplan
        cases hplan
        obtain ⟨paths, hpaths, rfl⟩ := collectInput_eq_ok.1 hinputs
        exact ⟨_, paths, hpaths, rfl⟩

/-- **The arguments of the child.** Whatever the settings are, a request that
gets as far as a launch has its tool started with the language and then with
the paths, those that its change-set names in the order of the document and
those that it has itself in the order of the command line. Each of them is an
argument of its own, byte for byte, and no other argument is given. -/
theorem arguments_exact (hplan : ofRequest w s r = .ok plan) :
    ∃ l paths, plan = .launch l r.format ∧ Supplies w r paths
      ∧ ∀ {e : Entry} {events : List Invocation.Event} {v : Invocation},
        (Invocation.begin l e).run events = some v →
          v.launch.setup.arguments
            = Utf8.encode (Text.trim (r.language.getD s.runner.language))
              :: (paths ++ r.files) := by
  obtain ⟨options, paths, hpaths, rfl⟩ := ofRequest_eq_ok hplan
  refine ⟨_, paths, rfl, hpaths, fun hrun => ?_⟩
  rw [(Invocation.recorded_run hrun).launch_eq]
  rfl

/-- A change-set on the input stream, with a path that is there twice, has
blanks or could be a command, before paths that look like an option or are no
text. -/
theorem arguments_exact_awkward :
    let w : Surroundings :=
      { stdin := Utf8.encode
          " [\"a b\", \x7b\"path\": \"$(x)\", \"path \": 1\x7d, \"a b\"]\n" }
    let s : Settings := { runner := ⟨" t", "rust"⟩ }
    let r : RunRequest :=
      { language := some " go ", filesFrom := some "-"
        files := [Utf8.encode "-x", [0x66, 0xFF], Utf8.encode "a b"] }
    ∃ l v started, ofRequest w s r = .ok (.launch l .text)
      ∧ (Invocation.begin l {}).run [] = some v
      ∧ v.step .started = some started
      ∧ v.launch.setup.arguments
        = ["go", "a b", "$(x)", "a b", "-x"].map Utf8.encode
          ++ [[0x66, 0xFF], Utf8.encode "a b"] := by
  intro w s r
  let named := ["a b", "$(x)", "a b"].map Utf8.encode
  let l : Launch := ⟨⟨"t", "go"⟩, named ++ r.files, {}⟩
  have hplan : ofRequest w s r = .ok (.launch l .text) :=
    Fallible.eq_ok_of_toOption (by decide +kernel +zetaReduce)
  have hnamed : requestedChangeSet w r = .ok named :=
    Fallible.eq_ok_of_toOption (by decide +kernel +zetaReduce)
  obtain ⟨launched, paths, hlaunched, hpaths, harguments⟩ :=
    arguments_exact hplan
  cases hlaunched
  have hsame := requestedChangeSet_eq_ok.2 hpaths
  rw [hnamed] at hsame
  cases hsame
  have hlanguage : Text.trim (r.language.getD s.runner.language) = "go" := by
    decide
  have hphase : (Invocation.begin l {}).phase = .starting := by
    rw [Invocation.phase_begin_of_valid (by decide +kernel)]
    rfl
  have hrun : (Invocation.begin l {}).run [] = some (.begin l {}) := rfl
  have hexact := harguments hrun
  rw [hlanguage] at hexact
  exact ⟨l, _, _, hplan, hrun, (Invocation.Step.start hphase).step_eq, hexact⟩

end Plan

end Toolrun
