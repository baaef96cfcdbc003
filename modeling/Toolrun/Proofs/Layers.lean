/-
Who decides what an invocation is made with: the command line before the
environment, the environment before the configuration document, and the
document before the defaults.

The layers are put on from the bottom up, each by a function of its own that
changes some fields and leaves the others. Here they are read from the top
down, field by field (`Layers.tool`, `Layers.options`), and the two are the
same (`made_of_layers`): what comes of a document is in `Settings.Fields`, the
environment is put on top in `gather_layered` and the command line in
`withRequest_layered`.
-/
import Mathlib.Data.List.TakeWhile
import Toolrun.Plan
import Toolrun.Proofs.Settings.Fields

namespace Toolrun

open Fallible (fault?)

-- ============================================================ environment

namespace Variables

/-- The time limit that the environment has, if it has a number for one. -/
def timeout? (env : Variables) : Option UInt64 :=
  (env.nonBlank? Settings.timeoutVariable).bind fun v =>
    (Numeral.read (Text.trim v)).toOption

/-- An environment in which a variable is not set. -/
def without (env : Variables) (name : String) : Variables := fun other =>
  if other = name then none else env other

variable {env : Variables} {name : String}

theorem nonBlank?_without (h : env.nonBlank? name = none) (other : String) :
    (env.without name).nonBlank? other = env.nonBlank? other := by
  by_cases hsame : other = name
  · subst hsame
    rw [h]
    unfold nonBlank? text? without
    rw [if_pos rfl]
    rfl
  · unfold nonBlank? text? without
    rw [if_neg hsame]

end Variables

namespace Settings

variable {files : Files} {cwd : Location} {env : Variables}
  {named : Option Bytes} {s s' : Settings}

-- ========================================================= configuration

/-- What the file at a path says, if it is a document. -/
def declaredIn? (files : Files) (cwd : Location) (path : Bytes) :
    Option Declared :=
  match files.readText cwd path with
  | .ok document => (Toml.read? document).map Declared.ofEntries
  | .error _ => none

/-- What the configuration says: the file that is named, or else the first of
the usual ones that is there, or else nothing. -/
def declared? (files : Files) (cwd : Location) (env : Variables)
    (named : Option Bytes) : Option Declared :=
  match named <|> defaultPath? files cwd env with
  | some path => declaredIn? files cwd path
  | none => some {}

theorem load_declared {path : Bytes} (h : load files cwd path = .ok s) :
    ∃ d, declaredIn? files cwd path = some d ∧ s = d.settings := by
  unfold load at h
  unfold declaredIn?
  split at h
  next => cases h
  next document hread =>
    rw [hread]
    split at h
    next loaded hdocument =>
      injection h with h
      subst h
      unfold ofDocument at hdocument
      split at hdocument
      next => cases hdocument
      next entries hentries =>
        split at hdocument
        next settings hsettings =>
          injection hdocument with hdocument
          subst hdocument
          exact ⟨.ofEntries entries, congrArg (Option.map _) hentries,
            ofEntries_declared hsettings⟩
        next => cases hdocument
    next => cases h
    next => cases h

/-- What the configuration that counts says, or the defaults. -/
def loaded (files : Files) (cwd : Location) (env : Variables)
    (named : Option Bytes) : Except SourceFault Settings :=
  match named <|> defaultPath? files cwd env with
  | some path => load files cwd path
  | none => .ok default

theorem loaded_declared (h : loaded files cwd env named = .ok s) :
    ∃ d, declared? files cwd env named = some d ∧ s = d.settings := by
  unfold loaded at h
  unfold declared?
  split at h
  next => exact load_declared h
  next =>
    injection h with h
    exact ⟨{}, rfl, h.symm⟩

/-- Gathering the settings is loading them and then looking around. -/
theorem gather_eq : gather files cwd env named
    = loaded files cwd env named >>= (withSurroundings env ·) := by
  cases named with
  | some path => exact loadNamed_eq path
  | none => exact loadDefault_eq

/-- What does not depend on the command comes on top of what the
configuration says. -/
theorem gather_declared (h : gather files cwd env named = .ok s) :
    ∃ d, declared? files cwd env named = some d
      ∧ d.settings.withSurroundings env = .ok s := by
  rw [gather_eq] at h
  obtain ⟨configured, hloaded, hrest⟩ := Fallible.bind_eq_ok.1 h
  obtain ⟨d, hd, rfl⟩ := loaded_declared hloaded
  exact ⟨d, hd, hrest⟩

/-- The place for log files is all that the home directory changes. -/
theorem withHome_eq (env : Variables) (s : Settings) :
    s.withHome env = { s with logging := (s.withHome env).logging } := by
  unfold withHome withDataDir
  split
  · split <;> rfl
  · rfl

/-- The time limit in the environment, if there is one that is no number. -/
def badTimeout? (env : Variables) : Option TimeoutFault :=
  (env.nonBlank? timeoutVariable).bind fun value =>
    (fault? (Numeral.read (Text.trim value))).map (⟨value, ·⟩)

/-- Settings with what the environment has to say; a time limit that is no
number says nothing. -/
def overlaid (env : Variables) (s : Settings) : Settings :=
  { s with
    runner :=
      ⟨(env.nonBlank? toolVariable).getD s.runner.toolPath,
        (env.nonBlank? languageVariable).getD s.runner.language⟩
    control :=
      { s.control with
        timeoutMs := env.timeout?.getD s.control.timeoutMs } }

/-- What the environment changes it changes whether or not it fails, and it
fails by its time limit alone, whatever the settings are. -/
theorem withVariables_eq (env : Variables) (s : Settings) :
    s.withVariables env = ⟨s.overlaid env, badTimeout? env⟩ := by
  unfold withVariables withTimeout overlaid badTimeout? Variables.timeout?
  cases env.nonBlank? timeoutVariable with
  | none => rfl
  | some value =>
      simp only [Option.bind_some]
      cases Numeral.read (Text.trim value) <;> rfl

theorem logging_withVariables (env : Variables) (s : Settings) :
    (s.withVariables env).settings.logging = s.logging := by
  rw [withVariables_eq]
  rfl

/-- What the environment changes if it can be taken over. -/
theorem withVariables_ok (h : (s.withVariables env).get = .ok s') :
    s' = s.overlaid env := by
  rw [withVariables_eq] at h
  unfold Layered.get at h
  split at h
  next => cases h
  next =>
    injection h with h
    exact h.symm

/-- The settings before the command line has its say: the environment before
what the configuration says. -/
theorem gather_layered (h : gather files cwd env named = .ok s) :
    ∃ d, declared? files cwd env named = some d
      ∧ s.runner =
        ⟨(env.nonBlank? toolVariable <|> d.toolPath).getD "",
          (env.nonBlank? languageVariable <|> d.language).getD ""⟩
      ∧ s.control =
        { d.settings.control with
          timeoutMs := (env.timeout? <|> d.timeoutMs).getD 0 }
      ∧ s.logging = (d.settings.withHome env).logging := by
  obtain ⟨d, hd, h⟩ := gather_declared h
  unfold withSurroundings at h
  split at h
  next surrounded hsurrounded =>
    injection h with h
    subst h
    rw [withHome_eq] at hsurrounded
    have hs := withVariables_ok hsurrounded
    unfold overlaid at hs
    refine ⟨d, hd, ?_, ?_, by rw [hs]⟩
    · rw [hs]
      cases env.nonBlank? toolVariable <;>
        cases env.nonBlank? languageVariable <;> rfl
    · rw [hs]
      cases env.timeout? <;> rfl
  next => cases h

-- =========================================================== command line

/-- The variables of a request are set one after the other. -/
theorem withPairs_ok {raws : List String}
    (h : (s.withPairs raws).get = .ok s') :
    ∃ pairs, raws.mapM EnvPair.read = .ok pairs
      ∧ s' = { s with control :=
        { s.control with env := s.control.env.insertAll pairs } } := by
  induction raws generalizing s with
  | nil =>
      injection h with h
      exact ⟨[], rfl, h.symm⟩
  | cons raw others ih =>
      unfold withPairs at h
      split at h
      next => cases h
      next name value hread =>
        obtain ⟨pairs, hpairs, hs⟩ := ih h
        exact ⟨(name, value) :: pairs,
          Fallible.mapM_cons_eq_ok.2 ⟨_, _, hread, hpairs, rfl⟩, hs⟩

/-- What a request changes if it can be taken over. -/
theorem withRequest_layered {r : RunRequest}
    (h : (s.withRequest r).get = .ok s') :
    ∃ pairs, r.env.mapM EnvPair.read = .ok pairs
      ∧ s'.runner =
        ⟨r.tool.getD s.runner.toolPath, r.language.getD s.runner.language⟩
      ∧ s'.control =
        { s.control with
          timeoutMs := r.timeoutMs.getD s.control.timeoutMs
          captureBytes := r.captureBytes.getD s.control.captureBytes
          workingDir := r.workingDir <|> s.control.workingDir
          env := s.control.env.insertAll pairs }
      ∧ s'.logging = s.logging := by
  obtain ⟨pairs, hpairs, rfl⟩ := withPairs_ok h
  exact ⟨pairs, hpairs, rfl, rfl, rfl⟩

end Settings

-- ================================================================= layers

/-- Everything that has something to say about an invocation: the command
line, with the variables that it sets, the environment, and the configuration
document. -/
structure Layers where
  request : RunRequest
  pairs : List (String × String)
  env : Variables
  document : Settings.Declared

/-- What is blank is blank without the white space around it. -/
theorem Text.isAllBlank_trim {s : String} (h : Text.isAllBlank s = true) :
    Text.isAllBlank (Text.trim s) = true := by
  have hstart : Text.trimStartChars s.toList = [] :=
    List.dropWhile_eq_nil_iff.2 fun c hc => List.all_eq_true.1 h c hc
  unfold Text.trim Text.trimChars
  rw [hstart]
  rfl

theorem getD_orElse {α : Type} (upper lower : Option α) (default : α) :
    (upper <|> lower).getD default = upper.getD (lower.getD default) := by
  cases upper <;> rfl

theorem getD_getD {α : Type} (o : Option α) (default : α) :
    o.getD (o.getD default) = o.getD default := by
  cases o <;> rfl

namespace Layers

open Settings (toolVariable languageVariable)

/-- The tool: the first that names one has its say, whatever it says. -/
def tool (l : Layers) : Tool where
  path := Text.trim
    ((l.request.tool <|> l.env.nonBlank? toolVariable
      <|> l.document.toolPath).getD "")
  language := Text.trim
    ((l.request.language <|> l.env.nonBlank? languageVariable
      <|> l.document.language).getD "")

/-- The time limit in milliseconds, where zero is none. -/
def timeoutMs (l : Layers) : UInt64 :=
  (l.request.timeoutMs <|> l.env.timeout? <|> l.document.timeoutMs).getD 0

def options (l : Layers) : RunOptions where
  timeoutMs := if l.timeoutMs = 0 then none else some l.timeoutMs.toNat
  captureBytes :=
    ((l.request.captureBytes <|> l.document.captureBytes).getD
      10485760).toNat
  workingDir :=
    (l.request.workingDir <|> l.document.workingDir).bind nonBlank?
  env := (l.document.env.getD .empty).insertAll l.pairs
  killGraceMs := (l.document.killGraceMs.getD 2000).toNat

def without (l : Layers) (name : String) : Layers :=
  { l with env := l.env.without name }

variable {l : Layers} {name : String}

theorem without_blank (h : l.env.nonBlank? name = none) :
    (l.without name).tool = l.tool ∧ (l.without name).options = l.options := by
  unfold without tool options timeoutMs Variables.timeout?
  simp only [Variables.nonBlank?_without h, and_self]

/-- A variable of the tool is what the command line sets it to last, or else
what the document has. -/
theorem get?_env (l : Layers) (name : String) :
    l.options.env.get? name
      = (lastAssigned? name l.pairs
          <|> l.document.env.bind (·.get? name)) := by
  rw [show l.options.env = (l.document.env.getD .empty).insertAll l.pairs
    from rfl, EnvTable.get?_insertAll]
  cases l.document.env <;> rfl

end Layers

-- ================================================================== plans

namespace Plan

variable {w : Surroundings} {line : CommandLine} {r : RunRequest}
  {s s' : Settings}

/-- The settings of a request are made of the layers. -/
theorem requested_layers
    (hsettings : settings w line.configPath = .ok s)
    (hrequested : requested s r = .ok s') :
    ∃ l : Layers, l.request = r ∧ l.env = w.env
      ∧ r.env.mapM EnvPair.read = .ok l.pairs
      ∧ Settings.declared? w.files w.cwd w.env line.configPath
          = some l.document
      ∧ s'.runner.tool = l.tool ∧ s'.control.options = l.options
      ∧ s'.logging = (l.document.settings.withHome w.env).logging := by
  unfold settings at hsettings
  split at hsettings
  next gathered hgather =>
    injection hsettings with hsettings
    subst hsettings
    unfold requested at hrequested
    split at hrequested
    next merged hmerged =>
      injection hrequested with hrequested
      subst hrequested
      obtain ⟨d, hd, hrunner, hcontrol, hlogging⟩ :=
        Settings.gather_layered hgather
      obtain ⟨pairs, hpairs, hrunner', hcontrol', hlogging'⟩ :=
        Settings.withRequest_layered hmerged
      refine ⟨⟨r, pairs, w.env, d⟩, rfl, rfl, hpairs, hd, ?_, ?_,
        hlogging'.trans hlogging⟩
      · unfold Layers.tool RunnerSettings.tool
        simp only [hrunner', hrunner, getD_orElse]
      · unfold Layers.options Layers.timeoutMs
        rw [hcontrol', hcontrol]
        simp only [getD_orElse]
        rfl
    next => cases hrequested
  next => cases hsettings

theorem check_blank {tool : Tool}
    (h : Text.isAllBlank tool.path = true
      ∨ Text.isAllBlank tool.language = true) :
    ∃ failure, tool.check = .error failure := by
  unfold Tool.check
  split
  next => exact ⟨_, rfl⟩
  next hpath =>
    rw [if_pos (h.resolve_left hpath)]
    exact ⟨_, rfl⟩

theorem settings_error {named : Option Bytes} {failure : Failure}
    (h : settings w named = .error failure) :
    ∃ reason, failure = .config reason := by
  unfold settings at h
  split at h
  next => cases h
  next fault hgather =>
    injection h with h
    exact ⟨_, h.symm⟩

/-- If the settings are in order then only the input of a request is left. -/
theorem ofRequest_eq (hrequested : requested s r = .ok s')
    (hcheck : s'.runner.tool.check = .ok ()) :
    ofRequest w s r
      = (collectInput w r).map fun inputs => .launch
          ⟨s'.runner.tool, inputs, s'.control.options⟩ r.format := by
  unfold ofRequest usableTool
  rw [hrequested]
  simp only [bind, Except.bind]
  rw [hcheck]
  cases collectInput w r <;> rfl

/-- A request comes to nothing because of the settings, or they are in
order. -/
theorem ofRequest_cases (w : Surroundings) (s : Settings) (r : RunRequest) :
    (∃ reason, ofRequest w s r = .error (.config reason))
      ∨ ∃ s', requested s r = .ok s' ∧ s'.runner.tool.check = .ok () := by
  cases hrequested : requested s r with
  | error failure =>
      unfold ofRequest
      rw [hrequested]
      unfold requested at hrequested
      split at hrequested
      next => cases hrequested
      next fault hmerged =>
        injection hrequested with hrequested
        exact .inl ⟨_, congrArg _ hrequested.symm⟩
  | ok s' =>
      cases hcheck : s'.runner.tool.check with
      | error failure =>
          unfold ofRequest usableTool
          rw [hrequested]
          simp only [bind, Except.bind]
          rw [hcheck]
          exact .inl ⟨_, rfl⟩
      | ok done => exact .inr ⟨s', rfl, hcheck⟩

/-- A command line that asks for a run comes to nothing because of how the
program is configured, or the log breaks it off, or everything before the input
is in order. -/
theorem of_cases (hline : line.command = .run r) :
    (∃ reason, (Plan.of w line).2 = .error (.failed (.config reason)))
      ∨ (∃ s cause, settings w line.configPath = .ok s
          ∧ (Logging.prepare w.files w.cwd w.env w.processId s.logging).2
              = .error (.brokenOff cause)
          ∧ (Plan.of w line).2 = .error (.brokenOff cause))
      ∨ ∃ s s' files, settings w line.configPath = .ok s
          ∧ requested s r = .ok s'
          ∧ Logging.prepare w.files w.cwd w.env w.processId s.logging
              = (files, .ok ())
          ∧ s'.runner.tool.check = .ok ()
          ∧ Plan.of w line
              = (files, ((collectInput { w with files := files } r).map
                  fun inputs => .launch
                    ⟨s'.runner.tool, inputs, s'.control.options⟩
                    r.format).mapError .failed) := by
  unfold Plan.of
  split
  next failure hsettings =>
    obtain ⟨reason, rfl⟩ := settings_error hsettings
    exact .inl ⟨reason, rfl⟩
  next s hsettings =>
    split
    next files fault hprepare =>
      cases fault with
      | refused reason => exact .inl ⟨reason, rfl⟩
      | brokenOff cause =>
          exact .inr (.inl ⟨s, cause, hsettings, congrArg Prod.snd hprepare,
            rfl⟩)
    next files hprepare =>
      rw [hline]
      rcases ofRequest_cases { w with files := files } s r with
        ⟨reason, hrefused⟩ | ⟨s', hrequested, hcheck⟩
      · exact .inl ⟨reason, congrArg (Except.mapError _) hrefused⟩
      · exact .inr (.inr ⟨s, s', files, hsettings, hrequested, hprepare, hcheck,
          congrArg (fun plan => (files, Except.mapError Stop.failed plan))
            (ofRequest_eq hrequested hcheck)⟩)

/-- A blank tool or language on the command line is refused, unless the log
breaks the program off before. -/
theorem blank_refused (hline : line.command = .run r)
    (hsettings : settings w line.configPath = .ok s)
    (hblank : (∃ t, r.tool = some t ∧ Text.isAllBlank t = true)
      ∨ ∃ t, r.language = some t ∧ Text.isAllBlank t = true) :
    (∃ reason, (Plan.of w line).2 = .error (.failed (.config reason)))
      ∨ ∃ cause,
        (Logging.prepare w.files w.cwd w.env w.processId s.logging).2
            = .error (.brokenOff cause)
          ∧ (Plan.of w line).2 = .error (.brokenOff cause) := by
  rcases of_cases (w := w) hline with
    hrefused | ⟨s₁, cause, hs, hlog, hof⟩
      | ⟨s, s', files, hsettings, hrequested, -, hcheck, -⟩
  · exact .inl hrefused
  · cases hsettings.symm.trans hs
    exact .inr ⟨cause, hlog, hof⟩
  · obtain ⟨l, hrequest, -, -, -, htool, -, -⟩ :=
      requested_layers hsettings hrequested
    have hblankTool : Text.isAllBlank l.tool.path = true
        ∨ Text.isAllBlank l.tool.language = true := by
      unfold Layers.tool
      rw [hrequest]
      rcases hblank with ⟨t, ht, hblank⟩ | ⟨t, ht, hblank⟩
      · exact .inl (by rw [ht]; exact Text.isAllBlank_trim hblank)
      · exact .inr (by rw [ht]; exact Text.isAllBlank_trim hblank)
    obtain ⟨failure, hfailure⟩ := check_blank hblankTool
    rw [htool, hfailure] at hcheck
    cases hcheck

/-- What an invocation is made with is decided by the layers: for each field
by the first that has something to say, the command line before the
environment before the configuration that counts, and for the variables of
the tool by each. A flag that is given is never passed over, so a blank tool
or language is a failure, unless the program is broken off for its log before;
a blank variable of the environment is as good as none; and what is logged is
left to the configuration. -/
theorem made_of_layers (hline : line.command = .run r)
    (hsettings : settings w line.configPath = .ok s)
    (hrequested : requested s r = .ok s') :
    ∃ l : Layers, l.request = r ∧ l.env = w.env
      ∧ r.env.mapM EnvPair.read = .ok l.pairs
      ∧ Settings.declared? w.files w.cwd w.env line.configPath
          = some l.document
      -- what is launched, and that it is
      ∧ (∀ plan, (Plan.of w line).2 = .ok plan →
          ∃ inputs, plan = .launch ⟨l.tool, inputs, l.options⟩ r.format)
      ∧ (∀ files,
          Logging.prepare w.files w.cwd w.env w.processId s.logging
            = (files, .ok ()) →
          l.tool.check = .ok () →
          Plan.of w line
            = (files, ((collectInput { w with files := files } r).map
                fun inputs => .launch ⟨l.tool, inputs, l.options⟩
                  r.format).mapError .failed))
      -- the variables of the tool
      ∧ (∀ name, l.options.env.get? name
          = (lastAssigned? name l.pairs
              <|> l.document.env.bind (·.get? name)))
      -- flags that are blank, variables that are, and other fields
      ∧ (((∃ t, r.tool = some t ∧ Text.isAllBlank t = true)
            ∨ ∃ t, r.language = some t ∧ Text.isAllBlank t = true) →
          (∃ reason, (Plan.of w line).2 = .error (.failed (.config reason)))
            ∨ ∃ cause,
              (Logging.prepare w.files w.cwd w.env w.processId s.logging).2
                  = .error (.brokenOff cause)
                ∧ (Plan.of w line).2 = .error (.brokenOff cause))
      ∧ (∀ name, w.env.nonBlank? name = none →
          (l.without name).tool = l.tool
            ∧ (l.without name).options = l.options)
      ∧ s'.logging = (l.document.settings.withHome w.env).logging := by
  obtain ⟨l, hrequest, henv, hpairs, hdeclared, htool, hoptions, hlogging⟩ :=
    requested_layers hsettings hrequested
  refine ⟨l, hrequest, henv, hpairs, hdeclared, ?_, ?_, l.get?_env,
    blank_refused hline hsettings, ?_, hlogging⟩
  · intro plan hplan
    rcases of_cases (w := w) hline with
      ⟨reason, hrefused⟩ | ⟨-, cause, -, -, hrefused⟩
        | ⟨s₁, s₁', files, hs, hs', -, -, hof⟩
    · rw [hrefused] at hplan
      cases hplan
    · rw [hrefused] at hplan
      cases hplan
    · rw [hsettings] at hs
      injection hs with hs
      subst hs
      rw [hrequested] at hs'
      injection hs' with hs'
      subst hs'
      rw [hof, htool, hoptions] at hplan
      cases hinputs : collectInput { w with files := files } r with
      | error failure =>
          rw [hinputs] at hplan
          cases hplan
      | ok inputs =>
          rw [hinputs] at hplan
          injection hplan with hplan
          exact ⟨inputs, hplan.symm⟩
  · intro files hprepare hcheck
    rw [← htool] at hcheck
    unfold Plan.of
    rw [hsettings]
    simp only []
    rw [hprepare, hline, ← htool, ← hoptions]
    exact congrArg (fun plan => (files, Except.mapError Stop.failed plan))
      (ofRequest_eq hrequested hcheck)
  · intro name hname
    rw [← henv] at hname
    exact Layers.without_blank hname

/-- A blank variable for the tool gives way to the document, a blank flag for
the directory does not, and of two pairs for a variable the later one wins. -/
theorem made_of_layers_blank :
    ∃ (w : Surroundings) (line : CommandLine) (l : Layers),
      w.env Settings.toolVariable = some (Utf8.encode " ")
        ∧ l.request.workingDir = some " "
        ∧ Settings.declared? w.files w.cwd w.env line.configPath
            = some l.document
        ∧ (Plan.of w line).2 = .ok (.launch ⟨l.tool, [], l.options⟩ .text)
        ∧ l.tool = ⟨"t", "go"⟩ ∧ l.options.workingDir = none
        ∧ l.options.timeoutMs = some 7
        ∧ l.options.env.get? "A" = some "2" := by
  let document : Bytes := Utf8.encode
    "[runner]\ntool_path='t'\n[control]\nworking_dir='d'\nenv.A='1'\n"
  let w : Surroundings :=
    { files := ⟨[([Utf8.encode "P"], .file document 420)]⟩
      environment :=
        [(Utf8.encode "TOOLRUN_TOOL_PATH", Utf8.encode " "),
          (Utf8.encode "TOOLRUN_LANGUAGE", Utf8.encode "go"),
          (Utf8.encode "TOOLRUN_TIMEOUT_MS", Utf8.encode " 7")] }
  let r : RunRequest := { workingDir := some " ", env := ["A=3", "A=2"] }
  let line : CommandLine := ⟨some (Utf8.encode "P"), .run r⟩
  let s : Settings :=
    { runner := ⟨"t", "go"⟩
      control :=
        { timeoutMs := 7
          workingDir := some "d"
          env := .ofList [("A", "1")] } }
  let options : RunOptions :=
    { timeoutMs := some 7, env := .ofList [("A", "2")] }
  have hline : line.command = .run r := rfl
  have hsettings : settings w line.configPath = .ok s :=
    Fallible.eq_ok_of_toOption (by decide +kernel +zetaReduce)
  have hrequested : requested s r = .ok { s with control := { s.control with
      workingDir := some " ", env := .ofList [("A", "2")] } } :=
    Fallible.eq_ok_of_toOption (by decide +kernel +zetaReduce)
  have hplan : (Plan.of w line).2
      = .ok (.launch ⟨⟨"t", "go"⟩, [], options⟩ .text) :=
    Fallible.eq_ok_of_toOption (by decide +kernel +zetaReduce)
  obtain ⟨l, hrequest, henv, -, hdeclared, hlaunch, -⟩ :=
    made_of_layers hline hsettings hrequested
  obtain ⟨inputs, hsame⟩ := hlaunch _ hplan
  injection hsame with hsame
  injection hsame with htool hinputs hoptions
  refine ⟨w, line, l, by decide +kernel +zetaReduce, congrArg _ hrequest,
    hdeclared, ?_, htool.symm, ?_, ?_, ?_⟩
  · rw [← htool, ← hoptions]
    exact hplan
  · rw [← hoptions]
  · rw [← hoptions]
  · rw [← hoptions]
    decide +kernel +zetaReduce

end Plan

end Toolrun
