/-
The settings that count, shown and saved, count again.

To show them succeeds just if they can be gathered, the log can be set up for
them and their numbers can be written (`Plan.Shows`, `Program.run_showConfig`).
All three carry over to a second run on what the first one printed. What is
loaded are the settings as they were shown, and the environment was on top of
them already (`Program.settings_of_saved`); the log goes where it went before,
where the directories are there by now (`Logging.prepare_again`); and the
numbers are the same. Only the file of the log is another one. Its name has the
number of the process in it, so there may be no room for it; then the second
run is broken off.
-/
import Toolrun.Program
import Toolrun.Proofs.CommandLine.Placement
import Toolrun.Proofs.Logging
import Toolrun.Proofs.Settings.Printer
import Toolrun.Proofs.Settings.Surroundings

namespace Toolrun

-- ========================================================== command lines

namespace CommandLine

/-- The word that asks for the settings. -/
def configWord : Bytes := Utf8.encode "config"

variable {form : Form} {path : Bytes}

/-- A command line that asks for the settings from a file. -/
theorem read_configWord (h : (Item.option .config form path).Valid) :
    read ((Item.option .config form path).words ++ [configWord])
      = .ok ⟨some path, .showConfig⟩ := by
  have hreadable : Readable ([] ++ [Item.option .config form path]) := by
    refine ⟨fun item hitem => ?_, fun opt hopt => ?_⟩
    · rwa [List.mem_singleton.1 hitem]
    · exact List.length_filterMap_le _ _
  obtain ⟨p, htells, hread⟩ := readFrom_item Progress.says_nothing.tells
    ⟨form, path, rfl⟩ hreadable
  obtain ⟨q, hsettle, hsays⟩ := id htells
  have hclose : close p {} .showConfig = .ok ⟨some path, .showConfig⟩ := by
    have hpath := hsays.configPath
    refine Fallible.bind_ok_eq_ok.2 ⟨q, hsettle, ?_⟩
    rw [hpath]
    cases form <;> rfl
  calc read ((Item.option .config form path).words ++ [configWord])
      = readFrom p [configWord] := hread _
    _ = close p {} .showConfig := by
        have hword : Word.of configWord = .plain configWord := rfl
        rw [readFrom, hword]
        simp only []
        split
        next opt hpending => exact absurd hpending (htells.ne_waiting opt)
        next => rfl
    _ = .ok ⟨some path, .showConfig⟩ := hclose

end CommandLine

-- =================================================== showing the settings

namespace Plan

variable {w : Surroundings} {named : Option Bytes} {s : Settings}
  {files : Files}

/-- What has to be in order for the settings to be shown. -/
structure Shows (w : Surroundings) (named : Option Bytes) (s : Settings)
    (files : Files) : Prop where
  settings : Plan.settings w named = .ok s
  log : Logging.prepare w.files w.cwd w.env w.processId s.logging
    = (files, .ok ())
  writable : s.isWritable = true

theorem Shows.of_eq (h : Shows w named s files) :
    Plan.of w ⟨named, .showConfig⟩ = (files, .ok (.print s.document)) := by
  unfold Plan.of
  simp only [h.settings, h.log]
  unfold ofCommand Settings.shown
  rw [if_pos h.writable]
  rfl

/-- The settings are shown; or something is wrong with how the program is
configured, or the log breaks it off. -/
theorem of_showConfig_cases (w : Surroundings) (named : Option Bytes) :
    (∃ reason,
        (Plan.of w ⟨named, .showConfig⟩).2 = .error (.failed (.config reason)))
      ∨ (∃ cause,
        (Plan.of w ⟨named, .showConfig⟩).2 = .error (.brokenOff cause))
      ∨ ∃ s files, Shows w named s files := by
  unfold Plan.of
  cases hsettings : settings w named with
  | error failure =>
      obtain ⟨reason, rfl⟩ := settings_error hsettings
      exact .inl ⟨reason, rfl⟩
  | ok s =>
      simp only
      split
      next files fault hlog =>
        cases fault with
        | refused reason => exact .inl ⟨reason, rfl⟩
        | brokenOff cause => exact .inr (.inl ⟨cause, rfl⟩)
      next files hlog =>
        by_cases hwritable : s.isWritable = true
        · exact .inr (.inr ⟨s, files, hsettings, hlog, hwritable⟩)
        · have hshown : ∃ reason, s.shown = .error (.config reason) :=
            ⟨_, if_neg hwritable⟩
          obtain ⟨reason, hshown⟩ := hshown
          refine .inl ⟨reason, ?_⟩
          unfold ofCommand
          rw [hshown]
          rfl

/-- Whatever the command is, a log that breaks the program off does so. -/
theorem of_log_brokenOff {cause : IoFault} (command : CommandLine.Command)
    (hsettings : settings w named = .ok s)
    (hlog : Logging.prepare w.files w.cwd w.env w.processId s.logging
      = (files, .error (.brokenOff cause))) :
    Plan.of w ⟨named, command⟩ = (files, .error (.brokenOff cause)) := by
  unfold Plan.of
  simp only [hsettings, hlog]
  rfl

end Plan

namespace Program

variable {runner : Runner} {w : Surroundings} {words : List Bytes}
  {named : Option Bytes} {done : Completion}

/-- What is left behind when a document has been printed. -/
def printed (document : String) (files : Files) : Completion where
  exitCode := 0
  stdout := Utf8.encode document
  files := files

theorem stdout_printed (document : String) (files : Files) :
    (printed document files).stdout = Utf8.encode document := rfl

/-- To ask for the settings succeeds if they are shown, and not otherwise. -/
theorem run_showConfig
    (hwords : CommandLine.read words = .ok ⟨named, .showConfig⟩) :
    (run runner w words = .completed done ∧ done.exitCode = 0)
      ↔ ∃ s files,
        Plan.Shows w named s files ∧ done = printed s.document files := by
  have hshows {s : Settings} {files : Files} (h : Plan.Shows w named s files) :
      run runner w words = .completed (printed s.document files) :=
    runWith_of_print hwords h.of_eq
  constructor
  · rintro ⟨hdone, hcode⟩
    rcases Plan.of_showConfig_cases w named with
      ⟨reason, hplan⟩ | ⟨cause, hplan⟩ | ⟨s, files, h⟩
    · have hfailed : run runner w words = _ :=
        runWith_of_failure hwords (Prod.ext rfl hplan)
      rw [hfailed] at hdone
      cases hdone
      cases hcode
    · have hbroken : run runner w words = _ :=
        runWith_of_brokenOff hwords (Prod.ext rfl hplan)
      rw [hbroken] at hdone
      cases hdone
      cases hcode
    · rw [hshows h] at hdone
      cases hdone
      exact ⟨s, files, h, rfl⟩
  · rintro ⟨s, files, h, rfl⟩
    exact ⟨hshows h, rfl⟩

-- ========================================================== the second run

/-- The same environment finds nothing to change in settings that it was
already put on, so they are gathered from a document of theirs as they
are. -/
theorem settings_of_saved {w w' : Surroundings} {s : Settings} {path : Bytes}
    (hsettings : Plan.settings w named = .ok s)
    (hwritable : s.isWritable = true)
    (henvironment : w'.environment = w.environment)
    (hread : w'.files.read w'.cwd path = .ok (Utf8.encode s.document)) :
    Plan.settings w' (some path) = .ok s := by
  have henv : w'.env = w.env := by
    unfold Surroundings.env
    rw [henvironment]
  have hagain : s.withSurroundings w.env = .ok s := by
    unfold Plan.settings at hsettings
    split at hsettings
    next gathered hgather =>
      cases hsettings
      rw [Settings.gather_eq] at hgather
      obtain ⟨loaded, -, hloaded⟩ := Fallible.bind_eq_ok.1 hgather
      exact Settings.withSurroundings_again hloaded
    next => cases hsettings
  have hdocument : Settings.ofBytes path (Utf8.encode s.document) = .ok s := by
    unfold Settings.ofBytes
    rw [Utf8.decode?_encode]
    simp only [Settings.ofDocument_document hwritable]
  have hgathered : Settings.gather w'.files w'.cwd w'.env (some path)
      = .ok s := by
    unfold Settings.gather
    simp only [Settings.loadNamed_of_read hread, henv]
    unfold Settings.surrounded
    rw [hdocument]
    exact hagain
  unfold Plan.settings
  rw [hgathered]

end Program

end Toolrun
