/-
How far a command line has been read, seen through what it comes to once the
pending part is checked (`Progress.settle`). What is pending is checked late,
with the next option or at the end, but it does not matter when: a path that
is added to something that can be settled is there when it is settled
(`addFile_of_settle`). So all that stands behind the end of the options is
added to the paths in front of it, whatever was pending there
(`readFrom_append`).
-/
import Mathlib.Data.List.Basic
import Toolrun.CommandLine.Reader
import Toolrun.Proofs.Fallible

namespace Toolrun.CommandLine

open Fallible (bind_eq_ok bind_ok_eq_ok mapM_cons_eq_ok)

/-- The word behind which every word is a path. -/
def endWord : Bytes := [0x2D, 0x2D]

/-- A word that is no option: a lone dash, or one that does not begin with a
dash. -/
def Bare (word : Bytes) : Prop := word = [0x2D] ∨ word.head? ≠ some 0x2D

/-- An option by its name. -/
def Opt.word (opt : Opt) : Bytes := 0x2D :: 0x2D :: Utf8.encode opt.name

/-- An option with its value in the same word. -/
def Opt.wordWith (opt : Opt) (value : Bytes) : Bytes :=
  opt.word ++ 0x3D :: value

variable {word value : Bytes}

theorem Word.of_bare (h : Bare word) : Word.of word = .plain word := by
  unfold Word.of
  rcases h with rfl | h
  · rfl
  · split
    · exact absurd rfl h
    · exact absurd rfl h
    · exact absurd rfl h
    · rfl

theorem Word.of_word (opt : Opt) :
    Word.of opt.word = .long (Utf8.encode opt.name) none := by
  cases opt <;> rfl

theorem Word.of_wordWith (opt : Opt) (value : Bytes) :
    Word.of (opt.wordWith value)
      = .long (Utf8.encode opt.name) (some value) := by
  cases opt <;> rfl

theorem named?_name (opt : Opt) :
    Opt.named? (Utf8.encode opt.name) = some opt := by
  cases opt <;> decide

theorem Word.of_eq_endOfOptions (h : Word.of word = .endOfOptions) :
    word = endWord := by
  unfold Word.of at h
  split at h
  · rfl
  · split at h <;> cases h
  · cases h
  · cases h

namespace Progress

variable {p q : Progress} {opt : Opt} {path : Bytes} {paths : List Bytes}

/-- Some paths more. -/
def withFiles (p : Progress) (paths : List Bytes) : Progress :=
  { p with request := { p.request with files := p.request.files ++ paths } }

theorem settle_of_nothing (h : p.pending = .nothing) : p.settle = .ok p := by
  cases p
  cases h
  rfl

theorem pending_store (h : p.store opt value = .ok q) :
    q.pending = p.pending := by
  unfold store at h
  cases opt
  all_goals
    obtain ⟨read, -, rfl⟩ := bind_ok_eq_ok.1 h
    rfl

theorem pending_take {value : Option Bytes}
    (h : p.take opt value = .ok q) : q.pending = p.pending := by
  unfold take at h
  split at h
  · cases h
  · split at h
    · cases h
    · have := pending_store h
      exact this

/-- Nothing is pending once it has been checked. -/
theorem pending_settle (h : p.settle = .ok q) : q.pending = .nothing := by
  unfold settle at h
  split at h
  · injection h with h
    rw [← h]
  · exact pending_take h
  · obtain ⟨read, -, rfl⟩ := bind_ok_eq_ok.1 h
    rfl

/-- An option that still waits for its value cannot be settled. -/
theorem pending_ne_of_settle (h : p.settle = .ok q) (opt : Opt) :
    p.pending ≠ .option opt none := by
  intro hpending
  unfold settle at h
  rw [hpending] at h
  cases h

/-- Paths are read as they are, unless one of them is empty. -/
theorem mapM_pathValue {found : List Bytes} :
    paths.mapM pathValue = .ok found ↔ [] ∉ paths ∧ found = paths := by
  induction paths generalizing found with
  | nil => simp [List.mapM_nil, pure, Except.pure, eq_comm]
  | cons path paths ih =>
      rw [mapM_cons_eq_ok]
      constructor
      · rintro ⟨first, others, hfirst, hothers, rfl⟩
        obtain ⟨hpaths, rfl⟩ := ih.1 hothers
        unfold pathValue at hfirst
        split at hfirst
        next => cases hfirst
        next hpath =>
          injection hfirst with hfirst
          subst hfirst
          refine ⟨fun hmem => ?_, rfl⟩
          rcases List.mem_cons.1 hmem with rfl | hmem
          · exact hpath rfl
          · exact hpaths hmem
      · rintro ⟨hpaths, rfl⟩
        obtain ⟨hpath, hothers⟩ := not_or.1 (mt List.mem_cons.2 hpaths)
        refine ⟨path, paths, ?_, ih.2 ⟨hothers, rfl⟩, rfl⟩
        unfold pathValue
        rw [if_neg (by simpa using Ne.symm hpath)]

theorem settle_files {found : List Bytes} (h : [] ∉ found)
    (hpending : p.pending = .files found) :
    p.settle = .ok ({ p with pending := .nothing }.withFiles found) := by
  unfold settle
  rw [hpending]
  exact bind_ok_eq_ok.2 ⟨found, mapM_pathValue.2 ⟨h, rfl⟩, rfl⟩

/-- One more path is taken, whatever was pending in front of it. -/
theorem addFile_of_settle (h : p.settle = .ok q) (hpath : path ≠ []) :
    ∃ p', p.addFile path = .ok p'
      ∧ p'.settle = .ok (q.withFiles [path]) := by
  unfold addFile
  split
  next found hpending =>
    -- the paths met so far are checked again together with this one
    unfold settle at h
    rw [hpending] at h
    obtain ⟨read, hread, rfl⟩ := bind_ok_eq_ok.1 h
    obtain ⟨hfound, rfl⟩ := mapM_pathValue.1 hread
    have hboth : [] ∉ read ++ [path] := by
      simp [hfound, hpath.symm]
    refine ⟨_, rfl, ?_⟩
    rw [settle_files hboth rfl]
    simp [withFiles]
  next =>
    refine ⟨{ q with pending := .files [path] }, ?_, ?_⟩
    · rw [h]
      rfl
    · have hfiles := settle_files (p := { q with pending := .files [path] })
        (by simpa using hpath.symm) rfl
      rw [hfiles]
      have hq := pending_settle h
      cases q
      cases hq
      rfl

end Progress

theorem readPaths_of_settle {p q : Progress} {paths : List Bytes}
    (h : p.settle = .ok q) (hpaths : [] ∉ paths) :
    readPaths p paths = .ok (q.withFiles paths) := by
  induction paths generalizing p q with
  | nil =>
      unfold readPaths Progress.withFiles
      rw [h, List.append_nil]
  | cons path paths ih =>
      obtain ⟨hpath, hothers⟩ := not_or.1 (mt List.mem_cons.2 hpaths)
      obtain ⟨p', hadd, hsettle⟩ := Progress.addFile_of_settle h
        (Ne.symm hpath)
      unfold readPaths
      rw [hadd]
      show readPaths p' paths = _
      rw [ih hsettle hothers]
      simp [Progress.withFiles]

-- ================================================== the end of the options

theorem closeEmpty_ne_ok (p : Progress) (line : CommandLine) :
    closeEmpty p ≠ .ok line := by
  intro h
  obtain ⟨q, -, h⟩ := bind_eq_ok.1 h
  cases h

theorem answer_ne_ok (p : Progress) (refusal : Refusal) (q : Progress) :
    p.answer refusal ≠ .ok q := by
  intro h
  obtain ⟨settled, -, h⟩ := bind_eq_ok.1 h
  cases h

theorem flag_ne_ok (p : Progress) (refusal : Refusal)
    (attached : Option Bytes) (q : Progress) :
    flag p refusal attached ≠ .ok q := by
  cases attached with
  | none => exact answer_ne_ok p refusal q
  | some value => exact nofun

theorem Word.of_endWord : Word.of endWord = .endOfOptions := rfl

/-- What is read behind `run` leaves something to be checked, and behind the
end of the options only that is left of it. -/
theorem readRun_end {p q : Progress} {words : List Bytes}
    (h : readRun p words = .ok q) (hwords : endWord ∉ words) :
    ∃ p', p'.settle = .ok q
      ∧ ∀ rest, readRun p (words ++ endWord :: rest) = readPaths p' rest := by
  induction words generalizing p with
  | nil =>
      unfold readRun at h
      refine ⟨p, h, fun rest => ?_⟩
      rw [List.nil_append, readRun, Word.of_endWord]
  | cons word words ih =>
      obtain ⟨hword, hothers⟩ := not_or.1 (mt List.mem_cons.2 hwords)
      rw [readRun] at h
      -- every word is read as it is without the words behind it
      split at h
      next heq => exact absurd (Word.of_eq_endOfOptions heq) (Ne.symm hword)
      next name attached heq =>
        split at h
        next opt hopt =>
          obtain ⟨begun, hbegin, h⟩ := bind_eq_ok.1 h
          obtain ⟨p', hsettle, hrest⟩ := ih h hothers
          refine ⟨p', hsettle, fun rest => ?_⟩
          rw [List.cons_append, readRun, heq]
          simp only [hopt, hbegin]
          exact hrest rest
        next =>
          split at h
          next => exact absurd h (flag_ne_ok p _ attached q)
          next => cases h
      next letters heq =>
        split at h
        next => exact absurd h (answer_ne_ok p _ q)
        next => cases h
      next value heq =>
        split at h
        next opt hpending =>
          obtain ⟨p', hsettle, hrest⟩ := ih h hothers
          refine ⟨p', hsettle, fun rest => ?_⟩
          rw [List.cons_append, readRun, heq]
          simp only [hpending]
          exact hrest rest
        next hpending =>
          obtain ⟨added, hadd, h⟩ := bind_eq_ok.1 h
          obtain ⟨p', hsettle, hrest⟩ := ih h hothers
          refine ⟨p', hsettle, fun rest => ?_⟩
          rw [List.cons_append, readRun, heq]
          simp only [hadd]
          exact hrest rest

/-- Paths behind the end of the options come behind those in front of it. -/
theorem readRun_append {p q : Progress} {words paths : List Bytes}
    (h : readRun p words = .ok q) (hwords : endWord ∉ words)
    (hpaths : [] ∉ paths) :
    readRun p (words ++ endWord :: paths) = .ok (q.withFiles paths) := by
  obtain ⟨p', hsettle, hrest⟩ := readRun_end h hwords
  rw [hrest, readPaths_of_settle hsettle hpaths]

/-- The same of a whole command line that asks for a run. -/
theorem readFrom_append {p : Progress} {words paths : List Bytes}
    {config : Option Bytes} {r : RunRequest}
    (h : readFrom p words = .ok ⟨config, .run r⟩) (hwords : endWord ∉ words)
    (hpaths : [] ∉ paths) :
    readFrom p (words ++ endWord :: paths)
      = .ok ⟨config, .run { r with files := r.files ++ paths }⟩ := by
  induction words generalizing p with
  | nil => exact absurd h (closeEmpty_ne_ok p _)
  | cons word words ih =>
      obtain ⟨hword, hothers⟩ := not_or.1 (mt List.mem_cons.2 hwords)
      rw [readFrom] at h
      rw [List.cons_append, readFrom]
      split at h
      next heq => exact absurd (Word.of_eq_endOfOptions heq) (Ne.symm hword)
      next name attached heq =>
        split at h
        next hname =>
          obtain ⟨begun, hbegin, h⟩ := bind_eq_ok.1 h
          rw [if_pos hname, hbegin]
          exact ih h hothers
        next =>
          -- help and version end the reading without a command
          split at h
          next =>
            obtain ⟨q, hflag, -⟩ := bind_eq_ok.1 h
            exact absurd hflag (flag_ne_ok p _ attached q)
          next =>
            split at h
            next =>
              obtain ⟨q, hflag, -⟩ := bind_eq_ok.1 h
              exact absurd hflag (flag_ne_ok p _ attached q)
            next => cases h
      next letters heq =>
        split at h
        next =>
          obtain ⟨q, hanswer, -⟩ := bind_eq_ok.1 h
          exact absurd hanswer (answer_ne_ok p _ q)
        next =>
          obtain ⟨q, hanswer, -⟩ := bind_eq_ok.1 h
          exact absurd hanswer (answer_ne_ok p _ q)
        next => cases h
      next value heq =>
        split at h
        next opt hpending =>
          exact ih h hothers
        next =>
          split at h
          next hrun =>
            rw [if_pos hrun]
            obtain ⟨inner, hinner, hclose⟩ := bind_eq_ok.1 h
            obtain ⟨outer, houter, hline⟩ := bind_ok_eq_ok.1 hclose
            cases hline
            rw [readRun_append hinner hothers hpaths]
            exact bind_ok_eq_ok.2 ⟨outer, houter, rfl⟩
          next =>
            split at h
            next =>
              obtain ⟨inner, hinner, hclose⟩ := bind_eq_ok.1 h
              obtain ⟨outer, houter, hline⟩ := bind_ok_eq_ok.1 hclose
              cases hline
            next => split at h <;> cases h

end Toolrun.CommandLine
