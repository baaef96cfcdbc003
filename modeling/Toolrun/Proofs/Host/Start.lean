/-
Why the system refuses to start a tool.

A file that is to be run is opened first; `Opened` and `Unopened` have the ways
in which that succeeds and fails. `Refused` has one rule for each way in which
the file at the end of a path cannot be run, and `loadWithin_eq_error` says
that there are no others. The last of the rules is about scripts: a script is
refused for the reason for which its interpreter is, so that a script without
its interpreter is refused just like a path that leads to nothing. Also the one
file too many is opened before it is refused for that, so that what is missing
there counts as missing.

The same number is given for a working directory that is not there. So
`start_eq_noEntry` has to list what can be missing apart from the tool, and
`LacksInterpreter` says what is, once a file for the tool has been found.
-/
import Mathlib.Data.List.Basic
import Toolrun.Host.Start
import Toolrun.Proofs.Paths

namespace Toolrun

-- ============================================================ executables

/-- Whether a node may be run. -/
def Node.isExecutable : Node → Bool
  | .program _ => true
  | .file _ mode => Host.isRunnable mode
  | _ => false

/-- Whether a path leads to something that may be run. -/
def Files.leadsToExecutable (files : Files) (cwd : Location) (path : Bytes) :
    Bool :=
  match files.find cwd path with
  | .ok node => node.isExecutable
  | .error _ => false

/-- A path from the root leads to the same from everywhere. -/
theorem Files.find_absolute {files : Files} {path : Bytes}
    (h : path.head? = some slash) (cwd cwd' : Location) :
    files.find cwd path = files.find cwd' path := by
  unfold find locate startOf
  rw [if_pos h, if_pos h]

namespace Host

variable {files : Files} {cwd dir : Location} {environment : List Bytes}
  {n : Nat} {path : Bytes} {arguments : List Bytes} {e : Errno}

-- ================================================================ opening

/-- The ways in which what is at a path is opened to be run. -/
inductive Opened (files : Files) (cwd : Location) (environment : List Bytes)
    (path : Bytes) (arguments : List Bytes) : Executable → Prop where
  | program {name : String} (hfind : files.find cwd path = .ok (.program name))
      (hfits : fits arguments environment = true) :
      Opened files cwd environment path arguments (.program name)
  | file {content : Bytes} {mode : Nat}
      (hfind : files.find cwd path = .ok (.file content mode))
      (hmode : isRunnable mode = true)
      (hfits : fits arguments environment = true) :
      Opened files cwd environment path arguments (.file content)

/-- The ways in which it is not. -/
inductive Unopened (files : Files) (cwd : Location) (environment : List Bytes)
    (path : Bytes) (arguments : List Bytes) : Errno → Prop where
  | lost {e : Errno} (hfind : files.find cwd path = .error e) :
      Unopened files cwd environment path arguments e
  | forbidden {node : Node} (hfind : files.find cwd path = .ok node)
      (hnode : node.isExecutable = false) :
      Unopened files cwd environment path arguments .denied
  | oversized {node : Node} (hfind : files.find cwd path = .ok node)
      (hnode : node.isExecutable = true)
      (hfits : fits arguments environment = false) :
      Unopened files cwd environment path arguments .argumentsTooLong

theorem Opened.openExecutable_eq {executable : Executable}
    (h : Opened files cwd environment path arguments executable) :
    openExecutable files cwd environment path arguments = .ok executable := by
  unfold openExecutable
  cases h with
  | program hfind hfits =>
      rw [hfind]
      simp only [bind, Except.bind, hfits, if_true]
  | file hfind hmode hfits =>
      rw [hfind]
      simp [bind, Except.bind, hmode, hfits]

theorem Unopened.openExecutable_eq
    (h : Unopened files cwd environment path arguments e) :
    openExecutable files cwd environment path arguments = .error e := by
  unfold openExecutable
  cases h with
  | lost hfind =>
      rw [hfind]
      rfl
  | @forbidden node hfind hnode =>
      rw [hfind]
      cases node with
      | directory => rfl
      | nullDevice => rfl
      | program name => cases hnode
      | file content mode =>
          have hmode : isRunnable mode = false := hnode
          simp [bind, Except.bind, hmode]
  | @oversized node hfind hnode hfits =>
      rw [hfind]
      cases node with
      | directory => cases hnode
      | nullDevice => cases hnode
      | program name => simp [bind, Except.bind, hfits]
      | file content mode =>
          have hmode : isRunnable mode = true := hnode
          simp [bind, Except.bind, hmode, hfits]

/-- There are no other ways. -/
theorem opened_or_unopened (files : Files) (cwd : Location)
    (environment : List Bytes) (path : Bytes) (arguments : List Bytes) :
    (∃ executable, Opened files cwd environment path arguments executable)
      ∨ ∃ e, Unopened files cwd environment path arguments e := by
  cases hfind : files.find cwd path with
  | error errno => exact .inr ⟨errno, .lost hfind⟩
  | ok node =>
      cases hnode : node.isExecutable with
      | false => exact .inr ⟨_, .forbidden hfind hnode⟩
      | true =>
          cases hfits : fits arguments environment with
          | false => exact .inr ⟨_, .oversized hfind hnode hfits⟩
          | true =>
              cases node with
              | directory => cases hnode
              | nullDevice => cases hnode
              | program name => exact .inl ⟨_, .program hfind hfits⟩
              | file content mode =>
                  exact .inl ⟨_, .file hfind hnode hfits⟩

theorem openExecutable_eq_ok {executable : Executable} :
    openExecutable files cwd environment path arguments = .ok executable
      ↔ Opened files cwd environment path arguments executable := by
  refine ⟨fun h => ?_, Opened.openExecutable_eq⟩
  rcases opened_or_unopened files cwd environment path arguments with
    ⟨other, hopened⟩ | ⟨errno, hunopened⟩
  · cases hopened.openExecutable_eq.symm.trans h
    exact hopened
  · cases hunopened.openExecutable_eq.symm.trans h

theorem openExecutable_eq_error :
    openExecutable files cwd environment path arguments = .error e
      ↔ Unopened files cwd environment path arguments e := by
  refine ⟨fun h => ?_, Unopened.openExecutable_eq⟩
  rcases opened_or_unopened files cwd environment path arguments with
    ⟨executable, hopened⟩ | ⟨errno, hunopened⟩
  · cases hopened.openExecutable_eq.symm.trans h
  · cases hunopened.openExecutable_eq.symm.trans h
    exact hunopened

/-- What is opened may be run. -/
theorem Opened.leadsToExecutable {executable : Executable}
    (h : Opened files cwd environment path arguments executable) :
    files.leadsToExecutable cwd path = true := by
  unfold Files.leadsToExecutable
  cases h with
  | program hfind =>
      rw [hfind]
      rfl
  | file hfind hmode =>
      rw [hfind]
      exact hmode

-- =============================================================== refusals

/-- The ways in which running the file at a path is refused, with so many
files still to be taken up. -/
inductive Refused (files : Files) (cwd : Location)
    (environment : List Bytes) : Errno → Nat → Bytes → List Bytes → Prop where
  | unopened {e : Errno} {n : Nat} {path : Bytes} {arguments : List Bytes}
      (hunopened : Unopened files cwd environment path arguments e) :
      Refused files cwd environment e n path arguments
  | tooDeep {path : Bytes} {arguments : List Bytes} {executable : Executable}
      (hopened : Opened files cwd environment path arguments executable) :
      Refused files cwd environment .tooManyLinks 0 path arguments
  | anonymous {n : Nat} {path content : Bytes} {arguments : List Bytes}
      (hopened : Opened files cwd environment path arguments (.file content))
      (hnone : interpreter? content = none) :
      Refused files cwd environment .notExecutable (n + 1) path arguments
  | script {e : Errno} {n : Nat} {path content name : Bytes}
      {extra arguments : List Bytes}
      (hopened : Opened files cwd environment path arguments (.file content))
      (hnamed : interpreter? content = some (name, extra))
      (hrefused : Refused files cwd environment e n name
        (name :: extra ++ path :: arguments.drop 1)) :
      Refused files cwd environment e (n + 1) path arguments

/-- What the rules say is refused. -/
theorem Refused.loadWithin_eq
    (h : Refused files cwd environment e n path arguments) :
    loadWithin files cwd environment n path arguments = .error e := by
  induction h with
  | unopened hunopened =>
      unfold loadWithin
      rw [openExecutable_eq_error.2 hunopened]
  | tooDeep hopened =>
      unfold loadWithin
      rw [openExecutable_eq_ok.2 hopened]
  | anonymous hopened hnone =>
      unfold loadWithin
      rw [openExecutable_eq_ok.2 hopened]
      simp only [hnone]
  | script hopened hnamed _ ih =>
      unfold loadWithin
      rw [openExecutable_eq_ok.2 hopened]
      simp only [hnamed]
      exact ih

/-- What is refused is refused by one of the rules. -/
theorem Refused.of_loadWithin
    (h : loadWithin files cwd environment n path arguments = .error e) :
    Refused files cwd environment e n path arguments := by
  induction n generalizing path arguments with
  | zero =>
      unfold loadWithin at h
      split at h
      next hopen =>
        cases h
        exact .unopened (openExecutable_eq_error.1 hopen)
      next hopen =>
        cases h
        exact .tooDeep (openExecutable_eq_ok.1 hopen)
      next hn _ => cases hn
      next hn _ => cases hn
  | succ n ih =>
      unfold loadWithin at h
      split at h
      next hopen =>
        cases h
        exact .unopened (openExecutable_eq_error.1 hopen)
      next hn _ => cases hn
      next => cases h
      next hn hopen =>
        cases hn
        have hopened := openExecutable_eq_ok.1 hopen
        split at h
        next hnone =>
          cases h
          exact .anonymous hopened hnone
        next hnamed => exact .script hopened hnamed (ih h)

/-- The system refuses by these rules. -/
theorem loadWithin_eq_error :
    loadWithin files cwd environment n path arguments = .error e
      ↔ Refused files cwd environment e n path arguments :=
  ⟨Refused.of_loadWithin, Refused.loadWithin_eq⟩

-- ============================================================== searching

section Search

variable {withShell denied : Bool} {last : Errno} {places others : List Bytes}

/-- Why running a file is refused, with no interpreter used up. -/
abbrev RefusedAt (files : Files) (dir : Location)
    (environment arguments : List Bytes) (path : Bytes) (e : Errno) : Prop :=
  Refused files dir environment e interpreterLimit path arguments

/-- Nothing is refused for two reasons. -/
theorem RefusedAt.iff_eq {e' : Errno}
    (h : RefusedAt files dir environment arguments path e) :
    RefusedAt files dir environment arguments path e' ↔ e = e' := by
  rw [RefusedAt, ← loadWithin_eq_error, h.loadWithin_eq, Except.error.injEq]

/-- Every place is refused for something missing, and the last of all places
for want of an entry. What the place before these was refused for counts if
these are none. -/
def AllWanting (files : Files) (dir : Location)
    (environment arguments : List Bytes) (last : Errno) (places : List Bytes) :
    Prop :=
  (∀ place ∈ places,
      RefusedAt files dir environment arguments place .noEntry
        ∨ RefusedAt files dir environment arguments place .notDirectory)
    ∧ places.getLast?.elim (last = .noEntry) fun place =>
        RefusedAt files dir environment arguments place .noEntry

/-- After places that are passed over comes a file that names no interpreter,
and the shell is missing. -/
def WantingShell (files : Files) (dir : Location)
    (environment arguments places : List Bytes) : Prop :=
  ∃ before path after, places = before ++ path :: after
    ∧ (∀ place ∈ before, ∃ e, isPassing e = true
        ∧ RefusedAt files dir environment arguments place e)
    ∧ RefusedAt files dir environment arguments path .notExecutable
    ∧ RefusedAt files dir environment
        (shellPath :: path :: arguments.drop 1) shellPath .noEntry

theorem allWanting_cons
    (hrefused : RefusedAt files dir environment arguments path e) :
    AllWanting files dir environment arguments last (path :: others)
      ↔ (e = .noEntry ∨ e = .notDirectory)
        ∧ AllWanting files dir environment arguments e others := by
  unfold AllWanting
  rw [List.forall_mem_cons, List.getLast?_cons, hrefused.iff_eq,
    hrefused.iff_eq, and_assoc]
  cases others.getLast? with
  | none => simp only [Option.getD_none, Option.elim, hrefused.iff_eq]
  | some place => rfl

/-- What is passed over makes no difference for the shell. -/
theorem wantingShell_cons_of_passing
    (hrefused : RefusedAt files dir environment arguments path e)
    (hpassing : isPassing e = true) :
    WantingShell files dir environment arguments (path :: others)
      ↔ WantingShell files dir environment arguments others := by
  constructor
  · rintro ⟨before, stop, after, hplaces, hbefore, hplain, hshell⟩
    cases before with
    | nil =>
        obtain ⟨rfl, -⟩ := List.cons.inj hplaces
        rw [hrefused.iff_eq.1 hplain] at hpassing
        cases hpassing
    | cons first before =>
        obtain ⟨rfl, rfl⟩ := List.cons.inj hplaces
        exact ⟨before, stop, after, rfl,
          fun place hmem => hbefore place (List.mem_cons_of_mem _ hmem),
          hplain, hshell⟩
  · rintro ⟨before, stop, after, rfl, hbefore, hplain, hshell⟩
    refine ⟨path :: before, stop, after, rfl, ?_, hplain, hshell⟩
    exact List.forall_mem_cons.2 ⟨⟨e, hpassing, hrefused⟩, hbefore⟩

/-- At a place that is not passed over it depends on this place alone. -/
theorem wantingShell_cons_of_stop
    (hstop : ∀ e, RefusedAt files dir environment arguments path e →
      isPassing e = false) :
    WantingShell files dir environment arguments (path :: others)
      ↔ RefusedAt files dir environment arguments path .notExecutable
        ∧ RefusedAt files dir environment
            (shellPath :: path :: arguments.drop 1) shellPath .noEntry := by
  constructor
  · rintro ⟨before, stop, after, hplaces, hbefore, hplain, hshell⟩
    cases before with
    | nil =>
        obtain ⟨rfl, -⟩ := List.cons.inj hplaces
        exact ⟨hplain, hshell⟩
    | cons first before =>
        obtain ⟨rfl, -⟩ := List.cons.inj hplaces
        obtain ⟨e, hpassing, hrefused⟩ := hbefore path List.mem_cons_self
        rw [hstop e hrefused] at hpassing
        cases hpassing
  · rintro ⟨hplain, hshell⟩
    exact ⟨[], path, others, rfl, nofun, hplain, hshell⟩

/-- Of what is passed over, all is missing but what is forbidden. -/
theorem missing_iff_of_passing (h : isPassing e = true) :
    (e = .noEntry ∨ e = .notDirectory) ↔ e ≠ .denied := by
  unfold isPassing at h
  simp only [Bool.or_eq_true, decide_eq_true_eq] at h
  constructor
  · rintro (rfl | rfl) <;> decide
  · exact fun hne => h.resolve_right hne

/-- A search ends for want of an entry if all of its places are wanting and
nothing was forbidden before, or if it wants a shell. -/
theorem searchFrom_eq_noEntry :
    searchFrom files dir environment withShell arguments denied last places
        = .error .noEntry
      ↔ (denied = false
          ∧ AllWanting files dir environment arguments last places)
        ∨ (withShell = true
          ∧ WantingShell files dir environment arguments places) := by
  induction places generalizing denied last with
  | nil =>
      have hno : ¬ WantingShell files dir environment arguments [] := by
        rintro ⟨before, path, after, hplaces, -⟩
        simp at hplaces
      cases denied <;>
        simp [searchFrom, hno, AllWanting, Errno.denied, Errno.noEntry]
  | cons path others ih =>
      rw [searchFrom]
      cases hload : load files dir environment path arguments with
      | ok image =>
          have hno (e : Errno) :
              ¬ RefusedAt files dir environment arguments path e := by
            intro hrefused
            cases hload.symm.trans hrefused.loadWithin_eq
          rw [wantingShell_cons_of_stop fun e h => absurd h (hno e)]
          simp [hno, AllWanting]
      | error errno =>
          have hrefused :
              RefusedAt files dir environment arguments path errno :=
            .of_loadWithin hload
          rw [allWanting_cons hrefused]
          by_cases hpassing : isPassing errno = true
          · have hplain : errno ≠ .notExecutable := by
              rintro rfl
              cases hpassing
            have hmissing : (errno = .noEntry ∨ errno = .notDirectory)
                ↔ errno ≠ .denied := missing_iff_of_passing hpassing
            rw [wantingShell_cons_of_passing hrefused hpassing]
            simp [hplain, hpassing, ih, hmissing, and_assoc]
          · have hpresent : ¬ (errno = .noEntry ∨ errno = .notDirectory) := by
              rintro (rfl | rfl) <;> exact hpassing rfl
            rw [wantingShell_cons_of_stop fun e h =>
              hrefused.iff_eq.1 h ▸ eq_false_of_ne_true hpassing]
            simp only [hpresent, false_and, and_false, false_or,
              hrefused.iff_eq]
            split
            next hshell =>
              obtain ⟨hnamed, hwith⟩ : errno = .notExecutable
                ∧ withShell = true := by simpa using hshell
              rw [load, loadWithin_eq_error]
              simp [hnamed, hwith]
            next hshell =>
              refine iff_of_false (fun h => ?_) fun h => hshell ?_
              · exact hpresent (.inl (Except.error.inj h))
              · simp [h.1, h.2.1]

end Search

-- =============================================================== requests

namespace StartRequest

variable {r : StartRequest}

/-- The paths at which a tool is looked for. -/
def places (r : StartRequest) : List Bytes :=
  if r.tool.contains Files.slash then [r.tool]
  else candidates r.searchPath r.tool

/-- The first of these paths that leads to something that may be run. -/
def found? (r : StartRequest) (files : Files) (dir : Location) :
    Option Bytes :=
  r.places.find? (files.leadsToExecutable dir)

/-- A tool with a path from the root is found from everywhere, or nowhere. -/
theorem found?_of_absolute (hroot : r.tool.head? = some Files.slash)
    (htool : files.leadsToExecutable cwd r.tool = true) (dir : Location) :
    r.found? files dir = some r.tool := by
  have hslash : r.tool.contains Files.slash = true := by
    obtain ⟨rest, hrest⟩ := List.head?_eq_some_iff.1 hroot
    simp [hrest]
  have htool' : files.leadsToExecutable dir r.tool = true := by
    unfold Files.leadsToExecutable at htool ⊢
    rwa [Files.find_absolute hroot dir cwd]
  unfold found? places
  rw [if_pos hslash, List.find?_cons, htool']

/-- A tool that is looked for on the search path. -/
structure IsSearched (r : StartRequest) : Prop where
  isName : r.tool.contains Files.slash = false
  isShort : r.tool.length ≤ Files.longestName

/-- The ways in which looking for a tool ends with something missing, be it
the tool or an interpreter. -/
inductive Missing (r : StartRequest) (files : Files) (dir : Location) :
    Prop where
  | path (hslash : r.tool.contains Files.slash = true)
      (hrefused : RefusedAt files dir (assignments r.environment)
        (r.tool :: r.arguments) r.tool .noEntry)
  | search (hname : r.IsSearched)
      (hplaces : AllWanting files dir (assignments r.environment)
        (r.tool :: r.arguments) .noEntry (candidates r.searchPath r.tool))
  | shell (hname : r.IsSearched) (hwith : r.withShell = true)
      (hplaces : WantingShell files dir (assignments r.environment)
        (r.tool :: r.arguments) (candidates r.searchPath r.tool))

theorem find_eq_noEntry :
    r.find files dir = .error .noEntry ↔ r.Missing files dir := by
  unfold find
  simp only
  split
  next hslash =>
    rw [load, loadWithin_eq_error]
    refine ⟨fun h => .path hslash h, fun h => ?_⟩
    cases h with
    | path _ hrefused => exact hrefused
    | search hname => cases hslash.symm.trans hname.isName
    | shell hname => cases hslash.symm.trans hname.isName
  next hslash =>
    split
    next hlong =>
      refine iff_of_false (fun h => nomatch h) fun h => ?_
      cases h with
      | path hslash' => exact hslash hslash'
      | search hname => exact Nat.not_lt.2 hname.isShort hlong
      | shell hname => exact Nat.not_lt.2 hname.isShort hlong
    next hlong =>
      have hname : r.IsSearched :=
        ⟨eq_false_of_ne_true hslash, Nat.not_lt.1 hlong⟩
      rw [searchFrom_eq_noEntry]
      constructor
      · rintro (⟨-, hplaces⟩ | ⟨hwith, hplaces⟩)
        · exact .search hname hplaces
        · exact .shell hname hwith hplaces
      · intro h
        cases h with
        | path hslash' => exact absurd hslash' hslash
        | search _ hplaces => exact .inl ⟨rfl, hplaces⟩
        | shell _ hwith hplaces => exact .inr ⟨hwith, hplaces⟩

-- =========================================================== interpreters

/-- The file at a path is not run for want of an interpreter: the one that it
names cannot be run itself; or there is none, and the shell that is to take its
place is missing. -/
inductive LacksInterpreter (r : StartRequest) (files : Files)
    (dir : Location) : Bytes → Prop where
  | named {path content name : Bytes} {mode : Nat} {extra : List Bytes}
      {e : Errno}
      (hfind : files.find dir path = .ok (.file content mode))
      (hnamed : interpreter? content = some (name, extra))
      (hpassing : isPassing e = true)
      (hrefused : Refused files dir (assignments r.environment) e
        (interpreterLimit - 1) name (name :: extra ++ path :: r.arguments)) :
      LacksInterpreter r files dir path
  | shell {path : Bytes} (hwith : r.withShell = true)
      (hplain : RefusedAt files dir (assignments r.environment)
        (r.tool :: r.arguments) path .notExecutable)
      (hrefused : RefusedAt files dir (assignments r.environment)
        (shellPath :: path :: r.arguments) shellPath .noEntry) :
      LacksInterpreter r files dir path

/-- A file that may be run is passed over only for its interpreter. -/
theorem LacksInterpreter.of_passing
    (hrefused : RefusedAt files dir (assignments r.environment)
      (r.tool :: r.arguments) path e)
    (hpassing : isPassing e = true)
    (hpath : files.leadsToExecutable dir path = true) :
    r.LacksInterpreter files dir path := by
  unfold RefusedAt interpreterLimit at hrefused
  cases hrefused with
  | unopened hunopened =>
      unfold Files.leadsToExecutable at hpath
      cases hunopened with
      | lost hfind =>
          rw [hfind] at hpath
          cases hpath
      | forbidden hfind hnode =>
          rw [hfind] at hpath
          cases hnode.symm.trans hpath
      | oversized => cases hpassing
  | anonymous => cases hpassing
  | script hopened hnamed hrefused =>
      cases hopened with
      | file hfind => exact .named hfind hnamed hpassing hrefused

/-- What names no interpreter may be run all the same. -/
theorem leadsToExecutable_of_plain
    (h : RefusedAt files dir environment arguments path .notExecutable) :
    files.leadsToExecutable dir path = true := by
  unfold RefusedAt interpreterLimit at h
  cases h with
  | unopened hunopened =>
      cases hunopened with
      | lost hfind => cases Files.loses_of_find hfind
  | anonymous hopened => exact hopened.leadsToExecutable
  | script hopened => exact hopened.leadsToExecutable

/-- If a file for the tool has been found, then what is missing is its
interpreter. -/
theorem Missing.lacksInterpreter (h : r.Missing files dir)
    (hfound : r.found? files dir = some path) :
    r.LacksInterpreter files dir path := by
  have hpath : files.leadsToExecutable dir path = true :=
    List.find?_some hfound
  have hmem : path ∈ r.places := List.mem_of_find?_eq_some hfound
  unfold found? places at hfound
  unfold places at hmem
  cases h with
  | path hslash hrefused =>
      rw [if_pos hslash, List.mem_singleton] at hmem
      subst hmem
      exact .of_passing hrefused rfl hpath
  | search hname hplaces =>
      rw [hname.isName, if_neg Bool.false_ne_true] at hmem
      rcases hplaces.1 path hmem with hrefused | hrefused
      · exact .of_passing hrefused rfl hpath
      · exact .of_passing hrefused rfl hpath
  | shell hname hwith hplaces =>
      obtain ⟨before, stop, after, hplaces, hbefore, hplain, hshell⟩ := hplaces
      rw [hname.isName, if_neg Bool.false_ne_true, hplaces,
        List.find?_append] at hfound
      cases hfirst : before.find? (files.leadsToExecutable dir) with
      | some first =>
          rw [hfirst] at hfound
          cases hfound
          obtain ⟨e, hpassing, hrefused⟩ :=
            hbefore path (List.mem_of_find?_eq_some hfirst)
          exact .of_passing hrefused hpassing hpath
      | none =>
          have hstop : files.leadsToExecutable dir stop = true :=
            leadsToExecutable_of_plain hplain
          rw [hfirst, List.find?_cons, hstop] at hfound
          cases hfound
          exact .shell hwith hplain hshell

-- =================================================================== starts

/-- No text that is handed to the system has a NUL in it. -/
def IsNulFree (r : StartRequest) : Prop := ∀ text ∈ r.texts, 0 ∉ text

/-- The working directory that is asked for is not there. -/
def LacksDirectory (r : StartRequest) (files : Files) (cwd : Location) :
    Prop :=
  ∃ path, r.workingDir = some path ∧ files.find cwd path = .error .noEntry

theorem directory_eq_noEntry :
    r.directory files cwd = .error .noEntry ↔ r.LacksDirectory files cwd := by
  unfold directory LacksDirectory Files.find
  cases r.workingDir with
  | none => simp
  | some path =>
      simp only [Option.some.injEq, exists_eq_left']
      cases files.locate cwd path with
      | error errno => simp [bind, Except.bind]
      | ok stop =>
          simp only [bind, Except.bind]
          unfold Files.expectDirectory
          cases files.at? stop with
          | none => simp
          | some node => cases node <;> simp [Errno.notDirectory, Errno.noEntry]

/-- A start fails for want of an entry if the working directory is missing, or
else something that looking for the tool comes upon. -/
theorem start_eq_noEntry :
    r.start files cwd = .error (.system .noEntry)
      ↔ r.IsNulFree
        ∧ (r.LacksDirectory files cwd
          ∨ ∃ dir, r.directory files cwd = .ok dir ∧ r.Missing files dir) := by
  have hnul : (r.texts.any fun text => text.contains 0) = false
      ↔ r.IsNulFree := by simp [IsNulFree]
  rw [← hnul, ← directory_eq_noEntry]
  unfold start
  split
  next hany =>
    refine iff_of_false (fun h => ?_) fun h => ?_
    · cases h
    · cases hany.symm.trans h.1
  next hnone =>
    simp only [hnone, true_and]
    cases hdirectory : r.directory files cwd with
    | error errno => simp
    | ok dir =>
        simp only [← find_eq_noEntry]
        cases hfind : r.find files dir with
        | error errno => simp [hfind]
        | ok image => simp [hfind]

end StartRequest

end Host

end Toolrun
