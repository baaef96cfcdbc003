/-
What a configuration document says, member by member.

A section is taken over step by step, in whichever of its forms it is written;
all of them come down to places that are assigned to the names of members
(`Shape.take_eq_ok`). What has been taken over after some steps is what the
last assignment to each name says: a kind of section tells what is said if
each of its members keeps it so (`Shape.Tells`), and then the whole section
does (`Shape.Tells.take`). At the end every field is what its member is given
as, or else its default (`ofEntries_declared`).
-/
import Toolrun.Proofs.Fallible
import Toolrun.Proofs.Settings.EnvTable
import Toolrun.Settings.Decode

namespace Toolrun

namespace Settings

open Toml (Entries Mismatch)

variable {α σ : Type}

-- ============================================================ assignments

/-- What a name is given as by some assignments; the last one counts. -/
def said? (name : String) (read : Place → Except Mismatch α)
    (items : List (String × Place)) : Option α :=
  (lastAssigned? name items).bind fun p => (read p).toOption

theorem said?_concat (name : String) (read : Place → Except Mismatch α)
    (items : List (String × Place)) (other : String) (p : Place) :
    said? name read (items ++ [(other, p)])
      = if other = name then (read p).toOption else said? name read items := by
  unfold said?
  rw [lastAssigned?_concat]
  split <;> rfl

/-- Whether a section can be written so: as a table, as a list of its members
in their order, or as a date. -/
def isSection : Toml.Item → Bool
  | .scalar _ (.dateTime _) => true
  | .scalar _ _ => false
  | _ => true

namespace Shape

/-- What a section assigns to the names of its members. -/
def assigned (shape : Shape σ) (p : Place) : List (String × Place) :=
  match p.item with
  | .table _ _ entries =>
    entries.map fun e => (e.1.name, .ofMember e.1 e.2)
  | .array _ items | .tables items =>
    (shape.members.zip items).map fun e => (e.1.name, .ofElement p.span e.2)
  | _ => []

/-- Takes over what a name is assigned, if it is the name of a member. -/
def takeNamed (shape : Shape σ) (s : σ) (e : String × Place) :
    Except Mismatch σ :=
  match shape.members.find? fun m => m.name = e.1 with
  | some m => m.take s e.2
  | none => .ok s

/-- Going through a list by steps that do the same for each of its items. -/
theorem foldlM_congr {β : Type} {f g : σ → β → Except Mismatch σ}
    {items : List β} (h : ∀ item ∈ items, ∀ s, f s item = g s item) (s : σ) :
    items.foldlM f s = items.foldlM g s := by
  induction items generalizing s with
  | nil => rfl
  | cons item items ih =>
      rw [List.foldlM_cons, List.foldlM_cons, h item List.mem_cons_self]
      have hrest := ih fun item hitem => h item (List.mem_cons_of_mem _ hitem)
      simp only [hrest]

/-- A list of members does the same as assignments to their names. -/
theorem takeList_assigned {shape : Shape σ}
    (hdistinct : (shape.members.map (·.name)).Nodup)
    (list : Toml.Span) (items : List Toml.Item) :
    shape.takeList list items
      = ((shape.members.zip items).map fun e =>
          (e.1.name, Place.ofElement list e.2)).foldlM shape.takeNamed
            shape.fallback := by
  rw [List.foldlM_map]
  refine foldlM_congr (fun e he s => ?_) shape.fallback
  unfold takeNamed
  rw [find?_of_nodup hdistinct (List.of_mem_zip he).1]

/-- In whichever form a section is written, taking it over is taking over what
it assigns to the names of its members. -/
theorem take_eq_ok {shape : Shape σ}
    (hdistinct : (shape.members.map (·.name)).Nodup)
    {s : σ} {p : Place} :
    shape.take p = .ok s ↔ isSection p.item = true
      ∧ (shape.assigned p).foldlM shape.takeNamed shape.fallback = .ok s := by
  obtain ⟨span, item⟩ := p
  cases item with
  | table origin written entries =>
      show entries.foldlM shape.takeMember shape.fallback = .ok s ↔ true = true
        ∧ (entries.map fun e => (e.1.name, Place.ofMember e.1 e.2)).foldlM
            shape.takeNamed shape.fallback = .ok s
      rw [List.foldlM_map]
      exact (and_iff_right rfl).symm
  | array written items =>
      show shape.takeList span items = .ok s ↔ true = true ∧ _
      rw [takeList_assigned hdistinct]
      exact (and_iff_right rfl).symm
  | tables items =>
      show shape.takeList span items = .ok s ↔ true = true ∧ _
      rw [takeList_assigned hdistinct]
      exact (and_iff_right rfl).symm
  | scalar written value =>
      cases value with
      | dateTime d => exact (and_iff_right rfl).symm
      | _ => exact iff_of_false nofun fun h => nomatch h.1

/-- A section without members is what is told of no assignments, and taking
over one assignment more always gives what is told with one assignment more,
whether it belongs to a member or to none. -/
structure Tells (shape : Shape σ) (told : List (String × Place) → σ) :
    Prop where
  distinct : (shape.members.map (·.name)).Nodup
  fallback : shape.fallback = told []
  member : ∀ m ∈ shape.members, ∀ items p s,
    m.take (told items) p = .ok s → s = told (items ++ [(m.name, p)])
  other : ∀ items name p, (∀ m ∈ shape.members, name ≠ m.name) →
    told items = told (items ++ [(name, p)])

variable {shape : Shape σ} {told : List (String × Place) → σ}

theorem Tells.takeNamed (htells : shape.Tells told)
    {items : List (String × Place)} {item : String × Place} {s : σ}
    (h : shape.takeNamed (told items) item = .ok s) :
    s = told (items ++ [item]) := by
  obtain ⟨name, p⟩ := item
  unfold Shape.takeNamed at h
  split at h
  next m hfind =>
    have hname : m.name = name := of_decide_eq_true
      (List.find?_some (p := fun m : Member σ => decide (m.name = name)) hfind)
    subst hname
    exact htells.member m (List.mem_of_find?_eq_some hfind) items p s h
  next hfind =>
    injection h with h
    rw [← h]
    refine htells.other items name p fun m hm hsame => ?_
    exact List.find?_eq_none.1 hfind m hm (decide_eq_true hsame.symm)

theorem Tells.foldlM (htells : shape.Tells told)
    {items : List (String × Place)} {s : σ}
    (h : items.foldlM shape.takeNamed shape.fallback = .ok s) :
    s = told items := by
  rw [htells.fallback] at h
  induction items using List.reverseRecOn generalizing s with
  | nil =>
      injection h with h
      exact h.symm
  | append_singleton items item ih =>
      obtain ⟨before, hbefore, hlast⟩ := Fallible.foldlM_concat_eq_ok.1 h
      rw [ih hbefore] at hlast
      exact htells.takeNamed hlast

/-- What a section is taken over as is what its assignments tell. -/
theorem Tells.take (htells : shape.Tells told) {p : Place} {s : σ}
    (h : shape.take p = .ok s) : s = told (shape.assigned p) :=
  htells.foldlM ((take_eq_ok htells.distinct).1 h).2

end Shape

-- =============================================================== sections

/-- What some assignments say about the section `runner`; the same follows for
the other two. -/
def runnerSaid (items : List (String × Place)) : RunnerSettings where
  toolPath := (said? "tool_path" Place.string items).getD ""
  language := (said? "language" Place.string items).getD ""

def controlSaid (items : List (String × Place)) : ControlSettings where
  timeoutMs := (said? "timeout_ms" (Place.count .timeCount) items).getD 0
  captureBytes :=
    (said? "capture_bytes" (Place.count .byteCount) items).getD 10485760
  killGraceMs :=
    (said? "kill_grace_ms" (Place.count .timeCount) items).getD 2000
  workingDir := said? "working_dir" Place.string items
  env := (said? "env" Place.textTable items).getD .empty

def loggingSaid (items : List (String × Place)) : LoggingSettings where
  enabled := (said? "enabled" Place.boolean items).getD true
  console := (said? "console" Place.boolean items).getD true
  file := (said? "file" Place.boolean items).getD false
  level := (said? "level" Place.string items).getD "info"
  directory := said? "directory" Place.string items

theorem runner_tells : runnerShape.Tells runnerSaid where
  distinct := by decide
  fallback := rfl
  member m hm items p s h := by
    simp only [runnerShape, List.mem_cons, List.not_mem_nil, or_false] at hm
    rcases hm with rfl | rfl
    all_goals
      obtain ⟨v, hv, rfl⟩ := Fallible.bind_ok_eq_ok.1 h
      simp [runnerSaid, said?_concat, hv, Except.toOption]
  other items name p hnone := by
    simp [runnerShape] at hnone
    simp [runnerSaid, said?_concat, hnone]

theorem control_tells : controlShape.Tells controlSaid where
  distinct := by decide
  fallback := rfl
  member m hm items p s h := by
    simp only [controlShape, List.mem_cons, List.not_mem_nil, or_false] at hm
    rcases hm with rfl | rfl | rfl | rfl | rfl
    all_goals
      obtain ⟨v, hv, rfl⟩ := Fallible.bind_ok_eq_ok.1 h
      simp [controlSaid, said?_concat, hv, Except.toOption]
  other items name p hnone := by
    simp [controlShape] at hnone
    simp [controlSaid, said?_concat, hnone]

theorem logging_tells : loggingShape.Tells loggingSaid where
  distinct := by decide
  fallback := rfl
  member m hm items p s h := by
    simp only [loggingShape, List.mem_cons, List.not_mem_nil, or_false] at hm
    rcases hm with rfl | rfl | rfl | rfl | rfl
    all_goals
      obtain ⟨v, hv, rfl⟩ := Fallible.bind_ok_eq_ok.1 h
      simp [loggingSaid, said?_concat, hv, Except.toOption]
  other items name p hnone := by
    simp [loggingShape] at hnone
    simp [loggingSaid, said?_concat, hnone]

-- ============================================================== documents

/-- What a document says: for each section the assignments to its members. -/
structure Declared where
  runner : List (String × Place) := []
  control : List (String × Place) := []
  logging : List (String × Place) := []

namespace Declared

/-- What is assigned in a section that may be missing. -/
def within (shape : Shape σ) (name : String) (items : List (String × Place)) :
    List (String × Place) :=
  ((lastAssigned? name items).map shape.assigned).getD []

/-- What assignments to the names of sections say. -/
def ofAssigned (items : List (String × Place)) : Declared where
  runner := within runnerShape "runner" items
  control := within controlShape "control" items
  logging := within loggingShape "logging" items

/-- What the entries of a document say. -/
def ofEntries (entries : Entries) : Declared :=
  ofAssigned (entries.map fun e => (e.1.name, .ofMember e.1 e.2))

-- What a document says about each member that a run can depend on; nothing is
-- said by a member that is missing.

def toolPath (d : Declared) : Option String :=
  said? "tool_path" Place.string d.runner

def language (d : Declared) : Option String :=
  said? "language" Place.string d.runner

def timeoutMs (d : Declared) : Option UInt64 :=
  said? "timeout_ms" (Place.count .timeCount) d.control

def captureBytes (d : Declared) : Option UInt64 :=
  said? "capture_bytes" (Place.count .byteCount) d.control

def killGraceMs (d : Declared) : Option UInt64 :=
  said? "kill_grace_ms" (Place.count .timeCount) d.control

def workingDir (d : Declared) : Option String :=
  said? "working_dir" Place.string d.control

def env (d : Declared) : Option EnvTable :=
  said? "env" Place.textTable d.control

/-- The settings with what a document says. -/
def settings (d : Declared) : Settings :=
  ⟨runnerSaid d.runner, controlSaid d.control, loggingSaid d.logging⟩

theorem within_concat (shape : Shape σ) (name : String)
    (items : List (String × Place)) (other : String) (p : Place) :
    within shape name (items ++ [(other, p)])
      = if other = name then shape.assigned p
        else within shape name items := by
  unfold within
  rw [lastAssigned?_concat]
  split <;> rfl

theorem settings_tells :
    shape.Tells fun items => (ofAssigned items).settings where
  distinct := by decide
  fallback := rfl
  member m hm items p s h := by
    simp only [shape, List.mem_cons, List.not_mem_nil, or_false] at hm
    rcases hm with rfl | rfl | rfl
    all_goals obtain ⟨v, hv, rfl⟩ := Fallible.bind_ok_eq_ok.1 h
    · simp [settings, ofAssigned, within_concat, ← runner_tells.take hv]
    · simp [settings, ofAssigned, within_concat, ← control_tells.take hv]
    · simp [settings, ofAssigned, within_concat, ← logging_tells.take hv]
  other items name p hnone := by
    simp [shape] at hnone
    simp [settings, ofAssigned, within_concat, hnone]

end Declared

/-- If a document can be taken over, then its settings are what it says, and
the defaults where it says nothing. -/
theorem ofEntries_declared {entries : Entries} {s : Settings}
    (h : ofEntries entries = .ok s) :
    s = (Declared.ofEntries entries).settings := by
  refine Declared.settings_tells.foldlM ?_
  rw [List.foldlM_map]
  exact h

end Settings

end Toolrun
