/-
Settings that are written in part are filled in from the defaults.

What is written is chosen by names, of sections and of members in them
(`Choice`). The document is read section by section, so a section is given
either what holds the chosen part of it or nothing (`Choice.given_section`).
From the one follows what is said of each member, a default if it was left
out, and from the other that nothing is said (`Choice.section_filled`); either
way it fits. Together the sections say what is filled in
(`Choice.ofDocument_document`).

The defaults stand in two places, with the fields of the settings and with the
sections that are read. What is told of a section without members agrees with
the latter (`Shape.Tells.fallback`); that it agrees with the former is what
`rfl` has to see at the end of each of the three sections.
-/
import Toolrun.Proofs.Settings.Known
import Toolrun.Proofs.Toml.Sections
import Toolrun.Settings.Printer
import Toolrun.Settings.Sources

namespace Toolrun

namespace Settings

open Toml (Entries Item Mismatch Written WrittenSection)

variable {α : Type}

-- ================================================================ choices

/-- Settings as the sections of a document. -/
def written (s : Settings) : List WrittenSection :=
  [⟨"runner", runnerMembers s.runner, none⟩,
    ⟨"control", controlMembers s.control,
      some ("env", envMembers s.control.env)⟩,
    ⟨"logging", loggingMembers s.logging, none⟩]

/-- Which sections are written, and which members of them. -/
structure Choice where
  sections : String → Bool
  members : String → String → Bool

namespace Choice

/-- What is written of a section. -/
def part (c : Choice) (t : WrittenSection) : WrittenSection where
  name := t.name
  members := t.members.filter fun m => c.members t.name m.1
  inner := t.inner.filter fun w => c.members t.name w.1

/-- What is written of settings. -/
def written (c : Choice) (s : Settings) : List WrittenSection :=
  (s.written.filter fun t => c.sections t.name).map c.part

/-- The document that holds what is chosen and nothing else. -/
def document (c : Choice) (s : Settings) : String :=
  String.ofList
    (Toml.writeDocument ((c.written s).flatMap WrittenSection.tables))

/-- A value if its member is written, and a default if it is not. -/
def pick (c : Choice) (name member : String) (value other : α) : α :=
  if c.sections name && c.members name member then value else other

/-- The settings with every member that is not written put back to its
default. -/
def fill (c : Choice) (s : Settings) : Settings where
  runner :=
    { toolPath := c.pick "runner" "tool_path" s.runner.toolPath
        default.runner.toolPath
      language := c.pick "runner" "language" s.runner.language
        default.runner.language }
  control :=
    { timeoutMs := c.pick "control" "timeout_ms" s.control.timeoutMs
        default.control.timeoutMs
      captureBytes := c.pick "control" "capture_bytes" s.control.captureBytes
        default.control.captureBytes
      killGraceMs := c.pick "control" "kill_grace_ms" s.control.killGraceMs
        default.control.killGraceMs
      workingDir := c.pick "control" "working_dir" s.control.workingDir
        default.control.workingDir
      env := c.pick "control" "env" s.control.env default.control.env }
  logging :=
    { enabled := c.pick "logging" "enabled" s.logging.enabled
        default.logging.enabled
      console := c.pick "logging" "console" s.logging.console
        default.logging.console
      file := c.pick "logging" "file" s.logging.file default.logging.file
      level := c.pick "logging" "level" s.logging.level default.logging.level
      directory := c.pick "logging" "directory" s.logging.directory
        default.logging.directory }

end Choice

-- ================================================================ writing

variable {s : Settings} {c : Choice}

theorem nodup_runnerMembers (s : RunnerSettings) :
    ((runnerMembers s).map (·.1)).Nodup := by
  simp [runnerMembers]

theorem nodup_envMembers (t : EnvTable) :
    ((envMembers t).map (·.1)).Nodup := by
  unfold envMembers
  rw [List.map_map]
  exact t.nodup_names

theorem nodup_controlMembers (s : ControlSettings) :
    ((controlMembers s).map (·.1)).Nodup := by
  unfold controlMembers optionalText
  cases s.workingDir <;> simp

theorem nodup_loggingMembers (s : LoggingSettings) :
    ((loggingMembers s).map (·.1)).Nodup := by
  unfold loggingMembers optionalText
  cases s.directory <;> simp

theorem fits_optionalText {name : String} {text : Option String} :
    ∀ m ∈ optionalText name text, m.2.Fits := by
  cases text <;> simp [optionalText, Written.Fits]

theorem fits_runnerMembers (s : RunnerSettings) :
    ∀ m ∈ runnerMembers s, m.2.Fits := by
  simp [runnerMembers, Written.Fits]

theorem fits_envMembers (t : EnvTable) : ∀ m ∈ envMembers t, m.2.Fits := by
  intro m hm
  obtain ⟨p, -, rfl⟩ := List.mem_map.1 hm
  exact trivial

theorem fits_controlMembers (h : s.isWritable = true) :
    ∀ m ∈ controlMembers s.control, m.2.Fits := by
  simp only [isWritable, List.all_cons, List.all_nil, Bool.and_true,
    Bool.and_eq_true, decide_eq_true_eq] at h
  unfold controlMembers
  intro m hm
  rcases List.mem_append.1 hm with hm | hm
  · simp only [List.mem_cons, List.not_mem_nil, or_false] at hm
    rcases hm with rfl | rfl | rfl
    · exact h.1
    · exact h.2.1
    · exact h.2.2
  · exact fits_optionalText m hm

theorem fits_loggingMembers (s : LoggingSettings) :
    ∀ m ∈ loggingMembers s, m.2.Fits := by
  unfold loggingMembers
  intro m hm
  rcases List.mem_append.1 hm with hm | hm
  · simp only [List.mem_cons, List.not_mem_nil, or_false] at hm
    rcases hm with rfl | rfl | rfl | rfl <;> exact trivial
  · exact fits_optionalText m hm

/-- Settings whose numbers can be written are sections that can be. -/
theorem fits_written (h : s.isWritable = true) : ∀ t ∈ s.written, t.Fits := by
  unfold written
  simp only [List.forall_mem_cons]
  refine ⟨⟨fits_runnerMembers _, nodup_runnerMembers _, nofun⟩,
    ⟨fits_controlMembers h, nodup_controlMembers _, fun w hw => ?_⟩,
    ⟨fits_loggingMembers _, nodup_loggingMembers _, nofun⟩, nofun⟩
  cases hw
  refine ⟨fits_envMembers _, nodup_envMembers _, ?_⟩
  unfold controlMembers optionalText
  cases s.control.workingDir <;> simp

theorem Choice.fits_part {t : WrittenSection} (h : t.Fits) :
    (c.part t).Fits where
  fits m hm := h.fits m (List.mem_filter.1 hm).1
  nodup := h.nodup.sublist (List.filter_sublist.map _)
  inner w hw := by
    obtain ⟨hw, -⟩ := Option.mem_filter_iff.1 hw
    obtain ⟨hfits, hnodup, hnew⟩ := h.inner w hw
    refine ⟨hfits, hnodup, fun hin => hnew ?_⟩
    obtain ⟨m, hm, hname⟩ := List.mem_map.1 hin
    exact List.mem_map.2 ⟨m, (List.mem_filter.1 hm).1, hname⟩

theorem Choice.nodup_written (c : Choice) (s : Settings) :
    ((c.written s).map (·.name)).Nodup := by
  have hnames : (c.written s).map (·.name)
      = (s.written.filter fun t => c.sections t.name).map (·.name) := by
    unfold Choice.written
    rw [List.map_map]
    rfl
  have hnodup : (s.written.map (·.name)).Nodup := by
    show ["runner", "control", "logging"].Nodup
    decide
  rw [hnames]
  exact hnodup.sublist (List.filter_sublist.map _)

/-- The document is read as what is written. -/
theorem Choice.read?_document (c : Choice) (h : s.isWritable = true) :
    ∃ entries, Toml.read? (c.document s) = some entries
      ∧ List.Forall₂ WrittenSection.Holds entries (c.written s) := by
  refine Toml.read?_sections (fun t ht => ?_) (c.nodup_written s)
  obtain ⟨whole, hwhole, rfl⟩ := List.mem_map.1 ht
  exact fits_part (fits_written h whole (List.mem_filter.1 hwhole).1)

-- =============================================================== decoding

/-- Where a name was written, there it is read. -/
theorem given_hold {entries : Entries} {members : List (String × Written)}
    (h : entries.Hold members) (name : String) :
    List.Forall₂
      (fun p w => ∃ place span, p = ⟨place, .scalar span (Written.scalar w)⟩)
      (given name (places entries)) (given name members) := by
  unfold given places
  induction h with
  | nil => exact .nil
  | @cons e m entries members hfirst hothers ih =>
      obtain ⟨hname, span, hitem⟩ := hfirst
      rw [List.map_cons, List.filter_cons, List.filter_cons, hname]
      split
      next => exact .cons ⟨_, span, by rw [hitem]; rfl⟩ ih
      next => exact ih

/-- What is read of a member that was written. -/
theorem said?_hold {entries : Entries} {members : List (String × Written)}
    (h : entries.Hold members) (name : String)
    {read : Place → Except Mismatch α} (value? : Written → Option α)
    (hread : ∀ place span w,
      (read ⟨place, .scalar span (Written.scalar w)⟩).toOption = value? w) :
    said? name read (places entries)
      = (lastAssigned? name members).bind value? := by
  have hlast := getLast?_of_forall₂ (given_hold h name)
  unfold said?
  rw [lastAssigned?_eq, lastAssigned?_eq]
  generalize (given name (places entries)).getLast? = last at hlast ⊢
  generalize (given name members).getLast? = last' at hlast ⊢
  cases hlast with
  | none => rfl
  | some hsame =>
      obtain ⟨place, span, rfl⟩ := hsame
      exact hread place span _

/-- A member that is left out is not assigned. -/
theorem lastAssigned?_filter (f : String → Bool) (name : String)
    (items : List (String × α)) :
    lastAssigned? name (items.filter fun e => f e.1)
      = if f name then lastAssigned? name items else none := by
  have hgiven : given name (items.filter fun e => f e.1)
      = if f name then given name items else [] := by
    unfold given
    rw [List.filter_filter]
    split
    next hf =>
      congr 1
      refine List.filter_congr fun e _ => ?_
      by_cases hname : e.1 = name
      · simp [hname, hf]
      · simp [hname]
    next hf =>
      rw [List.map_eq_nil_iff, List.filter_eq_nil_iff]
      intro e _
      by_cases hname : e.1 = name
      · simp [hname, hf]
      · simp [hname]
  rw [lastAssigned?_eq, lastAssigned?_eq, hgiven]
  split <;> rfl

-- What is written of a text, of a count or of a truth value, read back.

def textOf? : Written → Option String
  | .text s => some s
  | _ => none

def countOf? : Written → Option UInt64
  | .count n => some (.ofNat n)
  | _ => none

def truthOf? : Written → Option Bool
  | .boolean b => some b
  | _ => none

section Sections

variable {entries inner : Entries} {members : List (String × Written)}
  {f : String → Bool}

theorem said?_part {read : Place → Except Mismatch α}
    (value? : Written → Option α)
    (hread : ∀ place span w,
      (read ⟨place, .scalar span (Written.scalar w)⟩).toOption = value? w)
    (h : entries.Hold (members.filter fun m => f m.1)) (name : String) :
    said? name read (places entries)
      = if f name then (lastAssigned? name members).bind value? else none := by
  rw [said?_hold h name value? hread, lastAssigned?_filter]
  split <;> rfl

theorem said?_text (h : entries.Hold (members.filter fun m => f m.1))
    (name : String) : said? name Place.string (places entries)
      = if f name then (lastAssigned? name members).bind textOf? else none :=
  said?_part textOf? (fun _ _ w => by cases w <;> rfl) h name

theorem said?_count (wanted : Toml.Wanted)
    (h : entries.Hold (members.filter fun m => f m.1)) (name : String) :
    said? name (Place.count wanted) (places entries)
      = if f name then (lastAssigned? name members).bind countOf? else none :=
  said?_part countOf? (fun _ _ w => by cases w <;> rfl) h name

theorem said?_truth (h : entries.Hold (members.filter fun m => f m.1))
    (name : String) : said? name Place.boolean (places entries)
      = if f name then (lastAssigned? name members).bind truthOf? else none :=
  said?_part truthOf? (fun _ _ w => by cases w <;> rfl) h name

theorem getD_ite (b : Bool) (a other : α) :
    (if b then some a else none).getD other = if b then a else other := by
  cases b <;> rfl

theorem runnerSaid_part {r : RunnerSettings}
    (h : entries.Hold ((runnerMembers r).filter fun m => f m.1)) :
    runnerSaid (places entries)
      = { toolPath := if f "tool_path" then r.toolPath else ""
          language := if f "language" then r.language else "" } := by
  unfold runnerSaid
  rw [said?_text h, said?_text h]
  have htool : (lastAssigned? "tool_path" (runnerMembers r)).bind textOf?
      = some r.toolPath := rfl
  have hlanguage : (lastAssigned? "language" (runnerMembers r)).bind textOf?
      = some r.language := rfl
  rw [htool, hlanguage, getD_ite, getD_ite]

theorem loggingSaid_part {l : LoggingSettings}
    (h : entries.Hold ((loggingMembers l).filter fun m => f m.1)) :
    loggingSaid (places entries)
      = { enabled := if f "enabled" then l.enabled else true
          console := if f "console" then l.console else true
          file := if f "file" then l.file else false
          level := if f "level" then l.level else "info"
          directory := if f "directory" then l.directory else none } := by
  have hmembers : (lastAssigned? "enabled" (loggingMembers l)).bind truthOf?
        = some l.enabled
      ∧ (lastAssigned? "console" (loggingMembers l)).bind truthOf?
        = some l.console
      ∧ (lastAssigned? "file" (loggingMembers l)).bind truthOf? = some l.file
      ∧ (lastAssigned? "level" (loggingMembers l)).bind textOf? = some l.level
      ∧ (lastAssigned? "directory" (loggingMembers l)).bind textOf?
        = l.directory := by
    unfold loggingMembers optionalText
    cases l.directory <;> exact ⟨rfl, rfl, rfl, rfl, rfl⟩
  obtain ⟨henabled, hconsole, hfile, hlevel, hdirectory⟩ := hmembers
  unfold loggingSaid
  rw [said?_truth h, said?_truth h, said?_truth h, said?_text h, said?_text h,
    henabled, hconsole, hfile, hlevel, hdirectory]
  simp only [getD_ite]

-- The environment is a table of its own behind the other members, if it is
-- written.

theorem textTable_env {entries : Entries} {pairs : List (String × String)}
    (h : entries.Hold (pairs.map fun p => (p.1, .text p.2)))
    (t : EnvTable) :
    entries.foldlM
        (fun t e => do
          .ok (t.insert e.1.name (← (Place.ofMember e.1 e.2).string)))
        t
      = .ok (t.insertAll pairs) := by
  induction pairs generalizing entries t with
  | nil =>
      obtain rfl := Toml.Entries.hold_nil h
      rfl
  | cons pair pairs ih =>
      obtain ⟨_, _, others, rfl, hothers⟩ := Toml.Entries.hold_cons h
      rw [List.foldlM_cons]
      exact ih hothers (t.insert pair.1 pair.2)

/-- The table of an environment is read as what it was written from. -/
theorem textTable_hold {t : EnvTable} (h : entries.Hold (envMembers t))
    (p : Place) {origin : Toml.Origin} {span : Option Toml.Span}
    (hp : p.item = .table origin span entries) : p.textTable = .ok t := by
  obtain ⟨place, item⟩ := p
  cases hp
  have htable := textTable_env h .empty
  rw [EnvTable.insertAll_pairs] at htable
  exact htable

theorem places_append (entries inner : Entries) :
    places (entries ++ inner) = places entries ++ places inner := by
  unfold places
  rw [List.map_append]

/-- What is said with the environment behind the other members, and what
without it. -/
theorem said?_inner {t : EnvTable} (hinner : WrittenSection.HoldsInner inner
      ((some ("env", envMembers t)).filter fun w => f w.1)) :
    (∀ {β : Type} {read : Place → Except Mismatch β} {name : String},
        "env" ≠ name → said? name read (places (entries ++ inner))
          = said? name read (places entries))
      ∧ said? "env" Place.textTable (places (entries ++ inner))
          = if f "env" then some t
            else said? "env" Place.textTable (places entries) := by
  rw [places_append]
  cases hf : f "env" with
  | false =>
      rw [Option.filter_some, hf] at hinner
      cases hinner
      exact ⟨fun _ => by rw [show places [] = [] from rfl, List.append_nil],
        by rw [show places [] = [] from rfl, List.append_nil]; rfl⟩
  | true =>
      rw [Option.filter_some, hf] at hinner
      cases hinner with
      | @some _ place span inner _ henv =>
          have hplaces : places [((⟨"env", place⟩ : Toml.Key),
              Item.table .header span inner)]
              = [("env", .ofMember ⟨"env", place⟩
                  (.table .header span inner))] := rfl
          rw [hplaces]
          refine ⟨fun hname => ?_, ?_⟩
          · rw [said?_concat, if_neg hname]
          · rw [said?_concat, if_pos rfl, textTable_hold henv _ rfl]
            rfl

theorem controlSaid_part {k : ControlSettings}
    (h : entries.Hold ((controlMembers k).filter fun m => f m.1))
    (hinner : WrittenSection.HoldsInner inner
      ((some ("env", envMembers k.env)).filter fun w => f w.1)) :
    controlSaid (places (entries ++ inner))
      = { timeoutMs := if f "timeout_ms" then k.timeoutMs else 0
          captureBytes := if f "capture_bytes" then k.captureBytes else 10485760
          killGraceMs := if f "kill_grace_ms" then k.killGraceMs else 2000
          workingDir := if f "working_dir" then k.workingDir else none
          env := if f "env" then k.env else .empty } := by
  have hmembers : (lastAssigned? "timeout_ms" (controlMembers k)).bind countOf?
        = some k.timeoutMs
      ∧ (lastAssigned? "capture_bytes" (controlMembers k)).bind countOf?
        = some k.captureBytes
      ∧ (lastAssigned? "kill_grace_ms" (controlMembers k)).bind countOf?
        = some k.killGraceMs
      ∧ (lastAssigned? "working_dir" (controlMembers k)).bind textOf?
        = k.workingDir := by
    -- the numbers come back through the integers of the document
    have hnumber (n : UInt64) : countOf? (.count n.toNat) = some n :=
      congrArg some n.ofNat_toNat
    unfold controlMembers optionalText
    cases k.workingDir <;>
      exact ⟨hnumber _, hnumber _, hnumber _, rfl⟩
  obtain ⟨htimeout, hbytes, hgrace, hdirectory⟩ := hmembers
  obtain ⟨hother, henv⟩ : _ ∧ said? "env" Place.textTable
      (places (entries ++ inner)) = _ := said?_inner hinner
  have hnone : said? "env" Place.textTable (places entries) = none := by
    rw [said?_hold h "env" (fun _ => none) fun _ _ w => by cases w <;> rfl]
    exact Option.bind_fun_none _
  unfold controlSaid
  rw [hother (by decide), hother (by decide), hother (by decide),
    hother (by decide), said?_count _ h, said?_count _ h, said?_count _ h,
    said?_text h, henv, hnone, htimeout, hbytes, hgrace, hdirectory]
  simp only [getD_ite]

/-- Members of which each has a value of the type of its field. -/
def AllTyped (fields : Fields) (members : List (String × Written)) : Prop :=
  ∀ m ∈ members, ∀ field ∈ fields, field.1 = m.1 →
    ∀ span, field.2 (.scalar span (Written.scalar m.2))

theorem typed_runnerMembers (r : RunnerSettings) :
    AllTyped runnerFields (runnerMembers r) := by
  simp [AllTyped, runnerFields, runnerMembers, Written.scalar, IsText]

theorem typed_controlMembers (k : ControlSettings) :
    AllTyped controlFields (controlMembers k) := by
  unfold controlMembers optionalText
  cases k.workingDir <;>
    simp [AllTyped, controlFields, Written.scalar, IsText, IsCount]

theorem typed_loggingMembers (l : LoggingSettings) :
    AllTyped loggingFields (loggingMembers l) := by
  unfold loggingMembers optionalText
  cases l.directory <;>
    simp [AllTyped, loggingFields, Written.scalar, IsText, IsTruth]

/-- What was written of a section fits. -/
theorem fits_hold {fields : Fields} {origin : Toml.Origin}
    {span : Option Toml.Span}
    (h : entries.Hold (members.filter fun m => f m.1))
    (htyped : AllTyped fields members)
    (hinner : ∀ e ∈ ofTable inner, ∀ field ∈ fields, field.1 = e.1 →
      field.2 e.2) :
    Fits fields (.table origin span (entries ++ inner)) := by
  refine ⟨rfl, fun e he => ?_⟩
  have happend : assignments (fields.map (·.1))
      (.table origin span (entries ++ inner))
        = ofTable entries ++ ofTable inner := List.map_append
  rw [happend, List.mem_append] at he
  rcases he with he | he
  · have htyped : AllTyped fields (members.filter fun m => f m.1) :=
      fun m hm => htyped m (List.mem_filter.1 hm).1
    generalize members.filter (fun m => f m.1) = written at h htyped
    clear hinner happend
    induction h with
    | nil => cases he
    | @cons first m entries written hfirst hothers ih =>
        obtain ⟨hmember, hrest⟩ := List.forall_mem_cons.1 htyped
        rcases List.mem_cons.1 he with rfl | he
        · obtain ⟨hname, span, hitem⟩ := hfirst
          intro field hfield hsame
          show field.2 first.2
          rw [hitem]
          exact hmember field hfield (hsame.trans hname) span
        · exact ih he hrest
  · exact hinner e he

/-- An environment that was written is a table of texts. -/
theorem areTexts_hold {t : EnvTable} (h : entries.Hold (envMembers t))
    (origin : Toml.Origin) (span : Option Toml.Span) :
    AreTexts (.table origin span entries) := by
  rw [← Place.textTable_ok_iff (p := ⟨⟨0, 0⟩, .table origin span entries⟩)]
  exact ⟨t, textTable_hold h _ rfl⟩

theorem fits_inner {t : EnvTable} (hinner : WrittenSection.HoldsInner inner
      ((some ("env", envMembers t)).filter fun w => f w.1)) :
    ∀ e ∈ ofTable inner, ∀ field ∈ controlFields, field.1 = e.1 →
      field.2 e.2 := by
  cases hf : f "env" with
  | false =>
      rw [Option.filter_some, hf] at hinner
      cases hinner
      exact nofun
  | true =>
      rw [Option.filter_some, hf] at hinner
      cases hinner with
      | some henv =>
          refine List.forall_mem_singleton.2 ?_
          simp [controlFields, areTexts_hold henv]

end Sections

-- ============================================================== documents

section Documents

variable {entries : Entries} {ts : List WrittenSection}

/-- A section that was not written is given nothing. -/
theorem given_absent (h : List.Forall₂ WrittenSection.Holds entries ts)
    {name : String} (hname : ∀ t ∈ ts, t.name ≠ name) :
    given name (ofTable entries) = [] := by
  induction h with
  | nil => rfl
  | @cons e t entries ts hfirst hothers ih =>
      obtain ⟨hne, hrest⟩ := List.forall_mem_cons.1 hname
      exact (given_cons name e.1.name e.2 (ofTable entries)).trans
        ((if_neg (hfirst.name ▸ hne)).trans (ih hrest))

/-- A section that was written is given what holds it, and nothing else. -/
theorem given_present (h : List.Forall₂ WrittenSection.Holds entries ts)
    (hnodup : (ts.map (·.name)).Nodup) {t : WrittenSection} (ht : t ∈ ts) :
    ∃ e, WrittenSection.Holds e t ∧ given t.name (ofTable entries) = [e.2] := by
  induction h with
  | nil => cases ht
  | @cons e first entries ts hfirst hothers ih =>
      obtain ⟨hnew, hnodup⟩ := List.nodup_cons.1 hnodup
      have hgiven := given_cons t.name e.1.name e.2 (ofTable entries)
      rcases List.mem_cons.1 ht with rfl | ht
      · have hrest : given t.name (ofTable entries) = [] :=
          given_absent hothers fun t' ht' hsame =>
            hnew (List.mem_map.2 ⟨t', ht', hsame⟩)
        rw [if_pos hfirst.name, hrest] at hgiven
        exact ⟨e, hfirst, hgiven⟩
      · have hne : e.1.name ≠ t.name := by
          rw [hfirst.name]
          exact fun hsame => hnew (List.mem_map.2 ⟨t, ht, hsame.symm⟩)
        obtain ⟨e', he', hone⟩ := ih hnodup ht
        rw [if_neg hne, hone] at hgiven
        exact ⟨e', he', hgiven⟩

theorem assigned_table {σ : Type} {shape : Shape σ} {p : Place}
    {origin : Toml.Origin} {span : Option Toml.Span}
    (h : p.item = .table origin span entries) :
    shape.assigned p = places entries := by
  unfold Shape.assigned
  rw [h]
  rfl

namespace Choice

/-- A section of the settings is given what holds the part of it that is
written, or nothing. -/
theorem given_section
    (h : List.Forall₂ WrittenSection.Holds entries (c.written s))
    {t : WrittenSection} (ht : t ∈ s.written) :
    c.sections t.name = true ∧ (∃ e, WrittenSection.Holds e (c.part t)
          ∧ given t.name (ofTable entries) = [e.2])
      ∨ c.sections t.name = false ∧ given t.name (ofTable entries) = [] := by
  cases hsection : c.sections t.name with
  | true =>
      refine .inl ⟨rfl, ?_⟩
      have hpart : c.part t ∈ c.written s :=
        List.mem_map_of_mem (List.mem_filter.2 ⟨ht, hsection⟩)
      exact given_present h (nodup_written c s) hpart
  | false =>
      refine .inr ⟨rfl, given_absent h fun t' ht' hsame => ?_⟩
      obtain ⟨whole, hwhole, rfl⟩ := List.mem_map.1 ht'
      have hchosen := (List.mem_filter.1 hwhole).2
      rw [show whole.name = t.name from hsame, hsection] at hchosen
      cases hchosen

/-- What a section says and whether it fits, by what there is if it is written
and if it is not. -/
theorem section_filled {σ τ : Type} {told : List (String × Place) → τ}
    {value : τ} {shape : Shape σ} {fields : Fields} {t : WrittenSection}
    (h : List.Forall₂ WrittenSection.Holds entries (c.written s))
    (ht : t ∈ s.written)
    (hpresent : c.sections t.name = true → ∀ {entries inner : Entries},
      entries.Hold (c.part t).members →
      WrittenSection.HoldsInner inner (c.part t).inner →
      told (places (entries ++ inner)) = value
        ∧ ∀ origin span, Fits fields (.table origin span (entries ++ inner)))
    (habsent : c.sections t.name = false → told [] = value) :
    told (Declared.within shape t.name (places entries)) = value
      ∧ ∀ item ∈ sectionIn t.name entries, Fits fields item := by
  obtain ⟨p, hlast, hwithin⟩ := within_last shape t.name entries
  rw [hwithin]
  unfold sectionIn at hlast ⊢
  rcases given_section h ht with ⟨hchosen, e, he, hgiven⟩ | ⟨hchosen, hgiven⟩
  · rw [hgiven] at hlast ⊢
    cases he with
    | intro hhold hinner =>
        obtain ⟨hvalue, hfits⟩ := hpresent hchosen hhold hinner
        rw [assigned_table (Option.some.inj hlast).symm]
        exact ⟨hvalue, List.forall_mem_singleton.2 (hfits _ _)⟩
  · rw [hgiven] at hlast ⊢
    rw [assigned_table (Option.some.inj hlast).symm]
    exact ⟨habsent hchosen, List.forall_mem_singleton.2 ⟨rfl, nofun⟩⟩

theorem runner_filled
    (h : List.Forall₂ WrittenSection.Holds entries (c.written s)) :
    runnerSaid (Declared.within runnerShape "runner" (places entries))
        = (c.fill s).runner
      ∧ ∀ item ∈ sectionIn "runner" entries, Fits runnerFields item := by
  have ht : (⟨"runner", runnerMembers s.runner, none⟩ : WrittenSection)
      ∈ s.written := List.mem_cons_self
  refine section_filled h ht (fun hchosen entries inner hhold hinner => ?_)
    fun hchosen => ?_
  · cases hinner
    refine ⟨?_, fun _ _ => fits_hold hhold (typed_runnerMembers _) nofun⟩
    rw [List.append_nil, runnerSaid_part hhold]
    unfold fill pick
    simp only [hchosen, Bool.true_and]
    rfl
  · unfold fill pick
    simp only [hchosen]
    rfl

theorem control_filled
    (h : List.Forall₂ WrittenSection.Holds entries (c.written s)) :
    controlSaid (Declared.within controlShape "control" (places entries))
        = (c.fill s).control
      ∧ ∀ item ∈ sectionIn "control" entries,
          Fits controlFields item := by
  have ht : (⟨"control", controlMembers s.control,
      some ("env", envMembers s.control.env)⟩ : WrittenSection)
        ∈ s.written := List.mem_cons_of_mem _ List.mem_cons_self
  refine section_filled h ht (fun hchosen entries inner hhold hinner => ?_)
    fun hchosen => ?_
  · refine ⟨?_, fun _ _ => fits_hold hhold (typed_controlMembers _)
      (fits_inner hinner)⟩
    rw [controlSaid_part hhold hinner]
    unfold fill pick
    simp only [hchosen, Bool.true_and]
    rfl
  · unfold fill pick
    simp only [hchosen]
    rfl

theorem logging_filled
    (h : List.Forall₂ WrittenSection.Holds entries (c.written s)) :
    loggingSaid (Declared.within loggingShape "logging" (places entries))
        = (c.fill s).logging
      ∧ ∀ item ∈ sectionIn "logging" entries,
          Fits loggingFields item := by
  have ht : (⟨"logging", loggingMembers s.logging, none⟩ : WrittenSection)
      ∈ s.written :=
    List.mem_cons_of_mem _ (List.mem_cons_of_mem _ List.mem_cons_self)
  refine section_filled h ht (fun hchosen entries inner hhold hinner => ?_)
    fun hchosen => ?_
  · cases hinner
    refine ⟨?_, fun _ _ => fits_hold hhold (typed_loggingMembers _) nofun⟩
    rw [List.append_nil, loggingSaid_part hhold]
    unfold fill pick
    simp only [hchosen, Bool.true_and]
    rfl
  · unfold fill pick
    simp only [hchosen]
    rfl

end Choice

end Documents

/-- A document with a part of the settings gives them, and the defaults for
what is left out. -/
theorem Choice.ofDocument_document (c : Choice) (h : s.isWritable = true) :
    ofDocument (c.document s) = .ok (c.fill s) := by
  obtain ⟨entries, hread, hholds⟩ := c.read?_document h
  obtain ⟨hrunner, hfitsRunner⟩ := runner_filled hholds
  obtain ⟨hcontrol, hfitsControl⟩ := control_filled hholds
  obtain ⟨hlogging, hfitsLogging⟩ := logging_filled hholds
  have htyped : WellTyped entries := by
    rw [wellTyped_iff_sectionIn]
    unfold Settings.sections
    simp only [List.forall_mem_cons]
    exact ⟨hfitsRunner, hfitsControl, hfitsLogging, nofun⟩
  have hsettings : (Declared.ofEntries entries).settings = c.fill s := by
    calc (Declared.ofEntries entries).settings
        = ⟨runnerSaid (Declared.within runnerShape "runner" (places entries)),
            controlSaid
              (Declared.within controlShape "control" (places entries)),
            loggingSaid
              (Declared.within loggingShape "logging" (places entries))⟩ := rfl
      _ = ⟨(c.fill s).runner, (c.fill s).control, (c.fill s).logging⟩ := by
          rw [hrunner, hcontrol, hlogging]
      _ = c.fill s := rfl
  unfold ofDocument
  rw [hread]
  simp only [ofEntries_wellTyped htyped, hsettings]

-- ============================================================== the result

theorem load_of_readText {files : Files} {cwd : Location} {path : Bytes}
    {document : String} (h : files.readText cwd path = .ok document) :
    (load files cwd path).toOption = (ofDocument document).toOption := by
  unfold load
  rw [h]
  simp only
  cases ofDocument document with
  | ok s => rfl
  | error fault => cases fault <;> rfl

/-- A configuration file may leave out what it likes, and say what else it
likes. If it holds some members of some sections, then it gives the settings
with these members, and the default for every other, whether the section is
missing, empty or not complete. A file that gives the same to the names that
are known gives the same settings, whatever it gives to others, and none if
the other one gives none. And if a known member is given something of another
type, or a number below zero, then there are no settings, whatever the other
members are; the environment is given something of another type if any of its
variables is. -/
theorem partly_written_filled :
    (∀ (s : Settings) (c : Choice),
        s.control.timeoutMs.toNat ≤ 9223372036854775807 →
        s.control.captureBytes.toNat ≤ 9223372036854775807 →
        s.control.killGraceMs.toNat ≤ 9223372036854775807 →
        ∀ files cwd path, Files.readText files cwd path = .ok (c.document s) →
          load files cwd path = .ok (c.fill s))
      ∧ (∀ document document' entries entries',
          Toml.read? document = some entries →
          Toml.read? document' = some entries' → SameKnown entries entries' →
          ∀ files cwd path, Files.readText files cwd path = .ok document →
          ∀ files' cwd' path', Files.readText files' cwd' path' = .ok document' →
            (load files' cwd' path').toOption = (load files cwd path).toOption)
      ∧ ∀ document entries, Toml.read? document = some entries →
          ∀ e ∈ entries, ∀ t ∈ sections, t.1 = e.1.name →
          ∀ given ∈ assignments (t.2.map (·.1)) e.2,
          ∀ field ∈ t.2, field.1 = given.1 → ¬field.2 given.2 →
          ∀ files cwd path, Files.readText files cwd path = .ok document →
            ∃ detail, load files cwd path = .error (.mismatch path detail) := by
  refine ⟨?_, ?_, ?_⟩
  · intro s c htimeout hbytes hgrace files cwd path hread
    have hwritable : s.isWritable = true := by
      simp only [isWritable, List.all_cons, List.all_nil, Bool.and_true,
        Bool.and_eq_true, decide_eq_true_eq]
      exact ⟨htimeout, hbytes, hgrace⟩
    have hload := load_of_readText hread
    rw [c.ofDocument_document hwritable] at hload
    exact Fallible.eq_ok_of_toOption hload
  · intro document document' entries entries' hentries hentries' hsame files cwd
      path hread files' cwd' path' hread'
    rw [load_of_readText hread, load_of_readText hread',
      ofDocument_same hentries hentries' hsame]
  · intro document entries hentries e he t ht hname given hgiven field hfield
      hsame hother files cwd path hread
    have hill : ¬WellTyped entries := fun htyped =>
      hother ((htyped e he t ht hname).2 given hgiven field hfield hsame)
    obtain ⟨detail, hdocument⟩ := ofDocument_illTyped hentries hill
    refine ⟨detail, ?_⟩
    unfold load
    rw [hread]
    simp only [hdocument]

/-- A section of one member out of five; the same beside names that nobody
knows; and the same with a number for a variable. -/
theorem partly_written_filled_timeout :
    let files : Files :=
      ⟨[([Utf8.encode "few"],
          .file (Utf8.encode "[control]\ntimeout_ms = 7\n") 420),
        ([Utf8.encode "more"], .file (Utf8.encode
          "[control]\ny = [2]\ntimeout_ms = 7\n[runner.u]\n") 420),
        ([Utf8.encode "bad"], .file (Utf8.encode
          "[control]\ntimeout_ms = 7\nenv.A = 1\n") 420)]⟩
    load files [] (Utf8.encode "few") = .ok { control := { timeoutMs := 7 } }
      ∧ (load files [] (Utf8.encode "more")).toOption
        = (load files [] (Utf8.encode "few")).toOption
      ∧ ∃ detail, load files [] (Utf8.encode "bad")
          = .error (.mismatch (Utf8.encode "bad") detail) := by
  intro files
  let s : Settings := { control := { timeoutMs := 7, workingDir := some "d" } }
  let c : Choice := ⟨fun name => name = "control", fun _ m => m = "timeout_ms"⟩
  have hdocument : c.document s = "[control]\ntimeout_ms = 7\n" := by
    decide +kernel
  have hread (name text : String)
      (h : (files.readText [] (Utf8.encode name)).toOption = some text) :
      files.readText [] (Utf8.encode name) = .ok text :=
    Fallible.eq_ok_of_toOption h
  have hfew := hread "few" "[control]\ntimeout_ms = 7\n" (by decide +kernel)
  have hmore := hread "more" "[control]\ny = [2]\ntimeout_ms = 7\n[runner.u]\n"
    (by decide +kernel)
  have hbad := hread "bad" "[control]\ntimeout_ms = 7\nenv.A = 1\n"
    (by decide +kernel)
  have hentriesFew : Toml.read? "[control]\ntimeout_ms = 7\n" = some
      [(⟨"control", ⟨1, 8⟩⟩, .table .header (some ⟨0, 24⟩)
        [(⟨"timeout_ms", ⟨10, 20⟩⟩, .scalar ⟨23, 24⟩ (.integer 7))])] := rfl
  have hentriesMore :
      Toml.read? "[control]\ny = [2]\ntimeout_ms = 7\n[runner.u]\n" = some
        [(⟨"control", ⟨1, 8⟩⟩, .table .header (some ⟨0, 32⟩)
            [(⟨"y", ⟨10, 11⟩⟩,
                .array ⟨14, 17⟩ [.scalar ⟨15, 16⟩ (.integer 2)]),
              (⟨"timeout_ms", ⟨18, 28⟩⟩, .scalar ⟨31, 32⟩ (.integer 7))]),
          (⟨"runner", ⟨34, 40⟩⟩, .table .implied none
            [(⟨"u", ⟨41, 42⟩⟩, .table .header (some ⟨33, 43⟩) [])])] := rfl
  have hentriesBad :
      Toml.read? "[control]\ntimeout_ms = 7\nenv.A = 1\n" = some
        [(⟨"control", ⟨1, 8⟩⟩, .table .header (some ⟨0, 34⟩)
            [(⟨"timeout_ms", ⟨10, 20⟩⟩, .scalar ⟨23, 24⟩ (.integer 7)),
              (⟨"env", ⟨25, 28⟩⟩, .table .dotted none
                [(⟨"A", ⟨29, 30⟩⟩, .scalar ⟨33, 34⟩ (.integer 1))])])] := rfl
  obtain ⟨hfill, hsame, htype⟩ := partly_written_filled
  refine ⟨?_, ?_, ?_⟩
  · exact hfill s c (by decide) (by decide) (by decide) files [] _
      (hdocument ▸ hfew)
  · refine hsame _ _ _ _ hentriesFew hentriesMore ?_ files [] _ hfew
      files [] _ hmore
    unfold SameKnown sections
    simp only [List.forall_mem_cons]
    refine ⟨.cons ⟨rfl, ?_⟩ .nil, .cons ⟨rfl, ?_⟩ .nil, .cons ⟨rfl, ?_⟩ .nil,
      nofun⟩
    · unfold runnerFields
      simp only [List.forall_mem_cons]
      exact ⟨.nil, .nil, nofun⟩
    · unfold controlFields
      simp only [List.forall_mem_cons]
      exact ⟨.cons (.scalar _) .nil, .nil, .nil, .nil, .nil, nofun⟩
    · unfold loggingFields
      simp only [List.forall_mem_cons]
      exact ⟨.nil, .nil, .nil, .nil, .nil, nofun⟩
  · refine htype _ _ hentriesBad _ List.mem_cons_self ("control", controlFields)
      (by simp [sections]) rfl ("env", _)
      (List.mem_cons_of_mem _ List.mem_cons_self) ("env", AreTexts)
      (by simp [controlFields]) rfl (fun htexts => ?_) files [] _ hbad
    exact htexts _ List.mem_cons_self

end Settings

end Toolrun
