/-
Which documents give settings: those in which everything that is given to a
known name is of the type that belongs there.

Whether a member can be taken over depends on what it is given alone and not
on what was taken over before (`Shape.Typed`); so a whole section can be taken
over just if each of its members can (`Shape.Typed.take`), and a document just
if each of its sections can. A section has the same form as the document, so
that one step up its members are sections, which are typed in their turn.
-/
import Toolrun.Proofs.Settings.Fields

namespace Toolrun

namespace Settings

open Toml (Entries Item Mismatch)

-- ================================================================== types

/-- A text. -/
def IsText : Item → Prop
  | .scalar _ (.string _) => True
  | _ => False

/-- A truth value. -/
def IsTruth : Item → Prop
  | .scalar _ (.boolean _) => True
  | _ => False

/-- A whole number that is not below zero. -/
def IsCount : Item → Prop
  | .scalar _ (.integer i) => 0 ≤ i
  | _ => False

/-- A table of texts, or a date, which counts as a table of one text. -/
def AreTexts : Item → Prop
  | .table _ _ entries => ∀ e ∈ entries, IsText e.2
  | .scalar _ (.dateTime _) => True
  | _ => False

/-- The names of members, each with what it can be given. -/
abbrev Fields := List (String × (Item → Prop))

/-- What the entries of a table assign. -/
def ofTable (entries : Entries) : List (String × Item) :=
  entries.map fun e => (e.1.name, e.2)

/-- What an item assigns to names, where a list assigns to those names that
are given, in their order. -/
def assignments (names : List String) : Item → List (String × Item)
  | .table _ _ entries => ofTable entries
  | .array _ items | .tables items => names.zip items
  | .scalar _ _ => []

/-- A section in which every member is given what it can be given; other names
may be given anything. -/
def Fits (fields : Fields) (item : Item) : Prop :=
  isSection item = true
    ∧ ∀ e ∈ assignments (fields.map (·.1)) item,
        ∀ field ∈ fields, field.1 = e.1 → field.2 e.2

def runnerFields : Fields := [("tool_path", IsText), ("language", IsText)]

def controlFields : Fields :=
  [("timeout_ms", IsCount), ("capture_bytes", IsCount),
    ("kill_grace_ms", IsCount), ("working_dir", IsText), ("env", AreTexts)]

def loggingFields : Fields :=
  [("enabled", IsTruth), ("console", IsTruth), ("file", IsTruth),
    ("level", IsText), ("directory", IsText)]

/-- The sections, each with its members. -/
def sections : List (String × Fields) :=
  [("runner", runnerFields), ("control", controlFields),
    ("logging", loggingFields)]

/-- A document in which every section is one and fits. -/
def WellTyped (entries : Entries) : Prop :=
  ∀ e ∈ entries, ∀ t ∈ sections, t.1 = e.1.name → Fits t.2 e.2

-- ================================================================ readings

namespace Place

variable {p : Place}

theorem string_ok_iff : (∃ s, p.string = .ok s) ↔ IsText p.item := by
  obtain ⟨span, item⟩ := p
  cases item with
  | scalar _ value =>
      cases value with
      | string s => exact iff_of_true ⟨s, rfl⟩ trivial
      | _ => exact iff_of_false nofun id
  | _ => exact iff_of_false nofun id

theorem boolean_ok_iff : (∃ b, p.boolean = .ok b) ↔ IsTruth p.item := by
  obtain ⟨span, item⟩ := p
  cases item with
  | scalar _ value =>
      cases value with
      | boolean b => exact iff_of_true ⟨b, rfl⟩ trivial
      | _ => exact iff_of_false nofun id
  | _ => exact iff_of_false nofun id

theorem count_ok_iff (wanted : Toml.Wanted) :
    (∃ n, p.count wanted = .ok n) ↔ IsCount p.item := by
  obtain ⟨span, item⟩ := p
  cases item with
  | scalar _ value =>
      cases value with
      | integer i =>
          cases i with
          | ofNat n => exact iff_of_true ⟨.ofNat n, rfl⟩ (Int.natCast_nonneg n)
          | negSucc n =>
              exact iff_of_false nofun (Int.not_le.2 (Int.negSucc_lt_zero n))
      | _ => exact iff_of_false nofun id
  | _ => exact iff_of_false nofun id

theorem textTable_ok_iff : (∃ t, p.textTable = .ok t) ↔ AreTexts p.item := by
  obtain ⟨span, item⟩ := p
  cases item with
  | table origin written entries =>
      refine Fallible.foldlM_ok_iff (fun t e => ?_) entries EnvTable.empty
      show _ ↔ IsText (ofMember e.1 e.2).item
      rw [← string_ok_iff]
      constructor
      · rintro ⟨t', h⟩
        obtain ⟨s, hs, -⟩ := Fallible.bind_ok_eq_ok.1 h
        exact ⟨s, hs⟩
      · rintro ⟨s, hs⟩
        exact ⟨_, Fallible.bind_ok_eq_ok.2 ⟨s, hs, rfl⟩⟩
  | scalar _ value =>
      cases value with
      | dateTime d => exact iff_of_true ⟨_, rfl⟩ trivial
      | _ => exact iff_of_false nofun id
  | _ => exact iff_of_false nofun id

end Place

-- =============================================================== sections

namespace Shape

variable {σ : Type} {shape : Shape σ} {fields : Fields}

/-- A member, and what it can be given, if it can be taken over just when it is
given that, whatever was taken over before. -/
structure Judged (m : Member σ) (field : String × (Item → Prop)) : Prop where
  name : m.name = field.1
  take : ∀ s p, (∃ s', m.take s p = .ok s') ↔ field.2 p.item

/-- A kind of section whose members can be given what some fields say. -/
structure Typed (shape : Shape σ) (fields : Fields) : Prop where
  distinct : (shape.members.map (·.name)).Nodup
  members : List.Forall₂ Judged shape.members fields

theorem names_of_judged {members : List (Member σ)}
    (h : List.Forall₂ Judged members fields) :
    members.map (·.name) = fields.map (·.1) := by
  induction h with
  | nil => rfl
  | cons hfirst _ ih => rw [List.map_cons, List.map_cons, ih, hfirst.name]

/-- What is found by a name is all that there is for it. -/
theorem find?_judged {members : List (Member σ)}
    (h : List.Forall₂ Judged members fields)
    (hdistinct : (members.map (·.name)).Nodup) (name : String) :
    (∃ m field, members.find? (fun m => m.name = name) = some m
        ∧ Judged m field ∧ field ∈ fields ∧ field.1 = name
        ∧ ∀ other ∈ fields, other.1 = name → other = field)
      ∨ members.find? (fun m => m.name = name) = none
        ∧ ∀ field ∈ fields, field.1 ≠ name := by
  induction h with
  | nil => exact .inr ⟨rfl, nofun⟩
  | @cons m field members fields hfirst hothers ih =>
      obtain ⟨hnew, hdistinct⟩ := List.nodup_cons.1 hdistinct
      by_cases hname : m.name = name
      · refine .inl ⟨m, field, List.find?_cons_of_pos (decide_eq_true hname),
          hfirst, List.mem_cons_self, hfirst.name ▸ hname, ?_⟩
        intro other hother hsame
        rcases List.mem_cons.1 hother with rfl | hother
        · rfl
        · have hin : m.name ∈ members.map (·.name) := by
            rw [names_of_judged hothers, hname, ← hsame]
            exact List.mem_map_of_mem hother
          exact absurd hin hnew
      · rw [List.find?_cons_of_neg (by simpa using hname)]
        rcases ih hdistinct with
          ⟨m', field', hfind, hjudged, hin, hsame, hall⟩ | ⟨hfind, hnone⟩
        · refine .inl ⟨m', field', hfind, hjudged, List.mem_cons_of_mem _ hin,
            hsame, fun other hother hothername => ?_⟩
          rcases List.mem_cons.1 hother with rfl | hother
          · exact absurd (hfirst.name.trans hothername) hname
          · exact hall other hother hothername
        · refine .inr ⟨hfind, fun other hother => ?_⟩
          rcases List.mem_cons.1 hother with rfl | hother
          · exact fun hsame => hname (hfirst.name.trans hsame)
          · exact hnone other hother

theorem Typed.takeNamed (h : shape.Typed fields) (s : σ) (e : String × Place) :
    (∃ s', shape.takeNamed s e = .ok s')
      ↔ ∀ field ∈ fields, field.1 = e.1 → field.2 e.2.item := by
  unfold Shape.takeNamed
  rcases find?_judged h.members h.distinct e.1 with
    ⟨m, field, hfind, hjudged, hin, hsame, hall⟩ | ⟨hfind, hnone⟩
  · rw [hfind]
    simp only
    rw [hjudged.take]
    constructor
    · intro hfits other hother hname
      rw [hall other hother hname]
      exact hfits
    · exact fun hfits => hfits field hin hsame
  · rw [hfind]
    exact iff_of_true ⟨s, rfl⟩ fun field hin hsame =>
      absurd hsame (hnone field hin)

/-- The assignments of a section, without their places. -/
theorem Typed.assigned_items (h : shape.Typed fields) (p : Place) :
    (shape.assigned p).map (fun e => (e.1, e.2.item))
      = assignments (fields.map (·.1)) p.item := by
  obtain ⟨span, item⟩ := p
  unfold assigned assignments
  rw [← names_of_judged h.members]
  cases item with
  | scalar => rfl
  | table => simp [ofTable, Place.ofMember]
  | array => simp [Place.ofElement, List.zip_map_left]
  | tables => simp [Place.ofElement, List.zip_map_left]

theorem Typed.take (h : shape.Typed fields) (p : Place) :
    (∃ s, shape.take p = .ok s) ↔ Fits fields p.item := by
  simp only [take_eq_ok h.distinct, exists_and_left]
  unfold Fits
  rw [Fallible.foldlM_ok_iff h.takeNamed, ← h.assigned_items p,
    List.forall_mem_map]

end Shape

/-- What is read and put in its place is taken over if it can be read. -/
theorem put_ok_iff {α σ : Type} {x : Except Mismatch α} {put : α → σ}
    {admits : Prop} (h : (∃ a, x = .ok a) ↔ admits) :
    (∃ s, (x >>= fun a => .ok (put a)) = .ok s) ↔ admits := by
  rw [← h]
  simp only [Fallible.bind_ok_eq_ok]
  exact ⟨fun ⟨_, a, ha, _⟩ => ⟨a, ha⟩, fun ⟨a, ha⟩ => ⟨_, a, ha, rfl⟩⟩

theorem runner_typed : runnerShape.Typed runnerFields where
  distinct := by decide
  members :=
    .cons ⟨rfl, fun _ _ => put_ok_iff Place.string_ok_iff⟩ <|
    .cons ⟨rfl, fun _ _ => put_ok_iff Place.string_ok_iff⟩ .nil

theorem control_typed : controlShape.Typed controlFields where
  distinct := by decide
  members :=
    .cons ⟨rfl, fun _ _ => put_ok_iff (Place.count_ok_iff .timeCount)⟩ <|
    .cons ⟨rfl, fun _ _ => put_ok_iff (Place.count_ok_iff .byteCount)⟩ <|
    .cons ⟨rfl, fun _ _ => put_ok_iff (Place.count_ok_iff .timeCount)⟩ <|
    .cons ⟨rfl, fun _ _ => put_ok_iff Place.string_ok_iff⟩ <|
    .cons ⟨rfl, fun _ _ => put_ok_iff Place.textTable_ok_iff⟩ .nil

theorem logging_typed : loggingShape.Typed loggingFields where
  distinct := by decide
  members :=
    .cons ⟨rfl, fun _ _ => put_ok_iff Place.boolean_ok_iff⟩ <|
    .cons ⟨rfl, fun _ _ => put_ok_iff Place.boolean_ok_iff⟩ <|
    .cons ⟨rfl, fun _ _ => put_ok_iff Place.boolean_ok_iff⟩ <|
    .cons ⟨rfl, fun _ _ => put_ok_iff Place.string_ok_iff⟩ <|
    .cons ⟨rfl, fun _ _ => put_ok_iff Place.string_ok_iff⟩ .nil

/-- The sections are the members of a document. -/
theorem settings_typed :
    shape.Typed (sections.map fun t => (t.1, Fits t.2)) where
  distinct := by decide
  members :=
    .cons ⟨rfl, fun _ p => put_ok_iff (runner_typed.take p)⟩ <|
    .cons ⟨rfl, fun _ p => put_ok_iff (control_typed.take p)⟩ <|
    .cons ⟨rfl, fun _ p => put_ok_iff (logging_typed.take p)⟩ .nil

-- ============================================================== documents

theorem ofEntries_ok_iff (entries : Entries) :
    (∃ s, ofEntries entries = .ok s) ↔ WellTyped entries := by
  have hassigned :
      (entries.map fun e => (e.1.name, Place.ofMember e.1 e.2)).foldlM
        shape.takeNamed shape.fallback = ofEntries entries := by
    rw [List.foldlM_map]
    rfl
  rw [← hassigned, Fallible.foldlM_ok_iff settings_typed.takeNamed]
  simp only [List.forall_mem_map]
  rfl

/-- The settings of a document that is well typed are what it says, and the
defaults where it says nothing. -/
theorem ofEntries_wellTyped {entries : Entries} (h : WellTyped entries) :
    ofEntries entries = .ok (Declared.ofEntries entries).settings := by
  obtain ⟨s, hs⟩ := (ofEntries_ok_iff entries).2 h
  rw [hs, ofEntries_declared hs]

/-- A document that is not gives none, by the first mismatch in it. -/
theorem ofDocument_illTyped {document : String} {entries : Entries}
    (hread : Toml.read? document = some entries) (h : ¬WellTyped entries) :
    ∃ detail, ofDocument document = .error (.mismatch detail) := by
  unfold ofDocument
  rw [hread]
  simp only
  split
  next s hs => exact absurd ((ofEntries_ok_iff entries).1 ⟨s, hs⟩) h
  next m hm => exact ⟨_, rfl⟩

end Settings

end Toolrun
