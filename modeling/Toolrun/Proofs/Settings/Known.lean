/-
Only what is given to known names counts.

What a member is read as depends on the value alone and not on where it is
written (`Place.string_alike` and the others); and of all that a section
assigns only what its members are given is looked at, the last of which counts
while all of them have to be of the right type. So sections that give the same
to each member fit alike and say the same (`SameSection`), and so do documents
that give the same to each section (`SameKnown`). Whatever else stands in a
document makes no difference (`ofEntries_same`).
-/
import Mathlib.Data.List.Forall2
import Toolrun.Proofs.Settings.Types

namespace Toolrun

namespace Toml

/-- Items that say the same, wherever they are written and however their
tables came about. -/
inductive Item.Alike : Item → Item → Prop
  | scalar {span span' : Span} (value : Scalar) :
      Alike (.scalar span value) (.scalar span' value)
  | array {span span' : Span} {items items' : List Item}
      (h : List.Forall₂ Alike items items') :
      Alike (.array span items) (.array span' items')
  | table {origin origin' : Origin} {span span' : Option Span}
      {entries entries' : Entries}
      (hnames : entries.map (·.1.name) = entries'.map (·.1.name))
      (h : List.Forall₂ Alike (entries.map (·.2)) (entries'.map (·.2))) :
      Alike (.table origin span entries) (.table origin' span' entries')
  | tables {items items' : List Item} (h : List.Forall₂ Alike items items') :
      Alike (.tables items) (.tables items')

end Toml

namespace Settings

open Toml (Entries Item Mismatch)

variable {α β : Type} {item item' : Item} {p p' : Place} {fields : Fields}

-- ================================================================== given

/-- What a name is given, in the order in which it is. -/
def given (name : String) (items : List (String × α)) : List α :=
  (items.filter fun e => e.1 = name).map (·.2)

theorem given_concat (name : String) (items : List (String × α))
    (other : String) (a : α) :
    given name (items ++ [(other, a)])
      = if other = name then given name items ++ [a] else given name items := by
  unfold given
  rw [List.filter_append, List.map_append]
  split
  next hsame => simp [hsame]
  next hother => simp [hother]

theorem given_cons (name other : String) (a : α) (items : List (String × α)) :
    given name ((other, a) :: items)
      = if other = name then a :: given name items else given name items := by
  unfold given
  rw [List.filter_cons]
  split
  next hsame => rw [if_pos (of_decide_eq_true hsame), List.map_cons]
  next hother => rw [if_neg (by simpa using hother)]

theorem lastAssigned?_eq (name : String) (items : List (String × α)) :
    lastAssigned? name items = (given name items).getLast? := by
  induction items using List.reverseRecOn with
  | nil => rfl
  | append_singleton items item ih =>
      rw [lastAssigned?_concat, given_concat, ih]
      split
      next => rw [List.getLast?_concat]
      next => rfl

theorem given_map (f : α → β) (name : String) (items : List (String × α)) :
    given name (items.map fun e => (e.1, f e.2))
      = (given name items).map f := by
  unfold given
  rw [List.filter_map, List.map_map, List.map_map]
  rfl

/-- What holds of assignments to fields holds of what each field is given. -/
theorem forall_given (fields : Fields) (items : List (String × Item)) :
    (∀ e ∈ items, ∀ field ∈ fields, field.1 = e.1 → field.2 e.2)
      ↔ ∀ field ∈ fields, ∀ value ∈ given field.1 items, field.2 value := by
  unfold given
  simp only [List.forall_mem_map, List.mem_filter, decide_eq_true_eq, and_imp]
  exact ⟨fun h field hfield e he hsame => h e he field hfield hsame.symm,
    fun h e he field hfield hsame => h field hfield e he hsame.symm⟩

theorem getLast?_of_forall₂ {R : α → β → Prop} {l : List α} {l' : List β}
    (h : List.Forall₂ R l l') : Option.Rel R l.getLast? l'.getLast? := by
  induction h with
  | nil => exact .none
  | @cons a b l l' hfirst hothers ih =>
      cases hothers with
      | nil => exact .some hfirst
      | cons hsecond hothers =>
          rw [List.getLast?_cons_cons, List.getLast?_cons_cons]
          exact ih

theorem forall_mem_of_forall₂ {R : α → α → Prop} {P : α → Prop}
    {l l' : List α} (h : List.Forall₂ R l l')
    (hiff : ∀ {a b}, R a b → (P a ↔ P b)) : (∀ a ∈ l, P a) ↔ ∀ b ∈ l', P b := by
  induction h with
  | nil => exact iff_of_true nofun nofun
  | cons hfirst _ ih =>
      rw [List.forall_mem_cons, List.forall_mem_cons, hiff hfirst, ih]

-- ================================================================== alike

namespace Place

variable {p p' : Place}

theorem string_alike (h : p.item.Alike p'.item) :
    p.string.toOption = p'.string.toOption := by
  obtain ⟨span, item⟩ := p
  obtain ⟨span', item'⟩ := p'
  cases h with
  | scalar value => cases value <;> rfl
  | _ => rfl

theorem boolean_alike (h : p.item.Alike p'.item) :
    p.boolean.toOption = p'.boolean.toOption := by
  obtain ⟨span, item⟩ := p
  obtain ⟨span', item'⟩ := p'
  cases h with
  | scalar value => cases value <;> rfl
  | _ => rfl

theorem count_alike (wanted : Toml.Wanted) (h : p.item.Alike p'.item) :
    (p.count wanted).toOption = (p'.count wanted).toOption := by
  obtain ⟨span, item⟩ := p
  obtain ⟨span', item'⟩ := p'
  cases h with
  | scalar value =>
      cases value with
      | integer i => cases i <;> rfl
      | _ => rfl
  | _ => rfl

theorem textTable_alike (h : p.item.Alike p'.item) :
    p.textTable.toOption = p'.textTable.toOption := by
  obtain ⟨span, item⟩ := p
  obtain ⟨span', item'⟩ := p'
  cases h with
  | scalar value => cases value <;> rfl
  | @table _ _ _ _ entries entries' hnames h =>
      unfold textTable
      simp only
      generalize EnvTable.empty = t
      induction entries generalizing entries' t with
      | nil =>
          obtain rfl := List.map_eq_nil_iff.1 hnames.symm
          rfl
      | cons e entries ih =>
          obtain ⟨e', others, rfl, hname, hnames⟩ :=
            List.map_eq_cons_iff.1 hnames.symm
          obtain ⟨hfirst, hothers⟩ := List.forall₂_cons.1 h
          have hstring : (ofMember e.1 e.2).string.toOption
              = (ofMember e'.1 e'.2).string.toOption := string_alike hfirst
          rw [List.foldlM_cons, List.foldlM_cons, hname]
          refine Fallible.toOption_bind ?_ fun t =>
            ih hnames.symm hothers t
          exact Fallible.toOption_bind hstring fun s => rfl
  | _ => rfl

end Place

-- ================================================================= fields

/-- What can be given to names is the same wherever it is written. -/
def Placeless (fields : Fields) : Prop :=
  ∀ field ∈ fields, ∀ {item item' : Item}, item.Alike item' →
    (field.2 item ↔ field.2 item')

/-- What can be read is the same wherever it is written. -/
theorem admits_alike {read : Place → Except Mismatch α} {admits : Item → Prop}
    (hread : ∀ p, (∃ a, read p = .ok a) ↔ admits p.item)
    (halike : ∀ p p' : Place, p.item.Alike p'.item →
      (read p).toOption = (read p').toOption) (h : item.Alike item') :
    admits item ↔ admits item' := by
  have hsome (x : Except Mismatch α) :
      (∃ a, x = .ok a) ↔ x.toOption.isSome = true := by
    cases x <;> simp [Except.toOption]
  have hitem (item : Item) : admits item
      ↔ (read ⟨⟨0, 0⟩, item⟩).toOption.isSome = true :=
    (hread ⟨⟨0, 0⟩, item⟩).symm.trans (hsome _)
  rw [hitem, hitem, halike ⟨⟨0, 0⟩, item⟩ ⟨⟨0, 0⟩, item'⟩ h]

theorem isText_alike (h : item.Alike item') : IsText item ↔ IsText item' :=
  admits_alike (fun _ => Place.string_ok_iff) (fun _ _ => Place.string_alike) h

theorem isTruth_alike (h : item.Alike item') : IsTruth item ↔ IsTruth item' :=
  admits_alike (fun _ => Place.boolean_ok_iff) (fun _ _ => Place.boolean_alike)
    h

theorem isCount_alike (h : item.Alike item') : IsCount item ↔ IsCount item' :=
  admits_alike (fun _ => Place.count_ok_iff .timeCount)
    (fun _ _ => Place.count_alike .timeCount) h

theorem areTexts_alike (h : item.Alike item') :
    AreTexts item ↔ AreTexts item' :=
  admits_alike (fun _ => Place.textTable_ok_iff)
    (fun _ _ => Place.textTable_alike) h

theorem placeless_runner : Placeless runnerFields := by
  unfold Placeless runnerFields
  simp only [List.forall_mem_cons]
  exact ⟨isText_alike, isText_alike, nofun⟩

theorem placeless_control : Placeless controlFields := by
  unfold Placeless controlFields
  simp only [List.forall_mem_cons]
  exact ⟨isCount_alike, isCount_alike, isCount_alike, isText_alike,
    areTexts_alike, nofun⟩

theorem placeless_logging : Placeless loggingFields := by
  unfold Placeless loggingFields
  simp only [List.forall_mem_cons]
  exact ⟨isTruth_alike, isTruth_alike, isTruth_alike, isText_alike,
    isText_alike, nofun⟩

-- =============================================================== sections

/-- Sections that give the same to each of some names, whichever form they
have and whatever else is in them. -/
structure SameSection (fields : Fields) (item item' : Item) : Prop where
  form : isSection item = isSection item'
  given : ∀ field ∈ fields, List.Forall₂ Item.Alike
    (given field.1 (assignments (fields.map (·.1)) item))
    (given field.1 (assignments (fields.map (·.1)) item'))

theorem SameSection.fits (hplaceless : Placeless fields)
    (h : SameSection fields item item') :
    Fits fields item ↔ Fits fields item' := by
  unfold Fits
  rw [forall_given, forall_given, h.form]
  refine and_congr_right fun _ => forall₂_congr fun field hfield => ?_
  exact forall_mem_of_forall₂ (h.given field hfield) (hplaceless field hfield)

namespace Shape

variable {σ : Type} {shape : Shape σ}

/-- A member is said to be the same by sections that give it the same. -/
theorem Typed.said?_same (htyped : shape.Typed fields)
    (h : SameSection fields p.item p'.item) {field : String × (Item → Prop)}
    (hfield : field ∈ fields) {read : Place → Except Mismatch α}
    (halike : ∀ {p p' : Place}, p.item.Alike p'.item →
      (read p).toOption = (read p').toOption) :
    said? field.1 read (shape.assigned p)
      = said? field.1 read (shape.assigned p') := by
  have hgiven := h.given field hfield
  rw [← htyped.assigned_items, ← htyped.assigned_items, given_map, given_map,
    List.forall₂_map_left_iff, List.forall₂_map_right_iff] at hgiven
  have hlast := getLast?_of_forall₂ hgiven
  unfold said?
  rw [lastAssigned?_eq, lastAssigned?_eq]
  generalize (given field.1 (shape.assigned p)).getLast? = last at hlast ⊢
  generalize (given field.1 (shape.assigned p')).getLast? = last' at hlast ⊢
  cases hlast with
  | none => rfl
  | some hsame => exact halike hsame

end Shape

theorem runnerSaid_same (h : SameSection runnerFields p.item p'.item) :
    runnerSaid (runnerShape.assigned p)
      = runnerSaid (runnerShape.assigned p') := by
  have htext (name : String) (hname : (name, IsText) ∈ runnerFields) :=
    runner_typed.said?_same h hname Place.string_alike
  unfold runnerSaid
  rw [htext "tool_path" (by simp [runnerFields]),
    htext "language" (by simp [runnerFields])]

theorem controlSaid_same (h : SameSection controlFields p.item p'.item) :
    controlSaid (controlShape.assigned p)
      = controlSaid (controlShape.assigned p') := by
  have hcount (wanted : Toml.Wanted) (name : String)
      (hname : (name, IsCount) ∈ controlFields) :=
    control_typed.said?_same h hname (Place.count_alike wanted)
  have hdirectory := control_typed.said?_same h
    (show ("working_dir", IsText) ∈ controlFields by simp [controlFields])
    Place.string_alike
  have henv := control_typed.said?_same h
    (show ("env", AreTexts) ∈ controlFields by simp [controlFields])
    Place.textTable_alike
  unfold controlSaid
  rw [hcount .timeCount "timeout_ms" (by simp [controlFields]),
    hcount .byteCount "capture_bytes" (by simp [controlFields]),
    hcount .timeCount "kill_grace_ms" (by simp [controlFields]),
    hdirectory, henv]

theorem loggingSaid_same (h : SameSection loggingFields p.item p'.item) :
    loggingSaid (loggingShape.assigned p)
      = loggingSaid (loggingShape.assigned p') := by
  have htruth (name : String) (hname : (name, IsTruth) ∈ loggingFields) :=
    logging_typed.said?_same h hname Place.boolean_alike
  have htext (name : String) (hname : (name, IsText) ∈ loggingFields) :=
    logging_typed.said?_same h hname Place.string_alike
  unfold loggingSaid
  rw [htruth "enabled" (by simp [loggingFields]),
    htruth "console" (by simp [loggingFields]),
    htruth "file" (by simp [loggingFields]),
    htext "level" (by simp [loggingFields]),
    htext "directory" (by simp [loggingFields])]

-- ============================================================== documents

/-- What a document gives a section, where one that is missing is as good as
one that is empty. -/
def sectionIn (name : String) (entries : Entries) : List Item :=
  match given name (ofTable entries) with
  | [] => [.table .implied none []]
  | items => items

/-- Documents that give the same to every name that the settings know, at the
top and inside the sections; what other names are given, and in which order
anything is, makes no difference. -/
def SameKnown (entries entries' : Entries) : Prop :=
  ∀ t ∈ sections, List.Forall₂ (SameSection t.2)
    (sectionIn t.1 entries) (sectionIn t.1 entries')

variable {entries entries' : Entries}

theorem placeless_sections : ∀ t ∈ sections, Placeless t.2 := by
  unfold sections
  simp only [List.forall_mem_cons]
  exact ⟨placeless_runner, placeless_control, placeless_logging, nofun⟩

theorem wellTyped_iff_sectionIn (entries : Entries) : WellTyped entries
    ↔ ∀ t ∈ sections, ∀ item ∈ sectionIn t.1 entries, Fits t.2 item := by
  have hall := forall_given (sections.map fun t => (t.1, Fits t.2))
    (ofTable entries)
  simp only [List.forall_mem_map] at hall
  have hgiven : WellTyped entries
      ↔ ∀ t ∈ sections,
        ∀ item ∈ given t.1 (ofTable entries), Fits t.2 item := by
    rw [← hall]
    unfold WellTyped ofTable
    rw [List.forall_mem_map]
  rw [hgiven]
  refine forall₂_congr fun t _ => ?_
  unfold sectionIn
  split
  next hnone =>
    rw [hnone, List.forall_mem_singleton]
    exact iff_of_true nofun ⟨rfl, nofun⟩
  next => exact Iff.rfl

theorem wellTyped_same (h : SameKnown entries entries') :
    WellTyped entries ↔ WellTyped entries' := by
  rw [wellTyped_iff_sectionIn, wellTyped_iff_sectionIn]
  exact forall₂_congr fun t ht => forall_mem_of_forall₂ (h t ht)
    (SameSection.fits (placeless_sections t ht))

/-- What the entries of a table assign, with the places. -/
def places (entries : Entries) : List (String × Place) :=
  entries.map fun e => (e.1.name, .ofMember e.1 e.2)

theorem items_places (entries : Entries) :
    (places entries).map (fun e => (e.1, e.2.item)) = ofTable entries := by
  unfold places ofTable
  rw [List.map_map]
  rfl

/-- What is said in a section that may be missing is what the last one
says. -/
theorem within_last {σ : Type} (shape : Shape σ) (name : String)
    (entries : Entries) :
    ∃ p : Place, (sectionIn name entries).getLast? = some p.item
      ∧ Declared.within shape name (places entries) = shape.assigned p := by
  unfold sectionIn Declared.within
  rw [← items_places, given_map, lastAssigned?_eq]
  cases hlast : (given name (places entries)).getLast? with
  | none =>
      rw [List.getLast?_eq_none_iff.1 hlast]
      exact ⟨⟨⟨0, 0⟩, .table .implied none []⟩, rfl, rfl⟩
  | some p =>
      obtain ⟨before, hplaces⟩ := List.getLast?_eq_some_iff.1 hlast
      refine ⟨p, ?_, rfl⟩
      rw [hplaces, List.map_append]
      split
      next hnone => exact absurd hnone (by simp)
      next => exact List.getLast?_concat

theorem within_same {σ τ : Type} {shape : Shape σ}
    {told : List (String × Place) → τ}
    (htold : ∀ {p p' : Place}, SameSection fields p.item p'.item →
      told (shape.assigned p) = told (shape.assigned p'))
    {name : String} (h : List.Forall₂ (SameSection fields)
      (sectionIn name entries) (sectionIn name entries')) :
    told (Declared.within shape name (places entries))
      = told (Declared.within shape name (places entries')) := by
  obtain ⟨p, hp, hwithin⟩ := within_last shape name entries
  obtain ⟨p', hp', hwithin'⟩ := within_last shape name entries'
  have hlast := getLast?_of_forall₂ h
  rw [hp, hp'] at hlast
  cases hlast with
  | some hsame => rw [hwithin, hwithin', htold hsame]

/-- What else a document says does not change the settings. -/
theorem ofEntries_same (h : SameKnown entries entries') :
    (ofEntries entries).toOption = (ofEntries entries').toOption := by
  by_cases htyped : WellTyped entries
  · rw [ofEntries_wellTyped htyped,
      ofEntries_wellTyped ((wellTyped_same h).1 htyped)]
    unfold SameKnown sections at h
    simp only [List.forall_mem_cons] at h
    obtain ⟨hrunner, hcontrol, hlogging, -⟩ := h
    have hsettings : (Declared.ofAssigned (places entries)).settings
        = (Declared.ofAssigned (places entries')).settings := by
      unfold Declared.settings Declared.ofAssigned
      rw [within_same runnerSaid_same hrunner,
        within_same controlSaid_same hcontrol,
        within_same loggingSaid_same hlogging]
    exact congrArg some hsettings
  · have hnone (entries : Entries) (h : ¬WellTyped entries) :
        (ofEntries entries).toOption = none := by
      cases hs : ofEntries entries with
      | error fault => rfl
      | ok s => exact absurd ((ofEntries_ok_iff entries).1 ⟨s, hs⟩) h
    rw [hnone _ htyped, hnone _ fun h' => htyped ((wellTyped_same h).2 h')]

theorem ofDocument_same {document document' : String}
    (hread : Toml.read? document = some entries)
    (hread' : Toml.read? document' = some entries')
    (h : SameKnown entries entries') :
    (ofDocument document).toOption = (ofDocument document').toOption := by
  have hdocument {document : String} {entries : Entries}
      (hread : Toml.read? document = some entries) :
      (ofDocument document).toOption = (ofEntries entries).toOption := by
    unfold ofDocument
    rw [hread]
    simp only
    cases ofEntries entries <;> rfl
  rw [hdocument hread, hdocument hread', ofEntries_same h]

end Settings

end Toolrun
