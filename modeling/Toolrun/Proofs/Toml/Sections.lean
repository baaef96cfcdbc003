/-
A document of sections is read back section by section.

Each section is a table with a header, and perhaps one more table within it.
What has been read is closed with it, so one more section always finds the
others in front of it (`Draft.reads_section`); from this follows any number of
them, as long as no two have the same name (`Draft.reads_more`).
-/
import Toolrun.Proofs.Toml.Document

namespace Toolrun.Toml

-- =============================================================== sections

/-- A section as it is written: its members, and the table within it, if there
is one. -/
structure WrittenSection where
  name : String
  members : List (String × Written)
  inner : Option (String × List (String × Written)) := none

namespace WrittenSection

/-- The tables of a section. -/
def tables (t : WrittenSection) :
    List (List String × List (String × Written)) :=
  ([t.name], t.members) :: (t.inner.map fun w => ([t.name, w.1], w.2)).toList

/-- The lines of a section, with an empty one between the two tables. -/
def chars (t : WrittenSection) : List Char :=
  writeTable [t.name] t.members
    ++ t.inner.toList.flatMap fun w => '\n' :: writeTable [t.name, w.1] w.2

/-- A section that can be written: its values fit into a document, and it has
no name twice. -/
structure Fits (t : WrittenSection) : Prop where
  fits : ∀ m ∈ t.members, m.2.Fits
  nodup : (t.members.map (·.1)).Nodup
  inner : ∀ w ∈ t.inner, (∀ m ∈ w.2, m.2.Fits) ∧ (w.2.map (·.1)).Nodup
    ∧ w.1 ∉ t.members.map (·.1)

/-- What an entry of the table within a section holds. -/
inductive HoldsInner :
    Entries → Option (String × List (String × Written)) → Prop
  | none : HoldsInner [] none
  | some {name : String} {place : Span} {span : Option Span} {inner : Entries}
      {members : List (String × Written)} (h : inner.Hold members) :
      HoldsInner [(⟨name, place⟩, .table .header span inner)]
        (some (name, members))

/-- An entry that holds what was written of a section. -/
inductive Holds : Key × Item → WrittenSection → Prop
  | intro {t : WrittenSection} {place : Span} {span : Option Span}
      {entries inner : Entries} (h : entries.Hold t.members)
      (hinner : HoldsInner inner t.inner) :
      Holds (⟨t.name, place⟩, .table .header span (entries ++ inner)) t

theorem Holds.name {e : Key × Item} {t : WrittenSection} (h : Holds e t) :
    e.1.name = t.name := by
  cases h
  rfl

end WrittenSection

-- ================================================================ writing

/-- Tables one after the other, with an empty line in front of each but the
first. -/
theorem writeDocument_cons (t : List String × List (String × Written))
    (others : List (List String × List (String × Written))) :
    writeDocument (t :: others)
      = writeTable t.1 t.2
        ++ others.flatMap fun t => '\n' :: writeTable t.1 t.2 := by
  have hbehind : ∀ (first : List Char) (others : List (List Char)),
      ((first :: others).intersperse ['\n']).flatten
        = first ++ others.flatMap fun t => '\n' :: t := by
    intro first others
    induction others generalizing first with
    | nil => simp
    | cons second others ih =>
        rw [List.intersperse_cons_cons, List.flatten_cons, List.flatten_cons,
          ih, List.flatMap_cons]
        rfl
  unfold writeDocument
  rw [List.map_cons, hbehind, List.flatMap_map]

theorem writeDocument_sections (t : WrittenSection)
    (others : List WrittenSection) :
    writeDocument ((t :: others).flatMap WrittenSection.tables)
      = t.chars ++ others.flatMap fun t => '\n' :: t.chars := by
  have htables (t : WrittenSection) :
      t.tables.flatMap (fun t => '\n' :: writeTable t.1 t.2)
        = '\n' :: t.chars := by
    unfold WrittenSection.tables WrittenSection.chars
    cases t.inner <;> simp
  rw [List.flatMap_cons, WrittenSection.tables, List.cons_append,
    writeDocument_cons, List.flatMap_append, List.flatMap_assoc]
  simp only [htables]
  unfold WrittenSection.chars
  cases t.inner <;> simp

-- ================================================================ reading

theorem exists_key {keys : List Key} {name : String}
    (h : keys.map (·.name) = [name]) : ∃ place, keys = [⟨name, place⟩] := by
  obtain ⟨⟨name', place⟩, rfl, hname⟩ := List.map_eq_singleton_iff.1 h
  exact ⟨place, by rw [← hname]⟩

theorem exists_keys {keys : List Key} {outer inner : String}
    (h : keys.map (·.name) = [outer, inner]) :
    ∃ place place', keys = [⟨outer, place⟩, ⟨inner, place'⟩] := by
  obtain ⟨⟨outer', place⟩, others, rfl, houter, hothers⟩ :=
    List.map_eq_cons_iff.1 h
  obtain ⟨place', rfl⟩ := exists_key hothers
  exact ⟨place, place', by rw [← houter]⟩

/-- What was not written is not found. -/
theorem Entries.get?_of_hold {entries : Entries}
    {members : List (String × Written)} (h : entries.Hold members)
    {name : String} (hname : name ∉ members.map (·.1)) :
    entries.get? name = none := by
  rw [← Entries.names_of_hold h] at hname
  exact Entries.get?_eq_none.2 fun e he hsame =>
    hname (List.mem_map.2 ⟨e, he, hsame⟩)

namespace Draft

variable {d : Draft} {closed : Entries} {t : WrittenSection}
  {behind : List Char} {P : Entries → Prop}

/-- One section, which joins those that were closed before. -/
theorem reads_section (ht : t.Fits) (hclose : d.close? = some closed)
    (hfresh : closed.get? t.name = none)
    (h : ∀ e d', WrittenSection.Holds e t →
      d'.close? = some (closed ++ [e]) → Draft.Reads d' behind P) :
    d.Reads (t.chars ++ behind) P := by
  have hone : [t.name].length ≤ depthLimit := Nat.le_add_left 1 78
  obtain ⟨name, members, inner⟩ := t
  unfold WrittenSection.chars
  rw [List.append_assoc]
  refine reads_table (List.cons_ne_nil _ _) hone ht.fits ht.nodup
    fun keys header hkeys => ?_
  obtain ⟨place, rfl⟩ := exists_key hkeys
  refine ⟨closed, openTable?_fresh hclose hfresh,
    fun entries span hentries => ?_⟩
  have hclosed : (Draft.mk closed [⟨name, place⟩] false span entries).close?
      = some (closed ++ [(⟨name, place⟩, .table .header span entries)]) :=
    close?_fresh hfresh
  cases inner with
  | none =>
      have he : WrittenSection.Holds
          (⟨name, place⟩, .table .header span (entries ++ []))
          ⟨name, members, none⟩ := .intro hentries .none
      rw [List.append_nil] at he
      exact h _ _ he hclosed
  | some w =>
      -- the table within goes into the section that was just read
      obtain ⟨within, others⟩ := w
      obtain ⟨hfits, hnodup, hnew⟩ := ht.inner (within, others) rfl
      have htwo : [name, within].length ≤ depthLimit := Nat.le_add_left 2 77
      have hnone := Entries.get?_of_hold hentries hnew
      rw [Option.toList_some, List.flatMap_singleton, List.cons_append]
      refine reads_blank (reads_table (List.cons_ne_nil _ _) htwo hfits hnodup
        fun keys header hkeys => ?_)
      obtain ⟨place', place'', rfl⟩ := exists_keys hkeys
      have hsame : (Key.mk name place).name = (Key.mk name place').name := rfl
      refine ⟨_, openTable?_within hclosed hfresh hsame hnone,
        fun inner span' hinner => ?_⟩
      exact h _ _ (.intro hentries (.some hinner))
        (close?_within hfresh hsame hnone)

/-- Any number of sections, each behind an empty line. -/
theorem reads_more {others : List WrittenSection}
    (hfits : ∀ t ∈ others, t.Fits) (hnodup : (others.map (·.name)).Nodup)
    (hclose : d.close? = some closed)
    (hfresh : ∀ t ∈ others, closed.get? t.name = none)
    (h : ∀ entries, List.Forall₂ WrittenSection.Holds entries others →
      P (closed ++ entries)) :
    d.Reads (others.flatMap fun t => '\n' :: t.chars) P := by
  induction others generalizing d closed with
  | nil => exact reads_end hclose (by simpa using h [] .nil)
  | cons t others ih =>
      obtain ⟨hfirst, hothers⟩ := List.forall_mem_cons.1 hfits
      obtain ⟨hnew, hrest⟩ := List.forall_mem_cons.1 hfresh
      obtain ⟨hname, hnodup⟩ := List.nodup_cons.1 hnodup
      rw [List.flatMap_cons, List.cons_append]
      refine reads_blank (reads_section hfirst hclose hnew
        fun e d' he hclosed => ?_)
      refine ih hothers hnodup hclosed (fun t' ht' => ?_)
        fun entries hentries => ?_
      · have hne : e.1.name ≠ t'.name := by
          rw [he.name]
          intro hsame
          exact hname (List.mem_map.2 ⟨t', ht', hsame.symm⟩)
        rw [Entries.get?_concat_of_ne hne]
        exact hrest t' ht'
      · have hmore := h (e :: entries) (.cons he hentries)
        rwa [List.append_cons] at hmore

end Draft

/-- A document of sections is read as what they hold. -/
theorem read?_sections {ts : List WrittenSection} (hfits : ∀ t ∈ ts, t.Fits)
    (hnodup : (ts.map (·.name)).Nodup) :
    ∃ entries, read? (String.ofList
        (writeDocument (ts.flatMap WrittenSection.tables))) = some entries
      ∧ List.Forall₂ WrittenSection.Holds entries ts := by
  cases ts with
  | nil => exact ⟨[], rfl, .nil⟩
  | cons t others =>
      obtain ⟨hfirst, hothers⟩ := List.forall_mem_cons.1 hfits
      obtain ⟨hname, hnodup⟩ := List.nodup_cons.1 hnodup
      refine read?_of_reads ?_ ?_
      · rw [String.toList_ofList, writeDocument_sections]
        show some '[' ≠ some '\uFEFF'
        decide
      · rw [String.toList_ofList, writeDocument_sections]
        refine Draft.reads_section hfirst rfl rfl fun e d' he hclosed => ?_
        refine Draft.reads_more hothers hnodup hclosed (fun t' ht' => ?_)
          fun entries hentries => .cons he hentries
        have hne : e.1.name ≠ t'.name := by
          rw [he.name]
          intro hsame
          exact hname (List.mem_map.2 ⟨t', ht', hsame.symm⟩)
        exact (Entries.get?_concat_of_ne hne).trans rfl

end Toolrun.Toml
