/-
A document that was written table by table is read back.

What is said about the lines from some place on is what comes of them in the
end: `Draft.Reads d text P` means that, wherever the text stands, reading it
into the draft `d` ends well and leaves entries with the property `P`. So there
is one rule for each kind of line, which says what has to be shown of the lines
behind it, and from them a rule for a whole table (`reads_table`).
-/
import Mathlib.Data.List.Forall2
import Toolrun.Proofs.Toml.Assignment
import Toolrun.Toml.Document

namespace Toolrun.Toml

variable {behind : List Char} {P : Entries → Prop}

-- ================================================================ entries

namespace Entries

variable {entries : Entries} {key : Key} {item : Item} {name : String}

/-- Entries that hold what was written, in order. -/
def Hold (entries : Entries) (members : List (String × Written)) : Prop :=
  List.Forall₂
    (fun e m => e.1.name = m.1 ∧ ∃ span, e.2 = .scalar span m.2.scalar)
    entries members

theorem hold_nil (h : Hold entries []) : entries = [] :=
  List.forall₂_nil_right_iff.1 h

theorem hold_cons {m : String × Written} {members : List (String × Written)}
    (h : Hold entries (m :: members)) :
    ∃ place value others, entries
        = (⟨m.1, place⟩, .scalar value m.2.scalar) :: others
      ∧ Hold others members := by
  obtain ⟨⟨⟨name, place⟩, item⟩, others, ⟨hname, value, hvalue⟩, hothers,
    rfl⟩ := List.forall₂_cons_right_iff.1 h
  subst hname hvalue
  exact ⟨place, value, others, rfl, hothers⟩

theorem names_of_hold {members : List (String × Written)}
    (h : Hold entries members) :
    entries.map (·.1.name) = members.map (·.1) := by
  induction h with
  | nil => rfl
  | cons hfirst _ ih => rw [List.map_cons, List.map_cons, ih, hfirst.1]

theorem get?_eq_none :
    entries.get? name = none ↔ ∀ e ∈ entries, e.1.name ≠ name := by
  unfold get?
  rw [Option.map_eq_none_iff, List.find?_eq_none]
  simp

/-- What was not there stands at the end. -/
theorem put_fresh (h : entries.get? key.name = none) :
    entries.put key item = entries ++ [(key, item)] := by
  unfold put
  rw [if_neg]
  rw [List.any_eq_true]
  rintro ⟨e, he, hsame⟩
  exact get?_eq_none.1 h e he (of_decide_eq_true hsame)

/-- One entry more, under another name, does not change what is found. -/
theorem get?_concat_of_ne (h : key.name ≠ name) :
    (entries ++ [(key, item)]).get? name = entries.get? name := by
  unfold get?
  rw [List.find?_append, List.find?_cons_of_neg (by simpa using h),
    List.find?_nil, Option.or_none]

theorem get?_last {before : Entries} (hbefore : before.get? name = none)
    (hname : key.name = name) :
    (before ++ [(key, item)]).get? name = some item := by
  unfold get? at hbefore ⊢
  rw [Option.map_eq_none_iff] at hbefore
  rw [List.find?_append, hbefore, Option.none_or,
    List.find?_cons_of_pos (by simpa using hname)]
  rfl

/-- What was there last is replaced, and keeps its key. -/
theorem put_last {before : Entries} {old : Key} {replaced : Item}
    (hbefore : before.get? key.name = none) (hname : old.name = key.name) :
    (before ++ [(old, replaced)]).put key item = before ++ [(old, item)] := by
  unfold put
  rw [if_pos]
  · rw [List.map_append, List.map_congr_left (g := id), List.map_id]
    · rw [List.map_singleton, if_pos hname]
    · intro e he
      exact if_neg (get?_eq_none.1 hbefore e he)
  · rw [List.any_append, Bool.or_eq_true]
    refine .inr (List.any_eq_true.2 ⟨_, List.mem_singleton_self _, ?_⟩)
    exact decide_eq_true hname

end Entries

-- ================================================================== lines

namespace Draft

variable {d : Draft}

/-- Reading a text into a draft ends well, with entries that have a
property. -/
def Reads (d : Draft) (text : List Char) (P : Entries → Prop) : Prop :=
  ∀ (c : Cursor) (fuel : Nat), c.rest = text → text.length < fuel →
    ∃ draft entries, lines? fuel d c = some draft
      ∧ draft.close? = some entries ∧ P entries

/-- The end of the document. -/
theorem reads_end {entries : Entries} (hclose : d.close? = some entries)
    (h : P entries) : d.Reads [] P := by
  intro c fuel hc hfuel
  obtain ⟨fuel, rfl⟩ :=
    Nat.exists_eq_add_one.2 (Nat.zero_lt_of_lt hfuel)
  have hspace : c.skipSpace.rest = [] := by
    show c.rest.dropWhile isSpace = []
    rw [hc]
    rfl
  refine ⟨d, entries, ?_, hclose, h⟩
  rw [lines?]
  simp only [hspace]

/-- An empty line. -/
theorem reads_blank (h : d.Reads behind P) : d.Reads ('\n' :: behind) P := by
  intro c fuel hc hfuel
  obtain ⟨fuel, rfl⟩ :=
    Nat.exists_eq_add_one.2 (Nat.zero_lt_of_lt hfuel)
  have hspace : c.skipSpace.rest = '\n' :: behind :=
    Cursor.skipSpace_of_cons hc rfl
  have hrest : (c.skipSpace.skip 1).rest = behind := by
    rw [Cursor.rest_skip, hspace]
    rfl
  rw [List.length_cons] at hfuel
  obtain ⟨draft, entries, hread, hclosed⟩ := h _ fuel hrest (by omega)
  refine ⟨draft, entries, ?_, hclosed⟩
  rw [lines?]
  simp only [hspace]
  exact hread

/-- A line that is neither empty nor a comment. -/
theorem reads_line {first : Char} {text : List Char}
    (hspace : isSpace first = false) (hcomment : first ≠ '#')
    (hfeed : first ≠ '\n') (hreturn : first ≠ '\r')
    (hshorter : behind.length ≤ text.length)
    (h : ∀ c : Cursor, c.rest = first :: text →
      ∃ d' e, line? d c = some (d', e) ∧ e.rest = behind
        ∧ d'.Reads behind P) :
    d.Reads (first :: text) P := by
  intro c fuel hc hfuel
  obtain ⟨fuel, rfl⟩ :=
    Nat.exists_eq_add_one.2 (Nat.zero_lt_of_lt hfuel)
  have hstart : c.skipSpace.rest = first :: text :=
    Cursor.skipSpace_of_cons hc hspace
  obtain ⟨d', e, hline, hrest, hreads⟩ := h _ hstart
  rw [List.length_cons] at hfuel
  obtain ⟨draft, entries, hread, hclosed⟩ := hreads e fuel hrest (by omega)
  refine ⟨draft, entries, ?_, hclosed⟩
  rw [lines?]
  simp only [hstart]
  split
  next heq => cases heq
  next heq => exact absurd (List.cons.inj heq).1 hcomment
  next heq => exact absurd (List.cons.inj heq).1 hfeed
  next heq => exact absurd (List.cons.inj heq).1 hreturn
  next =>
    rw [hline]
    exact hread

theorem assign?_fresh {key : Key} {item : Item}
    (hfresh : d.entries.get? key.name = none) :
    ∃ span, d.assign? [key] item
      = some
          { d with
            span := span
            entries := d.entries ++ [(key, item)] } := by
  have hadd : addDotted? false [] key item d.entries
      = some (d.entries ++ [(key, item)]) := by
    rw [addDotted?, hfresh]
    simp only []
    rw [Entries.put_fresh hfresh]
  unfold assign?
  simp only [List.getLast?_singleton, List.dropLast_singleton, bind,
    Option.bind, hadd]
  exact ⟨_, rfl⟩

/-- An assignment to a name that is not there yet. -/
theorem reads_assignment {name : String} {w : Written} (hw : w.Fits)
    (hfresh : d.entries.get? name = none)
    (h : ∀ key value span, key.name = name →
      Draft.Reads
        { d with
          span := span
          entries := d.entries ++ [(key, .scalar value w.scalar)] }
        behind P) :
    d.Reads (writeAssignment name w ++ behind) P := by
  obtain ⟨first, others, hkey, hfirst⟩ := writeKey_begins name.toList
  have hwritten : writeAssignment name w ++ behind
      = first
          :: (others ++ ' ' :: '=' :: ' ' :: (w.chars ++ '\n' :: behind)) := by
    rw [writeAssignment, hkey]
    simp
  have hshorter : behind.length
      ≤ (others
          ++ ' ' :: '=' :: ' ' :: (w.chars ++ '\n' :: behind)).length := by
    simp only [List.length_append, List.length_cons]
    omega
  rw [hwritten]
  refine reads_line (isSpace_of_marks hfirst) (hfirst '#' (by decide))
    (hfirst '\n' (by decide)) (hfirst '\r' (by decide)) hshorter
    (fun c hc => ?_)
  obtain ⟨key, value, e, hassignment, hname, hrest⟩ :=
    assignment?_written hw depthLimit (hc.trans hwritten.symm)
  obtain ⟨g, hg, hbehind⟩ := Cursor.lineEnd?_of_cons hrest
  obtain ⟨span, hassign⟩ : ∃ span, d.assign? [key] (.scalar value w.scalar)
      = some { d with
          span := span
          entries := d.entries ++ [(key, .scalar value w.scalar)] } :=
    assign?_fresh (hname ▸ hfresh)
  refine ⟨_, g, ?_, hbehind, h key value span hname⟩
  unfold line?
  simp only [hc]
  split
  next heq => exact absurd (List.cons.inj heq).1 (hfirst '[' (by decide))
  next =>
    rw [hassignment]
    simp only [bind, Option.bind]
    rw [hassign]
    simp only [hg]

/-- Assignments to names that are not there yet. -/
theorem reads_members {members : List (String × Written)}
    (hfits : ∀ m ∈ members, m.2.Fits) (hnodup : (members.map (·.1)).Nodup)
    (hfresh : ∀ m ∈ members, d.entries.get? m.1 = none)
    (h : ∀ entries span, Entries.Hold entries members →
      Draft.Reads { d with span := span, entries := d.entries ++ entries }
        behind P) :
    d.Reads (members.flatMap (fun m => writeAssignment m.1 m.2) ++ behind)
      P := by
  induction members generalizing d with
  | nil =>
      have hnone := h [] d.span .nil
      rw [List.append_nil] at hnone
      exact hnone
  | cons m members ih =>
      -- the first entry moves into the draft, where the others must not find
      -- their names
      rw [List.map_cons, List.nodup_cons] at hnodup
      rw [List.flatMap_cons, List.append_assoc]
      refine reads_assignment (hfits m List.mem_cons_self)
        (hfresh m List.mem_cons_self) fun key value span hname => ?_
      refine ih (fun x hx => hfits x (List.mem_cons_of_mem _ hx)) hnodup.2
        (fun x hx => ?_) fun entries span hentries => ?_
      · have hne : key.name ≠ x.1 := by
          rintro hsame
          rw [hname] at hsame
          exact hnodup.1 (hsame ▸ List.mem_map_of_mem hx)
        rw [Entries.get?_concat_of_ne hne]
        exact hfresh x (List.mem_cons_of_mem _ hx)
      · have hmore := h ((key, .scalar value m.2.scalar) :: entries) span
          (.cons ⟨hname, value, rfl⟩ hentries)
        rw [List.append_assoc]
        exact hmore

/-- A header of a table. -/
theorem reads_header {path : List String} (hne : path ≠ [])
    (hlength : path.length ≤ depthLimit)
    (h : ∀ keys span, keys.map (·.name) = path →
      ∃ d', d.openTable? keys false span = some d' ∧ d'.Reads behind P) :
    d.Reads ('[' :: (writePath path ++ ']' :: '\n' :: behind)) P := by
  have hshorter : behind.length
      ≤ (writePath path ++ ']' :: '\n' :: behind).length := by
    simp only [List.length_append, List.length_cons]
    omega
  refine reads_line rfl (by decide) (by decide) (by decide) hshorter
    fun c hc => ?_
  have hpath : (c.skip 1).rest = writePath path ++ ']' :: '\n' :: behind := by
    rw [Cursor.rest_skip, hc]
    rfl
  obtain ⟨keys, e, hkeys, hnames, he⟩ :=
    key?_writePath hne hlength (by simp [isBareKeyChar]) (by simp [isSpace])
      hpath
  have hclosing : e.rest = [']'] ++ '\n' :: behind := he
  obtain ⟨g, hg, hfeed⟩ := Cursor.expect?_of_append hclosing
  obtain ⟨i, hi, hbehind⟩ := Cursor.lineEnd?_of_cons hfeed
  have hheader : header? c = some (keys, false, g) := by
    obtain ⟨part, others, rfl⟩ := List.exists_cons_of_ne_nil hne
    obtain ⟨first, text, hfirst, hmarks⟩ := writePath_begins part others
    have hbegin : c.rest = '[' :: first :: (text ++ ']' :: '\n' :: behind) := by
      rw [hc, hfirst, List.cons_append]
    unfold header?
    simp only [hbegin]
    split
    next heq =>
      exact absurd (List.cons.inj (List.cons.inj heq).2).1
        (hmarks '[' (by decide))
    next =>
      rw [hkeys]
      simp only [bind, Option.bind]
      rw [hg]
    next hnone => exact absurd rfl (hnone _)
  obtain ⟨d', hopen, hreads⟩ := h keys (c.spanTo g) hnames
  refine ⟨d', i, ?_, hbehind, hreads⟩
  unfold line?
  simp only [hc]
  rw [hheader]
  simp only [bind, Option.bind]
  rw [hopen]
  simp only [hi]

/-- A table with its header. -/
theorem reads_table {path : List String} (hne : path ≠ [])
    (hlength : path.length ≤ depthLimit)
    {members : List (String × Written)} (hfits : ∀ m ∈ members, m.2.Fits)
    (hnodup : (members.map (·.1)).Nodup)
    (h : ∀ keys span, keys.map (·.name) = path →
      ∃ closed, d.openTable? keys false span
          = some ⟨closed, keys, false, some span, []⟩
        ∧ ∀ entries span, Entries.Hold entries members →
          Draft.Reads ⟨closed, keys, false, span, entries⟩ behind P) :
    d.Reads (writeTable path members ++ behind) P := by
  have hwritten : writeTable path members ++ behind
      = '[' :: (writePath path ++ ']' :: '\n'
        :: (members.flatMap (fun m => writeAssignment m.1 m.2) ++ behind)) := by
    simp [writeTable, writePath]
  rw [hwritten]
  refine reads_header hne hlength fun keys span hnames => ?_
  obtain ⟨closed, hopen, hbehind⟩ := h keys span hnames
  refine ⟨_, hopen, ?_⟩
  exact reads_members hfits hnodup (fun _ _ => rfl) hbehind

-- ================================================================= tables

-- Headers are one name long, or two with the first naming the last table that
-- was closed; more is not needed for what is printed.

section Tables

variable {closed before inner entries : Entries} {key outer old : Key}
  {span : Option Span} {header : Span}

/-- What is changed in the table that came last, if it had a header. -/
theorem updateAt?_last {β : Type} (change : Entries → Option (Entries × β))
    (hbefore : before.get? outer.name = none) (hname : old.name = outer.name) :
    Entries.updateAt? change [outer]
        (before ++ [(old, .table .header span inner)])
      = (change inner).map fun changed =>
          (before ++ [(old, .table .header span changed.1)], changed.2) := by
  rw [Entries.updateAt?, Entries.get?_last hbefore hname]
  simp only [Entries.updateAt?, Entries.put_last hbefore hname]

theorem takeUp?_fresh (hfresh : closed.get? key.name = none) :
    takeUp? key closed = some (closed, []) := by
  unfold takeUp?
  rw [hfresh]

/-- A table that is not there yet joins the others at the end. -/
theorem close?_fresh (hfresh : closed.get? key.name = none) :
    (Draft.mk closed [key] false span entries).close?
      = some (closed ++ [(key, .table .header span entries)]) := by
  unfold close?
  simp only [List.getLast?_singleton, List.dropLast_singleton]
  rw [Entries.updateAt?]
  simp only [Entries.put_fresh hfresh]
  rfl

/-- The header of a table that is not there yet. -/
theorem openTable?_fresh (hclose : d.close? = some closed)
    (hfresh : closed.get? key.name = none) :
    d.openTable? [key] false header
      = some ⟨closed, [key], false, some header, []⟩ := by
  unfold openTable?
  rw [hclose]
  show (Entries.updateAt? (takeUp? key) [] closed).bind _ = _
  rw [Entries.updateAt?, takeUp?_fresh hfresh]
  rfl

/-- A table within the one that came last joins what is in that. -/
theorem close?_within (hbefore : before.get? outer.name = none)
    (hname : old.name = outer.name) (hfresh : inner.get? key.name = none)
    {within : Option Span} :
    (Draft.mk (before ++ [(old, .table .header within inner)]) [outer, key]
        false span entries).close?
      = some (before ++ [(old, .table .header within
          (inner ++ [(key, .table .header span entries)]))]) := by
  unfold close?
  show (Entries.updateAt? _ [outer] _).map (·.1) = _
  rw [updateAt?_last _ hbefore hname]
  show some (before ++ [(old, .table .header within
    (inner.put key (.table .header span entries)))]) = _
  rw [Entries.put_fresh hfresh]

/-- The header of a table within the one that came last. -/
theorem openTable?_within {within : Option Span}
    (hclose : d.close?
      = some (before ++ [(old, .table .header within inner)]))
    (hbefore : before.get? outer.name = none) (hname : old.name = outer.name)
    (hfresh : inner.get? key.name = none) :
    d.openTable? [outer, key] false header
      = some ⟨before ++ [(old, .table .header within inner)], [outer, key],
          false, some header, []⟩ := by
  unfold openTable?
  rw [hclose]
  show (Entries.updateAt? (takeUp? key) [outer] _).bind _ = _
  rw [updateAt?_last _ hbefore hname, takeUp?_fresh hfresh]
  rfl

end Tables

end Draft

/-- A document is what comes of its lines, unless it has a byte order mark. -/
theorem read?_of_reads {document : String}
    (hmark : document.toList.head? ≠ some '\uFEFF')
    (h : Draft.Reads {} document.toList P) :
    ∃ entries, read? document = some entries ∧ P entries := by
  have hbegin : (beginning document).rest = document.toList := by
    unfold beginning
    cases hchars : document.toList with
    | nil => rfl
    | cons first others =>
        rw [hchars] at hmark
        have hne : '\uFEFF' ≠ first := fun hsame =>
          hmark (congrArg some hsame.symm)
        have hnone :
            (Cursor.mk 0 (first :: others)).expect? ['\uFEFF'] = none :=
          Cursor.expect?_of_ne rfl hne
        simp only [hnone]
        rfl
  obtain ⟨draft, entries, hlines, hclose, hentries⟩ :=
    h _ _ hbegin (Nat.lt_succ_self _)
  refine ⟨entries, ?_, hentries⟩
  unfold read?
  simp only [bind, Option.bind, hbegin]
  rw [hlines]
  exact hclose

end Toolrun.Toml
