/-
An assignment is read back as it was written: first its value, of whichever
kind (`value?_written`), then its key, with or without quotes
(`keyPart?_writeKey`), and then the whole line (`assignment?_written`). Keys
of several parts, as headers have them, are read part by part
(`key?_writePath`).
-/
import Toolrun.Proofs.Toml.Number
import Toolrun.Proofs.Toml.Text
import Toolrun.Toml.Reader

namespace Toolrun.Toml

variable {behind : List Char}

-- ================================================================= values

namespace Written

/-- The value that was written. -/
def scalar : Written → Scalar
  | text s => .string s
  | count n => .integer n
  | boolean b => .boolean b

/-- Whether a document can hold a value: a number must not be too large. -/
def Fits : Written → Prop
  | count n => n ≤ largestInteger
  | _ => True

/-- What is written for a value does not begin like a list or a table, nor
with white space. -/
theorem begins (w : Written) :
    ∃ first others, w.chars = first :: others ∧ first ≠ '[' ∧ first ≠ '{'
      ∧ isSpace first = false := by
  cases w with
  | text s =>
      obtain ⟨first, others, hwrite, hfirst⟩ :=
        TextForm.write_begins s.toList (TextForm.of s.toList)
      refine ⟨first, others, hwrite, ?_⟩
      rcases hfirst with rfl | rfl <;> decide
  | count n =>
      cases hdigits : Nat.toDigits 10 n with
      | nil => exact absurd hdigits Nat.toDigits_ne_nil
      | cons d ds =>
          have hd : Scalar.isDigit d = true :=
            isDigit_of_mem (hdigits ▸ List.mem_cons_self)
          refine ⟨d, ds, hdigits, ne_of_isDigit hd rfl, ne_of_isDigit hd rfl,
            ?_⟩
          unfold isSpace
          rw [beq_false_of_ne (ne_of_isDigit hd rfl),
            beq_false_of_ne (ne_of_isDigit hd rfl)]
          rfl
  | boolean b =>
      cases b
      all_goals
        refine ⟨_, _, rfl, ?_⟩
        decide

end Written

/-- What begins with a digit and ends with the line is a number. -/
theorem read?_toDigits {n : Nat} (hn : n ≤ largestInteger)
    (behind : List Char) :
    Takes Scalar.read? (Nat.toDigits 10 n) ('\n' :: behind) (.integer n) := by
  intro c hc
  obtain ⟨d, hd, hrest⟩ := number?_toDigits hn behind c hc
  have hdigits := fun d => isDigit_of_mem (n := n) (d := d)
  refine ⟨d, ?_, hrest⟩
  have hnoDate := dateTime?_of_digits hdigits hc
  cases hds : Nat.toDigits 10 n with
  | nil => exact absurd hds Nat.toDigits_ne_nil
  | cons first others =>
      rw [hds] at hc hdigits
      have hfirst := hdigits first List.mem_cons_self
      have hne (other : Char) (hother : Scalar.isDigit other = false) :
          first ≠ other := ne_of_isDigit hfirst hother
      unfold Scalar.read?
      simp only [hc, List.cons_append]
      split
      next heq => exact absurd (List.cons.inj heq).1 (hne '"' rfl)
      next heq => exact absurd (List.cons.inj heq).1 (hne '\'' rfl)
      next heq => exact absurd (List.cons.inj heq).1 (hne 't' rfl)
      next heq => exact absurd (List.cons.inj heq).1 (hne 'f' rfl)
      next =>
        rw [hnoDate]
        exact hd

/-- A text is a string. -/
theorem read?_writeText (s : String) (behind : List Char) :
    Takes Scalar.read? (writeText s.toList) ('\n' :: behind) (.string s) := by
  intro c hc
  obtain ⟨d, hd, hrest⟩ :=
    string?_writeText s.toList (by simp) (by simp) c hc
  refine ⟨d, ?_, hrest⟩
  have hread : Scalar.read? c
      = (Scalar.string? c).map fun found => (.string found.1, found.2) := by
    obtain ⟨first, others, hwrite, hfirst⟩ :=
      TextForm.write_begins s.toList (TextForm.of s.toList)
    rw [writeText, hwrite] at hc
    unfold Scalar.read?
    rw [hc]
    rcases hfirst with rfl | rfl <;> rfl
  rw [hread, hd, String.ofList_toList]
  rfl

/-- A value that can be written is read back. -/
theorem read?_written {w : Written} (h : w.Fits) (behind : List Char) :
    Takes Scalar.read? w.chars ('\n' :: behind) w.scalar := by
  cases w with
  | text s => exact read?_writeText s behind
  | count n => exact read?_toDigits h behind
  | boolean b =>
      intro c hc
      obtain ⟨d, hd, hrest⟩ := Cursor.expect?_of_append hc
      refine ⟨d, ?_, hrest⟩
      unfold Scalar.read?
      rw [hc]
      cases b with
      | true =>
          show (c.expect? ['t', 'r', 'u', 'e']).map _ = _
          rw [show c.expect? ['t', 'r', 'u', 'e'] = some d from hd]
          rfl
      | false =>
          show (c.expect? ['f', 'a', 'l', 's', 'e']).map _ = _
          rw [show c.expect? ['f', 'a', 'l', 's', 'e'] = some d from hd]
          rfl

/-- A value that can be written is read back, wherever a value may stand. -/
theorem value?_written {w : Written} (h : w.Fits) (budget : Nat) {c : Cursor}
    (hc : c.rest = w.chars ++ '\n' :: behind) :
    ∃ span d, value? budget c = some (.scalar span w.scalar, d)
      ∧ d.rest = '\n' :: behind := by
  obtain ⟨d, hd, hrest⟩ := read?_written h behind c hc
  refine ⟨c.spanTo d, d, ?_, hrest⟩
  have hscalar : value? budget c = scalar? c := by
    obtain ⟨first, others, hfirst, hlist, htable, -⟩ := w.begins
    rw [hfirst, List.cons_append] at hc
    cases budget
    all_goals
      unfold value?
      simp only [hc]
      split
      next heq => exact absurd (List.cons.inj heq).1 hlist
      next heq => exact absurd (List.cons.inj heq).1 htable
      next => rfl
  rw [hscalar, scalar?, hd]
  rfl

-- =================================================================== keys

theorem isBareKeyChar_eq (ch : Char) : isBareKeyChar ch = isBare ch := by
  unfold isBareKeyChar isBare Char.isAlphanum Char.isAlpha Char.isUpper
    Char.isLower Char.isDigit
  simp only [Char.le_def, ge_iff_le, Bool.decide_and]
  ac_rfl

/-- The three forms of a key. -/
theorem writeKey_cases (cs : List Char) :
    (writeKey cs = cs ∧ cs ≠ [] ∧ ∀ ch ∈ cs, isBareKeyChar ch = true)
      ∨ writeKey cs = TextForm.basic.write cs
      ∨ (writeKey cs = TextForm.literal.write cs
          ∧ TextForm.literal.Fits cs) := by
  unfold writeKey
  simp only []
  split
  next hbare =>
    rw [Bool.and_eq_true, Bool.not_eq_true', List.isEmpty_eq_false_iff] at hbare
    refine .inl ⟨rfl, hbare.1, fun ch hch => ?_⟩
    rw [isBareKeyChar_eq]
    exact List.all_eq_true.1 hbare.2 ch hch
  split
  next => exact .inr (.inl rfl)
  split
  next hliteral =>
    rw [Bool.and_eq_true, Bool.not_eq_true', Bool.not_eq_true',
      List.any_eq_false] at hliteral
    refine .inr (.inr ⟨rfl, fun ch hch => ⟨?_, ?_⟩⟩)
    · have hshown := hliteral.1 ch hch
      rw [Bool.or_eq_true, not_or, beq_iff_eq] at hshown
      exact isPlain_of_shown (Bool.eq_false_iff.2 hshown.1) hshown.2
    · rintro rfl
      rw [List.contains_iff_mem.2 hch] at hliteral
      cases hliteral.2
  next => exact .inr (.inl rfl)

/-- A key is read back, with or without quotes, if what stands behind could
not be part of it. -/
theorem keyPart?_writeKey (name : String)
    (hbehind : ∀ ch ∈ behind.head?, isBareKeyChar ch = false) {c : Cursor}
    (hc : c.rest = writeKey name.toList ++ behind) :
    ∃ key d, keyPart? c = some (key, d) ∧ key.name = name
      ∧ d.rest = behind := by
  rcases writeKey_cases name.toList with
    ⟨hkey, hne, hbare⟩ | hkey | ⟨hkey, hfits⟩
  · rw [hkey] at hc
    have htaken : c.rest.takeWhile isBareKeyChar = name.toList := by
      have hnone : behind.takeWhile isBareKeyChar = [] := by
        cases behind with
        | nil => rfl
        | cons first others =>
            have hfirst := hbehind first rfl
            exact List.takeWhile_cons_of_neg
              (by rw [hfirst]; exact Bool.false_ne_true)
      rw [hc, List.takeWhile_append_of_pos hbare, hnone, List.append_nil]
    refine ⟨⟨name, c.spanTo (c.skip name.toList.length)⟩, _, ?_, rfl,
      Cursor.rest_skip_of_append hc⟩
    obtain ⟨first, others, hfirst⟩ := List.exists_cons_of_ne_nil hne
    have hbareFirst := hbare first (hfirst ▸ List.mem_cons_self)
    have hbegin : c.rest = first :: (others ++ behind) := by
      rw [hc, hfirst, List.cons_append]
    have hdouble : first ≠ '"' := by
      rintro rfl
      cases hbareFirst
    have hsingle : first ≠ '\'' := by
      rintro rfl
      cases hbareFirst
    unfold keyPart?
    simp only [htaken]
    split
    next heq => exact absurd (List.cons.inj (hbegin.symm.trans heq)).1 hdouble
    next heq => exact absurd (List.cons.inj (hbegin.symm.trans heq)).1 hsingle
    next =>
      rw [List.isEmpty_eq_false_iff.2 hne]
      simp only [Bool.false_eq_true, if_false, Option.map_some,
        String.ofList_toList]
  · rw [hkey] at hc
    obtain ⟨hopen, d, hd, hrest⟩ := basic?_write hc
    refine ⟨⟨name, c.spanTo d⟩, d, ?_, rfl, hrest⟩
    have hread : keyPart? c
        = (Scalar.basic? (c.rest.length + 1) [] (c.skip 1)).map
          fun found =>
            (⟨String.ofList found.1, c.spanTo found.2⟩, found.2) := by
      unfold keyPart?
      rw [hopen]
      rfl
    rw [hread, hd, Option.map_some]
    simp only [String.ofList_toList]
  · rw [hkey] at hc
    obtain ⟨hopen, d, hd, hrest⟩ := literal?_write hfits hc
    refine ⟨⟨name, c.spanTo d⟩, d, ?_, rfl, hrest⟩
    have hread : keyPart? c
        = (Scalar.literal? (c.skip 1)).map
          fun found =>
            (⟨String.ofList found.1, c.spanTo found.2⟩, found.2) := by
      unfold keyPart?
      rw [hopen]
      rfl
    rw [hread, hd, Option.map_some]
    simp only [String.ofList_toList]

/-- The characters with which a line of another kind begins, or which may
stand in front of a line. -/
def lineMarks : List Char := [' ', '\t', '#', '\n', '\r', '[']

/-- A key does not begin like a line of another kind. -/
theorem writeKey_begins (cs : List Char) :
    ∃ first others, writeKey cs = first :: others
      ∧ ∀ mark ∈ lineMarks, first ≠ mark := by
  rcases writeKey_cases cs with ⟨hkey, hne, hbare⟩ | hkey | ⟨hkey, -⟩
  · obtain ⟨first, others, rfl⟩ := List.exists_cons_of_ne_nil hne
    have hmarks : ∀ mark ∈ lineMarks, isBareKeyChar mark = false := by
      simp [lineMarks, isBareKeyChar]
    refine ⟨first, others, hkey, ?_⟩
    rintro mark hmark rfl
    have hfirst := hmarks _ hmark
    rw [hbare _ List.mem_cons_self] at hfirst
    cases hfirst
  · exact ⟨'"', _, hkey, by simp [lineMarks]⟩
  · exact ⟨'\'', _, hkey, by simp [lineMarks]⟩

theorem isSpace_of_marks {ch : Char} (h : ∀ mark ∈ lineMarks, ch ≠ mark) :
    isSpace ch = false := by
  unfold isSpace
  rw [beq_false_of_ne (h ' ' (by decide)),
    beq_false_of_ne (h '\t' (by decide))]
  rfl

/-- There is no white space to be skipped in front of a key. -/
theorem skipSpace_of_writeKey {cs : List Char} {c : Cursor}
    (hc : c.rest = writeKey cs ++ behind) : c.skipSpace.rest = c.rest := by
  obtain ⟨first, others, hkey, hfirst⟩ := writeKey_begins cs
  rw [hkey, List.cons_append] at hc
  rw [hc]
  exact Cursor.skipSpace_of_cons hc (isSpace_of_marks hfirst)

/-- The parts of a key with points between them. -/
def writePath (path : List String) : List Char :=
  ((path.map fun part => writeKey part.toList).intersperse ['.']).flatten

theorem writePath_singleton (part : String) :
    writePath [part] = writeKey part.toList := by
  simp [writePath]

theorem writePath_cons (part next : String) (path : List String) :
    writePath (part :: next :: path)
      = writeKey part.toList ++ '.' :: writePath (next :: path) := by
  simp [writePath]

theorem writePath_begins (part : String) (path : List String) :
    ∃ first others, writePath (part :: path) = first :: others
      ∧ ∀ mark ∈ lineMarks, first ≠ mark := by
  obtain ⟨first, others, hkey, hfirst⟩ := writeKey_begins part.toList
  cases path with
  | nil => exact ⟨first, others, by rw [writePath_singleton, hkey], hfirst⟩
  | cons next path =>
      exact ⟨first, _, by rw [writePath_cons, hkey, List.cons_append], hfirst⟩

/-- The parts of a key are read back, if behind the last one there is neither
more of it nor a point. -/
theorem keyParts?_writePath
    (hbehind : ∀ ch ∈ behind.head?, isBareKeyChar ch = false)
    (hpoint : (behind.dropWhile isSpace).head? ≠ some '.') (path : List String)
    (part : String) {fuel : Nat} (found : List Key) {c : Cursor}
    (hc : c.rest = writePath (part :: path) ++ behind)
    (hfuel : c.rest.length < fuel) :
    ∃ keys d, keyParts? fuel found c = some (found.reverse ++ keys, d)
      ∧ keys.map (·.name) = part :: path
      ∧ d.rest = behind.dropWhile isSpace := by
  induction path generalizing part fuel found c with
  | nil =>
      obtain ⟨fuel, rfl⟩ :=
        Nat.exists_eq_add_one.2 (Nat.zero_lt_of_lt hfuel)
      rw [writePath_singleton] at hc
      have hstart := (skipSpace_of_writeKey hc).trans hc
      obtain ⟨key, d, hkey, hname, hrest⟩ :=
        keyPart?_writeKey part hbehind hstart
      have hd : d.skipSpace.rest = behind.dropWhile isSpace := by
        rw [← hrest]
        rfl
      refine ⟨[key], d.skipSpace, ?_, by rw [← hname]; rfl, hd⟩
      rw [keyParts?, hkey]
      simp only []
      rw [← hd] at hpoint
      split
      next heq =>
        rw [heq] at hpoint
        exact absurd rfl hpoint
      next => rw [List.reverse_cons]
  | cons next path ih =>
      obtain ⟨fuel, rfl⟩ :=
        Nat.exists_eq_add_one.2 (Nat.zero_lt_of_lt hfuel)
      rw [writePath_cons, List.append_assoc] at hc
      have hstart := (skipSpace_of_writeKey hc).trans hc
      have hstop : ∀ ch ∈ ('.' :: writePath (next :: path)
          ++ behind).head?, isBareKeyChar ch = false := by
        intro ch hch
        cases hch
        rfl
      obtain ⟨key, d, hkey, hname, hrest⟩ := keyPart?_writeKey part hstop hstart
      have hd : d.skipSpace.rest
          = '.' :: (writePath (next :: path) ++ behind) :=
        Cursor.skipSpace_of_cons hrest rfl
      have hmore : (d.skipSpace.skip 1).rest
          = writePath (next :: path) ++ behind := by
        rw [Cursor.rest_skip, hd]
        rfl
      have hshorter : (d.skipSpace.skip 1).rest.length < fuel := by
        rw [hc, List.length_append, List.cons_append, List.length_cons,
          ← hmore] at hfuel
        omega
      obtain ⟨keys, e, he, hnames, hbehind⟩ :=
        ih next (key :: found) hmore hshorter
      refine ⟨key :: keys, e, ?_, ?_, hbehind⟩
      · rw [keyParts?, hkey]
        simp only [hd]
        rw [he, List.reverse_cons, List.append_assoc]
        rfl
      · rw [List.map_cons, hnames, hname]

/-- A key of one or more parts is read back, if it does not have too many. -/
theorem key?_writePath {path : List String} (hne : path ≠ [])
    (hlength : path.length ≤ depthLimit)
    (hbehind : ∀ ch ∈ behind.head?, isBareKeyChar ch = false)
    (hpoint : (behind.dropWhile isSpace).head? ≠ some '.') {c : Cursor}
    (hc : c.rest = writePath path ++ behind) :
    ∃ keys d, key? c = some (keys, d) ∧ keys.map (·.name) = path
      ∧ d.rest = behind.dropWhile isSpace := by
  obtain ⟨part, path, rfl⟩ := List.exists_cons_of_ne_nil hne
  obtain ⟨keys, d, hd, hnames, hrest⟩ :=
    keyParts?_writePath hbehind hpoint path part [] hc (Nat.lt_succ_self _)
  refine ⟨keys, d, ?_, hnames, hrest⟩
  have hcount : keys.length ≤ depthLimit := by
    rw [← hnames, List.length_map] at hlength
    exact hlength
  unfold key?
  rw [hd]
  exact if_pos hcount

-- ============================================================ assignments

/-- An assignment is read back, up to the end of its line. -/
theorem assignment?_written {name : String} {w : Written} (h : w.Fits)
    (budget : Nat) {c : Cursor}
    (hc : c.rest = writeAssignment name w ++ behind) :
    ∃ key span d, assignment? (value? budget) c
        = some ([key], .scalar span w.scalar, d)
      ∧ key.name = name ∧ d.rest = '\n' :: behind := by
  have hline : c.rest
      = writePath [name]
          ++ (' ' :: '=' :: ' ' :: (w.chars ++ '\n' :: behind)) := by
    rw [hc, writeAssignment, writePath_singleton]
    simp
  have hlength : [name].length ≤ depthLimit := by
    rw [List.length_singleton]
    decide
  obtain ⟨keys, d, hkey, hnames, hd⟩ :=
    key?_writePath (List.cons_ne_nil _ _) hlength (by simp [isBareKeyChar])
      (by simp [isSpace]) hline
  have hequals : d.rest = ['='] ++ ' ' :: (w.chars ++ '\n' :: behind) := hd
  obtain ⟨e, he, hspace⟩ := Cursor.expect?_of_append hequals
  -- The single space in front of the value is skipped.
  have hvalue : e.skipSpace.rest = w.chars ++ '\n' :: behind := by
    obtain ⟨first, others, hfirst, -, -, hnoSpace⟩ := w.begins
    rw [hfirst, List.cons_append] at hspace ⊢
    exact Cursor.skipSpace_of_space hspace hnoSpace
  obtain ⟨span, g, hg, hrest⟩ := value?_written h budget hvalue
  obtain ⟨key, rfl⟩ : ∃ key, keys = [key] := by
    rw [← List.length_eq_one_iff, ← List.length_map, hnames]
    rfl
  refine ⟨key, span, g, ?_, (List.cons.inj hnames).1, hrest⟩
  unfold assignment?
  rw [hkey]
  simp only [bind, Option.bind]
  rw [he]
  simp only [hg]

end Toolrun.Toml
