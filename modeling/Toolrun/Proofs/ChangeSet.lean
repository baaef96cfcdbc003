/-
A JSON change-set is read just when it is a list of entries, and then all of
its paths are read, in order.

An entry is read in full and then judged, so reading one is reading a value
that names a path (`reads_item`), and the loop over the entries is the loop
over the items of any list. What a document has to be for that is said by the
grammar alone (`ListsJson`).

An entry that is written as JSON is a value that is read back, so a list of
them is one of these documents, however they are mixed.

Any other document is a text of lines, and is always read (`ListsPlain`).
-/
import Toolrun.Plan
import Toolrun.Proofs.Json.Range
import Toolrun.Proofs.Json.Values
import Toolrun.Proofs.Paths

namespace Toolrun.ChangeSet

open Fallible Json

variable {fuel : Nat} {text rest : Bytes} {path : InputPath}

-- ================================================================ entries

/-- The path that an entry names: the entry itself, or what its one member of
the right name is. -/
inductive Names : Json → InputPath → Prop
  | bare (path : InputPath) : Names (.string path) path
  | record {front back : List (Bytes × Json)} (path : InputPath)
      (hfront : ∀ m ∈ front, m.1 ≠ pathMember)
      (hback : ∀ m ∈ back, m.1 ≠ pathMember) :
      Names (.object (front ++ (pathMember, .string path) :: back)) path

theorem valuesOf_eq_nil {name : Bytes} {members : List (Bytes × Json)} :
    valuesOf name members = [] ↔ ∀ m ∈ members, m.1 ≠ name := by
  simp [valuesOf, List.filterMap_eq_nil_iff]

/-- There is one member of a name if there is none before it and none behind
it. -/
theorem valuesOf_eq_singleton {name : Bytes} {members : List (Bytes × Json)}
    {v : Json} :
    valuesOf name members = [v]
      ↔ ∃ front back, members = front ++ (name, v) :: back
        ∧ (∀ m ∈ front, m.1 ≠ name) ∧ ∀ m ∈ back, m.1 ≠ name := by
  constructor
  · intro h
    obtain ⟨front, ⟨first, value⟩, back, rfl, hfront, hfirst, hback⟩ :=
      List.filterMap_eq_cons_iff.1 h
    split at hfirst
    next hname =>
      cases hfirst
      cases hname
      have hfront := List.filterMap_eq_nil_iff.2 hfront
      exact ⟨front, back, rfl, valuesOf_eq_nil.1 hfront,
        valuesOf_eq_nil.1 hback⟩
    next => cases hfirst
  · rintro ⟨front, back, rfl, hfront, hback⟩
    have hnone := valuesOf_eq_nil.2 hfront
    have hnone' := valuesOf_eq_nil.2 hback
    unfold valuesOf at *
    rw [List.filterMap_append, List.filterMap_cons, hnone, hnone', if_pos rfl]
    rfl

theorem inputPath?_eq_some {v : Json} :
    inputPath? v = some path ↔ Names v path := by
  constructor
  · intro h
    unfold inputPath? at h
    split at h
    next =>
      cases h
      exact .bare path
    next members =>
      split at h
      next found hfound =>
        cases h
        obtain ⟨front, back, rfl, hfront, hback⟩ :=
          valuesOf_eq_singleton.1 hfound
        exact .record path hfront hback
      next => cases h
    next => cases h
  · rintro (_ | ⟨_, hfront, hback⟩)
    · rfl
    · have hone : valuesOf pathMember _ = [.string path] :=
        valuesOf_eq_singleton.2 ⟨_, _, rfl, hfront, hback⟩
      unfold inputPath?
      simp only []
      rw [hone]

/-- An entry as it stands in a list. -/
def IsEntry (path : InputPath) (text rest : Bytes) : Prop :=
  ∃ v, Reader.Bounded (depthLimit - 1) v text rest ∧ Names v path

theorem reads_item (fuel : Nat) :
    Reader.Reads fuel Reader.listBrackets (item fuel) IsEntry := by
  have hvalue := Reader.reads_value fuel (depthLimit - 1)
  constructor
  case sound =>
    intro path text rest h
    obtain ⟨⟨v, left⟩, hread, h⟩ := bind_eq_ok.1 h
    simp only [] at h
    split at h
    next hnames =>
      cases h
      exact ⟨v, hvalue.sound hread, inputPath?_eq_some.1 hnames⟩
    next => cases h
  case complete =>
    rintro path text rest ⟨v, hv, hnames⟩ hends hfuel
    unfold item
    rw [hvalue.complete hv hends hfuel]
    simp only [bind, Except.bind, inputPath?_eq_some.2 hnames]
  case begins =>
    rintro path text rest ⟨v, hv, -⟩
    exact hvalue.begins hv
  case shorter =>
    rintro path text rest ⟨v, hv, -⟩
    exact hvalue.shorter hv

-- ============================================================== documents

/-- A list of entries and nothing else, with the paths that they name. It
nests only so deep, and its numbers are of a certain kind. -/
def ListsJson (IsGood : Numeral → Prop) (text : Bytes)
    (paths : List InputPath) : Prop :=
  ∃ items rest, Value (.array items) text rest ∧ Space rest []
    ∧ Within IsGood depthLimit (.array items)
    ∧ List.Forall₂ Names items paths

theorem expectEnd_eq_ok : Reader.expectEnd rest = .ok () ↔ Space rest [] := by
  constructor
  · intro h
    unfold Reader.expectEnd at h
    split at h
    next hskip =>
      rw [← hskip]
      exact Reader.space_skipSpace rest
    next => cases h
  · intro h
    unfold Reader.expectEnd
    rw [Reader.skipSpace_eq_of_space h]
    rfl

/-- Behind an opening bracket the entries are read just as the grammar has
them, up to the end of the text. -/
theorem readItems_eq_ok {paths : List InputPath} :
    readItems text = .ok paths
      ↔ ∃ rest, Items 0x5D IsEntry paths text rest ∧ Space rest [] := by
  have hreads := reads_item (fuelFor text)
  have hfuel : text.length ≤ fuelFor text := Nat.le_succ _
  unfold readItems
  constructor
  · intro h
    obtain ⟨⟨found, rest⟩, hfound, h⟩ := bind_eq_ok.1 h
    obtain ⟨⟨⟩, hend, h⟩ := bind_eq_ok.1 h
    cases h
    exact ⟨rest, Reader.items_of_read hreads hfound, expectEnd_eq_ok.1 hend⟩
  · rintro ⟨rest, hitems, hend⟩
    have hread := Reader.read_of_items hreads Reader.listBrackets_close hitems
      hfuel
    simp only [hread, bind, Except.bind, expectEnd_eq_ok.2 hend]

/-- Entries and nothing else are a list with room for one bracket less inside
it. -/
theorem listsJson_iff {paths : List InputPath} :
    ListsJson Numeral.Converts (0x5B :: text) paths
      ↔ ∃ rest, Items 0x5D IsEntry paths text rest ∧ Space rest [] := by
  have hlist {items : List Json} {rest : Bytes} :
      Value (.array items) (0x5B :: text) rest
          ∧ Within Numeral.Converts depthLimit (.array items)
        ↔ Items 0x5D (Reader.Bounded (depthLimit - 1)) items text rest :=
    Reader.bounded_array
  unfold ListsJson IsEntry
  constructor
  · rintro ⟨items, rest, hvalue, hend, hwithin, hnames⟩
    exact ⟨rest, items_exists_iff.2 ⟨items, hlist.1 ⟨hvalue, hwithin⟩, hnames⟩,
      hend⟩
  · rintro ⟨rest, hitems, hend⟩
    obtain ⟨items, hitems, hnames⟩ := items_exists_iff.1 hitems
    obtain ⟨hvalue, hwithin⟩ := hlist.2 hitems
    exact ⟨items, rest, hvalue, hend, hwithin, hnames⟩

theorem encodeChars_cons_bracket (others : List Char) :
    Utf8.encodeChars ('[' :: others) = 0x5B :: Utf8.encodeChars others := rfl

/-- A document that begins like a list is read just when it is a list of
entries. -/
theorem readChangeSet_eq_ok {document : String} {others : List Char}
    (h : Text.trimStartChars document.toList = '[' :: others)
    {paths : List InputPath} :
    readChangeSet document = .ok paths
      ↔ ListsJson Numeral.Converts (Utf8.encodeChars ('[' :: others))
        paths := by
  rw [encodeChars_cons_bracket, listsJson_iff, ← readItems_eq_ok]
  unfold readChangeSet read
  rw [h]
  simp only [encodeChars_cons_bracket, readJson, List.drop_one, List.tail_cons]
  cases readItems (Utf8.encodeChars others) with
  | ok found => simp
  | error fault => simp

/-- What begins like a list and is none is refused as a whole. -/
theorem readChangeSet_eq_error {document : String}
    (h : ∀ paths, readChangeSet document ≠ .ok paths) :
    ∃ reason, readChangeSet document = .error (.input reason) := by
  unfold readChangeSet at h ⊢
  cases hread : read document with
  | ok paths =>
      rw [hread] at h
      exact absurd rfl (h paths)
  | error reason => exact ⟨_, rfl⟩

-- ======================================================== plain documents

/-- The path that a line of a plain document names: all of it but the white
space around it, unless that is nothing or a remark. -/
def lineName? (line : List Char) : Option InputPath :=
  match Text.trimChars line with
  | [] => none
  | '#' :: _ => none
  | name => some (Utf8.encodeChars name)

/-- A text of lines, with the paths that they name. -/
def ListsPlain (text : List Char) (paths : List InputPath) : Prop :=
  ∃ lines, lines ≠ [] ∧ (∀ line ∈ lines, '\n' ∉ line)
    ∧ ['\n'].intercalate lines = text ∧ lines.filterMap lineName? = paths

theorem lineName?_eq (line : List Char) :
    lineName? line = if namesPath (Text.trimChars line) then
      some (Utf8.encodeChars (Text.trimChars line)) else none := by
  unfold lineName? namesPath
  cases Text.trimChars line with
  | nil => rfl
  | cons c name =>
      by_cases hc : c = '#'
      · subst hc
        rfl
      · simp [hc]

theorem readPlain_eq (text : List Char) :
    readPlain text = (piecesOf '\n' text).filterMap lineName? := by
  unfold readPlain
  induction piecesOf '\n' text with
  | nil => rfl
  | cons line lines ih =>
      rw [List.map_cons, List.filter_cons, List.filterMap_cons, lineName?_eq]
      cases namesPath (Text.trimChars line) with
      | true => simpa using ih
      | false => simpa using ih

theorem readPlain_eq_iff {text : List Char} {paths : List InputPath} :
    readPlain text = paths ↔ ListsPlain text paths := by
  rw [readPlain_eq]
  constructor
  · intro h
    obtain ⟨first, others, hpieces⟩ := @exists_piecesOf_eq _ _ '\n' text
    refine ⟨piecesOf '\n' text, ?_, fun _ => not_mem_of_mem_piecesOf,
      intercalate_piecesOf text, h⟩
    rw [hpieces]
    exact List.cons_ne_nil first others
  · rintro ⟨lines, hne, hlines, rfl, hnames⟩
    rw [piecesOf_intercalate hne hlines, hnames]

/-- A document of either kind, with the paths that it names. -/
inductive Lists (document : String) (paths : List InputPath) : Prop
  | json {others : List Char}
      (hbracket : Text.trimStartChars document.toList = '[' :: others)
      (hlists : ListsJson Numeral.Converts (Utf8.encodeChars ('[' :: others))
        paths)
  | plain (hbracket : ∀ others,
        Text.trimStartChars document.toList ≠ '[' :: others)
      (hlists : ListsPlain document.toList paths)

/-- A change-set is read just when it names some paths, and they are read. -/
theorem readChangeSet_eq_ok_iff {document : String} {paths : List InputPath} :
    readChangeSet document = .ok paths ↔ Lists document paths := by
  by_cases h : ∃ others, Text.trimStartChars document.toList = '[' :: others
  · obtain ⟨others, h⟩ := h
    rw [readChangeSet_eq_ok h]
    constructor
    · exact .json h
    · rintro (⟨hbracket, hlists⟩ | ⟨hbracket, -⟩)
      · rw [h] at hbracket
        cases hbracket
        exact hlists
      · exact absurd h (hbracket others)
  · rw [not_exists] at h
    have hplain : readChangeSet document
        = .ok (readPlain document.toList) := by
      unfold readChangeSet read
      split
      next found hfound =>
        split at hfound
        next others hothers => exact absurd hothers (h others)
        next =>
          cases hfound
          rfl
      next reason hreason =>
        split at hreason
        next others hothers => exact absurd hothers (h others)
        next => cases hreason
    rw [hplain, Except.ok.injEq, readPlain_eq_iff]
    constructor
    · exact .plain h
    · rintro (⟨hbracket, -⟩ | ⟨-, hlists⟩)
      · exact absurd hbracket (h _)
      · exact hlists

-- ============================================================ as written

/-- An entry as it is written: the path alone, or with its name. -/
inductive Entry : Json → InputPath → Prop
  | bare (path : InputPath) : Entry (.string path) path
  | record (path : InputPath) :
      Entry (.object [(pathMember, .string path)]) path

variable {v : Json}

theorem Entry.names (h : Entry v path) : Names v path := by
  cases h with
  | bare => exact .bare path
  | record =>
      show Names (.object ([] ++ (pathMember, .string path) :: [])) path
      exact .record path (by simp) (by simp)

theorem Entry.plain (h : Entry v path) (depth : Nat) :
    Plain (depth + 1) v := by
  cases h with
  | bare => exact .string path
  | record =>
      refine .object ?_
      simp only [List.forall_mem_singleton]
      exact .string path

/-- An entry whose path is a text is written as a text. -/
theorem Entry.isText {s : String} (h : Entry v (Utf8.encode s)) :
    Utf8.IsText (render v) := by
  have hquote := isText_quote s
  cases h with
  | bare => exact hquote
  | record =>
      have hname : Utf8.IsText (quote pathMember) := isText_quote "path"
      have hobject : render (.object [(pathMember, .string (Utf8.encode s))])
          = [0x7B] ++ quote pathMember ++ [0x3A] ++ quote (Utf8.encode s)
            ++ [0x7D] := by
        simp [render, renderMembers, commaSeparated]
      have hopen : Utf8.IsText [0x7B] := Utf8.isText_encode "\x7b"
      have hcolon : Utf8.IsText [0x3A] := Utf8.isText_encode ":"
      have hclose : Utf8.IsText [0x7D] := Utf8.isText_encode "\x7d"
      rw [hobject]
      exact Utf8.isText_append (Utf8.isText_append (Utf8.isText_append
        (Utf8.isText_append hopen hname) hcolon) hquote) hclose

/-- A list of written entries is a list of entries. -/
theorem listsJson_render {items : List Json} {paths : List InputPath}
    (h : List.Forall₂ Entry items paths) :
    ListsJson Numeral.Converts (render (.array items)) paths := by
  have hboth := h.imp fun v path hv =>
    And.intro (hv.plain (depthLimit - 2)) hv.names
  obtain ⟨hplain, hnames⟩ := (List.forall₂_and_left _ _).1 hboth
  have hbounded : Reader.Bounded depthLimit (.array items)
      (render (.array items) ++ []) [] :=
    Reader.bounded_render (.array hplain)
  rw [List.append_nil] at hbounded
  exact ⟨items, [], hbounded.1, .none, hbounded.2, hnames⟩

/-- Entries whose paths are texts can be written into a document. -/
theorem exists_document {items : List Json} {paths : List String}
    (h : List.Forall₂ (fun v s => Entry v (Utf8.encode s)) items paths) :
    ∃ others, Utf8.encodeChars ('[' :: others) = render (.array items) := by
  have htexts := h.imp fun v s hv => And.intro hv.isText trivial
  obtain ⟨htexts, -⟩ := (List.forall₂_and_left _ _).1 htexts
  have hitems : ∀ part ∈ renderItems items, Utf8.IsText part := by
    rw [renderItems_eq]
    exact List.forall_mem_map.2 htexts
  obtain ⟨s, hs⟩ := isText_commaSeparated hitems
  refine ⟨s.toList ++ [']'], ?_⟩
  have hclose : String.utf8EncodeChar ']' = [0x5D] := rfl
  rw [render, ← hs, encodeChars_cons_bracket]
  simp [Utf8.encode, Utf8.encodeChars, hclose]

open Binary64 (roundoff limit)

/-- **JSON change-sets are read exactly.** A document that begins like a list
is read just when it is a list of entries, and then its paths are theirs; if
it is not, nothing of it is read and the input is at fault. Numbers are taken
as they convert, which is as their size says up to one part in 2 ^ 50. And
however paths are written as entries, they are read back. -/
theorem json_read_exactly :
    (∀ {document : String} {others : List Char},
        Text.trimStartChars document.toList = '[' :: others →
      let text := Utf8.encodeChars ('[' :: others)
      (∀ paths, readChangeSet document = .ok paths
          ↔ ListsJson Numeral.Converts text paths)
        ∧ ((∀ paths, ¬ ListsJson Numeral.Converts text paths) →
            ∃ reason, readChangeSet document = .error (.input reason)))
    ∧ (∀ {n : Numeral} {text rest : Bytes}, Unsigned n text rest →
        (n.whole ++ n.fraction).length ≤ 2 ^ 30 →
      (n.magnitude ≤ (1 - 8 * roundoff) * limit → n.Converts)
        ∧ (n.Converts → n.magnitude < (1 + 8 * roundoff) * limit))
    ∧ ∀ {items : List Json} {paths : List String},
        List.Forall₂ (fun v s => Entry v (Utf8.encode s)) items paths →
      ∃ document, Utf8.encode document = Json.render (.array items)
        ∧ readChangeSet document = .ok (paths.map Utf8.encode) := by
  refine ⟨?_, fun hn hlength => converts_near hn.isDigit hlength, ?_⟩
  · intro document others h
    have hread := @readChangeSet_eq_ok document others h
    refine ⟨fun _ => hread, fun hnone => ?_⟩
    exact readChangeSet_eq_error fun paths hpaths =>
      hnone paths (hread.1 hpaths)
  · intro items paths h
    obtain ⟨others, hothers⟩ := exists_document h
    refine ⟨.ofList ('[' :: others), ?_, ?_⟩
    · rw [Utf8.encode, String.toList_ofList, hothers]
    · have hbracket : Text.trimStartChars (String.ofList ('[' :: others)).toList
          = '[' :: others := by
        rw [String.toList_ofList]
        rfl
      rw [readChangeSet_eq_ok hbracket, hothers]
      exact listsJson_render (List.forall₂_map_right_iff.2 h)

/-- A list with white space around it, in which a path stands twice, one is
written with escapes and there is more beside it; a list with a comma too many;
a number; and a list that is written, of a path alone and one with its
name. -/
theorem json_read_exactly_mixed :
    let document := "\u2003[\"a\", \x7b\"x\": [1e3, \x7b\x7d], " ++
      "\"pa\\u0074h\": \"\\ud83d\\ude00\"\x7d, \"a\"] \n"
    let text := Utf8.encodeChars ('[' :: document.toList.drop 2)
    let thousand : Numeral := ⟨false, [0x31], [], some (false, [0x33])⟩
    let items : List Json :=
      [.string (Utf8.encode "a"),
        .object [(pathMember, .string (Utf8.encode "é\n"))]]
    ListsJson Numeral.Converts text (["a", "😀", "a"].map Utf8.encode)
      ∧ (∃ reason, readChangeSet "[\"a\",]" = .error (.input reason))
      ∧ thousand.Converts
      ∧ ∃ written, Utf8.encode written = Json.render (.array items)
        ∧ readChangeSet written = .ok (["a", "é\n"].map Utf8.encode) := by
  intro document text thousand items
  obtain ⟨hread, hnumber, hwritten⟩ := json_read_exactly
  refine ⟨?_, ?_, ?_, ?_⟩
  · have hbracket : Text.trimStartChars document.toList
        = '[' :: document.toList.drop 2 := by
      decide
    have hok : readChangeSet document
        = .ok (["a", "😀", "a"].map Utf8.encode) := by
      decide +kernel
    exact ((hread hbracket).1 _).1 hok
  · have hbracket : Text.trimStartChars "[\"a\",]".toList
        = '[' :: "\"a\",]".toList := by
      decide
    have herror : readChangeSet "[\"a\",]" = .error (.input
        "invalid JSON change-set: trailing comma at line 1 column 6") := by
      decide +kernel
    refine (hread hbracket).2 fun paths hpaths => ?_
    have hok := ((hread hbracket).1 paths).2 hpaths
    rw [herror] at hok
    cases hok
  · have hunsigned : Unsigned thousand [0x31, 0x65, 0x33] [] :=
      .mk ⟨⟨by decide, by decide +kernel⟩, by decide⟩ .absent
        (.bare (.inl rfl) ⟨by decide, by decide +kernel⟩)
    have hmagnitude : thousand.magnitude = 1000 := by
      have hdigits : Reader.digitsValue
          (thousand.whole ++ thousand.fraction) = 1 := by
        decide
      have hpower : thousand.power - thousand.fraction.length = (3 : Nat) := by
        decide
      rw [Numeral.magnitude, hdigits, hpower, zpow_natCast]
      norm_num
    have hlimit : (2 : ℚ) ^ 11 ≤ limit :=
      pow_le_pow_right₀ (by norm_num) (by norm_num)
    refine (hnumber hunsigned (by decide)).1 ?_
    rw [hmagnitude, roundoff]
    linarith
  · have hentries : List.Forall₂ (fun v s => Entry v (Utf8.encode s)) items
        ["a", "é\n"] :=
      .cons (.bare _) (.cons (.record _) .nil)
    exact hwritten hentries

/-- The limit of the format is not met to the last digit: here is a number
below the largest one that is refused. -/
theorem json_range_not_exact :
    let document := "[\x7b\"path\":\"a\",\"n\":1797693134862315650e290\x7d]"
    Text.trimStartChars document.toList = '[' :: document.toList.drop 1
      ∧ ListsJson Numeral.InRange
        (Utf8.encodeChars ('[' :: document.toList.drop 1)) [Utf8.encode "a"]
      ∧ readChangeSet document = .error (.input
        "invalid JSON change-set: number out of range at line 1 column 40") := by
  intro document
  refine ⟨by decide, ?_, by decide +kernel⟩
  let whole := Utf8.encode "1797693134862315650"
  let power := Utf8.encode "290"
  let n : Numeral := ⟨false, whole, [], some (false, power)⟩
  have htext : Utf8.encodeChars ('[' :: document.toList.drop 1)
      = 0x5B :: 0x7B :: 0x22 :: (pathMember ++ 0x22 :: 0x3A :: 0x22 ::
          (Utf8.encode "a" ++ 0x22 :: 0x2C :: 0x22 ::
            (Utf8.encode "n" ++ 0x22 :: 0x3A ::
              (whole ++ ([] ++ ((0x65 :: power) ++ [0x7D, 0x5D])))))) := by
    decide +kernel
  have hnumber : Value (.number n)
      (whole ++ ([] ++ ((0x65 :: power) ++ [0x7D, 0x5D]))) [0x7D, 0x5D] :=
    .positive rfl (.mk ⟨⟨by decide, by decide +kernel⟩, by decide⟩ .absent
      (.bare (.inl rfl) ⟨by decide, by decide +kernel⟩))
  have hrange : n.InRange := by
    have hdigits : Reader.digitsValue (n.whole ++ n.fraction)
        = 1797693134862315650 := by
      decide +kernel
    have hpower : n.power - n.fraction.length = (290 : Nat) := by
      decide +kernel
    have hle : 1797693134862315650 * 10 ^ 290 ≤ (2 ^ 53 - 1) * 2 ^ 971 := by
      decide +kernel
    rw [Numeral.InRange, Numeral.magnitude, hdigits, hpower, zpow_natCast]
    exact_mod_cast hle
  rw [htext]
  refine ⟨[.object [(pathMember, .string (Utf8.encode "a")),
    (Utf8.encode "n", .number n)]], [], ?_, .none, ?_, ?_⟩
  · have hpath (rest : Bytes) : Member Value
        (pathMember, .string (Utf8.encode "a")) (0x22 :: (pathMember ++
          0x22 :: 0x3A :: 0x22 :: (Utf8.encode "a" ++ 0x22 :: rest))) rest :=
      .mk (chars_plain (by decide +kernel)) .none .none
        (.string (chars_plain (by decide +kernel)))
    have hname (rest : Bytes) : Chars (Utf8.encode "n")
        (Utf8.encode "n" ++ 0x22 :: rest) rest :=
      chars_plain (by decide +kernel)
    have hother := Member.mk (hname _) .none .none hnumber
    exact .array (.some .none (.object (.some .none (hpath _)
      (.next .none .none hother (.close .none)))) (.close .none))
  · refine .array ?_
    simp only [List.forall_mem_singleton]
    refine .object ?_
    simp only [List.forall_mem_cons, List.not_mem_nil, false_imp_iff,
      implies_true, and_true]
    exact ⟨.string _, .number hrange⟩
  · refine .cons ?_ .nil
    show Names (.object ([] ++ (pathMember, .string (Utf8.encode "a"))
      :: [(Utf8.encode "n", .number n)])) _
    exact .record _ (by simp) (by decide)

end Toolrun.ChangeSet
