/-
A plain change-set names just the paths that it was laid out with.

A layout is a plain document in the making: lines that name a path, are blank
or are a remark, with white space wherever it does not matter. Its parts carry
what is asked of them, so a layout can say no path but a plain one. Whatever is
laid out is read back (`readPlain_text`), and there is no document that could
not be the text of some layout (`exists_layout`), so that nothing else is ever
read.
-/
import Toolrun.Proofs.Blank
import Toolrun.Proofs.ChangeSet

namespace Toolrun.ChangeSet

-- ================================================================ layouts

/-- White space that stands within a line. -/
structure Padding where
  chars : List Char
  allBlank : Text.AllBlank chars
  oneLine : '\n' ∉ chars

/-- No white space at all. -/
def Padding.none : Padding := ⟨[], List.forall_mem_nil _, List.not_mem_nil⟩

/-- A path that can stand on a line of its own: it has no white space around
it, and is not taken for a blank line, for two lines, or for a remark. -/
structure PlainPath where
  chars : List Char
  nonempty : chars ≠ []
  trimmed : Text.IsTrimmed chars
  oneLine : '\n' ∉ chars
  noRemark : chars.head? ≠ some '#'

/-- A path as it is handed to a tool. -/
def PlainPath.bytes (p : PlainPath) : InputPath := Utf8.encodeChars p.chars

/-- A line of a plain document. -/
inductive Line where
  | naming (before : Padding) (path : PlainPath) (behind : Padding)
  | blank (space : Padding)
  | remark (before : Padding) (text : List Char) (oneLine : '\n' ∉ text)

namespace Line

def chars : Line → List Char
  | naming before path behind => before.chars ++ path.chars ++ behind.chars
  | blank space => space.chars
  | remark before text _ => before.chars ++ '#' :: text

/-- The path that a line names, if it names one. -/
def path? : Line → Option PlainPath
  | naming _ path _ => some path
  | blank _ => none
  | remark _ _ _ => none

end Line

/-- The end of a line: a line feed, or a carriage return and a line feed. -/
inductive LineEnd where
  | feed
  | returnFeed

/-- What stands before the line feed of a line end. -/
def LineEnd.front : LineEnd → List Char
  | feed => []
  | returnFeed => ['\r']

/-- A plain document as it is laid out: its lines with their ends, and a line
without an end behind them. If the last line has an end then the line behind
it is blank, with no space in it. -/
structure Layout where
  lines : List (Line × LineEnd)
  last : Line := .blank .none

namespace Layout

/-- The text of a document. -/
def text (l : Layout) : List Char :=
  l.lines.flatMap (fun e => e.1.chars ++ e.2.front ++ ['\n']) ++ l.last.chars

/-- The paths that a document is to name. -/
def paths (l : Layout) : List PlainPath :=
  l.lines.filterMap (·.1.path?) ++ l.last.path?.toList

end Layout

-- ================================================================ reading

theorem LineEnd.allBlank_front (e : LineEnd) : Text.AllBlank e.front := by
  cases e with
  | feed => exact List.forall_mem_nil _
  | returnFeed => exact List.forall_mem_singleton.2 rfl

theorem LineEnd.oneLine_front (e : LineEnd) : '\n' ∉ e.front := by
  cases e <;> decide

theorem Line.oneLine (line : Line) : '\n' ∉ line.chars := by
  cases line with
  | naming before path behind =>
      simp [chars, before.oneLine, path.oneLine, behind.oneLine]
  | blank space => exact space.oneLine
  | remark before text h => simp [chars, before.oneLine, h]

/-- A line names the path that it was made with, whatever white space its end
begins with. -/
theorem lineName?_chars (line : Line) {behind : List Char}
    (hbehind : Text.AllBlank behind) :
    lineName? (line.chars ++ behind) = line.path?.map PlainPath.bytes := by
  rw [lineName?_eq]
  cases line with
  | naming before path after =>
      have htrim : Text.trimChars
          (before.chars ++ path.chars ++ (after.chars ++ behind))
          = path.chars :=
        Text.trimChars_padded before.allBlank path.trimmed
          (after.allBlank.append hbehind)
      have hnames : namesPath path.chars = true := by
        obtain ⟨c, name, hname⟩ := List.exists_cons_of_ne_nil path.nonempty
        have hne := path.noRemark
        rw [hname] at hne ⊢
        simpa [namesPath] using hne
      rw [Line.chars, List.append_assoc, htrim, if_pos hnames]
      rfl
  | blank space =>
      have htrim : Text.trimChars (space.chars ++ [] ++ behind) = [] :=
        Text.trimChars_padded space.allBlank ⟨by simp, by simp⟩ hbehind
      rw [List.append_nil] at htrim
      rw [Line.chars, htrim]
      rfl
  | remark before text _ =>
      obtain ⟨name, htrim⟩ : ∃ name, Text.trimChars
          (before.chars ++ '#' :: text ++ behind) = '#' :: name := by
        rw [List.append_assoc]
        exact Text.exists_trimChars_eq_cons before.allBlank rfl _
      rw [Line.chars, htrim]
      rfl

theorem readPlain_line {line rest : List Char} (hline : '\n' ∉ line) :
    readPlain (line ++ '\n' :: rest)
      = (lineName? line).toList ++ readPlain rest := by
  rw [readPlain_eq, readPlain_eq, piecesOf_append, piecesOf_of_not_mem hline,
    List.filterMap_append]
  cases hname : lineName? line <;> simp [hname]

/-- Whatever is laid out is read back. -/
theorem readPlain_text (l : Layout) :
    readPlain l.text = l.paths.map PlainPath.bytes := by
  obtain ⟨lines, last⟩ := l
  induction lines with
  | nil =>
      have hname : lineName? last.chars = last.path?.map PlainPath.bytes := by
        have hname := lineName?_chars last (List.forall_mem_nil _)
        rwa [List.append_nil] at hname
      show readPlain last.chars = last.path?.toList.map PlainPath.bytes
      rw [readPlain_eq, piecesOf_of_not_mem last.oneLine]
      cases hpath : last.path? <;> simp [hname, hpath]
  | cons first lines ih =>
      obtain ⟨line, lineEnd⟩ := first
      have hline : '\n' ∉ line.chars ++ lineEnd.front := by
        simp [line.oneLine, lineEnd.oneLine_front]
      have htext : Layout.text ⟨(line, lineEnd) :: lines, last⟩
          = (line.chars ++ lineEnd.front)
            ++ '\n' :: Layout.text ⟨lines, last⟩ := by
        simp [Layout.text]
      rw [htext, readPlain_line hline, ih,
        lineName?_chars line lineEnd.allBlank_front]
      cases hpath : line.path? <;> simp [Layout.paths, hpath]

-- ============================================================== documents

/-- Any characters on one line are a line. -/
theorem exists_line {cs : List Char} (h : '\n' ∉ cs) :
    ∃ line : Line, line.chars = cs := by
  obtain ⟨before, behind, hcs, hbefore, hbehind⟩ := Text.exists_padding cs
  have htrimmed := Text.isTrimmed_trimChars cs
  rw [hcs, List.mem_append, List.mem_append, not_or, not_or] at h
  obtain ⟨⟨hfront, hname⟩, hback⟩ := h
  generalize Text.trimChars cs = name at *
  subst hcs
  cases name with
  | nil => 
      refine ⟨.blank ⟨before ++ behind, hbefore.append hbehind, ?_⟩, ?_⟩
      · simp [hfront, hback]
      · simp [Line.chars]
  | cons c name =>
      by_cases hc : c = '#'
      · subst hc
        refine ⟨.remark ⟨before, hbefore, hfront⟩ (name ++ behind) ?_, ?_⟩
        · simp_all
        · simp [Line.chars]
      · exact ⟨.naming ⟨before, hbefore, hfront⟩
          ⟨c :: name, List.cons_ne_nil c name, htrimmed, hname,
            fun hsome => hc (Option.some.inj hsome)⟩
          ⟨behind, hbehind, hback⟩, rfl⟩

/-- Every text is the text of some layout. -/
theorem exists_layout (text : List Char) : ∃ l : Layout, l.text = text := by
  have hpieces : ∀ piece ∈ piecesOf '\n' text, '\n' ∉ piece := fun _ =>
    not_mem_of_mem_piecesOf
  rw [← @intercalate_piecesOf _ _ '\n' _ text]
  generalize piecesOf '\n' text = pieces at hpieces
  induction pieces with
  | nil => exact ⟨⟨[], .blank .none⟩, rfl⟩
  | cons first others ih =>
      obtain ⟨hfirst, hothers⟩ := List.forall_mem_cons.1 hpieces
      obtain ⟨line, hline⟩ := exists_line hfirst
      cases others with
      | nil => exact ⟨⟨[], line⟩, by simp [Layout.text, hline]⟩
      | cons second others =>
          obtain ⟨⟨lines, last⟩, hlast⟩ := ih hothers
          refine ⟨⟨(line, .feed) :: lines, last⟩, ?_⟩
          rw [List.intercalate_cons_cons, ← hlast]
          simp [Layout.text, LineEnd.front, hline]

/-- A JSON list of paths and nothing else, however it is written. -/
def SpellsList (document : String) (paths : List InputPath) : Prop :=
  ∃ others rest, Text.trimStartChars document.toList = '[' :: others
    ∧ Json.Value (.array (paths.map .string))
        (Utf8.encodeChars ('[' :: others)) rest
    ∧ Json.Space rest []

theorem readChangeSet_spelled {document : String} {paths : List InputPath}
    (h : SpellsList document paths) : readChangeSet document = .ok paths := by
  obtain ⟨others, rest, hbracket, hvalue, hend⟩ := h
  have hwithin : Json.Within Json.Numeral.Converts Json.depthLimit
      (.array (paths.map .string)) :=
    .array (List.forall_mem_map.2 fun path _ => .string path)
  have hnames : List.Forall₂ Names (paths.map .string) paths :=
    List.forall₂_map_left_iff.2 (List.forall₂_same.2 fun path _ => .bare path)
  exact (readChangeSet_eq_ok hbracket).2
    ⟨_, rest, hvalue, hend, hwithin, hnames⟩

/-- Plain paths can be written as a JSON list. -/
theorem exists_spelled (paths : List PlainPath) :
    ∃ json, Utf8.encode json
        = Json.render (.array (paths.map fun p => .string p.bytes))
      ∧ SpellsList json (paths.map PlainPath.bytes) := by
  have hentries : List.Forall₂ (fun v s => Entry v (Utf8.encode s))
      (paths.map fun p => Json.string p.bytes)
      (paths.map fun p => String.ofList p.chars) := by
    rw [List.forall₂_map_left_iff, List.forall₂_map_right_iff,
      List.forall₂_same]
    intro p _
    rw [Utf8.encode, String.toList_ofList]
    exact .bare p.bytes
  obtain ⟨others, hothers⟩ := exists_document hentries
  have hplain : Json.Plain Json.depthLimit
      (.array (paths.map fun p => .string p.bytes)) :=
    .array (List.forall_mem_map.2 fun p _ => .string p.bytes)
  have hbounded := @Json.Reader.bounded_render [] _ _ hplain
  rw [List.append_nil] at hbounded
  refine ⟨.ofList ('[' :: others), ?_, others, [], ?_, ?_, .none⟩
  · rw [Utf8.encode, String.toList_ofList, hothers]
  · rw [String.toList_ofList]
    exact Text.trimStartChars_eq_self (by simp; rfl)
  · rw [hothers, List.map_map]
    exact hbounded.1

/-- **Plain change-sets are read exactly.** A document that does not begin
like a list is always read, and what is read are the plain paths of some lines
of which it is made. And of whatever lines it is made, their paths are what is
read, in order; the same is read of the JSON list of these paths. -/
theorem plain_read_exactly {document : String}
    (hplain : ∀ others, Text.trimStartChars document.toList ≠ '[' :: others) :
    (∃ l : Layout, l.text = document.toList
        ∧ readChangeSet document = .ok (l.paths.map PlainPath.bytes))
      ∧ ∀ l : Layout, l.text = document.toList →
        readChangeSet document = .ok (l.paths.map PlainPath.bytes)
          ∧ (∃ json, Utf8.encode json
              = Json.render (.array (l.paths.map fun p => .string p.bytes))
            ∧ SpellsList json (l.paths.map PlainPath.bytes))
          ∧ ∀ json, SpellsList json (l.paths.map PlainPath.bytes) →
            readChangeSet json = readChangeSet document := by
  have hread (l : Layout) (htext : l.text = document.toList) :
      readChangeSet document = .ok (l.paths.map PlainPath.bytes) := by
    rw [readChangeSet_eq_ok_iff, ← readPlain_text, htext]
    exact .plain hplain (readPlain_eq_iff.1 rfl)
  obtain ⟨l, hl⟩ := exists_layout document.toList
  refine ⟨⟨l, hl, hread l hl⟩, fun l htext => ?_⟩
  refine ⟨hread l htext, exists_spelled l.paths, fun json hjson => ?_⟩
  rw [readChangeSet_spelled hjson, hread l htext]

/-- A path with a carriage return in it, which is named twice: in a line with
other white space around it that ends in a carriage return as well, and in a
last line without an end. Between them are a blank line and a remark that has
a bracket in it. -/
theorem plain_read_exactly_returns :
    let document := "\u2003a\rb\u0085 \r\n\x0c\n\t#[\r\na\rb"
    ∃ l : Layout, l.text = document.toList
      ∧ readChangeSet document = .ok (["a\rb", "a\rb"].map Utf8.encode)
      ∧ ∃ json, Utf8.encode json
          = Json.render (.array (["a\rb", "a\rb"].map fun s =>
            .string (Utf8.encode s)))
        ∧ readChangeSet json = readChangeSet document := by
  intro document
  let name : PlainPath :=
    ⟨['a', '\r', 'b'], by decide, ⟨by simp; rfl, by simp; rfl⟩, by decide,
      by decide⟩
  let l : Layout :=
    { lines :=
        [(.naming ⟨['\u2003'], by decide, by decide⟩ name
            ⟨['\u0085', ' '], by decide, by decide⟩, .returnFeed),
          (.blank ⟨['\x0c'], by decide, by decide⟩, .feed),
          (.remark ⟨['\t'], by decide, by decide⟩ ['['] (by decide),
            .returnFeed)]
      last := .naming .none name .none }
  have hplain : ∀ others,
      Text.trimStartChars document.toList ≠ '[' :: others := by
    have hstart : Text.trimStartChars document.toList
        = 'a' :: document.toList.drop 2 := by
      decide
    simp [hstart]
  have htext : l.text = document.toList := by decide
  obtain ⟨-, hread⟩ := plain_read_exactly hplain
  obtain ⟨hpaths, ⟨json, hwritten, hspells⟩, hsame⟩ := hread l htext
  exact ⟨l, htext, hpaths, json, hwritten, hsame json hspells⟩

end Toolrun.ChangeSet
