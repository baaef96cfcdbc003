/-
Where an option stands does not matter. What a command line says is, for each
option, which values it is given and in which order, and which paths there are
and in which order (`valuesOf`, `pathsOf`); the request is made of that alone
(`lineOf`).

Reading goes word by word, and an option may be complete only with the next
word and is checked later still. So what is followed here is not how far the
reading is but what it comes to once everything is checked (`Tells`): one item
more is one item more in what has been said (`Tells.option`, `Tells.path`),
and from this it follows for any items behind `run` (`readRun_items`) and for
a configuration file in front of it (`readFrom_items`).
-/
import Toolrun.Proofs.CommandLine.Reader
import Toolrun.Proofs.Numeral
import Toolrun.Proofs.Utf8

namespace Toolrun.CommandLine

open Fallible (bind_eq_ok bind_ok_eq_ok)

-- ================================================================= values

/-- The name of a format. -/
def formatName : Format → String
  | .text => "text"
  | .json => "json"

/-- The number that a value is. -/
def number? (value : Bytes) : Option UInt64 :=
  (Utf8.decode? value).bind fun s => (Numeral.read s).toOption

/-- The format that a value names. -/
def format? (value : Bytes) : Option Format :=
  [Format.text, .json].find? fun f => Utf8.encode (formatName f) = value

/-- Which values an option can have. -/
def Opt.Accepts : Opt → Bytes → Prop
  | .config, value => value ≠ []
  | .timeoutMs, value | .captureBytes, value => (number? value).isSome
  | .format, value => (format? value).isSome
  | _, value => (Utf8.decode? value).isSome

-- ================================================================== items

/-- Where the value of an option stands: in the same word, or in the next. -/
inductive Form where
  | attached
  | apart
  deriving DecidableEq, Repr

/-- What can stand behind `run`: an option with its value, or a path. -/
inductive Item where
  | option (opt : Opt) (form : Form) (value : Bytes)
  | path (path : Bytes)
  deriving DecidableEq, Repr

namespace Item

/-- The words of an item. -/
def words : Item → List Bytes
  | option opt .attached value => [opt.wordWith value]
  | option opt .apart value => [opt.word, value]
  | path word => [word]

/-- The value that an item gives an option. -/
def valueOf? (opt : Opt) : Item → Option Bytes
  | option other _ value => if other = opt then some value else none
  | path _ => none

/-- The path that an item is. -/
def path? : Item → Option Bytes
  | option _ _ _ => none
  | path word => some word

/-- An item that can be read: an option with a value that it can have, which
looks like no option where it is a word of its own, or a path that does not
either and is not empty. -/
inductive Valid : Item → Prop
  | attached {opt : Opt} {value : Bytes} (h : opt.Accepts value) :
      Valid (option opt .attached value)
  | apart {opt : Opt} {value : Bytes} (h : opt.Accepts value)
      (hbare : Bare value) : Valid (option opt .apart value)
  | path {path : Bytes} (h : path ≠ []) (hbare : Bare path) :
      Valid (.path path)

end Item

/-- The values that some items give an option, in their order. -/
def valuesOf (opt : Opt) (items : List Item) : List Bytes :=
  items.filterMap (Item.valueOf? opt)

/-- The paths among some items, in their order. -/
def pathsOf (items : List Item) : List Bytes := items.filterMap Item.path?

/-- The text that some items give an option. -/
def text? (opt : Opt) (items : List Item) : Option String :=
  (valuesOf opt items).head?.bind Utf8.decode?

/-- The request that some items make. -/
def requestOf (items : List Item) : RunRequest where
  tool := text? .tool items
  language := text? .language items
  filesFrom := text? .filesFrom items
  timeoutMs := (valuesOf .timeoutMs items).head?.bind number?
  captureBytes := (valuesOf .captureBytes items).head?.bind number?
  workingDir := text? .cwd items
  env := (valuesOf .env items).filterMap Utf8.decode?
  format := ((valuesOf .format items).head?.bind format?).getD .text
  files := pathsOf items

/-- What some items say as a command line that asks for a run. -/
def lineOf (items : List Item) : CommandLine where
  configPath := (valuesOf .config items).head?
  command := .run (requestOf items)

/-- Items that can be read together: only `--env` is given more than once. -/
structure Readable (items : List Item) : Prop where
  valid : ∀ item ∈ items, item.Valid
  once : ∀ opt ≠ .env, (valuesOf opt items).length ≤ 1

variable {items others : List Item} {opt : Opt} {form : Form}
  {value word : Bytes}

theorem valuesOf_append (opt : Opt) (items others : List Item) :
    valuesOf opt (items ++ others)
      = valuesOf opt items ++ valuesOf opt others :=
  List.filterMap_append

theorem pathsOf_append (items others : List Item) :
    pathsOf (items ++ others) = pathsOf items ++ pathsOf others :=
  List.filterMap_append

theorem valuesOf_option (opt other : Opt) (form : Form) (value : Bytes) :
    valuesOf other [.option opt form value]
      = if opt = other then [value] else [] := by
  unfold valuesOf
  rw [List.filterMap_cons, List.filterMap_nil]
  unfold Item.valueOf?
  split <;> split <;> simp_all

theorem valuesOf_append_option (other : Opt) :
    valuesOf other (items ++ [.option opt form value])
      = valuesOf other items ++ if opt = other then [value] else [] := by
  rw [valuesOf_append, valuesOf_option]

theorem pathsOf_append_option :
    pathsOf (items ++ [.option opt form value]) = pathsOf items := by
  rw [pathsOf_append]
  exact List.append_nil _

/-- What is said is made of the values and the paths alone. -/
theorem lineOf_congr
    (hvalues : ∀ opt, valuesOf opt items = valuesOf opt others)
    (hpaths : pathsOf items = pathsOf others) :
    lineOf items = lineOf others := by
  unfold lineOf requestOf text?
  simp only [hvalues, hpaths]

theorem Readable.left (h : Readable (items ++ others)) : Readable items where
  valid item hitem := h.valid item (List.mem_append_left others hitem)
  once opt hopt := by
    have := h.once opt hopt
    rw [valuesOf_append, List.length_append] at this
    omega

theorem Readable.right (h : Readable (items ++ others)) :
    Readable others where
  valid item hitem := h.valid item (List.mem_append_right items hitem)
  once opt hopt := by
    have := h.once opt hopt
    rw [valuesOf_append, List.length_append] at this
    omega

namespace Progress

variable {p q : Progress}

-- ================================================================ storing

/-- What has been read says just what some items say. -/
structure Says (q : Progress) (items : List Item) : Prop where
  pending : q.pending = .nothing
  request : q.request = requestOf items
  configPath : q.configPath = (valuesOf .config items).head?
  given : ∀ opt ∈ q.given, valuesOf opt items ≠ []

/-- What has been read says just what some items say once everything is
checked. -/
def Tells (p : Progress) (items : List Item) : Prop :=
  ∃ q, p.settle = .ok q ∧ q.Says items

theorem Says.tells (h : q.Says items) : q.Tells items :=
  ⟨q, settle_of_nothing h.pending, h⟩

theorem says_nothing : Says {} [] := ⟨rfl, rfl, rfl, nofun⟩

theorem textValue_eq_ok {s : String} :
    textValue value = .ok s ↔ Utf8.decode? value = some s := by
  unfold textValue
  cases Utf8.decode? value <;> simp

theorem numberValue_eq_ok {n : UInt64} :
    numberValue value = .ok n ↔ number? value = some n := by
  unfold numberValue number?
  rw [bind_eq_ok, Option.bind_eq_some_iff]
  refine exists_congr fun s => and_congr textValue_eq_ok ?_
  cases Numeral.read s <;> simp [Except.toOption]

theorem formatValue_eq_ok {f : Format} :
    formatValue value = .ok f ↔ format? value = some f := by
  unfold formatValue format?
  constructor
  · intro h
    split at h
    next hvalue =>
      cases h
      rw [hvalue]
      decide
    next =>
      split at h
      next hvalue =>
        cases h
        rw [hvalue]
        decide
      next => cases h
  · intro h
    have hname := List.find?_some h
    rw [decide_eq_true_iff] at hname
    subst hname
    cases f <;> decide

/-- A value that an option can have is stored as what it says. -/
theorem store_says (h : q.Says items) (haccepts : opt.Accepts value)
    (hnew : opt ≠ .env → valuesOf opt items = []) (form : Form) :
    ∃ q', store { q with given := opt :: q.given } opt value = .ok q'
      ∧ q'.Says (items ++ [.option opt form value]) := by
  have hgiven : ∀ o ∈ opt :: q.given,
      valuesOf o (items ++ [.option opt form value]) ≠ [] := by
    intro o ho
    rw [valuesOf_append_option]
    rcases List.mem_cons.1 ho with rfl | ho
    · simp
    · exact fun hnil => h.given o ho (List.append_eq_nil_iff.1 hnil).1
  have hconfig (hopt : opt ≠ .config) :
      q.configPath
        = (valuesOf .config (items ++ [.option opt form value])).head? := by
    rw [valuesOf_append_option, if_neg hopt, List.append_nil]
    exact h.configPath
  -- in each case one field has the value, and the others are what they were
  cases opt with
  | config =>
      have hnone := hnew (by decide)
      have hvalue : pathValue value = .ok value :=
        if_neg (mt List.isEmpty_iff.1 haccepts)
      refine ⟨_, bind_ok_eq_ok.2 ⟨value, hvalue, rfl⟩, h.pending, ?_, ?_,
        hgiven⟩
      · rw [h.request]
        simp [requestOf, text?, valuesOf_append_option,
          pathsOf_append_option]
      · simp [valuesOf_append_option, hnone]
  | tool | language | filesFrom | cwd =>
      have hnone := hnew (by decide)
      obtain ⟨s, hs⟩ := Option.isSome_iff_exists.1 haccepts
      refine ⟨_, bind_ok_eq_ok.2 ⟨s, textValue_eq_ok.2 hs, rfl⟩,
        h.pending, ?_, hconfig (by decide), hgiven⟩
      rw [h.request]
      simp [requestOf, text?, valuesOf_append_option, pathsOf_append_option,
        hnone, hs]
  | env =>
      obtain ⟨s, hs⟩ := Option.isSome_iff_exists.1 haccepts
      refine ⟨_, bind_ok_eq_ok.2 ⟨s, textValue_eq_ok.2 hs, rfl⟩,
        h.pending, ?_, hconfig (by decide), hgiven⟩
      rw [h.request]
      simp [requestOf, text?, valuesOf_append_option, pathsOf_append_option,
        hs]
  | timeoutMs | captureBytes =>
      have hnone := hnew (by decide)
      obtain ⟨n, hn⟩ := Option.isSome_iff_exists.1 haccepts
      refine ⟨_, bind_ok_eq_ok.2 ⟨n, numberValue_eq_ok.2 hn, rfl⟩,
        h.pending, ?_, hconfig (by decide), hgiven⟩
      rw [h.request]
      simp [requestOf, text?, valuesOf_append_option, pathsOf_append_option,
        hnone, hn]
  | format =>
      have hnone := hnew (by decide)
      obtain ⟨f, hf⟩ := Option.isSome_iff_exists.1 haccepts
      refine ⟨_, bind_ok_eq_ok.2 ⟨f, formatValue_eq_ok.2 hf, rfl⟩,
        h.pending, ?_, hconfig (by decide), hgiven⟩
      rw [h.request]
      simp [requestOf, text?, valuesOf_append_option, pathsOf_append_option,
        hnone, hf]

theorem take_says (h : q.Says items) (haccepts : opt.Accepts value)
    (hnew : opt ≠ .env → valuesOf opt items = []) (form : Form) :
    ∃ q', q.take opt (some value) = .ok q'
      ∧ q'.Says (items ++ [.option opt form value]) := by
  have hfresh : (opt ≠ .env && q.given.contains opt) = false := by
    rw [Bool.and_eq_false_iff, decide_eq_false_iff_not, not_not]
    by_cases henv : opt = .env
    · exact .inl henv
    · refine .inr (Bool.eq_false_iff.2 fun hgiven => ?_)
      exact h.given opt (List.contains_iff_mem.1 hgiven) (hnew henv)
  unfold take
  simp only [hfresh]
  exact store_says h haccepts hnew form

-- ================================================================ reading

/-- An option with its value in the same word is taken at once. -/
theorem Tells.attached (h : p.Tells items) (haccepts : opt.Accepts value)
    (hnew : opt ≠ .env → valuesOf opt items = []) :
    ∃ p', p.begin opt (some value) = .ok p'
      ∧ p'.Tells (items ++ [.option opt .attached value]) := by
  obtain ⟨q, hsettle, hq⟩ := h
  obtain ⟨q', htake, hq'⟩ := take_says hq haccepts hnew .attached
  refine ⟨q', ?_, hq'.tells⟩
  unfold begin
  rw [hsettle]
  exact htake

/-- An option without its value waits for it, and has it when it is
checked. -/
theorem Tells.apart (h : p.Tells items) (haccepts : opt.Accepts value)
    (hnew : opt ≠ .env → valuesOf opt items = []) :
    ∃ p', p.begin opt none = .ok p' ∧ p'.pending = .option opt none
      ∧ Tells { p' with pending := .option opt (some value) }
          (items ++ [.option opt .apart value]) := by
  obtain ⟨q, hsettle, hq⟩ := h
  obtain ⟨q', htake, hq'⟩ := take_says hq haccepts hnew .apart
  refine ⟨{ q with pending := .option opt none }, ?_, rfl, q', ?_, hq'⟩
  · unfold begin
    rw [hsettle]
    rfl
  · rw [← htake]
    have hpending := hq.pending
    cases q
    cases hpending
    rfl

theorem Tells.path (h : p.Tells items) (hword : word ≠ []) :
    ∃ p', p.addFile word = .ok p' ∧ p'.Tells (items ++ [.path word]) := by
  obtain ⟨q, hsettle, hq⟩ := h
  obtain ⟨p', hadd, hsettle'⟩ := addFile_of_settle hsettle hword
  have hvalues (o : Opt) : valuesOf o [Item.path word] = [] := rfl
  have hpaths : pathsOf [Item.path word] = [word] := rfl
  refine ⟨p', hadd, _, hsettle', hq.pending, ?_, ?_, ?_⟩
  · unfold withFiles
    rw [hq.request]
    simp [requestOf, text?, valuesOf_append, pathsOf_append, hvalues, hpaths]
  · rw [valuesOf_append, hvalues, List.append_nil]
    exact hq.configPath
  · intro o ho
    rw [valuesOf_append, hvalues, List.append_nil]
    exact hq.given o ho

theorem Tells.ne_waiting (h : p.Tells items) (opt : Opt) :
    p.pending ≠ .option opt none := by
  obtain ⟨q, hsettle, -⟩ := h
  exact pending_ne_of_settle hsettle opt

end Progress

open Progress (Tells)

variable {p : Progress} {item : Item}

/-- An option that may be given once more has not been given before. -/
theorem Readable.new (h : Readable (items ++ .option opt form value :: others))
    (hopt : opt ≠ .env) : valuesOf opt items = [] := by
  have hlength := h.once opt hopt
  rw [valuesOf_append, ← List.singleton_append, valuesOf_append,
    valuesOf_option, if_pos rfl, List.length_append, List.length_append,
    List.length_singleton] at hlength
  exact List.eq_nil_of_length_eq_zero (by omega)

/-- One item behind `run`. -/
theorem readRun_item (h : p.Tells items)
    (hreadable : Readable (items ++ item :: others)) :
    ∃ p', p'.Tells (items ++ [item])
      ∧ ∀ rest, readRun p (item.words ++ rest) = readRun p' rest := by
  have hvalid := hreadable.valid item (by simp)
  cases hvalid with
  | @attached opt value haccepts =>
      obtain ⟨p', hbegin, htells⟩ := h.attached haccepts hreadable.new
      refine ⟨p', htells, fun rest => ?_⟩
      show readRun p (opt.wordWith value :: rest) = _
      rw [readRun, Word.of_wordWith]
      simp only [named?_name, hbegin]
      rfl
  | @apart opt value haccepts hbare =>
      obtain ⟨p', hbegin, hpending, htells⟩ := h.apart haccepts hreadable.new
      refine ⟨_, htells, fun rest => ?_⟩
      show readRun p (opt.word :: value :: rest) = _
      rw [readRun, Word.of_word]
      simp only [named?_name, hbegin]
      show readRun p' (value :: rest) = _
      rw [readRun, Word.of_bare hbare]
      simp only [hpending]
  | @path word hword hbare =>
      obtain ⟨p', hadd, htells⟩ := h.path hword
      refine ⟨p', htells, fun rest => ?_⟩
      show readRun p (word :: rest) = _
      rw [readRun, Word.of_bare hbare]
      simp only []
      split
      next opt hpending => exact absurd hpending (h.ne_waiting opt)
      next =>
        rw [hadd]
        rfl

/-- Items behind `run`, one after the other. -/
theorem readRun_items (h : p.Tells items)
    (hreadable : Readable (items ++ others)) :
    ∃ p' : Progress, p'.Tells (items ++ others)
      ∧ ∀ rest, readRun p (others.flatMap Item.words ++ rest)
          = readRun p' rest := by
  induction others generalizing p items with
  | nil => exact ⟨p, by rwa [List.append_nil], fun rest => rfl⟩
  | cons item others ih =>
      obtain ⟨p', htells, hitem⟩ := readRun_item h hreadable
      rw [List.append_cons] at hreadable ⊢
      obtain ⟨p'', htells', hrest⟩ := ih htells hreadable
      refine ⟨p'', htells', fun rest => ?_⟩
      rw [List.flatMap_cons, List.append_assoc, hitem, hrest]

/-- The word that asks for a run. -/
def runWord : Bytes := Utf8.encode "run"

/-- An option that names the configuration file. -/
def Item.IsConfig (item : Item) : Prop :=
  ∃ form value, item = .option .config form value

/-- One item in front of `run`, where only the configuration file can be
named. -/
theorem readFrom_item (h : p.Tells items) (hconfig : item.IsConfig)
    (hreadable : Readable (items ++ item :: others)) :
    ∃ p', p'.Tells (items ++ [item])
      ∧ ∀ rest, readFrom p (item.words ++ rest) = readFrom p' rest := by
  obtain ⟨form, value, rfl⟩ := hconfig
  have hvalid := hreadable.valid (.option .config form value) (by simp)
  cases hvalid with
  | attached haccepts =>
      obtain ⟨p', hbegin, htells⟩ := h.attached haccepts hreadable.new
      refine ⟨p', htells, fun rest => ?_⟩
      show readFrom p (Opt.wordWith .config value :: rest) = _
      rw [readFrom, Word.of_wordWith]
      simp only [if_true, hbegin]
      rfl
  | apart haccepts hbare =>
      obtain ⟨p', hbegin, hpending, htells⟩ := h.apart haccepts hreadable.new
      refine ⟨_, htells, fun rest => ?_⟩
      show readFrom p (Opt.word .config :: value :: rest) = _
      rw [readFrom, Word.of_word]
      simp only [if_true, hbegin]
      show readFrom p' (value :: rest) = _
      rw [readFrom, Word.of_bare hbare]
      simp only [hpending]

/-- Items in front of `run`, one after the other. -/
theorem readFrom_items (h : p.Tells items)
    (hconfig : ∀ item ∈ others, item.IsConfig)
    (hreadable : Readable (items ++ others)) :
    ∃ p' : Progress, p'.Tells (items ++ others)
      ∧ ∀ rest, readFrom p (others.flatMap Item.words ++ rest)
          = readFrom p' rest := by
  induction others generalizing p items with
  | nil => exact ⟨p, by rwa [List.append_nil], fun rest => rfl⟩
  | cons item others ih =>
      obtain ⟨hfirst, hothers⟩ := List.forall_mem_cons.1 hconfig
      obtain ⟨p', htells, hitem⟩ := readFrom_item h hfirst hreadable
      rw [List.append_cons] at hreadable ⊢
      obtain ⟨p'', htells', hrest⟩ := ih htells hothers hreadable
      refine ⟨p'', htells', fun rest => ?_⟩
      rw [List.flatMap_cons, List.append_assoc, hitem, hrest]

theorem readFrom_runWord (h : p.Tells items) (words : List Bytes) :
    readFrom p (runWord :: words)
      = (readRun {} words >>= fun inner =>
          close p inner (.run inner.request)) := by
  have hword : Word.of runWord = .plain runWord := rfl
  rw [readFrom, hword]
  simp only []
  split
  next opt hpending => exact absurd hpending (h.ne_waiting opt)
  next => exact if_pos rfl

-- =========================================================== arrangements

/-- Items around the word `run`: in front of it only the configuration file
can be named. -/
structure Arrangement where
  front : List Item
  behind : List Item
  front_config : ∀ item ∈ front, item.IsConfig

namespace Arrangement

/-- All items, in their order. -/
def all (a : Arrangement) : List Item := a.front ++ a.behind

/-- The words of a command line. -/
def words (a : Arrangement) : List Bytes :=
  a.front.flatMap Item.words ++ runWord :: a.behind.flatMap Item.words

variable {a b : Arrangement}

theorem valuesOf_front (a : Arrangement) (hopt : opt ≠ .config) :
    valuesOf opt a.front = [] := by
  refine List.filterMap_eq_nil_iff.2 fun item hitem => ?_
  obtain ⟨form, value, rfl⟩ := a.front_config item hitem
  exact if_neg (Ne.symm hopt)

theorem pathsOf_front (a : Arrangement) : pathsOf a.front = [] := by
  refine List.filterMap_eq_nil_iff.2 fun item hitem => ?_
  obtain ⟨form, value, rfl⟩ := a.front_config item hitem
  rfl

/-- The request is made of what stands behind `run`. -/
theorem requestOf_all (a : Arrangement) :
    requestOf a.all = requestOf a.behind := by
  have hvalues (opt : Opt) (hopt : opt ≠ .config) :
      valuesOf opt a.all = valuesOf opt a.behind := by
    unfold all
    rw [valuesOf_append, a.valuesOf_front hopt, List.nil_append]
  have hpaths : pathsOf a.all = pathsOf a.behind := by
    unfold all
    rw [pathsOf_append, a.pathsOf_front, List.nil_append]
  unfold requestOf text?
  rw [hpaths, hvalues .tool (by decide), hvalues .language (by decide),
    hvalues .filesFrom (by decide), hvalues .timeoutMs (by decide),
    hvalues .captureBytes (by decide), hvalues .cwd (by decide),
    hvalues .env (by decide), hvalues .format (by decide)]

/-- The configuration file is the one that is named, wherever it is. -/
theorem head?_configs (h : Readable a.all) :
    ((valuesOf .config a.behind).head? <|> (valuesOf .config a.front).head?)
      = (valuesOf .config a.all).head? := by
  have hlength := h.once .config (by decide)
  unfold all at hlength ⊢
  rw [valuesOf_append] at hlength ⊢
  generalize valuesOf .config a.front = front at hlength ⊢
  generalize valuesOf .config a.behind = behind at hlength ⊢
  cases front with
  | nil => cases behind <;> rfl
  | cons path front =>
      cases behind with
      | nil => rfl
      | cons other behind =>
          simp only [List.length_append, List.length_cons] at hlength
          omega

/-- A command line of items that can be read together is read as what they
say. -/
theorem read_words (h : Readable a.all) :
    read a.words = .ok (lineOf a.all) := by
  obtain ⟨outer, houter, hfront⟩ := readFrom_items Progress.says_nothing.tells
    a.front_config h.left
  obtain ⟨inner, ⟨q, hq, hsays⟩, hbehind⟩ := readRun_items
    Progress.says_nothing.tells h.right
  obtain ⟨outer', hsettle, hsays'⟩ := id houter
  have hend : readRun {} (a.behind.flatMap Item.words) = inner.settle := by
    rw [← List.append_nil (a.behind.flatMap Item.words), hbehind, readRun]
  have hclose : close outer q (.run q.request) = .ok (lineOf a.all) := by
    refine bind_ok_eq_ok.2 ⟨outer', hsettle, ?_⟩
    unfold lineOf
    rw [← head?_configs h, hsays'.configPath, hsays.configPath,
      hsays.request, requestOf_all]
    rfl
  calc read a.words
      = readFrom outer (runWord :: a.behind.flatMap Item.words) := hfront _
    _ = (inner.settle >>= fun inner => close outer inner
          (.run inner.request)) := by rw [readFrom_runWord houter, hend]
    _ = .ok (lineOf a.all) := by rw [hq]; exact hclose

end Arrangement

theorem Readable.perm (h : Readable items) (hperm : items.Perm others) :
    Readable others where
  valid item hitem := h.valid item (hperm.mem_iff.2 hitem)
  once opt hopt := by
    have hlength := (hperm.filterMap (Item.valueOf? opt)).length_eq
    exact hlength ▸ h.once opt hopt

/-- The same items in another order say the same of an option that is given at
most once. -/
theorem valuesOf_perm (hperm : items.Perm others)
    (honce : (valuesOf opt items).length ≤ 1) :
    valuesOf opt items = valuesOf opt others := by
  have hvalues : (valuesOf opt items).Perm (valuesOf opt others) :=
    hperm.filterMap _
  cases hitems : valuesOf opt items with
  | nil => rw [hitems] at hvalues; exact hvalues.nil_eq
  | cons value values =>
      rw [hitems, List.length_cons] at honce
      obtain rfl : values = [] := List.eq_nil_of_length_eq_zero (by omega)
      rw [hitems] at hvalues
      exact List.singleton_perm.1 hvalues

/-- **Where an option stands does not matter.** The same items around `run`,
in any order that keeps that of the paths and that of the `--env` options among
themselves, are read as the same command line. And whatever a command line for
a run says, paths behind the end of its options are added to those it has. -/
theorem placement_irrelevant :
    (∀ a b : Arrangement, Readable a.all → a.all.Perm b.all →
      valuesOf .env a.all = valuesOf .env b.all →
      pathsOf a.all = pathsOf b.all →
        read a.words = .ok (lineOf a.all) ∧ read b.words = .ok (lineOf a.all))
      ∧ ∀ words paths config r, read words = .ok ⟨config, .run r⟩ →
          endWord ∉ words → [] ∉ paths →
            read (words ++ endWord :: paths)
              = .ok ⟨config, .run { r with files := r.files ++ paths }⟩ := by
  constructor
  · intro a b hreadable hperm henv hpaths
    have hvalues (opt : Opt) : valuesOf opt a.all = valuesOf opt b.all := by
      by_cases hopt : opt = .env
      · rw [hopt, henv]
      · exact valuesOf_perm hperm (hreadable.once opt hopt)
    refine ⟨Arrangement.read_words hreadable, ?_⟩
    rw [Arrangement.read_words (hreadable.perm hperm),
      lineOf_congr hvalues hpaths]
  · intro words paths config r hread hwords hpaths
    exact readFrom_append hread hwords hpaths

/-- A configuration file in front of `run` or between two paths, a number with
a sign, and a value that looks like a command: nothing of that makes a
difference, and what looks like an option behind the last one is a path. -/
theorem placement_irrelevant_mixed :
    ∃ line, read (["--config=c", "run", "--env", "A=1", "x", "--tool=run",
          "--env=B", "-", "--timeout-ms", "+5"].map Utf8.encode) = .ok line
      ∧ read (["run", "--timeout-ms", "+5", "--env", "A=1", "x", "--config=c",
          "-", "--env=B", "--tool=run"].map Utf8.encode) = .ok line
      ∧ line.configPath = some (Utf8.encode "c")
      ∧ ∃ r, line.command = .run r ∧ r.tool = some "run"
          ∧ r.timeoutMs = some 5 ∧ r.env = ["A=1", "B"]
          ∧ read (["--config=c", "run", "--env", "A=1", "x", "--tool=run",
              "--env=B", "-", "--timeout-ms", "+5", "--", "--", "--tool",
              "run"].map Utf8.encode)
            = .ok ⟨some (Utf8.encode "c"), .run { r with
                files := ["x", "-", "--", "--tool", "run"].map
                  Utf8.encode }⟩ := by
  let config : Item := .option .config .attached (Utf8.encode "c")
  let first : Item := .option .env .apart (Utf8.encode "A=1")
  let second : Item := .option .env .attached (Utf8.encode "B")
  let tool : Item := .option .tool .attached (Utf8.encode "run")
  let timeout : Item := .option .timeoutMs .apart (Utf8.encode "+5")
  let x : Item := .path (Utf8.encode "x")
  let dash : Item := .path (Utf8.encode "-")
  let a : Arrangement :=
    ⟨[config], [first, x, tool, second, dash, timeout], by
      rintro item hitem
      exact ⟨_, _, List.mem_singleton.1 hitem⟩⟩
  let b : Arrangement :=
    ⟨[], [timeout, first, x, config, dash, second, tool], nofun⟩
  have hreadable : Readable a.all := by
    refine ⟨?_, fun opt => by cases opt <;> decide⟩
    show ∀ item ∈ [config, first, x, tool, second, dash, timeout], item.Valid
    simp only [List.forall_mem_cons]
    exact ⟨.attached (show Utf8.encode "c" ≠ [] by decide),
      .apart rfl (.inr (by decide)), .path (by decide) (.inr (by decide)),
      .attached rfl, .attached rfl, .path (by decide) (.inl rfl),
      .apart rfl (.inr (by decide)), nofun⟩
  obtain ⟨ha, hb⟩ := placement_irrelevant.1 a b hreadable (by decide)
    (by decide) (by decide)
  have hmore := placement_irrelevant.2 a.words
    (["--", "--tool", "run"].map Utf8.encode) _ _ ha (by decide) (by decide)
  exact ⟨lineOf a.all, ha, hb, by decide, requestOf a.all, rfl, by decide,
    by decide, by decide, hmore⟩

end Toolrun.CommandLine
