/-
Every request can be written as a command line. An option is written with its
value in the same word, so that it does not matter what the value looks like,
and the paths stand behind the end of the options, so that it does not matter
what they look like; what is read is the request, to the last byte
(`written_reads_back`).

In front of the end of the options these are items like any others, so how
they are read is known (`Arrangement.read_words`); what is left is to see that
they say what the request says (`lineOf_ofRequest`).
-/
import Toolrun.Proofs.CommandLine.Placement

namespace Toolrun.CommandLine

variable {config : Option Bytes} {r : RunRequest} {order : List Opt}
  {opt : Opt}

-- ================================================================= writing

/-- The value that a request has for an option, as it is written. -/
def writtenValue? (r : RunRequest) : Opt → Option Bytes
  | .tool => r.tool.map Utf8.encode
  | .language => r.language.map Utf8.encode
  | .filesFrom => r.filesFrom.map Utf8.encode
  | .timeoutMs =>
    r.timeoutMs.map fun n => Utf8.encode (Numeral.decimal n.toNat)
  | .captureBytes =>
    r.captureBytes.map fun n => Utf8.encode (Numeral.decimal n.toNat)
  | .cwd => r.workingDir.map Utf8.encode
  | .format => some (Utf8.encode (formatName r.format))
  | .config => none
  | .env => none

/-- A configuration file and a request as a command line, with the options in
some order. -/
def written (config : Option Bytes) (r : RunRequest) (order : List Opt) :
    List Bytes :=
  config.toList.map (Opt.wordWith .config) ++ runWord ::
    (order.filterMap (fun opt => (writtenValue? r opt).map opt.wordWith)
      ++ r.env.map (fun e => Opt.wordWith .env (Utf8.encode e))
      ++ endWord :: r.files)

/-- The options of a request, as items. -/
def optionItems (r : RunRequest) (order : List Opt) : List Item :=
  order.filterMap fun opt => (writtenValue? r opt).map (.option opt .attached)

/-- The variables that a request sets, as items. -/
def envItems (r : RunRequest) : List Item :=
  r.env.map fun e => .option .env .attached (Utf8.encode e)

/-- What is written in front of the end of the options, as items. -/
def Arrangement.ofRequest (config : Option Bytes) (r : RunRequest)
    (order : List Opt) : Arrangement where
  front := config.toList.map (.option .config .attached)
  behind := optionItems r order ++ envItems r
  front_config := by
    intro item hitem
    obtain ⟨value, -, rfl⟩ := List.mem_map.1 hitem
    exact ⟨_, _, rfl⟩

theorem written_eq (config : Option Bytes) (r : RunRequest)
    (order : List Opt) :
    written config r order
      = (Arrangement.ofRequest config r order).words ++ endWord :: r.files := by
  have hfront : (config.toList.map (Item.option .config .attached)).flatMap
      Item.words = config.toList.map (Opt.wordWith .config) := by
    cases config <;> rfl
  have hoptions : (optionItems r order).flatMap Item.words
      = order.filterMap fun opt => (writtenValue? r opt).map opt.wordWith := by
    unfold optionItems
    induction order with
    | nil => rfl
    | cons opt order ih =>
        cases hvalue : writtenValue? r opt with
        | none => simpa [hvalue] using ih
        | some value => simpa [hvalue, Item.words] using ih
  have henv : (envItems r).flatMap Item.words
      = r.env.map fun e => Opt.wordWith .env (Utf8.encode e) := by
    unfold envItems
    rw [List.flatMap_map, List.map_eq_flatMap]
    rfl
  unfold written Arrangement.words Arrangement.ofRequest
  simp only [hfront, List.flatMap_append, hoptions, henv, List.append_assoc,
    List.cons_append]

-- ============================================================= what is said

theorem optionItems_cons (r : RunRequest) (opt : Opt) (order : List Opt) :
    optionItems r (opt :: order)
      = ((writtenValue? r opt).map (.option opt .attached)).toList
        ++ optionItems r order := by
  unfold optionItems
  rw [List.filterMap_cons]
  cases writtenValue? r opt <;> rfl

/-- In a list without repetitions an option is written once. -/
theorem valuesOf_optionItems (horder : order.Nodup) (opt : Opt) :
    valuesOf opt (optionItems r order)
      = if opt ∈ order then (writtenValue? r opt).toList else [] := by
  induction order with
  | nil => rfl
  | cons other order ih =>
      obtain ⟨hother, hrest⟩ := List.nodup_cons.1 horder
      have hfirst : valuesOf opt ((writtenValue? r other).map
          (Item.option other .attached)).toList
            = if other = opt then (writtenValue? r other).toList else [] := by
        cases writtenValue? r other with
        | none => simp [valuesOf]
        | some value => exact valuesOf_option other opt .attached value
      rw [optionItems_cons, valuesOf_append, hfirst, ih hrest]
      by_cases hsame : other = opt
      · subst hsame
        simp [hother]
      · simp [hsame, Ne.symm hsame]

theorem valuesOf_envItems (r : RunRequest) (opt : Opt) :
    valuesOf opt (envItems r)
      = if opt = .env then r.env.map Utf8.encode else [] := by
  unfold valuesOf envItems
  rw [List.filterMap_map]
  split
  next hopt =>
    subst hopt
    show r.env.filterMap (some ∘ Utf8.encode) = _
    rw [List.filterMap_eq_map]
  next hopt =>
    exact List.filterMap_eq_nil_iff.2 fun e _ => if_neg (Ne.symm hopt)

/-- What a request says of an option, when it is written. -/
theorem valuesOf_ofRequest (horder : order.Nodup) (opt : Opt) :
    valuesOf opt (Arrangement.ofRequest config r order).all
      = (if opt = .config then config.toList else [])
        ++ (if opt ∈ order then (writtenValue? r opt).toList else [])
        ++ if opt = .env then r.env.map Utf8.encode else [] := by
  have hfront : valuesOf opt (config.toList.map (.option .config .attached))
      = if opt = .config then config.toList else [] := by
    cases config with
    | none => simp [valuesOf]
    | some path =>
        simp [valuesOf_option, eq_comm]
  unfold Arrangement.all Arrangement.ofRequest
  rw [valuesOf_append, valuesOf_append, hfront, valuesOf_optionItems horder,
    valuesOf_envItems, List.append_assoc]

theorem pathsOf_ofRequest (config : Option Bytes) (r : RunRequest)
    (order : List Opt) :
    pathsOf (Arrangement.ofRequest config r order).all = [] := by
  refine List.filterMap_eq_nil_iff.2 fun item hitem => ?_
  rcases List.mem_append.1 hitem with hitem | hitem
  · obtain ⟨path, -, rfl⟩ := List.mem_map.1 hitem
    rfl
  · rcases List.mem_append.1 hitem with hitem | hitem
    · obtain ⟨opt, -, hitem⟩ := List.mem_filterMap.1 hitem
      obtain ⟨value, -, rfl⟩ := Option.map_eq_some_iff.1 hitem
      rfl
    · obtain ⟨e, -, rfl⟩ := List.mem_map.1 hitem
      rfl

-- =============================================================== read back

theorem number?_decimal (n : UInt64) :
    number? (Utf8.encode (Numeral.decimal n.toNat)) = some n := by
  unfold number?
  rw [Utf8.decode?_encode, Option.bind_some, Numeral.read_decimal]
  rfl

theorem format?_formatName (f : Format) :
    format? (Utf8.encode (formatName f)) = some f := by
  cases f <;> decide

/-- What is written for an option is a value that it can have. -/
theorem accepts_writtenValue? {value : Bytes}
    (h : writtenValue? r opt = some value) : opt.Accepts value := by
  have htext (s : String) : (Utf8.decode? (Utf8.encode s)).isSome = true := by
    rw [Utf8.decode?_encode]
    rfl
  have hnumber (n : UInt64) :
      (number? (Utf8.encode (Numeral.decimal n.toNat))).isSome = true := by
    rw [number?_decimal]
    rfl
  cases opt with
  | config | env => cases h
  | tool | language | filesFrom | cwd =>
      obtain ⟨s, -, rfl⟩ := Option.map_eq_some_iff.1 h
      exact htext s
  | timeoutMs | captureBytes =>
      obtain ⟨n, -, rfl⟩ := Option.map_eq_some_iff.1 h
      exact hnumber n
  | format =>
      cases h
      show (format? _).isSome = true
      rw [format?_formatName]
      rfl

/-- What is written can be read together. -/
theorem readable_ofRequest (hconfig : config ≠ some [])
    (horder : order.Nodup) :
    Readable (Arrangement.ofRequest config r order).all where
  valid item hitem := by
    rcases List.mem_append.1 hitem with hitem | hitem
    · obtain ⟨path, hpath, rfl⟩ := List.mem_map.1 hitem
      refine .attached fun hnil => hconfig ?_
      rw [← hnil]
      exact Option.mem_toList.1 hpath
    · rcases List.mem_append.1 hitem with hitem | hitem
      · obtain ⟨opt, -, hitem⟩ := List.mem_filterMap.1 hitem
        obtain ⟨value, hvalue, rfl⟩ := Option.map_eq_some_iff.1 hitem
        exact .attached (accepts_writtenValue? hvalue)
      · obtain ⟨e, -, rfl⟩ := List.mem_map.1 hitem
        refine .attached (show (Utf8.decode? _).isSome = true from ?_)
        rw [Utf8.decode?_encode]
        rfl
  once opt hopt := by
    have htoList {α : Type} (o : Option α) : o.toList.length ≤ 1 := by
      cases o with
      | none => exact Nat.zero_le 1
      | some a => exact Nat.le_refl 1
    rw [valuesOf_ofRequest horder, if_neg hopt, List.append_nil]
    by_cases hfile : opt = .config
    · subst hfile
      simp only [if_true, writtenValue?, Option.toList_none, ite_self,
        List.append_nil]
      exact htoList config
    · rw [if_neg hfile, List.nil_append]
      split
      next => exact htoList _
      next => exact Nat.zero_le 1

section

-- an option that is not written has nothing to say, as without a request
variable (horder : order.Nodup)
  (hall : ∀ opt ∉ order, writtenValue? r opt = writtenValue? {} opt)

include horder

theorem head?_ofRequest (hfile : opt ≠ .config) (henv : opt ≠ .env) :
    (valuesOf opt (Arrangement.ofRequest config r order).all).head?
      = if opt ∈ order then writtenValue? r opt else none := by
  rw [valuesOf_ofRequest horder, if_neg hfile, if_neg henv]
  split
  next => cases writtenValue? r opt <;> rfl
  next => rfl

theorem configs_ofRequest :
    valuesOf .config (Arrangement.ofRequest config r order).all
      = config.toList := by
  rw [valuesOf_ofRequest horder]
  simp [writtenValue?]

theorem env_ofRequest :
    (valuesOf .env (Arrangement.ofRequest config r order).all).filterMap
      Utf8.decode? = r.env := by
  rw [valuesOf_ofRequest horder]
  simp [writtenValue?, Utf8.decode?_encode]

include hall

/-- An option has the value that the request has for it, if it has none to
begin with. -/
theorem said_ofRequest (hfile : opt ≠ .config) (henv : opt ≠ .env)
    (hnone : writtenValue? {} opt = none) :
    (valuesOf opt (Arrangement.ofRequest config r order).all).head?
      = writtenValue? r opt := by
  rw [head?_ofRequest horder hfile henv]
  split
  next => rfl
  next hopt => rw [hall opt hopt, hnone]

theorem text?_ofRequest (hfile : opt ≠ .config) (henv : opt ≠ .env)
    (hnone : writtenValue? {} opt = none) {said : Option String}
    (hopt : writtenValue? r opt = said.map Utf8.encode) :
    text? opt (Arrangement.ofRequest config r order).all = said := by
  unfold text?
  rw [said_ofRequest horder hall hfile henv hnone, hopt]
  cases said with
  | none => rfl
  | some s => exact Utf8.decode?_encode s

theorem number_ofRequest (hfile : opt ≠ .config) (henv : opt ≠ .env)
    (hnone : writtenValue? {} opt = none) {said : Option UInt64}
    (hopt : writtenValue? r opt
      = said.map fun n => Utf8.encode (Numeral.decimal n.toNat)) :
    (valuesOf opt (Arrangement.ofRequest config r order).all).head?.bind
      number? = said := by
  rw [said_ofRequest horder hall hfile henv hnone, hopt]
  cases said with
  | none => rfl
  | some n => exact number?_decimal n

/-- The format is the one option that says something without being written,
so it need not be written if that is what the request says. -/
theorem format_ofRequest :
    ((valuesOf .format (Arrangement.ofRequest config r order).all).head?.bind
      format?).getD .text = r.format := by
  rw [head?_ofRequest horder (by decide) (by decide)]
  split
  next => exact congrArg (Option.getD · .text) (format?_formatName r.format)
  next hopt =>
    have hdefault := congrArg (Option.bind · format?) (hall .format hopt)
    have hboth : some r.format = some .text :=
      (format?_formatName r.format).symm.trans
        (hdefault.trans (format?_formatName .text))
    injection hboth with hboth
    rw [hboth]
    rfl

/-- What is written says the request, but for the paths. -/
theorem lineOf_ofRequest :
    lineOf (Arrangement.ofRequest config r order).all
      = ⟨config, .run { r with files := [] }⟩ := by
  have htext {opt : Opt} := @text?_ofRequest config r order opt horder hall
  have hnumber {opt : Opt} := @number_ofRequest config r order opt horder hall
  unfold lineOf requestOf
  rw [configs_ofRequest horder, pathsOf_ofRequest,
    format_ofRequest horder hall, env_ofRequest horder,
    htext (by decide) (by decide) rfl rfl,
    htext (by decide) (by decide) rfl rfl,
    htext (by decide) (by decide) rfl rfl,
    htext (by decide) (by decide) rfl rfl,
    hnumber (by decide) (by decide) rfl rfl,
    hnumber (by decide) (by decide) rfl rfl]
  cases config <;> rfl

end

/-- No word of an item ends the options. -/
theorem endWord_not_mem_words {item : Item} (h : item.Valid) :
    endWord ∉ item.words := by
  have hne {word : Bytes} (hword : Word.of word ≠ .endOfOptions) :
      endWord ≠ word := by
    rintro rfl
    exact hword Word.of_endWord
  cases h with
  | @attached opt value haccepts =>
      have hword : endWord ≠ opt.wordWith value :=
        hne (by rw [Word.of_wordWith]; exact nofun)
      exact mt List.mem_singleton.1 hword
  | @apart opt value haccepts hbare =>
      have hword : endWord ≠ opt.word :=
        hne (by rw [Word.of_word]; exact nofun)
      have hvalue : endWord ≠ value :=
        hne (by rw [Word.of_bare hbare]; exact nofun)
      intro hmem
      rcases List.mem_cons.1 hmem with heq | hmem
      · exact hword heq
      · exact hvalue (List.mem_singleton.1 hmem)
  | @path word hword hbare =>
      have hword : endWord ≠ word :=
        hne (by rw [Word.of_bare hbare]; exact nofun)
      exact mt List.mem_singleton.1 hword

theorem Arrangement.endWord_not_mem {a : Arrangement} (h : Readable a.all) :
    endWord ∉ a.words := by
  have hitems {items : List Item} (hitems : ∀ item ∈ items, item.Valid) :
      endWord ∉ items.flatMap Item.words := by
    rintro hmem
    obtain ⟨item, hitem, hword⟩ := List.mem_flatMap.1 hmem
    exact endWord_not_mem_words (hitems item hitem) hword
  intro hmem
  rcases List.mem_append.1 hmem with hmem | hmem
  · exact hitems h.left.valid hmem
  · rcases List.mem_cons.1 hmem with hword | hmem
    · exact absurd hword (by decide)
    · exact hitems h.right.valid hmem

/-- **Every request can be written.** Whatever texts, numbers and variables it
has and whatever its paths look like, the command line that is made of it is
read as this request and this configuration file. The options may come in any
order; one that has nothing to say need not be there, but no other may be
missing, and none may be there twice. -/
theorem written_reads_back (hconfig : config ≠ some [])
    (hfiles : [] ∉ r.files) (horder : order.Nodup)
    (hall : ∀ opt ∉ order, writtenValue? r opt = writtenValue? {} opt) :
    read (written config r order) = .ok ⟨config, .run r⟩ := by
  have hreadable := readable_ofRequest (r := r) hconfig horder
  have hread := Arrangement.read_words hreadable
  rw [lineOf_ofRequest horder hall] at hread
  rw [written_eq]
  exact readFrom_append hread (Arrangement.endWord_not_mem hreadable) hfiles

/-- Values that are empty, begin with a dash or have an equals sign in them,
the largest number, and paths that look like options or commands or are no
text. -/
theorem written_reads_back_awkward :
    let words : List Bytes :=
      ["--config=a=b", "run", "--tool=", "--language=--env", "--cwd==",
        "--timeout-ms=18446744073709551615", "--format=json", "--env=",
        "--env=-A=B", "--", "--", "--tool=x", "run"].map Utf8.encode
          ++ [[0xFF]]
    ∃ r : RunRequest, read words = .ok ⟨some (Utf8.encode "a=b"), .run r⟩
      ∧ r.tool = some "" ∧ r.language = some "--env"
      ∧ r.workingDir = some "=" ∧ r.filesFrom = none
      ∧ r.timeoutMs = some 18446744073709551615 ∧ r.captureBytes = none
      ∧ r.format = .json ∧ r.env = ["", "-A=B"]
      ∧ r.files
        = ["--", "--tool=x", "run"].map Utf8.encode ++ [[0xFF]] := by
  intro words
  let r : RunRequest :=
    { tool := some ""
      language := some "--env"
      workingDir := some "="
      timeoutMs := some 18446744073709551615
      format := .json
      env := ["", "-A=B"]
      files := ["--", "--tool=x", "run"].map Utf8.encode ++ [[0xFF]] }
  let order : List Opt := [.tool, .language, .cwd, .timeoutMs, .format]
  have hall : ∀ opt ∉ order, writtenValue? r opt = writtenValue? {} opt := by
    intro opt hopt
    cases opt with
    | config | filesFrom | captureBytes | env => rfl
    | _ => exact absurd (by decide) hopt
  have hread : read (written (some (Utf8.encode "a=b")) r order)
      = .ok ⟨some (Utf8.encode "a=b"), .run r⟩ :=
    written_reads_back (by decide) (by decide) (by decide) hall
  have hwords : written (some (Utf8.encode "a=b")) r order = words := by
    decide +kernel
  rw [hwords] at hread
  exact ⟨r, hread, rfl, rfl, rfl, rfl, rfl, rfl, rfl, rfl, rfl⟩

end Toolrun.CommandLine
