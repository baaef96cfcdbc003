/-
Every variable can be given on the command line. A value stands behind the
first `=`, in quotes of either kind, and then it may hold anything: other
quotes, an `=`, white space at its ends, or nothing. Only what lies outside the
quotes is trimmed, and only one pair of quotes is taken away. Without quotes a
value is taken as it is just if it has nothing around it that could be taken
away.

The reader works with characters. Where text is a row of bytes, quotes are
looked for at its first and last byte, and the text is cut there
(`unquoteBytes`); that comes to the same, and the cuts fall between characters
(`isBoundary_quoted`), as the byte of a quote is written for nothing else.
-/
import Toolrun.EnvPair
import Toolrun.Proofs.Blank
import Toolrun.Proofs.Utf8

namespace Toolrun

-- ======================================================= first occurrences

section

variable {α : Type} [BEq α] [LawfulBEq α] {separator : α}
  {items before : List α}

theorem bne_of_not_mem (h : separator ∉ items) :
    ∀ x ∈ items, (x != separator) = true := by
  intro x hx
  rw [bne_iff_ne]
  rintro rfl
  exact h hx

/-- What stands before the first separator is what has none. -/
theorem takeWhile_first (h : separator ∉ before) (after : List α) :
    (before ++ separator :: after).takeWhile (· != separator) = before := by
  rw [List.takeWhile_append_of_pos (bne_of_not_mem h)]
  simp

theorem splitAtFirst_append (h : separator ∉ before) (after : List α) :
    splitAtFirst separator (before ++ separator :: after)
      = some (before, after) := by
  unfold splitAtFirst
  rw [takeWhile_first h, List.dropWhile_append_of_pos (bne_of_not_mem h)]
  simp

theorem splitAtFirst_eq_none (h : separator ∉ items) :
    splitAtFirst separator items = none := by
  unfold splitAtFirst
  rw [List.dropWhile_eq_nil_iff.2 (bne_of_not_mem h)]

end

namespace EnvPair

open Text

variable {key value raw : String} {cs before behind : List Char}
  {quote : Char}

-- ================================================================== quotes

/-- The two characters that can stand around a value. -/
def IsQuote (c : Char) : Prop := c = '"' ∨ c = '\''

/-- Some characters between two quotes of one kind. -/
def IsQuoted (cs : List Char) : Prop :=
  ∃ quote inner, IsQuote quote ∧ cs = quote :: (inner ++ [quote])

/-- A quote is a character of ASCII. -/
theorem IsQuote.byte (h : IsQuote quote) :
    ∃ b < 0x80, String.utf8EncodeChar quote = [b] := by
  rcases h with rfl | rfl
  · exact ⟨0x22, by decide, rfl⟩
  · exact ⟨0x27, by decide, rfl⟩

/-- One pair of quotes is taken away. -/
theorem unquoteChars_quoted (h : IsQuote quote) (inner : List Char) :
    unquoteChars (quote :: (inner ++ [quote])) = inner := by
  have hquote : (quote == '"' || quote == '\'') = true := by
    rw [Bool.or_eq_true, beq_iff_eq, beq_iff_eq]
    exact h
  have hlast : (inner ++ [quote]).getLast? = some quote :=
    List.getLast?_concat
  cases hcs : inner ++ [quote] with
  | nil => simp at hcs
  | cons second others =>
      rw [hcs] at hlast
      simp only [unquoteChars, hquote, hlast, beq_self_eq_true, Bool.and_self,
        if_true]
      rw [← hcs, List.dropLast_concat]

/-- Nothing is taken away where there is no pair of quotes. -/
theorem unquoteChars_eq_self (h : ¬IsQuoted cs) : unquoteChars cs = cs := by
  unfold unquoteChars
  split
  next first second others =>
    split
    next hpair =>
      rw [Bool.and_eq_true, Bool.or_eq_true, beq_iff_eq, beq_iff_eq,
        beq_iff_eq] at hpair
      obtain ⟨hquote, hlast⟩ := hpair
      obtain ⟨inner, hinner⟩ := List.getLast?_eq_some_iff.1 hlast
      exact absurd ⟨first, inner, hquote, by rw [hinner]⟩ h
    next => rfl
  next => rfl

/-- The same quote at both ends of at least two bytes is two quotes. -/
theorem isQuoted_iff :
    IsQuoted cs ↔ 2 ≤ (Utf8.encodeChars cs).length
      ∧ ∃ quote, IsQuote quote ∧ cs.head? = some quote
          ∧ cs.getLast? = some quote := by
  constructor
  · rintro ⟨quote, inner, hquote, rfl⟩
    obtain ⟨b, -, hbyte⟩ := hquote.byte
    refine ⟨?_, quote, hquote, rfl, ?_⟩
    · simp [Utf8.encodeChars, hbyte]
    · rw [← List.cons_append, List.getLast?_concat]
  · rintro ⟨hlength, quote, hquote, hfirst, hlast⟩
    obtain ⟨inner, rfl⟩ := List.getLast?_eq_some_iff.1 hlast
    cases inner with
    | nil =>
        obtain ⟨b, -, hbyte⟩ := hquote.byte
        simp [Utf8.encodeChars, hbyte] at hlength
    | cons first inner =>
        obtain rfl : first = quote := Option.some.inj hfirst
        exact ⟨first, inner, hquote, rfl⟩

/-- Nothing is trimmed off quotes. -/
theorem IsQuote.isTrimmed (h : IsQuote quote) (inner : List Char) :
    IsTrimmed (quote :: (inner ++ [quote])) := by
  have hnot : isBlank quote = false := by
    rcases h with rfl | rfl
    · decide
    · decide
  constructor
  · intro c hc
    obtain rfl : quote = c := Option.some.inj hc
    exact hnot
  · intro c hc
    rw [← List.cons_append, List.getLast?_concat] at hc
    obtain rfl : quote = c := Option.some.inj hc
    exact hnot

/-- Characters are left as they are just if there is nothing around them that
could be taken away. -/
theorem unquoteChars_trimChars_eq_self_iff :
    unquoteChars (trimChars cs) = cs ↔ IsTrimmed cs ∧ ¬IsQuoted cs := by
  constructor
  · intro hsame
    by_cases hquoted : IsQuoted (trimChars cs)
    · -- the quotes that are gone would have to be there still
      exfalso
      obtain ⟨before, behind, hcs, -, -⟩ := exists_padding cs
      obtain ⟨quote, inner, hquote, hinner⟩ := hquoted
      rw [hinner, unquoteChars_quoted hquote] at hsame
      have hlength := congrArg List.length hcs
      rw [hinner, hsame] at hlength
      simp only [List.length_append, List.length_cons] at hlength
      omega
    · rw [unquoteChars_eq_self hquoted] at hsame
      rw [hsame] at hquoted
      exact ⟨trimChars_eq_self_iff.1 hsame, hquoted⟩
  · rintro ⟨htrimmed, hquoted⟩
    rw [trimChars_eq_self htrimmed, unquoteChars_eq_self hquoted]

-- =================================================================== bytes

/-- Whether the first and the last of at least two bytes are the same
quote. -/
def HasQuotes (bytes : Bytes) : Prop :=
  2 ≤ bytes.length
    ∧ (bytes.head? = some 0x22 ∧ bytes.getLast? = some 0x22
      ∨ bytes.head? = some 0x27 ∧ bytes.getLast? = some 0x27)

instance (bytes : Bytes) : Decidable (HasQuotes bytes) :=
  inferInstanceAs (Decidable (_ ∧ _))

/-- Cuts off the first and the last byte if they are the same quote. -/
def unquoteBytes (bytes : Bytes) : Bytes :=
  if HasQuotes bytes then (bytes.take (bytes.length - 1)).drop 1 else bytes

/-- A position at which a text falls into two texts. -/
def IsBoundary (bytes : Bytes) (position : Nat) : Prop :=
  Utf8.IsText (bytes.take position) ∧ Utf8.IsText (bytes.drop position)

/-- Bytes that are quotes are characters that are quotes. -/
theorem hasQuotes_iff : HasQuotes (Utf8.encodeChars cs) ↔ IsQuoted cs := by
  have hdouble : String.utf8EncodeChar '"' = [0x22] := rfl
  have hsingle : String.utf8EncodeChar '\'' = [0x27] := rfl
  unfold HasQuotes
  rw [isQuoted_iff, Utf8.head?_encodeChars hdouble (by decide),
    Utf8.head?_encodeChars hsingle (by decide),
    Utf8.getLast?_encodeChars hdouble (by decide),
    Utf8.getLast?_encodeChars hsingle (by decide)]
  simp [IsQuote, or_and_right, exists_or]

/-- Between characters there is a boundary. -/
theorem isBoundary_append (front behind : List Char) :
    IsBoundary (Utf8.encodeChars (front ++ behind))
      (Utf8.encodeChars front).length := by
  rw [Utf8.encodeChars_append]
  constructor
  · rw [List.take_left]
    exact Utf8.isText_encodeChars front
  · rw [List.drop_left]
    exact Utf8.isText_encodeChars behind

/-- Where the bytes of a text in quotes are cut. -/
theorem length_quoted (h : IsQuote quote) (inner : List Char) :
    (Utf8.encodeChars [quote]).length = 1
      ∧ (Utf8.encodeChars (quote :: inner)).length
        = (Utf8.encodeChars (quote :: (inner ++ [quote]))).length - 1 := by
  obtain ⟨b, -, hbyte⟩ := h.byte
  simp [Utf8.encodeChars, hbyte]

/-- A text in quotes is cut at boundaries. -/
theorem isBoundary_quoted (h : IsQuote quote) (inner : List Char) :
    IsBoundary (Utf8.encodeChars (quote :: (inner ++ [quote]))) 1
      ∧ IsBoundary (Utf8.encodeChars (quote :: (inner ++ [quote])))
          ((Utf8.encodeChars (quote :: (inner ++ [quote]))).length - 1) := by
  obtain ⟨hfirst, hlast⟩ := length_quoted h inner
  constructor
  · have hcut := isBoundary_append [quote] (inner ++ [quote])
    rw [hfirst] at hcut
    exact hcut
  · have hcut := isBoundary_append (quote :: inner) [quote]
    rw [hlast] at hcut
    exact hcut

/-- It makes no difference whether quotes are taken away from the bytes or
from the characters. -/
theorem unquoteBytes_encodeChars (cs : List Char) :
    unquoteBytes (Utf8.encodeChars cs)
      = Utf8.encodeChars (unquoteChars cs) := by
  unfold unquoteBytes
  by_cases hquoted : IsQuoted cs
  · rw [if_pos (hasQuotes_iff.2 hquoted)]
    obtain ⟨quote, inner, hquote, rfl⟩ := hquoted
    obtain ⟨hfirst, hlast⟩ := length_quoted hquote inner
    have hfront : Utf8.encodeChars (quote :: (inner ++ [quote]))
        = Utf8.encodeChars (quote :: inner) ++ Utf8.encodeChars [quote] := by
      rw [← Utf8.encodeChars_append, List.cons_append]
    rw [unquoteChars_quoted hquote, ← hlast, hfront, List.take_left]
    show (Utf8.encodeChars ([quote] ++ inner)).drop 1 = Utf8.encodeChars inner
    rw [Utf8.encodeChars_append]
    exact List.drop_left' hfirst
  · rw [if_neg (hasQuotes_iff.not.2 hquoted), unquoteChars_eq_self hquoted]

-- ================================================================= reading

/-- A name that a variable can be given by. -/
structure IsKey (key : List Char) : Prop where
  ne_nil : key ≠ []
  trimmed : IsTrimmed key
  plain : '=' ∉ key

/-- A text that gives a variable with its value in quotes. White space may
stand around the key, and around the quotes. -/
def IsQuotedForm (key value raw : String) : Prop :=
  ∃ quote left right before behind,
    IsQuote quote ∧ AllBlank left ∧ AllBlank right ∧ AllBlank before
      ∧ AllBlank behind
      ∧ raw.toList = left ++ key.toList ++ right ++ '=' ::
          (before ++ quote :: (value.toList ++ [quote]) ++ behind)

/-- A pair as it stands in a text: the key is in front of the first `=`, with
white space around it, and the value is behind, either as it is or between one
pair of quotes, with white space around that. -/
def StandsIn (key value raw : String) : Prop :=
  ∃ before behind, raw.toList = before ++ '=' :: behind ∧ '=' ∉ before
    ∧ key.toList = trimChars before
    ∧ (value.toList = trimChars behind ∧ ¬IsQuoted (trimChars behind)
      ∨ ∃ quote, IsQuote quote
        ∧ trimChars behind = quote :: (value.toList ++ [quote]))

theorem read_of_noEquals (h : '=' ∉ raw.toList) :
    read raw = .error (.noEquals raw) := by
  unfold read
  rw [splitAtFirst_eq_none h]

/-- A text is divided by its first `=`. -/
theorem read_of_split (hraw : raw.toList = before ++ '=' :: behind)
    (hfirst : '=' ∉ before) :
    read raw
      = if trimChars before = [] then .error (.emptyKey raw)
        else .ok (.ofList (trimChars before),
          .ofList (unquoteChars (trimChars behind))) := by
  unfold read
  rw [hraw, splitAtFirst_append hfirst]
  cases htrimmed : trimChars before with
  | nil => simp [htrimmed]
  | cons c others => simp [htrimmed]

/-- A text is refused just if it has no `=`, or nothing but white space in
front of the first. -/
theorem read_eq_error_iff :
    (∃ fault, read raw = .error fault)
      ↔ '=' ∉ raw.toList ∨ AllBlank (raw.toList.takeWhile (· != '=')) := by
  by_cases hmem : '=' ∈ raw.toList
  · obtain ⟨before, behind, hraw, hfirst⟩ := List.eq_append_cons_of_mem hmem
    rw [or_iff_right (not_not_intro hmem), read_of_split hraw hfirst, hraw,
      takeWhile_first hfirst, ← trimChars_eq_nil_iff]
    by_cases hblank : trimChars before = []
    · simp [hblank]
    · simp [hblank]
  · exact iff_of_true ⟨_, read_of_noEquals hmem⟩ (Or.inl hmem)

/-- A pair that is read stands in the text, and its key is a proper one. -/
theorem standsIn_of_read (h : read raw = .ok (key, value)) :
    IsKey key.toList ∧ StandsIn key value raw := by
  by_cases hmem : '=' ∈ raw.toList
  · obtain ⟨before, behind, hraw, hfirst⟩ := List.eq_append_cons_of_mem hmem
    rw [read_of_split hraw hfirst] at h
    split at h
    next => cases h
    next hkey =>
      cases h
      have hplain : '=' ∉ trimChars before := by
        intro hequals
        obtain ⟨left, right, hpadded, -, -⟩ := exists_padding before
        apply hfirst
        rw [hpadded]
        simp [hequals]
      rw [String.toList_ofList]
      refine ⟨⟨hkey, isTrimmed_trimChars before, hplain⟩, before, behind,
        hraw, hfirst, String.toList_ofList, ?_⟩
      rw [String.toList_ofList]
      by_cases hquoted : IsQuoted (trimChars behind)
      · obtain ⟨quote, inner, hquote, hcs⟩ := hquoted
        refine Or.inr ⟨quote, hquote, ?_⟩
        rw [hcs, unquoteChars_quoted hquote]
      · exact Or.inl ⟨unquoteChars_eq_self hquoted, hquoted⟩
  · rw [read_of_noEquals hmem] at h
    cases h

/-- A key is read with white space around it, and the value is what stands
behind. -/
theorem read_of_key {left right after : List Char} (hkey : IsKey key.toList)
    (hleft : AllBlank left) (hright : AllBlank right)
    (hraw : raw.toList = left ++ key.toList ++ right ++ '=' :: after) :
    read raw = .ok (key, .ofList (unquoteChars (trimChars after))) := by
  have hplain {blank : List Char} (h : AllBlank blank) : '=' ∉ blank :=
    fun hmem => absurd (h '=' hmem) (by decide)
  have hfirst : '=' ∉ left ++ key.toList ++ right := by
    simp [hplain hleft, hkey.plain, hplain hright]
  rw [read_of_split hraw hfirst, trimChars_padded hleft hkey.trimmed hright,
    if_neg hkey.ne_nil, String.ofList_toList]

/-- In quotes every value can be given. -/
theorem read_of_isQuotedForm (hkey : IsKey key.toList)
    (hform : IsQuotedForm key value raw) : read raw = .ok (key, value) := by
  obtain ⟨quote, left, right, before, behind, hquote, hleft, hright, hbefore,
    hbehind, hraw⟩ := hform
  rw [read_of_key hkey hleft hright hraw,
    trimChars_padded hbefore (hquote.isTrimmed _) hbehind,
    unquoteChars_quoted hquote, String.ofList_toList]

/-- Without quotes a value can be given if there is nothing around it that
could be taken away, and not otherwise. -/
theorem read_bare_iff (hkey : IsKey key.toList) :
    read (key ++ "=" ++ value) = .ok (key, value)
      ↔ IsTrimmed value.toList ∧ ¬HasQuotes (Utf8.encode value) := by
  have hraw : (key ++ "=" ++ value).toList
      = [] ++ key.toList ++ [] ++ '=' :: value.toList := by
    simp
  rw [read_of_key hkey allBlank_nil allBlank_nil hraw, Utf8.encode,
    hasQuotes_iff, ← unquoteChars_trimChars_eq_self_iff]
  simp only [Except.ok.injEq, Prod.mk.injEq, true_and]
  rw [← String.toList_inj, String.toList_ofList]

-- ============================================================== the result

/-- **Every variable can be given.** With a proper key, every value is read
back from between quotes of either kind, and from its bare form just if that
has no white space and no pair of quotes around it. A text is refused just if
it has no `=`, or nothing but white space in front of the first; else a proper
key is read, and a value with at most one pair of quotes fewer. In bytes the
quotes are cut off at boundaries. -/
theorem pairs_read_exactly :
    (∀ key value raw : String, IsKey key.toList →
      IsQuotedForm key value raw → read raw = .ok (key, value))
      ∧ (∀ key value : String, IsKey key.toList →
        (read (key ++ "=" ++ value) = .ok (key, value)
          ↔ IsTrimmed value.toList ∧ ¬HasQuotes (Utf8.encode value)))
      ∧ (∀ raw : String,
        ((∃ fault, read raw = .error fault)
          ↔ '=' ∉ raw.toList
            ∨ AllBlank (raw.toList.takeWhile (· != '=')))
        ∧ ∀ key value, read raw = .ok (key, value) →
          IsKey key.toList ∧ StandsIn key value raw)
      ∧ ∀ value : String,
        unquoteBytes (Utf8.encode value)
            = Utf8.encodeChars (unquoteChars value.toList)
          ∧ (HasQuotes (Utf8.encode value) →
            IsBoundary (Utf8.encode value) 1
              ∧ IsBoundary (Utf8.encode value)
                  ((Utf8.encode value).length - 1)) := by
  refine ⟨fun _ _ _ => read_of_isQuotedForm, fun _ _ => read_bare_iff,
    fun raw => ⟨read_eq_error_iff, fun _ _ => standsIn_of_read⟩,
    fun value => ⟨unquoteBytes_encodeChars _, ?_⟩⟩
  intro hquotes
  obtain ⟨quote, inner, hquote, hvalue⟩ := hasQuotes_iff.1 hquotes
  have hcut := isBoundary_quoted hquote inner
  rw [← hvalue] at hcut
  exact hcut

/-- A value of a space, a quote, an `=` and a line break goes through in the
other quotes, between a tab and a no-break space; a value that is in quotes
itself does not go through without others. -/
theorem pairs_read_exactly_awkward :
    read " K\u0009=\u0009' \"=\n'\u00A0" = .ok ("K", " \"=\n")
      ∧ read ("K" ++ "=" ++ "'x'") ≠ .ok ("K", "'x'") := by
  have hletter : isBlank 'K' = false := by decide
  have hkey : IsKey ("K" : String).toList :=
    ⟨by decide, ⟨by simp [hletter], by simp [hletter]⟩, by decide⟩
  obtain ⟨hquoted, hbare, -, -⟩ := pairs_read_exactly
  constructor
  · refine hquoted "K" _ _ hkey ⟨'\'', [' '], ['\t'], ['\t'], ['\u00A0'],
      Or.inr rfl, ?_, ?_, ?_, ?_, ?_⟩
    · decide
    · decide
    · decide
    · decide
    · decide
  · rw [Ne, hbare "K" "'x'" hkey]
    rintro ⟨-, hnot⟩
    exact hnot (by decide)

end EnvPair

end Toolrun
