/-
A text is read back as it was written, in each of the four forms.

The two forms with escapes have the same step: what is written for a character
is either the character itself, which is plain then, or a backslash with an
escape that stands for it (`Spelled`). Between triple quotes the quotes of the
text are not taken one by one but by the run, together with those that end the
text. So what is said there is what the reader does behind quotes that it has
not taken yet (`multiline?_pass`), of which there are two at the most.
-/
import Toolrun.Proofs.Toml.Cursor
import Toolrun.Toml.Printer
import Toolrun.Toml.Scalar

namespace Toolrun.Toml

open Scalar

-- ============================================================= characters

/-- What holds of all codes below 128 holds of all characters of ASCII. -/
theorem ascii_forall {P : Char → Prop} (h : ∀ n < 128, P (Char.ofNat n))
    {c : Char} (hc : c.toNat < 128) : P c := by
  have hcode := h c.toNat hc
  rwa [Char.ofNat_toNat] at hcode

/-- What need not be hidden can stand for itself. -/
theorem isPlain_of_shown {c : Char} (hshown : isHidden c = false)
    (hbreak : c ≠ '\n') : isPlain c = true := by
  by_cases hascii : c.toNat < 128
  · have hall : ∀ n < 128, isHidden (Char.ofNat n) = false →
        Char.ofNat n ≠ '\n' → isPlain (Char.ofNat n) = true := by
      decide
    exact ascii_forall (P := fun c => isHidden c = false → c ≠ '\n' →
      isPlain c = true) hall hascii hshown hbreak
  · unfold isPlain isCommentChar
    rw [decide_eq_true (Nat.le_of_not_lt hascii), Bool.or_true]

theorem hexValue?_hexDigit {n : Nat} (h : n < 16) :
    hexValue? (hexDigit n) = some n := by
  have hall : ∀ i < 16, hexValue? (hexDigit i) = some i := by
    decide
  exact hall n h

theorem charOfCode?_toNat (c : Char) : charOfCode? c.toNat = some c := by
  unfold charOfCode?
  rw [if_pos (show c.toNat.isValidChar from c.valid), Char.ofNat_toNat]

theorem toNat_lt_of_hidden {c : Char} (h : isHidden c = true) :
    c.toNat < 128 := by
  unfold isHidden at h
  simp only [Bool.or_eq_true, Bool.and_eq_true, decide_eq_true_eq,
    beq_iff_eq] at h
  rcases h with ⟨⟨hlow, -⟩, -⟩ | rfl
  · omega
  · decide

-- =============================================================== escapes

/-- An escape, from behind its backslash, that stands for a character. It
begins with a letter or a quote, so that it does not continue a line. -/
structure Spelled (code : List Char) (ch : Char) : Prop where
  begins : ∃ first others, code = first :: others ∧ isSpace first = false
    ∧ first ≠ '\n' ∧ first ≠ '\r'
  takes : ∀ behind, Takes escape? code behind ch

theorem Spelled.letter {letter ch : Char}
    (hletter : escapeLetter? letter = some ch) : Spelled [letter] ch := by
  have hne (other : Char) (hnone : escapeLetter? other = none) :
      letter ≠ other := by
    rintro rfl
    rw [hletter] at hnone
    cases hnone
  refine ⟨⟨letter, [], rfl, ?_, hne '\n' rfl, hne '\r' rfl⟩, ?_⟩
  · unfold isSpace
    rw [beq_false_of_ne (hne ' ' rfl), beq_false_of_ne (hne '\t' rfl)]
    rfl
  · intro behind c hc
    refine ⟨c.skip 1, ?_, Cursor.rest_skip_of_append hc⟩
    unfold escape?
    rw [hc]
    simp only [List.singleton_append]
    split
    next heq =>
      injection heq with heq
      exact absurd heq (hne 'u' rfl)
    next heq =>
      injection heq with heq
      exact absurd heq (hne 'U' rfl)
    next letter' others hnot hnot' heq =>
      injection heq with heq
      rw [← heq, hletter]
      rfl
    next heq => cases heq

/-- The code of a hidden character stands for it. -/
theorem Spelled.hex {ch : Char} (h : ch.toNat < 128) :
    Spelled ['u', '0', '0', hexDigit (ch.toNat / 16), hexDigit (ch.toNat % 16)]
      ch := by
  refine ⟨⟨'u', _, rfl, rfl, by decide, by decide⟩, fun behind c hc => ?_⟩
  have hdigits : (c.skip 1).rest
      = ['0', '0', hexDigit (ch.toNat / 16), hexDigit (ch.toNat % 16)]
        ++ behind := by
    rw [Cursor.rest_skip, hc]
    rfl
  have hhigh := hexValue?_hexDigit (n := ch.toNat / 16) (by omega)
  have hlow := hexValue?_hexDigit (n := ch.toNat % 16) (by omega)
  have hzero : hexValue? '0' = some 0 := rfl
  refine ⟨(c.skip 1).skip 4, ?_, Cursor.rest_skip_of_append hdigits⟩
  unfold escape?
  rw [hc]
  show hexEscape? 4 (c.skip 1) = _
  unfold hexEscape?
  rw [hdigits]
  simp only [List.cons_append, List.take_succ_cons, List.take_zero,
    List.filterMap_cons, hzero, hhigh, hlow, List.filterMap_nil,
    List.length_cons, List.length_nil, if_pos, List.foldl_cons,
    List.foldl_nil]
  rw [show (((0 * 16 + 0) * 16 + 0) * 16 + ch.toNat / 16) * 16 + ch.toNat % 16
    = ch.toNat by omega, charOfCode?_toNat]
  rfl

/-- What is written for a character where escapes are read: the character
itself, which is plain then, or an escape. -/
theorem escape_cases (ch : Char) :
    (escape ch = [ch] ∧ (ch ≠ '\n' → isPlain ch = true) ∧ ch ≠ '\\' )
      ∨ ∃ code, escape ch = '\\' :: code ∧ Spelled code ch := by
  unfold escape
  split
  next => exact .inr ⟨_, rfl, .letter rfl⟩
  next => exact .inr ⟨_, rfl, .letter rfl⟩
  next => exact .inr ⟨_, rfl, .letter rfl⟩
  next => exact .inr ⟨_, rfl, .letter rfl⟩
  next => exact .inr ⟨_, rfl, .letter rfl⟩
  next hslash =>
    split
    next hhidden => exact .inr ⟨_, rfl, .hex (toNat_lt_of_hidden hhidden)⟩
    next hshown =>
      exact .inl ⟨rfl, isPlain_of_shown (Bool.eq_false_iff.2 hshown), hslash⟩

-- =============================================================== one line

/-- What is written for one character between double quotes. -/
def Piece (piece : List Char) (ch : Char) : Prop :=
  (piece = [ch] ∧ isPlain ch = true ∧ ch ≠ '"' ∧ ch ≠ '\\')
    ∨ ∃ code, piece = '\\' :: code ∧ Spelled code ch

/-- The inside of a text on one line is written piece by piece. -/
theorem basicInside_cons (ch : Char) (cs : List Char) :
    ∃ piece, basicInside (ch :: cs) = piece ++ basicInside cs
      ∧ Piece piece ch := by
  by_cases hquote : ch = '"'
  · subst hquote
    exact ⟨['\\', '"'], rfl, .inr ⟨['"'], rfl, .letter rfl⟩⟩
  by_cases hbreak : ch = '\n'
  · subst hbreak
    exact ⟨['\\', 'n'], rfl, .inr ⟨['n'], rfl, .letter rfl⟩⟩
  refine ⟨escape ch, basicInside.eq_4 ch cs hquote hbreak, ?_⟩
  rcases escape_cases ch with ⟨hself, hplain, hslash⟩ | hspelled
  · exact .inl ⟨hself, hplain hbreak, hquote, hslash⟩
  · exact .inr hspelled

theorem basic?_piece {piece : List Char} {ch : Char} (h : Piece piece ch)
    (fuel : Nat) (found : List Char) {behind : List Char} {c : Cursor}
    (hc : c.rest = piece ++ behind) :
    ∃ d, basic? (fuel + 1) found c = basic? fuel (ch :: found) d
      ∧ d.rest = behind := by
  rcases h with ⟨rfl, hplain, hquote, hslash⟩ | ⟨code, rfl, hspelled⟩
  · refine ⟨c.skip 1, ?_, Cursor.rest_skip_of_append hc⟩
    rw [basic?, hc]
    simp only [List.singleton_append]
    rw [if_pos hplain]
  · have hcode : (c.skip 1).rest = code ++ behind := by
      rw [Cursor.rest_skip, hc]
      rfl
    obtain ⟨d, hd, hrest⟩ := hspelled.takes behind _ hcode
    refine ⟨d, ?_, hrest⟩
    rw [basic?, hc]
    simp only [List.cons_append]
    rw [hd]

theorem Piece.length_pos {piece : List Char} {ch : Char}
    (h : Piece piece ch) : 0 < piece.length := by
  rcases h with ⟨rfl, -⟩ | ⟨code, rfl, -⟩ <;> exact Nat.succ_pos _

/-- A text between double quotes is taken, from behind the first one. -/
theorem basic?_inside (behind cs : List Char) {fuel : Nat} (found : List Char)
    {c : Cursor} (hc : c.rest = basicInside cs ++ '"' :: behind)
    (hfuel : c.rest.length < fuel) :
    ∃ d, basic? fuel found c = some (found.reverse ++ cs, d)
      ∧ d.rest = behind := by
  induction cs generalizing fuel found c with
  | nil =>
      obtain ⟨fuel, rfl⟩ :=
        Nat.exists_eq_add_one.2 (Nat.zero_lt_of_lt hfuel)
      have hquote : c.rest = ['"'] ++ behind := hc
      refine ⟨c.skip 1, ?_, Cursor.rest_skip_of_append hquote⟩
      rw [basic?, hc, List.append_nil]
      rfl
  | cons ch cs ih =>
      obtain ⟨piece, hinside, hpiece⟩ := basicInside_cons ch cs
      obtain ⟨fuel, rfl⟩ :=
        Nat.exists_eq_add_one.2 (Nat.zero_lt_of_lt hfuel)
      rw [hinside, List.append_assoc] at hc
      obtain ⟨d, hd, hrest⟩ := basic?_piece hpiece fuel found hc
      have hshorter : d.rest.length < fuel := by
        have hpos := hpiece.length_pos
        rw [hc, ← hrest, List.length_append] at hfuel
        omega
      obtain ⟨e, he, hbehind⟩ := ih (ch :: found) hrest hshorter
      refine ⟨e, ?_, hbehind⟩
      rw [hd, he, List.reverse_cons, List.append_assoc]
      rfl

/-- A text between single quotes is taken, from behind the first one, if all
of it is plain. -/
theorem literal?_inside {cs : List Char}
    (hplain : ∀ ch ∈ cs, isPlain ch = true ∧ ch ≠ '\'') (behind : List Char) :
    Takes literal? (cs ++ ['\'']) behind cs := by
  intro c hc
  rw [List.append_assoc] at hc
  have hbody : c.rest.takeWhile (fun ch => isPlain ch && ch != '\'') = cs := by
    rw [hc, List.takeWhile_append_of_pos]
    · show cs ++ [] = cs
      rw [List.append_nil]
    · intro ch hch
      obtain ⟨hplain, hquote⟩ := hplain ch hch
      rw [hplain, Bool.true_and]
      exact bne_iff_ne.2 hquote
  have hquote : (c.skip cs.length).rest = ['\''] ++ behind :=
    Cursor.rest_skip_of_append hc
  obtain ⟨d, hd, hrest⟩ := Cursor.expect?_of_append hquote
  refine ⟨d, ?_, hrest⟩
  unfold literal?
  simp only [hbody]
  rw [hd]
  rfl

-- =========================================================== several lines

/-- What is written for one character between triple quotes, unless it is a
quote that stands for itself. -/
def LinesPiece (quote : Char) (piece : List Char) (ch : Char) : Prop :=
  (piece = [ch] ∧ (isPlain ch = true ∨ ch = '\n') ∧ ch ≠ quote
      ∧ ¬(ch = '\\' ∧ quote = '"'))
    ∨ (quote = '"' ∧ ∃ code, piece = '\\' :: code ∧ Spelled code ch)

/-- How a text may be written between triple quotes, where so many quotes of
the text stand directly before. Never more than two of them stand side by
side. -/
inductive LinesWritten (quote : Char) : Nat → List Char → List Char → Prop where
  | done {q : Nat} (hq : q ≤ 2) : LinesWritten quote q [] []
  | quote {q : Nat} {cs written : List Char} (hq : q < 2)
      (h : LinesWritten quote (q + 1) cs written) :
      LinesWritten quote q (quote :: cs) (quote :: written)
  | piece {q : Nat} {ch : Char} {piece cs written : List Char} (hq : q ≤ 2)
      (hpiece : LinesPiece quote piece ch)
      (h : LinesWritten quote 0 cs written) :
      LinesWritten quote q (ch :: cs) (piece ++ written)

variable {quote : Char}

theorem LinesPiece.begins {piece : List Char} {ch : Char}
    (h : LinesPiece quote piece ch) :
    ∃ first others, piece = first :: others ∧ first ≠ quote := by
  rcases h with ⟨rfl, -, hquote, -⟩ | ⟨rfl, code, rfl, -⟩
  · exact ⟨ch, [], rfl, hquote⟩
  · exact ⟨'\\', code, rfl, by decide⟩

/-- A run of quotes is taken as a whole. -/
theorem multiline?_run {q : Nat} {behind : List Char}
    (hbehind : behind.head? ≠ some quote) (fuel : Nat) (found : List Char)
    {c : Cursor} (hc : c.rest = List.replicate (q + 1) quote ++ behind) :
    multiline? quote (fuel + 1) found c
      = match closing? (q + 1) with
        | none => none
        | some (kept, done) =>
          if done then
            some ((List.replicate kept quote ++ found).reverse,
              c.skip (q + 1))
          else
            multiline? quote fuel (List.replicate kept quote ++ found)
              (c.skip (q + 1)) := by
  have hrun : (c.rest.takeWhile (· == quote)).length = q + 1 := by
    have hnone : behind.takeWhile (· == quote) = [] := by
      cases behind with
      | nil => rfl
      | cons first others =>
          refine List.takeWhile_cons_of_neg fun hsame => hbehind ?_
          rw [List.head?_cons, beq_iff_eq.1 hsame]
    rw [hc, List.takeWhile_append_of_pos
        (fun ch hch => beq_iff_eq.2 (List.eq_of_mem_replicate hch)),
      hnone, List.append_nil, List.length_replicate]
  rw [multiline?]
  rw [List.replicate_succ, List.cons_append] at hc
  simp only [hrun]
  rw [hc]
  exact if_pos rfl

theorem multiline?_piece {piece : List Char} {ch : Char}
    (h : LinesPiece quote piece ch) (fuel : Nat) (found : List Char)
    {behind : List Char} {c : Cursor} (hc : c.rest = piece ++ behind) :
    ∃ d, multiline? quote (fuel + 1) found c
        = multiline? quote fuel (ch :: found) d ∧ d.rest = behind := by
  rcases h with ⟨rfl, hplain, hquote, hslash⟩ | ⟨rfl, code, rfl, hspelled⟩
  · rw [List.singleton_append] at hc
    rw [multiline?, hc]
    have hescape : ¬(decide (ch = '\\') && decide (quote = '"')) = true := by
      rwa [Bool.and_eq_true, decide_eq_true_iff, decide_eq_true_iff]
    simp only [if_neg hquote, if_neg hescape]
    rcases hplain with hplain | rfl
    · have hne (other : Char) (hother : isPlain other = false) :
          ch ≠ other := by
        rintro rfl
        rw [hother] at hplain
        cases hplain
      refine ⟨c.skip 1, ?_, by rw [Cursor.rest_skip, hc]; rfl⟩
      rw [Cursor.lineBreak?_of_ne hc (hne '\n' rfl) (hne '\r' rfl)]
      exact if_pos hplain
    · obtain ⟨d, hd, hrest⟩ := Cursor.lineBreak?_of_cons hc
      exact ⟨d, by rw [hd], hrest⟩
  · have hcode : (c.skip 1).rest = code ++ behind := by
      rw [Cursor.rest_skip, hc]
      rfl
    obtain ⟨first, others, rfl, hspace, hfeed, hreturn⟩ := hspelled.begins
    have hnoBreak : (c.skip 1).skipSpace.lineBreak? = none :=
      Cursor.lineBreak?_of_ne (Cursor.skipSpace_of_cons hcode hspace) hfeed
        hreturn
    obtain ⟨d, hd, hrest⟩ := hspelled.takes behind _ hcode
    refine ⟨d, ?_, hrest⟩
    rw [multiline?, hc]
    simp only [List.cons_append]
    rw [if_neg (by decide), if_pos (by decide), hnoBreak]
    simp only []
    rw [hd]

/-- One or two quotes are passed over, as part of the text. -/
theorem multiline?_pass {q : Nat} (hq : q ≤ 2) {behind : List Char}
    (hbehind : behind.head? ≠ some quote) {fuel : Nat} (found : List Char)
    {c : Cursor} (hc : c.rest = List.replicate q quote ++ behind)
    (hfuel : c.rest.length < fuel) :
    ∃ fuel' d, multiline? quote fuel found c
        = multiline? quote fuel' (List.replicate q quote ++ found) d
      ∧ d.rest = behind ∧ behind.length < fuel' := by
  cases q with
  | zero =>
      rw [hc] at hfuel
      exact ⟨fuel, c, rfl, hc, hfuel⟩
  | succ q =>
      obtain ⟨fuel, rfl⟩ :=
        Nat.exists_eq_add_one.2 (Nat.zero_lt_of_lt hfuel)
      have hclosing : closing? (q + 1) = some (q + 1, false) := if_pos hq
      have hrest : (c.skip (q + 1)).rest = behind := by
        rw [Cursor.rest_skip, hc]
        simp
      refine ⟨fuel, c.skip (q + 1), ?_, hrest, ?_⟩
      · rw [multiline?_run hbehind fuel found hc, hclosing]
        rfl
      · rw [hc, List.length_append, List.length_replicate] at hfuel
        omega

/-- A text between triple quotes is taken, from behind the first three and
whatever quotes of the text have been passed over. -/
theorem multiline?_written {behind : List Char}
    (hbehind : behind.head? ≠ some quote) {q : Nat} {cs written : List Char}
    (h : LinesWritten quote q cs written) {fuel : Nat} (found : List Char)
    {c : Cursor}
    (hc : c.rest = List.replicate q quote
      ++ (written ++ (List.replicate 3 quote ++ behind)))
    (hfuel : c.rest.length < fuel) :
    ∃ d, multiline? quote fuel found c
        = some (found.reverse ++ (List.replicate q quote ++ cs), d)
      ∧ d.rest = behind := by
  induction h generalizing fuel found c with
  | @done q hq =>
      -- the quotes that were passed over and the closing three are one run
      obtain ⟨fuel, rfl⟩ :=
        Nat.exists_eq_add_one.2 (Nat.zero_lt_of_lt hfuel)
      rw [List.nil_append, ← List.append_assoc, List.replicate_append_replicate]
        at hc
      refine ⟨c.skip (q + 3), ?_, ?_⟩
      · have hclosing : closing? (q + 3) = some (q, true) := by
          unfold closing?
          rw [if_neg (by omega), if_pos (by omega), Nat.add_sub_cancel]
        rw [multiline?_run hbehind fuel found hc, hclosing]
        simp
      · rw [Cursor.rest_skip, hc]
        simp
  | @quote q cs written hq h ih =>
      -- nothing is read yet: the run that stands before has become longer
      have hmoved (others : List Char) :
          List.replicate q quote ++ quote :: others
            = List.replicate (q + 1) quote ++ others := by
        rw [List.replicate_succ', List.append_assoc]
        rfl
      rw [List.cons_append, hmoved] at hc
      rw [hmoved]
      exact ih found hc hfuel
  | @piece q ch piece cs written hq hpiece h ih =>
      -- what ends the run is no quote, so the run is passed over as text
      obtain ⟨first, others, hfirst, hne⟩ := hpiece.begins
      rw [List.append_assoc] at hc
      have hhead : (piece ++ (written
          ++ (List.replicate 3 quote ++ behind))).head? ≠ some quote := by
        rw [hfirst]
        intro hsame
        injection hsame with hsame
        exact hne hsame
      obtain ⟨fuel, d, hd, hrest, hfuel⟩ :=
        multiline?_pass hq hhead found hc hfuel
      obtain ⟨fuel, rfl⟩ :=
        Nat.exists_eq_add_one.2 (Nat.zero_lt_of_lt hfuel)
      obtain ⟨e, he, hrest⟩ := multiline?_piece hpiece fuel
        (List.replicate q quote ++ found) hrest
      have hshorter : e.rest.length < fuel := by
        rw [hfirst, ← hrest, List.length_append, List.length_cons] at hfuel
        omega
      obtain ⟨g, hg, hbehind⟩ := ih
        (ch :: (List.replicate q quote ++ found)) hrest hshorter
      refine ⟨g, ?_, hbehind⟩
      rw [hd, he, hg]
      simp

theorem written_basicLines (cs : List Char) {q : Nat} (hq : q ≤ 2) :
    LinesWritten '"' q cs (basicLinesInside q cs) := by
  induction cs generalizing q with
  | nil =>
      rw [basicLinesInside]
      exact .done hq
  | cons ch cs ih =>
      by_cases hquote : ch = '"'
      · subst hquote
        rw [basicLinesInside]
        split
        next =>
          have hpiece : LinesPiece '"' ['\\', '"'] '"' :=
            .inr ⟨rfl, ['"'], rfl, .letter rfl⟩
          exact .piece hq hpiece (ih (Nat.zero_le 2))
        next hlast => exact .quote (by omega) (ih (by omega))
      by_cases hbreak : ch = '\n'
      · subst hbreak
        rw [basicLinesInside]
        have hpiece : LinesPiece '"' ['\n'] '\n' :=
          .inl ⟨rfl, .inr rfl, by decide, by decide⟩
        exact .piece hq hpiece (ih (Nat.zero_le 2))
      rw [basicLinesInside.eq_4 _ _ _ hquote hbreak]
      refine .piece hq ?_ (ih (Nat.zero_le 2))
      rcases escape_cases ch with ⟨hself, hplain, hslash⟩ | hspelled
      · exact .inl ⟨hself, .inl (hplain hbreak), hquote,
          fun h => hslash h.1⟩
      · exact .inr ⟨rfl, hspelled⟩

-- ================================================================== runs

/-- One character more for the length of the run that is under way, and that
of the longest one. -/
def runStep (quote : Char) (run : Nat × Nat) (ch : Char) : Nat × Nat :=
  if ch = quote then (run.1 + 1, max run.2 (run.1 + 1)) else (0, run.2)

theorem le_longest (quote : Char) (cs : List Char) (run : Nat × Nat) :
    run.2 ≤ (cs.foldl (runStep quote) run).2 := by
  induction cs generalizing run with
  | nil => exact Nat.le_refl _
  | cons ch cs ih =>
      refine Nat.le_trans ?_ (ih (runStep quote run ch))
      unfold runStep
      split
      · exact Nat.le_max_left _ _
      · exact Nat.le_refl _

theorem not_mem_of_longestRun {cs : List Char} (h : longestRun quote cs = 0) :
    quote ∉ cs := by
  intro hmem
  obtain ⟨before, after, rfl⟩ := List.append_of_mem hmem
  change ((before ++ quote :: after).foldl (runStep quote) (0, 0)).2 = 0 at h
  rw [List.foldl_append, List.foldl_cons] at h
  have hle := le_longest quote after (runStep quote
    (before.foldl (runStep quote) (0, 0)) quote)
  rw [h] at hle
  unfold runStep at hle
  rw [if_pos rfl] at hle
  simp at hle

/-- A text whose runs of quotes are short stands as it is between triple
quotes, if the rest of it is plain. -/
theorem written_literal {cs : List Char}
    (hplain : ∀ ch ∈ cs, isPlain ch = true ∨ ch = '\n')
    (hsingle : quote ≠ '"') {q best : Nat} (hq : q ≤ 2)
    (hruns : (cs.foldl (runStep quote) (q, best)).2 ≤ 2) :
    LinesWritten quote q cs cs := by
  induction cs generalizing q best with
  | nil => exact .done hq
  | cons ch cs ih =>
      have hothers := fun x hx => hplain x (List.mem_cons_of_mem ch hx)
      rw [List.foldl_cons] at hruns
      by_cases hquote : ch = quote
      · subst hquote
        rw [runStep, if_pos rfl] at hruns
        have hlonger := Nat.le_trans (le_longest ch cs _) hruns
        have hnext : q + 1 ≤ 2 := Nat.le_trans (Nat.le_max_right _ _) hlonger
        exact .quote hnext (ih hothers hnext hruns)
      · rw [runStep, if_neg hquote] at hruns
        have hpiece : LinesPiece quote [ch] ch :=
          .inl ⟨rfl, hplain ch List.mem_cons_self, hquote,
            fun h => hsingle h.2⟩
        exact .piece hq hpiece (ih hothers (Nat.zero_le 2) hruns)

-- ============================================================== the forms

/-- What a text has to be like for a form to hold it: the literal ones cannot
hold everything. -/
def TextForm.Fits (cs : List Char) : TextForm → Prop
  | .basic => True
  | .literal => ∀ ch ∈ cs, isPlain ch = true ∧ ch ≠ '\''
  | .basicLines => True
  | .literalLines =>
    (∀ ch ∈ cs, isPlain ch = true ∨ ch = '\n') ∧ longestRun '\'' cs ≤ 2

theorem TextForm.write_begins (cs : List Char) (form : TextForm) :
    ∃ first others, form.write cs = first :: others
      ∧ (first = '"' ∨ first = '\'') := by
  cases form with
  | basic => exact ⟨'"', _, rfl, .inl rfl⟩
  | literal => exact ⟨'\'', _, rfl, .inr rfl⟩
  | basicLines => exact ⟨'"', _, rfl, .inl rfl⟩
  | literalLines => exact ⟨'\'', _, rfl, .inr rfl⟩

theorem TextForm.fits_of (cs : List Char) : (TextForm.of cs).Fits cs := by
  have hplain (hshown : (!cs.any isHidden) = true) :
      ∀ ch ∈ cs, isPlain ch = true ∨ ch = '\n' := by
    intro ch hch
    by_cases hbreak : ch = '\n'
    · exact .inr hbreak
    · rw [Bool.not_eq_true', List.any_eq_false] at hshown
      exact .inl (isPlain_of_shown (Bool.eq_false_iff.2 (hshown ch hch))
        hbreak)
  unfold TextForm.of
  simp only []
  split
  · exact trivial
  split
  next h =>
    simp only [Bool.and_eq_true, decide_eq_true_eq] at h
    obtain ⟨⟨hshown, hsingles⟩, hbreak⟩ := h
    intro ch hch
    refine ⟨(hplain hshown ch hch).resolve_right ?_, ?_⟩
    · rintro rfl
      rw [List.contains_iff_mem.2 hch] at hbreak
      cases hbreak
    · rintro rfl
      exact not_mem_of_longestRun hsingles hch
  split
  · exact trivial
  split
  next h =>
    simp only [Bool.and_eq_true, decide_eq_true_eq] at h
    exact ⟨hplain h.1, h.2⟩
  split <;> exact trivial

/-- A text on one line is taken from behind its opening quote. -/
theorem basic?_write {cs behind : List Char} {c : Cursor}
    (hc : c.rest = TextForm.basic.write cs ++ behind) :
    c.rest = '"' :: (basicInside cs ++ '"' :: behind)
      ∧ ∃ d, basic? (c.rest.length + 1) [] (c.skip 1) = some (cs, d)
        ∧ d.rest = behind := by
  have hopen : c.rest = '"' :: (basicInside cs ++ '"' :: behind) := by
    rw [hc, TextForm.write, List.cons_append, List.append_assoc]
    rfl
  have hinside : (c.skip 1).rest = basicInside cs ++ '"' :: behind := by
    rw [Cursor.rest_skip, hopen]
    rfl
  have hfuel : (c.skip 1).rest.length < c.rest.length + 1 := by
    rw [Cursor.rest_skip, List.length_drop]
    omega
  exact ⟨hopen, basic?_inside behind cs [] hinside hfuel⟩

theorem literal?_write {cs behind : List Char}
    (h : TextForm.literal.Fits cs) {c : Cursor}
    (hc : c.rest = TextForm.literal.write cs ++ behind) :
    c.rest = '\'' :: (cs ++ ['\''] ++ behind)
      ∧ ∃ d, literal? (c.skip 1) = some (cs, d) ∧ d.rest = behind := by
  rw [TextForm.write, List.cons_append] at hc
  have hinside : (c.skip 1).rest = (cs ++ ['\'']) ++ behind := by
    rw [Cursor.rest_skip, hc]
    rfl
  exact ⟨hc, literal?_inside h behind _ hinside⟩

/-- A text on one line does not look like the beginning of three quotes. -/
theorem basicInside_not_quotes (cs : List Char) {behind : List Char}
    (hbehind : behind.head? ≠ some '"') (others : List Char) :
    basicInside cs ++ '"' :: behind ≠ '"' :: '"' :: others := by
  intro h
  cases cs with
  | nil =>
      injection h with _ h
      rw [h] at hbehind
      exact hbehind rfl
  | cons ch cs =>
      obtain ⟨piece, hinside, hpiece⟩ := basicInside_cons ch cs
      rw [hinside] at h
      rcases hpiece with ⟨rfl, -, hquote, -⟩ | ⟨code, rfl, -⟩
      · injection h with h _
        exact hquote h
      · injection h with h _
        cases h

theorem literal_not_quotes {cs : List Char}
    (hplain : ∀ ch ∈ cs, isPlain ch = true ∧ ch ≠ '\'') {behind : List Char}
    (hbehind : behind.head? ≠ some '\'') (others : List Char) :
    cs ++ ['\''] ++ behind ≠ '\'' :: '\'' :: others := by
  intro h
  cases cs with
  | nil =>
      injection h with _ h
      change behind = _ at h
      rw [h] at hbehind
      exact hbehind rfl
  | cons ch cs =>
      injection h with h _
      exact (hplain ch List.mem_cons_self).2 h

/-- What is written between triple quotes does not begin with a line break if
there is none in the text. -/
theorem LinesWritten.begins {cs written : List Char}
    (h : LinesWritten quote 0 cs written) (hbreak : '\n' ∉ cs)
    (hquote : quote = '"' ∨ quote = '\'') (behind : List Char) :
    ∃ first others, written ++ (List.replicate 3 quote ++ behind)
        = first :: others ∧ first ≠ '\n' ∧ first ≠ '\r' := by
  have hquotes : quote ≠ '\n' ∧ quote ≠ '\r' := by
    rcases hquote with rfl | rfl <;> decide
  cases h with
  | done => exact ⟨quote, _, rfl, hquotes⟩
  | quote => exact ⟨quote, _, rfl, hquotes⟩
  | @piece _ ch piece cs written hq hpiece h =>
      rcases hpiece with ⟨rfl, hplain, -, -⟩ | ⟨-, code, rfl, -⟩
      · have hfeed : ch ≠ '\n' :=
          fun hsame => hbreak (hsame ▸ List.mem_cons_self)
        refine ⟨ch, _, rfl, hfeed, ?_⟩
        rintro rfl
        rcases hplain with hplain | hplain <;> cases hplain
      · exact ⟨'\\', _, rfl, by decide, by decide⟩

/-- A line break behind the opening quotes is skipped, if it was put there. -/
theorem skipFirstBreak_opening {cs written : List Char}
    (h : LinesWritten quote 0 cs written)
    (hquote : quote = '"' ∨ quote = '\'') {behind : List Char} {c : Cursor}
    (hc : c.rest
      = openingBreak cs ++ (written ++ (List.replicate 3 quote ++ behind))) :
    (skipFirstBreak c).rest
      = written ++ (List.replicate 3 quote ++ behind) := by
  unfold skipFirstBreak
  unfold openingBreak at hc
  split at hc
  next hbreak =>
    obtain ⟨d, hd, hrest⟩ := Cursor.lineBreak?_of_cons hc
    rw [hd]
    exact hrest
  next hbreak =>
    have hnone : '\n' ∉ cs := fun hmem => hbreak (List.elem_eq_true_of_mem hmem)
    obtain ⟨first, others, hfirst, hfeed, hreturn⟩ :=
      h.begins hnone hquote behind
    rw [List.nil_append] at hc
    rw [Cursor.lineBreak?_of_ne (hc.trans hfirst) hfeed hreturn]
    exact hc

theorem string?_lines {cs written : List Char}
    (h : LinesWritten quote 0 cs written)
    (hquote : quote = '"' ∨ quote = '\'') {behind : List Char}
    (hbehind : behind.head? ≠ some quote) :
    Takes string?
      (List.replicate 3 quote
        ++ (openingBreak cs ++ written ++ List.replicate 3 quote))
      behind (String.ofList cs) := by
  intro c hc
  have hopen : (c.skip 3).rest
      = openingBreak cs ++ (written ++ (List.replicate 3 quote ++ behind)) := by
    rw [Cursor.rest_skip, hc]
    simp [List.drop_append]
  have hinside := skipFirstBreak_opening h hquote hopen
  have hfuel : (skipFirstBreak (c.skip 3)).rest.length < c.rest.length + 1 := by
    rw [hinside, hc]
    simp only [List.length_append]
    omega
  obtain ⟨d, hd, hrest⟩ := multiline?_written hbehind h [] hinside hfuel
  refine ⟨d, ?_, hrest⟩
  have hread : string? c
      = (multiline? quote (c.rest.length + 1) []
          (skipFirstBreak (c.skip 3))).map
        fun (cs, d) => (String.ofList cs, d) := by
    unfold string?
    rcases hquote with rfl | rfl
    · rw [hc]
      rfl
    · rw [hc]
      rfl
  rw [hread, hd]
  rfl

/-- Behind a double quote that is not the first of three there is a text on
one line. -/
theorem string?_basic {c : Cursor} {behind : List Char}
    (hc : c.rest = '"' :: behind)
    (hnot : ∀ others, behind ≠ '"' :: '"' :: others) :
    string? c = (basic? (c.rest.length + 1) [] (c.skip 1)).map
      fun (cs, d) => (String.ofList cs, d) := by
  unfold string?
  -- That there are not three quotes decides between the forms.
  simp only [hc]

theorem string?_literal {c : Cursor} {behind : List Char}
    (hc : c.rest = '\'' :: behind)
    (hnot : ∀ others, behind ≠ '\'' :: '\'' :: others) :
    string? c = (literal? (c.skip 1)).map
      fun (cs, d) => (String.ofList cs, d) := by
  unfold string?
  simp only [hc]

/-- A text is taken in whichever form it is written, if the form can hold
it. -/
theorem string?_write {cs : List Char} {form : TextForm} (h : form.Fits cs)
    {behind : List Char} (hdouble : behind.head? ≠ some '"')
    (hsingle : behind.head? ≠ some '\'') :
    Takes string? (form.write cs) behind (String.ofList cs) := by
  cases form with
  | basic =>
      intro c hc
      obtain ⟨hopen, d, hd, hrest⟩ := basic?_write hc
      refine ⟨d, ?_, hrest⟩
      rw [string?_basic hopen (basicInside_not_quotes cs hdouble), hd]
      rfl
  | literal =>
      intro c hc
      obtain ⟨hopen, d, hd, hrest⟩ := literal?_write h hc
      refine ⟨d, ?_, hrest⟩
      rw [string?_literal hopen (literal_not_quotes h hsingle), hd]
      rfl
  | basicLines =>
      exact string?_lines (written_basicLines cs (Nat.zero_le 2)) (.inl rfl)
        hdouble
  | literalLines =>
      exact string?_lines
        (written_literal h.1 (by decide) (Nat.zero_le 2) h.2) (.inr rfl)
        hsingle

/-- A text is read back. -/
theorem string?_writeText (cs : List Char) {behind : List Char}
    (hdouble : behind.head? ≠ some '"') (hsingle : behind.head? ≠ some '\'') :
    Takes string? (writeText cs) behind (String.ofList cs) :=
  string?_write (TextForm.fits_of cs) hdouble hsingle

end Toolrun.Toml
