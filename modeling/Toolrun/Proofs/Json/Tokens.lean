/-
The readers of the tokens take what the grammar allows and nothing else.

For white space, escapes and strings that is said in one sentence, since each
of them ends with a mark of its own: the reader gives back a result just when
the grammar has it. A number has no such mark; it is read as far as it goes.
So what is read is a number (`unsigned_of_number`), and a number is read if
what is behind it does not carry it on (`number_of_unsigned`).

That a number is read at all is a matter of its size, too. The reader keeps as
many digits as fit in 64 bits, and turns these and the power of ten into
binary one after the other; it refuses what overflows on the way.
-/
import Toolrun.Proofs.Fallible
import Toolrun.Proofs.Json.Grammar
import Toolrun.Proofs.Json.Printer

namespace Toolrun.Json

/-- The size of a number is one that the reader can put in binary. -/
def Numeral.Converts (n : Numeral) : Prop := Reader.excess n = none

namespace Reader

open Fallible

variable {text rest : Bytes}

-- ============================================================ white space

theorem space_skipSpace (text : Bytes) : Space text (skipSpace text) := by
  induction text with
  | nil => exact .none
  | cons b text ih =>
      cases hb : isSpace b with
      | true =>
          have hskip : skipSpace (b :: text) = skipSpace text := by
            simp [skipSpace, hb]
          rw [hskip]
          exact .more hb ih
      | false =>
          rw [skipSpace_cons hb]
          exact .none

/-- The next token is found from anywhere in the white space before it. -/
theorem skipSpace_eq_of_space (h : Space text rest) :
    skipSpace text = skipSpace rest := by
  induction h with
  | none => rfl
  | more hb _ ih => simpa [skipSpace, hb] using ih

theorem skipSpace_of_space {b : UInt8} (h : Space text (b :: rest))
    (hb : isSpace b = false) : skipSpace text = b :: rest := by
  rw [skipSpace_eq_of_space h, skipSpace_cons hb]

theorem isSpace_of_skipSpace {b : UInt8} (h : skipSpace text = b :: rest) :
    isSpace b = false := by
  have hnot := List.head?_dropWhile_not isSpace text
  unfold skipSpace at h
  simpa [h] using hnot

-- ================================================================ escapes

theorem hexQuad_eq_ok {code : Nat} :
    hexQuad text = .ok (code, rest) ↔ Hex code text rest := by
  constructor
  · intro h
    unfold hexQuad at h
    split at h
    next a b c d behind =>
      split at h
      next w x y z ha hb hc hd =>
        cases h
        exact .mk ha hb hc hd
      next => cases h
    next => cases h
  · rintro ⟨ha, hb, hc, hd⟩
    simp only [hexQuad, ha, hb, hc, hd]

theorem secondHalf_eq_ok {code : Nat} :
    secondHalf text = .ok (code, rest)
      ↔ ∃ between, text = 0x5C :: 0x75 :: between
        ∧ Hex code between rest := by
  constructor
  · intro h
    match text, h with
    | b :: u :: between, h =>
      rw [secondHalf] at h
      split at h
      next => cases h
      next hb =>
        split at h
        next => cases h
        next hu =>
          rw [not_not.1 hb, not_not.1 hu]
          exact ⟨between, rfl, hexQuad_eq_ok.1 h⟩
    | [b], h =>
      rw [secondHalf] at h
      split at h
      · cases h
      · cases h
  · rintro ⟨between, rfl, h⟩
    exact hexQuad_eq_ok.2 h

theorem isHigh_iff {code : Nat} :
    (0xD800 ≤ code && code ≤ 0xDBFF) = true ↔ IsHigh code := by
  rw [Bool.and_eq_true, decide_eq_true_eq, decide_eq_true_eq, IsHigh]

theorem isLow_iff {code : Nat} :
    (0xDC00 ≤ code && code ≤ 0xDFFF) = true ↔ IsLow code := by
  rw [Bool.and_eq_true, decide_eq_true_eq, decide_eq_true_eq, IsLow]

/-- An escape with a number is read just when the number is a code or it and
the next one are a pair. -/
theorem unicodeEscape_eq_ok {c : Char} :
    unicodeEscape text = .ok (c, rest) ↔ Coded c text rest := by
  unfold unicodeEscape
  simp only [isHigh_iff, isLow_iff]
  constructor
  · intro h
    obtain ⟨⟨first, behind⟩, hquad, h⟩ := bind_eq_ok.1 h
    have hfirst := hexQuad_eq_ok.1 hquad
    split at h
    next => cases h
    next hlow =>
      split at h
      next hhigh =>
        obtain ⟨⟨second, after⟩, hsecond, h⟩ := bind_eq_ok.1 h
        obtain ⟨between, rfl, hhalf⟩ := secondHalf_eq_ok.1 hsecond
        split at h
        next hlow =>
          obtain ⟨rfl, rfl⟩ := Prod.mk.inj (Except.ok.inj h)
          exact .pair hfirst hhalf hhigh hlow
        next => cases h
      next hhigh =>
        cases h
        exact .single hfirst hhigh hlow
  · intro h
    cases h with
    | @single _ _ code hcode hhigh hlow =>
        simp only [hexQuad_eq_ok.2 hcode, bind, Except.bind, if_neg hlow,
          if_neg hhigh]
    | @pair _ between _ high low hfirst hsecond hhigh hlow =>
        have hhalf : secondHalf (0x5C :: 0x75 :: between) = .ok (low, rest) :=
          secondHalf_eq_ok.2 ⟨between, rfl, hsecond⟩
        unfold pairCode
        simp only [hexQuad_eq_ok.2 hfirst, bind, Except.bind,
          if_neg hhigh.not_isLow, if_pos hhigh, hhalf, if_pos hlow]

/-- What stands behind a backslash is a letter or a number. -/
theorem escape_eq_ok {said : Bytes} :
    escape text = .ok (said, rest)
      ↔ (∃ b plain, letterEscape? b = some plain ∧ text = b :: rest
          ∧ said = [plain])
        ∨ ∃ c between, Coded c between rest ∧ text = 0x75 :: between
          ∧ said = String.utf8EncodeChar c := by
  constructor
  · intro h
    cases text with
    | nil => cases h
    | cons b text =>
        rw [escape] at h
        split at h
        next hb =>
          obtain ⟨⟨c, behind⟩, hcode, h⟩ := bind_eq_ok.1 h
          cases h
          subst hb
          exact .inr ⟨c, text, unicodeEscape_eq_ok.1 hcode, rfl, rfl⟩
        next =>
          split at h
          next plain hplain =>
            cases h
            exact .inl ⟨b, plain, hplain, rfl, rfl⟩
          next => cases h
  · rintro (⟨b, plain, hplain, rfl, rfl⟩ | ⟨c, between, hcode, rfl, rfl⟩)
    · have hb : b ≠ 0x75 := by
        rintro rfl
        cases hplain
      rw [escape, if_neg hb, hplain]
    · rw [escape, if_pos rfl, unicodeEscape_eq_ok.2 hcode]
      rfl

-- ================================================================ strings

theorem chars_of_stringFrom {fuel : Nat} {found said : Bytes}
    (h : stringFrom fuel found text = .ok (said, rest)) :
    ∃ more, Chars more text rest ∧ said = found.reverse ++ more := by
  induction fuel generalizing found text with
  | zero => cases h
  | succ fuel ih =>
      cases text with
      | nil => cases h
      | cons b text =>
          rw [stringFrom] at h
          split at h
          next hquote =>
            cases h
            subst hquote
            exact ⟨[], .close, (List.append_nil _).symm⟩
          next hquote =>
            split at h
            next hbackslash =>
              subst hbackslash
              obtain ⟨⟨plain, behind⟩, hescape, h⟩ := bind_eq_ok.1 h
              obtain ⟨more, hmore, rfl⟩ := ih h
              rw [List.reverse_append, List.reverse_reverse,
                List.append_assoc]
              rcases escape_eq_ok.1 hescape with
                ⟨b, plain, hletter, rfl, rfl⟩ | ⟨c, between, hcode, rfl, rfl⟩
              · exact ⟨_, .letter hletter hmore, rfl⟩
              · exact ⟨_, .coded hcode hmore, rfl⟩
            next hbackslash =>
              split at h
              next => cases h
              next hcontrol =>
                obtain ⟨more, hmore, rfl⟩ := ih h
                refine ⟨b :: more, ?_, ?_⟩
                · exact .plain hquote hbackslash (UInt8.not_lt.1 hcontrol)
                    hmore
                · rw [List.reverse_cons, List.append_assoc]
                  rfl

/-- An escape that is read is read in one round. -/
theorem stringFrom_escape {fuel : Nat} {found plain behind : Bytes}
    (h : escape text = .ok (plain, behind)) :
    stringFrom (fuel + 1) found (0x5C :: text)
      = stringFrom fuel (plain.reverse ++ found) behind := by
  rw [stringFrom, if_neg (by decide), if_pos rfl, h]
  rfl

theorem stringFrom_of_chars {fuel : Nat} {found said : Bytes}
    (h : Chars said text rest) (hfuel : text.length ≤ fuel) :
    stringFrom fuel found text = .ok (found.reverse ++ said, rest) := by
  induction h generalizing fuel found with
  | close =>
      obtain ⟨fuel, rfl⟩ := Nat.exists_eq_add_of_lt hfuel
      rw [List.append_nil, stringFrom, if_pos rfl]
  | @plain b said text rest hquote hbackslash hcontrol _ ih =>
      obtain ⟨fuel, rfl⟩ := Nat.exists_eq_add_one_of_ne_zero
        (Nat.ne_of_gt (Nat.zero_lt_of_lt hfuel))
      rw [stringFrom, if_neg hquote, if_neg hbackslash,
        if_neg (UInt8.not_lt.2 hcontrol), ih (Nat.le_of_succ_le_succ hfuel),
        List.reverse_cons, List.append_assoc]
      rfl
  | @letter b plain said text rest hletter _ ih =>
      obtain ⟨fuel, rfl⟩ := Nat.exists_eq_add_one_of_ne_zero
        (Nat.ne_of_gt (Nat.zero_lt_of_lt hfuel))
      have hescape : escape (b :: text) = .ok ([plain], text) :=
        escape_eq_ok.2 (.inl ⟨b, plain, hletter, rfl, rfl⟩)
      simp only [List.length_cons] at hfuel
      rw [stringFrom_escape hescape, ih (by omega), List.reverse_append,
        List.reverse_reverse, List.append_assoc]
      rfl
  | @coded c said text behind rest hcode _ ih =>
      obtain ⟨fuel, rfl⟩ := Nat.exists_eq_add_one_of_ne_zero
        (Nat.ne_of_gt (Nat.zero_lt_of_lt hfuel))
      have hescape : escape (0x75 :: text)
          = .ok (String.utf8EncodeChar c, behind) :=
        escape_eq_ok.2 (.inr ⟨c, text, hcode, rfl, rfl⟩)
      have hlength := hcode.length_lt
      simp only [List.length_cons] at hfuel
      rw [stringFrom_escape hescape, ih (by omega), List.reverse_append,
        List.reverse_reverse, List.append_assoc]

/-- A string is read just when the grammar has it. -/
theorem string_eq_ok {fuel : Nat} {said : Bytes} (hfuel : text.length ≤ fuel) :
    string fuel text = .ok (said, rest) ↔ Chars said text rest := by
  constructor
  · intro h
    obtain ⟨more, hmore, rfl⟩ := chars_of_stringFrom h
    exact hmore
  · exact fun h => stringFrom_of_chars h hfuel

-- ================================================================ numbers

/-- Digits end here. -/
def EndsDigits (rest : Bytes) : Prop := ∀ b ∈ rest.head?, isDigit b = false

/-- A number ends here. -/
def EndsNumber (rest : Bytes) : Prop :=
  ∀ b ∈ rest.head?, isDigit b = false ∧ b ≠ 0x2E ∧ b ≠ 0x65 ∧ b ≠ 0x45

theorem EndsNumber.endsDigits (h : EndsNumber rest) : EndsDigits rest :=
  fun b hb => (h b hb).1

theorem endsDigits_dropWhile (text : Bytes) :
    EndsDigits (text.dropWhile isDigit) := by
  intro b hb
  have hnot := List.head?_dropWhile_not isDigit text
  rw [Option.mem_def.1 hb] at hnot
  exact hnot

theorem takeWhile_of_endsDigits (h : EndsDigits rest) :
    rest.takeWhile isDigit = [] ∧ rest.dropWhile isDigit = rest := by
  cases rest with
  | nil => exact ⟨rfl, rfl⟩
  | cons b rest =>
      have hb : ¬ isDigit b = true := by
        rw [h b rfl]
        decide
      exact ⟨List.takeWhile_cons_of_neg hb, List.dropWhile_cons_of_neg hb⟩

/-- What is taken as digits is digits, and they end there. -/
theorem digits_of_takeWhile (text : Bytes) :
    (∀ d ∈ text.takeWhile isDigit, isDigit d = true)
      ∧ EndsDigits (text.dropWhile isDigit)
      ∧ text = text.takeWhile isDigit ++ text.dropWhile isDigit :=
  ⟨fun _ => List.mem_takeWhile_imp, endsDigits_dropWhile text,
    List.takeWhile_append_dropWhile.symm⟩

/-- All the digits are taken. -/
theorem takeWhile_of_digits {digits : Bytes}
    (hdigits : ∀ d ∈ digits, isDigit d = true) (hends : EndsDigits rest) :
    (digits ++ rest).takeWhile isDigit = digits
      ∧ (digits ++ rest).dropWhile isDigit = rest := by
  obtain ⟨htake, hdrop⟩ := takeWhile_of_endsDigits hends
  rw [List.takeWhile_append_of_pos hdigits,
    List.dropWhile_append_of_pos hdigits, htake, hdrop, List.append_nil]
  exact ⟨rfl, rfl⟩

theorem isWhole_zero : IsWhole [0x30] :=
  ⟨⟨by simp, by decide +kernel⟩, fun _ => rfl⟩

theorem isWhole_cons {b : UInt8} {digits : Bytes} (hfirst : b ≠ 0x30)
    (hb : isDigit b = true) (hdigits : ∀ d ∈ digits, isDigit d = true) :
    IsWhole (b :: digits) := by
  refine ⟨⟨by simp, List.forall_mem_cons.2 ⟨hb, hdigits⟩⟩, fun hzero => ?_⟩
  exact absurd (Option.some.inj hzero) hfirst

/-- The digits before the point are read up to where they end. -/
theorem wholePart_eq_ok {whole : Bytes} :
    wholePart text = .ok (whole, rest)
      ↔ IsWhole whole ∧ EndsDigits rest ∧ text = whole ++ rest := by
  constructor
  · intro h
    cases text with
    | nil => cases h
    | cons b text =>
        unfold wholePart at h
        simp only at h
        split at h
        next hb =>
          subst hb
          split at h
          next c behind =>
            split at h
            next => cases h
            next hc =>
              cases h
              refine ⟨isWhole_zero, ?_, rfl⟩
              intro d hd
              cases hd
              exact Bool.eq_false_iff.2 hc
          next =>
            cases h
            exact ⟨isWhole_zero, nofun, rfl⟩
        next hb =>
          split at h
          next hdigit =>
            cases h
            obtain ⟨hdigits, hends, htext⟩ := digits_of_takeWhile text
            refine ⟨isWhole_cons hb hdigit hdigits, hends, ?_⟩
            rw [List.cons_append, ← htext]
          next => cases h
  · rintro ⟨⟨⟨hne, hdigits⟩, hzero⟩, hends, rfl⟩
    obtain ⟨b, whole, rfl⟩ := List.exists_cons_of_ne_nil hne
    obtain ⟨hb, hwhole⟩ := List.forall_mem_cons.1 hdigits
    rw [List.cons_append]
    unfold wholePart
    simp only
    split
    next hfirst =>
      subst hfirst
      obtain rfl : whole = [] := by simpa using hzero rfl
      rw [List.nil_append]
      cases rest with
      | nil => rfl
      | cons c rest => simp [hends c rfl]
    next hfirst =>
      obtain ⟨htake, hdrop⟩ := takeWhile_of_digits hwhole hends
      rw [htake, hdrop]

/-- What is read of the digits behind the point is what is written there. -/
theorem fraction_of_fractionPart {fraction : Bytes}
    (h : fractionPart text = .ok (fraction, rest)) :
    ∃ point, Fraction fraction point ∧ text = point ++ rest := by
  unfold fractionPart at h
  split at h
  next behind =>
    split at h
    next => cases h
    next hne =>
      cases h
      obtain ⟨hdigits, -, htext⟩ := digits_of_takeWhile behind
      refine ⟨_, .point ⟨?_, hdigits⟩, ?_⟩
      · exact fun hnil => hne hnil
      · rw [List.cons_append, ← htext]
  next =>
    cases h
    exact ⟨[], .absent, rfl⟩

/-- Digits behind a point are read if neither a digit nor a point follows. -/
theorem fractionPart_of_fraction {fraction point : Bytes}
    (h : Fraction fraction point) (hends : EndsDigits rest)
    (hpoint : ∀ b ∈ rest.head?, b ≠ 0x2E) :
    fractionPart (point ++ rest) = .ok (fraction, rest) := by
  cases h with
  | absent =>
      rw [List.nil_append]
      unfold fractionPart
      split
      next => exact absurd rfl (hpoint _ rfl)
      next => rfl
  | point hdigits =>
      obtain ⟨hne, hdigits⟩ := hdigits
      obtain ⟨htake, hdrop⟩ := takeWhile_of_digits hdigits hends
      rw [List.cons_append, fractionPart, htake, hdrop]
      cases fraction with
      | nil => exact absurd rfl hne
      | cons d fraction => rfl

theorem exponentDigits_eq_ok {down : Bool} {exponent : Option (Bool × Bytes)} :
    exponentDigits down text = .ok (exponent, rest)
      ↔ ∃ digits, exponent = some (down, digits) ∧ IsDigits digits
        ∧ EndsDigits rest ∧ text = digits ++ rest := by
  constructor
  · intro h
    cases text with
    | nil => cases h
    | cons b text =>
        rw [exponentDigits] at h
        split at h
        next hb =>
          cases h
          obtain ⟨hdigits, hends, htext⟩ := digits_of_takeWhile text
          refine ⟨_, rfl, ⟨by simp, ?_⟩, hends, ?_⟩
          · exact List.forall_mem_cons.2 ⟨hb, hdigits⟩
          · rw [List.cons_append, ← htext]
        next => cases h
  · rintro ⟨digits, rfl, ⟨hne, hdigits⟩, hends, rfl⟩
    obtain ⟨b, digits, rfl⟩ := List.exists_cons_of_ne_nil hne
    obtain ⟨hb, hdigits⟩ := List.forall_mem_cons.1 hdigits
    obtain ⟨htake, hdrop⟩ := takeWhile_of_digits hdigits hends
    rw [List.cons_append, exponentDigits, if_pos hb, htake, hdrop]

theorem exponent_of_exponentPart {exponent : Option (Bool × Bytes)}
    (h : exponentPart text = .ok (exponent, rest)) :
    ∃ behind, Exponent exponent behind ∧ text = behind ++ rest := by
  unfold exponentPart at h
  split at h
  next =>
    cases h
    exact ⟨[], .absent, rfl⟩
  next e text =>
    simp only [Bool.or_eq_true, decide_eq_true_eq] at h
    split at h
    next he =>
      split at h
      next =>
        obtain ⟨digits, rfl, hdigits, -, rfl⟩ := exponentDigits_eq_ok.1 h
        exact ⟨_, .plus he hdigits, rfl⟩
      next =>
        obtain ⟨digits, rfl, hdigits, -, rfl⟩ := exponentDigits_eq_ok.1 h
        exact ⟨_, .minus he hdigits, rfl⟩
      next =>
        obtain ⟨digits, rfl, hdigits, -, rfl⟩ := exponentDigits_eq_ok.1 h
        exact ⟨_, .bare he hdigits, rfl⟩
    next =>
      cases h
      exact ⟨[], .absent, rfl⟩

theorem exponentPart_of_exponent {exponent : Option (Bool × Bytes)}
    {behind : Bytes} (h : Exponent exponent behind) (hends : EndsNumber rest) :
    exponentPart (behind ++ rest) = .ok (exponent, rest) := by
  have hdigits (down : Bool) {digits : Bytes} (h : IsDigits digits) :
      exponentDigits down (digits ++ rest)
        = .ok (some (down, digits), rest) :=
    exponentDigits_eq_ok.2 ⟨digits, rfl, h, hends.endsDigits, rfl⟩
  cases h with
  | absent =>
      cases rest with
      | nil => rfl
      | cons b rest =>
          obtain ⟨-, -, hlower, hupper⟩ := hends b rfl
          simp [exponentPart, hlower, hupper]
  | @bare e digits he h =>
      obtain ⟨d, others, rfl⟩ := List.exists_cons_of_ne_nil h.1
      have hd : isDigit d = true := h.2 d List.mem_cons_self
      have hplus : d ≠ 0x2B := by
        rintro rfl
        cases hd
      have hminus : d ≠ 0x2D := by
        rintro rfl
        cases hd
      have hread := hdigits false h
      simpa [exponentPart, he, hplus, hminus] using hread
  | plus he h =>
      have hread := hdigits false h
      simpa [exponentPart, he] using hread
  | minus he h =>
      have hread := hdigits true h
      simpa [exponentPart, he] using hread

/-- What is read as a number is one, and it converts. -/
theorem unsigned_of_number {negative : Bool} {v : Json}
    (h : number negative text = .ok (v, rest)) :
    ∃ n : Numeral, v = .number n ∧ n.negative = negative
      ∧ Unsigned n text rest ∧ n.Converts := by
  unfold number at h
  obtain ⟨⟨whole, text₁⟩, hwhole, hbehind⟩ := bind_eq_ok.1 h
  obtain ⟨⟨fraction, text₂⟩, hfraction, hbehind⟩ := bind_eq_ok.1 hbehind
  obtain ⟨⟨exponent, text₃⟩, hexponent, hjudged⟩ := bind_eq_ok.1 hbehind
  clear h hbehind
  obtain ⟨hwholeIs, -, rfl⟩ := wholePart_eq_ok.1 hwhole
  obtain ⟨point, hpoint, rfl⟩ := fraction_of_fractionPart hfraction
  obtain ⟨behind, hwritten, rfl⟩ := exponent_of_exponentPart hexponent
  simp only [] at hjudged
  split at hjudged
  next hconverts =>
    cases hjudged
    exact ⟨_, rfl, rfl, .mk hwholeIs hpoint hwritten, hconverts⟩
  next => cases hjudged

/-- An exponent does not carry on the digits before it. -/
theorem head?_behind {exponent : Option (Bool × Bytes)} {behind : Bytes}
    (h : Exponent exponent behind) (hends : EndsNumber rest) :
    ∀ b ∈ (behind ++ rest).head?, isDigit b = false ∧ b ≠ 0x2E := by
  intro b hb
  cases h with
  | absent =>
      obtain ⟨hdigit, hpoint, -, -⟩ := hends b hb
      exact ⟨hdigit, hpoint⟩
  | bare he | plus he | minus he =>
      cases hb
      rcases he with rfl | rfl <;> decide

/-- Nor does a point. -/
theorem endsDigits_point {fraction point : Bytes}
    (h : Fraction fraction point) (hends : EndsDigits rest) :
    EndsDigits (point ++ rest) := by
  cases h with
  | absent => exact hends
  | point _ =>
      intro b hb
      cases hb
      rfl

/-- A number that converts is read if it ends where the grammar says. -/
theorem number_of_unsigned {n : Numeral} (h : Unsigned n text rest)
    (hconverts : n.Converts) (hends : EndsNumber rest) :
    number n.negative text = .ok (.number n, rest) := by
  obtain ⟨hwhole, hfraction, hexponent⟩ := h
  have hbehind := head?_behind hexponent hends
  have hdigits : EndsDigits _ := fun b hb => (hbehind b hb).1
  have hwhole := wholePart_eq_ok.2
    ⟨hwhole, endsDigits_point hfraction hdigits, rfl⟩
  have hfraction := fractionPart_of_fraction hfraction hdigits
    fun b hb => (hbehind b hb).2
  have hexponent := exponentPart_of_exponent hexponent hends
  unfold number
  rw [hwhole]
  simp only [bind, Except.bind, hfraction, hexponent]
  rw [hconverts]

end Reader

end Toolrun.Json
