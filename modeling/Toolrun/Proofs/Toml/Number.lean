/-
A number is read back as it was written, at the end of a line.

Most of this says what a row of digits is not: not a date, not a number in
another base, and not a fraction. A date or a time has something else than a
digit in a certain place, and there is nothing else before the line ends
(`date?_of_digits`, `time?_of_digits`); a zero in front, which would begin
another base, is only written when it is all of the number.
-/
import Mathlib.Data.List.TakeWhile
import Toolrun.Proofs.Toml.Cursor
import Toolrun.Toml.Scalar

namespace Toolrun.Toml

open Scalar

-- ================================================================ digits

theorem ne_of_isDigit {d other : Char} (hd : isDigit d = true)
    (hother : isDigit other = false) : d ≠ other := by
  rintro rfl
  rw [hd] at hother
  cases hother

theorem isDigit_of_mem {n : Nat} {d : Char} (h : d ∈ Nat.toDigits 10 n) :
    isDigit d = true := by
  have hdigit := Nat.isDigit_of_mem_toDigits (by decide) (by decide) h
  unfold Char.isDigit at hdigit
  rw [Bool.and_eq_true, decide_eq_true_iff, decide_eq_true_iff] at hdigit
  unfold isDigit Numeral.digit?
  rw [if_pos (show '0' ≤ d ∧ d ≤ '9' from hdigit)]
  rfl

theorem hexValue?_of_isDigit {d : Char} (h : isDigit d = true) :
    hexValue? d = some (d.toNat - '0'.toNat) := by
  unfold isDigit Numeral.digit? at h
  unfold hexValue? Numeral.digit?
  split at h
  next hdigit => rw [if_pos hdigit]
  next => cases h

/-- The digits of a number have its value. -/
theorem valueOf_toDigits (n : Nat) : valueOf 10 (Nat.toDigits 10 n) = n := by
  have hfold (ds : List Char) (hds : ∀ d ∈ ds, isDigit d = true) (init : Nat) :
      ds.foldl (fun n d => n * 10 + (hexValue? d).getD 0) init
        = Nat.ofDigitChars 10 ds init := by
    induction ds generalizing init with
    | nil => rfl
    | cons d ds ih =>
        rw [List.foldl_cons, hexValue?_of_isDigit (hds d List.mem_cons_self),
          ih fun d hd => hds d (List.mem_cons_of_mem _ hd)]
        rw [Nat.ofDigitChars_eq_foldl, Nat.ofDigitChars_eq_foldl,
          List.foldl_cons, Nat.mul_comm init 10]
        rfl
  unfold valueOf
  rw [hfold _ (fun d => isDigit_of_mem), Nat.ofDigitChars_toDigits (by decide)
    (by decide)]

/-- A number that is not zero is written without a zero in front. -/
theorem head?_toDigits {n : Nat} (h : 0 < n) :
    (Nat.toDigits 10 n).head? ≠ some '0' := by
  induction n using Nat.strongRecOn with
  | ind n ih =>
      rw [Nat.toDigits_eq_if (by decide)]
      split
      next hsmall =>
        have hall : ∀ i < 10, 0 < i → Nat.digitChar i ≠ '0' := by decide
        intro hzero
        injection hzero with hzero
        exact hall n hsmall h hzero
      next hlarge =>
        have hhead := ih (n / 10) (by omega) (by omega)
        cases hdigits : Nat.toDigits 10 (n / 10) with
        | nil => exact absurd hdigits Nat.toDigits_ne_nil
        | cons d ds =>
            rw [hdigits] at hhead
            exact hhead

-- ======================================================= what it is not

section NotDates

variable {ds behind : List Char} {c : Cursor}

/-- Behind so many digits there are more of them, or the line ends. -/
theorem fixedDigits?_of_digits (hds : ∀ d ∈ ds, isDigit d = true)
    (hc : c.rest = ds ++ '\n' :: behind) {count value : Nat} {d : Cursor}
    (h : fixedDigits? count c = some (value, d)) :
    ∃ ds', (∀ d ∈ ds', isDigit d = true) ∧ d.rest = ds' ++ '\n' :: behind := by
  unfold fixedDigits? at h
  simp only [] at h
  split at h
  next hlength =>
    injection h with h
    injection h with _ h
    subst h
    -- Otherwise the line feed would be among what was taken for digits.
    have hcount : count ≤ ds.length := by
      by_contra hmore
      have hall : ((c.rest.take count).filterMap Numeral.digit?).length
          = (c.rest.take count).length := by
        have hle := List.length_filterMap_le Numeral.digit? (c.rest.take count)
        have htake := List.length_take_le count c.rest
        omega
      have hfeed : '\n' ∈ c.rest.take count := by
        rw [hc, List.take_append, List.mem_append]
        obtain ⟨left, hleft⟩ :=
          Nat.exists_eq_add_one_of_ne_zero (by omega : count - ds.length ≠ 0)
        rw [hleft, List.take_succ_cons]
        exact .inr List.mem_cons_self
      have hdigit := List.filterMap_length_eq_length.1 hall '\n' hfeed
      cases hdigit
    refine ⟨ds.drop count, fun d hd => hds d (List.mem_of_mem_drop hd), ?_⟩
    rw [Cursor.rest_skip, hc, List.drop_append_of_le_length hcount]
  next => cases h

/-- Nothing but a digit or the end of the line is there. -/
theorem expect?_of_digits (hds : ∀ d ∈ ds, isDigit d = true)
    (hc : c.rest = ds ++ '\n' :: behind) {mark : Char}
    (hmark : isDigit mark = false) (hbreak : mark ≠ '\n')
    (others : List Char) : c.expect? (mark :: others) = none := by
  cases ds with
  | nil => exact Cursor.expect?_of_ne hc hbreak
  | cons d ds =>
      exact Cursor.expect?_of_ne hc
        (ne_of_isDigit (hds d List.mem_cons_self) hmark).symm

theorem date?_of_digits (hds : ∀ d ∈ ds, isDigit d = true)
    (hc : c.rest = ds ++ '\n' :: behind) : date? c = none := by
  unfold date?
  cases hyear : fixedDigits? 4 c with
  | none => rfl
  | some found =>
      obtain ⟨year, d⟩ := found
      obtain ⟨ds', hds', hd⟩ := fixedDigits?_of_digits hds hc hyear
      show (d.expect? ['-']).bind _ = none
      rw [expect?_of_digits hds' hd rfl (by decide)]
      rfl

theorem time?_of_digits (hds : ∀ d ∈ ds, isDigit d = true)
    (hc : c.rest = ds ++ '\n' :: behind) : time? c = none := by
  unfold time?
  cases hhour : fixedDigits? 2 c with
  | none => rfl
  | some found =>
      obtain ⟨hour, d⟩ := found
      obtain ⟨ds', hds', hd⟩ := fixedDigits?_of_digits hds hc hhour
      show (d.expect? [':']).bind _ = none
      rw [expect?_of_digits hds' hd rfl (by decide)]
      rfl

/-- A row of digits is neither a date nor a time. -/
theorem dateTime?_of_digits (hds : ∀ d ∈ ds, isDigit d = true)
    (hc : c.rest = ds ++ '\n' :: behind) : dateTime? c = none := by
  unfold dateTime?
  rw [date?_of_digits hds hc]
  simp only []
  rw [time?_of_digits hds hc]
  rfl

end NotDates

-- ================================================================ numbers

section Numbers

variable {ds behind : List Char}

theorem moreDigits_of_digits (hds : ∀ d ∈ ds, isDigit d = true)
    (behind : List Char) :
    moreDigits isDigit (ds ++ '\n' :: behind) = (ds, ds.length) := by
  induction ds with
  | nil => rfl
  | cons d ds ih =>
      have hd := hds d List.mem_cons_self
      have hne : d ≠ '_' := ne_of_isDigit hd rfl
      rw [List.cons_append, moreDigits.eq_2 _ _ _ (fun _ _ h _ => hne h),
        if_pos hd, ih fun d hd => hds d (List.mem_cons_of_mem _ hd)]
      rfl

/-- All digits of a number are taken for its whole part. -/
theorem whole?_toDigits (n : Nat) (behind : List Char) :
    whole? (Nat.toDigits 10 n ++ '\n' :: behind)
      = some (Nat.toDigits 10 n, (Nat.toDigits 10 n).length) := by
  rcases Nat.eq_zero_or_pos n with rfl | hpos
  · rfl
  · have hhead := head?_toDigits hpos
    have hdigits := fun d => isDigit_of_mem (n := n) (d := d)
    cases hds : Nat.toDigits 10 n with
    | nil => exact absurd hds Nat.toDigits_ne_nil
    | cons d ds =>
        rw [hds] at hhead hdigits
        have hne : d ≠ '0' := fun hsame => hhead (congrArg some hsame)
        rw [List.cons_append, whole?.eq_2 _ (fun _ hsame => by
            injection hsame with hsame
            exact hne hsame),
          digits?.eq_1, if_pos (hdigits d List.mem_cons_self),
          moreDigits_of_digits
            (fun d hd => hdigits d (List.mem_cons_of_mem _ hd))]
        rfl

theorem behindWhole?_of_feed {n : Nat} (hn : n ≤ 9223372036854775807)
    {c : Cursor} (hc : c.rest = '\n' :: behind) :
    behindWhole? false (Nat.toDigits 10 n) c = some (.integer n, c) := by
  have hexponent : exponent? ('\n' :: behind) = none := rfl
  have hinteger : integer? (n : Int) = some (.integer n) := by
    unfold integer?
    rw [if_pos]
    rw [Bool.and_eq_true, decide_eq_true_iff, decide_eq_true_iff]
    omega
  unfold behindWhole?
  rw [hc]
  split
  next heq => cases heq
  next =>
    rw [hexponent]
    simp only [valueOf_toDigits, Bool.false_eq_true, if_false]
    rw [hinteger]
    rfl

/-- Behind a digit there is another one, or the line ends. -/
theorem second_of_digits {d : Char} (hds : ∀ e ∈ d :: ds, isDigit e = true)
    (behind : List Char) :
    ∃ second others, ds ++ '\n' :: behind = second :: others
      ∧ second ≠ 'x' ∧ second ≠ 'o' ∧ second ≠ 'b' := by
  cases ds with
  | nil => exact ⟨'\n', behind, rfl, by decide, by decide, by decide⟩
  | cons second ds =>
      have hsecond := hds second (List.mem_cons_of_mem _ List.mem_cons_self)
      exact ⟨second, _, rfl, ne_of_isDigit hsecond rfl,
        ne_of_isDigit hsecond rfl, ne_of_isDigit hsecond rfl⟩

/-- A row of digits has no sign and no mark of another base. -/
theorem number?_of_digits (hds : ∀ d ∈ ds, isDigit d = true) (hne : ds ≠ [])
    {c : Cursor} (hc : c.rest = ds ++ '\n' :: behind) :
    number? c = unsigned? false c := by
  cases ds with
  | nil => exact absurd rfl hne
  | cons d ds =>
      have hd := hds d List.mem_cons_self
      have hplus : d ≠ '+' := ne_of_isDigit hd rfl
      have hminus : d ≠ '-' := ne_of_isDigit hd rfl
      obtain ⟨second, others, hsecond, hx, ho, hb⟩ :=
        second_of_digits hds behind
      rw [List.cons_append, hsecond] at hc
      unfold number?
      simp only [hc]
      split
      next heq => exact absurd (List.cons.inj heq).1 hplus
      next heq => exact absurd (List.cons.inj heq).1 hminus
      next heq => exact absurd (List.cons.inj (List.cons.inj heq).2).1 hx
      next heq => exact absurd (List.cons.inj (List.cons.inj heq).2).1 ho
      next heq => exact absurd (List.cons.inj (List.cons.inj heq).2).1 hb
      next => rfl

/-- A number is taken, at the end of a line. -/
theorem number?_toDigits {n : Nat} (hn : n ≤ 9223372036854775807)
    (behind : List Char) :
    Takes number? (Nat.toDigits 10 n) ('\n' :: behind) (.integer n) := by
  intro c hc
  have hrest : (c.skip (Nat.toDigits 10 n).length).rest = '\n' :: behind :=
    Cursor.rest_skip_of_append hc
  refine ⟨_, ?_, hrest⟩
  have hdigits := fun d => isDigit_of_mem (n := n) (d := d)
  have hunsigned : unsigned? false c
      = some (.integer n, c.skip (Nat.toDigits 10 n).length) := by
    unfold unsigned?
    rw [expect?_of_digits hdigits hc rfl (by decide),
      expect?_of_digits hdigits hc rfl (by decide), hc, whole?_toDigits]
    exact behindWhole?_of_feed hn hrest
  rw [← hunsigned]
  exact number?_of_digits hdigits Nat.toDigits_ne_nil hc

end Numbers

end Toolrun.Toml
