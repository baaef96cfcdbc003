/-
What a numeral is read as. Reading stops at the first digit that no longer
fits, and since more digits never make a number smaller, it goes through
exactly if the number fits as a whole (`foldlM_push_eq_ok`). So a text is read
as a number just if it spells it (`read_eq_ok_iff`), however many digits that
takes, and every number is read back from what it is written as.
-/
import Mathlib.Algebra.Group.Nat.Defs
import Mathlib.Data.List.Basic
import Toolrun.Text.Numeral
import Toolrun.Proofs.Fallible

namespace Toolrun.Numeral

open Fallible (bind_eq_ok)

/-- A digit is one to the decimal notation as well, with the value it has
there. -/
theorem digit?_eq_some {c : Char} {d : Nat} :
    digit? c = some d ↔ c.isDigit = true ∧ d = c.toNat - '0'.toNat := by
  have hdigit : c.isDigit = true ↔ '0' ≤ c ∧ c ≤ '9' := by
    unfold Char.isDigit
    rw [Bool.and_eq_true, decide_eq_true_iff, decide_eq_true_iff]
    rfl
  unfold digit?
  rw [hdigit]
  split
  next h => simp [h, eq_comm]
  next h => simp [h]

theorem push_eq_ok {value next : Nat} {c : Char} :
    push value c = .ok next
      ↔ c.isDigit = true ∧ next = 10 * value + (c.toNat - '0'.toNat)
        ∧ next < UInt64.size := by
  unfold push
  cases hc : digit? c with
  | none =>
      refine iff_of_false nofun fun ⟨hdigit, _⟩ => ?_
      rw [digit?_eq_some.2 ⟨hdigit, rfl⟩] at hc
      cases hc
  | some d =>
      obtain ⟨hdigit, rfl⟩ := digit?_eq_some.1 hc
      simp only []
      rw [Nat.mul_comm value]
      split
      next hfits =>
        constructor
        · intro h
          injection h with h
          exact ⟨hdigit, h.symm, h ▸ hfits⟩
        · rintro ⟨-, rfl, -⟩
          rfl
      next hlarge =>
        refine iff_of_false nofun ?_
        rintro ⟨-, rfl, hfits⟩
        exact hlarge hfits

theorem le_ofDigitChars (cs : List Char) (init : Nat) :
    init ≤ Nat.ofDigitChars 10 cs init := by
  induction cs generalizing init with
  | nil => exact Nat.le_refl init
  | cons c cs ih =>
      rw [Nat.ofDigitChars_cons]
      have := ih (10 * init + (c.toNat - '0'.toNat))
      omega

/-- Digits are read behind a number if all of them are, and the whole number
fits. -/
theorem foldlM_push_eq_ok {cs : List Char} {init value : Nat}
    (hinit : init < UInt64.size) :
    cs.foldlM push init = .ok value
      ↔ (∀ c ∈ cs, c.isDigit = true) ∧ value = Nat.ofDigitChars 10 cs init
        ∧ value < UInt64.size := by
  induction cs generalizing init with
  | nil =>
      simp only [List.foldlM_nil, pure, Except.pure, Except.ok.injEq,
        List.not_mem_nil, false_imp_iff, implies_true, true_and]
      constructor
      · rintro rfl
        exact ⟨rfl, hinit⟩
      · rintro ⟨h, -⟩
        exact h.symm
  | cons c cs ih =>
      rw [List.foldlM_cons, bind_eq_ok, List.forall_mem_cons,
        Nat.ofDigitChars_cons]
      constructor
      · rintro ⟨next, hpush, hrest⟩
        obtain ⟨hdigit, rfl, hfits⟩ := push_eq_ok.1 hpush
        obtain ⟨hdigits, hvalue, hsmall⟩ := (ih hfits).1 hrest
        exact ⟨⟨hdigit, hdigits⟩, hvalue, hsmall⟩
      · rintro ⟨⟨hdigit, hdigits⟩, hvalue, hsmall⟩
        have hfits : 10 * init + (c.toNat - '0'.toNat) < UInt64.size := by
          have := le_ofDigitChars cs (10 * init + (c.toNat - '0'.toNat))
          omega
        exact ⟨_, push_eq_ok.2 ⟨hdigit, rfl, hfits⟩,
          (ih hfits).2 ⟨hdigits, hvalue, hsmall⟩⟩

/-- Without a sign in front it is the digits that are read. -/
theorem readChars_of_digits {cs : List Char} (hne : cs ≠ [])
    (hdigits : ∀ c ∈ cs, c.isDigit = true) :
    readChars cs = UInt64.ofNat <$> readDigits cs := by
  have hplus : '+' ∉ cs := fun h => absurd (hdigits '+' h) (by decide)
  unfold readChars
  split
  next => exact absurd rfl hne
  next => exact absurd List.mem_cons_self hplus
  next => exact absurd List.mem_cons_self hplus
  next => rfl

-- =============================================================== spelling

/-- A numeral of a number: its digits, zeros in front of them or not, and
either nothing or one `+` in front of all of that. -/
inductive Spells : List Char → Nat → Prop where
  | plain {digits : List Char} (hne : digits ≠ [])
      (hdigits : ∀ c ∈ digits, c.isDigit = true) :
      Spells digits (Nat.ofDigitChars 10 digits 0)
  | signed {digits : List Char} (hne : digits ≠ [])
      (hdigits : ∀ c ∈ digits, c.isDigit = true) :
      Spells ('+' :: digits) (Nat.ofDigitChars 10 digits 0)

/-- A text spells one number at most, as the sign is no digit. -/
theorem Spells.unique {cs : List Char} {value other : Nat}
    (h : Spells cs value) (h' : Spells cs other) : value = other := by
  have hsign : '+'.isDigit = false := by decide
  cases h with
  | plain hne hdigits =>
      cases h' with
      | plain => rfl
      | signed =>
          have hfirst := hdigits '+' List.mem_cons_self
          rw [hsign] at hfirst
          cases hfirst
  | signed hne hdigits =>
      cases h' with
      | signed => rfl
      | plain hne' hdigits' =>
          have hfirst := hdigits' '+' List.mem_cons_self
          rw [hsign] at hfirst
          cases hfirst

/-- Digits are read as what they spell, if that fits. -/
theorem ofNat_readDigits_eq_ok {cs : List Char} {n : UInt64} :
    UInt64.ofNat <$> readDigits cs = .ok n
      ↔ (∀ c ∈ cs, c.isDigit = true)
        ∧ Nat.ofDigitChars 10 cs 0 = n.toNat := by
  constructor
  · intro h
    cases hread : readDigits cs with
    | error fault =>
        rw [hread] at h
        cases h
    | ok value =>
        obtain ⟨hdigits, rfl, hfits⟩ :=
          (foldlM_push_eq_ok (by decide)).1 hread
        rw [hread] at h
        cases h
        exact ⟨hdigits, (UInt64.toNat_ofNat_of_lt hfits).symm⟩
  · rintro ⟨hdigits, hvalue⟩
    have hread : readDigits cs = .ok n.toNat :=
      (foldlM_push_eq_ok (by decide)).2 ⟨hdigits, hvalue.symm, n.toNat_lt⟩
    rw [hread]
    exact congrArg Except.ok UInt64.ofNat_toNat

theorem readChars_eq_ok_iff {cs : List Char} {n : UInt64} :
    readChars cs = .ok n ↔ Spells cs n.toNat := by
  constructor
  · intro h
    unfold readChars at h
    split at h
    next => cases h
    next => cases h
    next digits hne =>
      obtain ⟨hdigits, hvalue⟩ := ofNat_readDigits_eq_ok.1 h
      rw [← hvalue]
      exact .signed (fun hnil => hne hnil) hdigits
    next hne hplus hsigned =>
      obtain ⟨hdigits, hvalue⟩ := ofNat_readDigits_eq_ok.1 h
      rw [← hvalue]
      exact .plain hne hdigits
  · intro h
    generalize hvalue : n.toNat = value at h
    cases h with
    | plain hne hdigits =>
        rw [readChars_of_digits hne hdigits]
        exact ofNat_readDigits_eq_ok.2 ⟨hdigits, hvalue.symm⟩
    | @signed digits hne hdigits =>
        obtain ⟨first, others, rfl⟩ := List.exists_cons_of_ne_nil hne
        exact ofNat_readDigits_eq_ok.2 ⟨hdigits, hvalue.symm⟩

/-- A text is read as the number that it spells. -/
theorem read_eq_ok_iff {s : String} {n : UInt64} :
    read s = .ok n ↔ Spells s.toList n.toNat :=
  readChars_eq_ok_iff

/-- A text is refused if it spells no number, or one that does not fit in 64
bits. -/
theorem read_eq_error_iff {s : String} :
    (∃ fault, read s = .error fault)
      ↔ ¬∃ value, Spells s.toList value ∧ value < 2 ^ 64 := by
  cases hread : read s with
  | error fault =>
      refine iff_of_true ⟨fault, rfl⟩ ?_
      rintro ⟨value, hspells, hfits⟩
      rw [← UInt64.toNat_ofNat_of_lt hfits] at hspells
      rw [read_eq_ok_iff.2 hspells] at hread
      cases hread
  | ok n =>
      refine iff_of_false nofun (not_not_intro ?_)
      exact ⟨n.toNat, read_eq_ok_iff.1 hread, n.toNat_lt⟩

/-- A number is read back from what it is written as. -/
theorem read_decimal (n : UInt64) : read (decimal n.toNat) = .ok n := by
  have hdigits : ∀ c ∈ Nat.toDigits 10 n.toNat, c.isDigit = true := fun c hc =>
    Nat.isDigit_of_mem_toDigits (by decide) (by decide) hc
  have hspells := Spells.plain Nat.toDigits_ne_nil hdigits
  rw [Nat.ofDigitChars_toDigits (by decide) (by decide)] at hspells
  rw [read_eq_ok_iff, decimal, String.toList_ofList]
  exact hspells

end Toolrun.Numeral
