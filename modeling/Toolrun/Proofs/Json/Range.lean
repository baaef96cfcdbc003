/-
Which numbers the reader can put in binary.

It keeps as many digits as fit in 64 bits. Once one has been dropped, what is
missing is small beside what is kept (`Cut`), wherever the point stands. What
is kept and the power of ten are then rounded on their own, so the limit of
the format is met, but only up to one part in 2 ^ 50 (`converts_near`): close
to it there are numbers on the one side that are taken for numbers on the
other.

Only numbers with so many digits that an exponent could not reach from one end
to the other are left out.
-/
import Toolrun.Proofs.Binary64
import Toolrun.Proofs.Json.Tokens

namespace Toolrun.Json.Reader

-- ================================================================= digits

/-- The digits so far and one more. -/
def grown (value : Nat) (d : UInt8) : Nat := value * 10 + digitValue d

/-- The number that some digits make. -/
def digitsValue (digits : Bytes) : Nat := digits.foldl grown 0

theorem digitValue_le {d : UInt8} (h : isDigit d = true) :
    digitValue d ≤ 9 := by
  unfold isDigit at h
  simp only [Bool.and_eq_true, decide_eq_true_eq] at h
  obtain ⟨hlow, hhigh⟩ := h
  have hle : d.toNat ≤ 57 := UInt8.le_iff_toNat_le.1 hhigh
  unfold digitValue
  rw [UInt8.toNat_sub_of_le _ _ hlow]
  show d.toNat - 48 ≤ 9
  omega

/-- What is kept of a number `n` when digits have been dropped is so much that
the part that is missing is small. A digit that fits although one before it
did not makes that part larger, but only the once. -/
def Cut (n dropped value : Nat) : Prop :=
  ∃ slack, (slack = 1 ∧ 2 ^ 64 ≤ value * 10 + 9
      ∨ slack = 20 ∧ 2 ^ 64 ≤ value * 10)
    ∧ value * 10 ^ dropped ≤ n + slack * 10 ^ dropped
    ∧ n + 1 ≤ (value + slack) * 10 ^ dropped

section

variable {n behind dropped value : Nat} {s : Significand} {d : UInt8}

theorem cut_of_overflow (hd : digitValue d ≤ 9) (h : 2 ^ 64 ≤ grown n d) :
    Cut (grown n d) 1 n := by
  unfold grown at *
  exact ⟨1, by omega, by omega, by omega⟩

theorem Cut.drop (h : Cut n dropped value) (hd : digitValue d ≤ 9) :
    Cut (grown n d) (dropped + 1) value := by
  obtain ⟨slack, hslack, hlow, hhigh⟩ := h
  refine ⟨slack, hslack, ?_, ?_⟩
  · rw [Nat.pow_succ, ← Nat.mul_assoc, ← Nat.mul_assoc]
    unfold grown
    omega
  · rw [Nat.pow_succ, ← Nat.mul_assoc]
    unfold grown
    omega

theorem Cut.keep (h : Cut n dropped value) (hd : digitValue d ≤ 9)
    (hfits : grown value d < 2 ^ 64) :
    Cut (grown n d) dropped (grown value d) := by
  obtain ⟨slack, hslack, hlow, hhigh⟩ := h
  have hdigit : digitValue d * 10 ^ dropped ≤ 9 * 10 ^ dropped :=
    Nat.mul_le_mul_right _ hd
  unfold grown at *
  rcases hslack with ⟨rfl, hlarge⟩ | ⟨rfl, hlarge⟩
  · refine ⟨20, .inr ⟨rfl, by omega⟩, ?_, ?_⟩
    · rw [Nat.add_mul, Nat.mul_right_comm]
      omega
    · simp only [Nat.add_mul, Nat.mul_right_comm value 10] at hhigh ⊢
      omega
  · omega

/-- A significand for a number of which some digits stand behind the point and
some have been dropped. -/
structure Keeps (n behind dropped : Nat) (s : Significand) : Prop where
  shift : s.shift = (dropped : Int) - behind
  small : s.value < 2 ^ 64
  kept : dropped = 0 ∧ s.value = n ∧ s.full = false ∨ Cut n dropped s.value

/-- Before the point nothing is kept any more once a digit has been
dropped. -/
structure KeepsWhole (n dropped : Nat) (s : Significand) : Prop
    extends Keeps n 0 dropped s where
  exact : s.full = false → dropped = 0 ∧ s.value = n

/-- Where one digit more does not fit, or one has been dropped before, there is
a cut. -/
theorem Keeps.cut (h : Keeps n behind dropped s) (hd : digitValue d ≤ 9)
    (hdropped : s.full = true ∨ 2 ^ 64 ≤ grown s.value d) :
    Cut (grown n d) (dropped + 1) s.value := by
  rcases h.kept with ⟨rfl, hvalue, hfull⟩ | hcut
  · rw [hfull] at hdropped
    rw [hvalue] at hdropped ⊢
    exact cut_of_overflow hd (hdropped.resolve_left (by decide))
  · exact hcut.drop hd

theorem KeepsWhole.pushWhole (h : KeepsWhole n dropped s)
    (hd : digitValue d ≤ 9) :
    ∃ more ≤ dropped + 1, KeepsWhole (grown n d) more (s.pushWhole d) := by
  have hcut := h.cut hd
  obtain ⟨⟨hshift, hsmall, -⟩, hexact⟩ := h
  unfold Significand.pushWhole
  simp only [Bool.or_eq_true, decide_eq_true_eq]
  split
  next hdropped =>
    refine ⟨dropped + 1, Nat.le_refl _,
      ⟨⟨?_, hsmall, .inr (hcut hdropped)⟩, ?_⟩⟩
    · simp only [hshift]
      push_cast
      ring
    · intro hfull
      cases hfull
  next hkeep =>
    rw [not_or, Bool.not_eq_true, not_le] at hkeep
    obtain ⟨hfull, hfits⟩ := hkeep
    obtain ⟨rfl, hvalue⟩ := hexact hfull
    have hgrown : grown s.value d = grown n d := by rw [hvalue]
    exact ⟨0, Nat.zero_le _,
      ⟨⟨hshift, hfits, .inl ⟨rfl, hgrown, hfull⟩⟩, fun _ => ⟨rfl, hgrown⟩⟩⟩

theorem Keeps.pushFraction (h : Keeps n behind dropped s)
    (hd : digitValue d ≤ 9) :
    ∃ more ≤ dropped + 1,
      Keeps (grown n d) (behind + 1) more (s.pushFraction d) := by
  have hcut := h.cut hd
  obtain ⟨hshift, hsmall, hkept⟩ := h
  unfold Significand.pushFraction
  simp only [Bool.or_eq_true, decide_eq_true_eq]
  split
  next hdropped =>
    refine ⟨dropped + 1, Nat.le_refl _,
      ⟨?_, hsmall, .inr (hcut hdropped)⟩⟩
    simp only [hshift]
    push_cast
    ring
  next hkeep =>
    rw [not_or, Bool.not_eq_true, not_le] at hkeep
    obtain ⟨hfull, hfits⟩ := hkeep
    refine ⟨dropped, Nat.le_succ _, ⟨?_, hfits, ?_⟩⟩
    · simp only [hshift]
      push_cast
      ring
    · rcases hkept with ⟨rfl, hvalue, -⟩ | hcut
      · refine .inl ⟨rfl, ?_, hfull⟩
        show grown s.value d = grown n d
        rw [hvalue]
      · exact .inr (hcut.keep hd hfits)

theorem KeepsWhole.foldl {digits : Bytes}
    (hdigits : ∀ d ∈ digits, isDigit d = true) (h : KeepsWhole n dropped s) :
    ∃ more ≤ dropped + digits.length,
      KeepsWhole (digits.foldl grown n) more
        (digits.foldl Significand.pushWhole s) := by
  induction digits generalizing n dropped s with
  | nil => exact ⟨dropped, Nat.le_refl _, h⟩
  | cons d digits ih =>
      obtain ⟨hd, hdigits⟩ := List.forall_mem_cons.1 hdigits
      obtain ⟨one, hone, h⟩ := h.pushWhole (digitValue_le hd)
      obtain ⟨more, hmore, h⟩ := ih hdigits h
      rw [List.length_cons]
      exact ⟨more, by omega, h⟩

theorem Keeps.foldl {digits : Bytes}
    (hdigits : ∀ d ∈ digits, isDigit d = true) (h : Keeps n behind dropped s) :
    ∃ more ≤ dropped + digits.length,
      Keeps (digits.foldl grown n) (behind + digits.length) more
        (digits.foldl Significand.pushFraction s) := by
  induction digits generalizing n behind dropped s with
  | nil => exact ⟨dropped, Nat.le_refl _, h⟩
  | cons d digits ih =>
      obtain ⟨hd, hdigits⟩ := List.forall_mem_cons.1 hdigits
      obtain ⟨one, hone, h⟩ := h.pushFraction (digitValue_le hd)
      obtain ⟨more, hmore, h⟩ := ih hdigits h
      rw [Nat.add_right_comm] at h
      rw [List.length_cons]
      exact ⟨more, by omega, h⟩

/-- The significand of a numeral keeps the number that its digits make. -/
theorem keeps_significand {whole fraction : Bytes}
    (hdigits : ∀ d ∈ whole ++ fraction, isDigit d = true) :
    ∃ dropped ≤ (whole ++ fraction).length,
      Keeps (digitsValue (whole ++ fraction)) fraction.length dropped
        (significand whole fraction) := by
  obtain ⟨hwhole, hfraction⟩ := List.forall_mem_append.1 hdigits
  have hstart : KeepsWhole 0 0 ⟨0, 0, false⟩ :=
    ⟨⟨rfl, by decide, .inl ⟨rfl, rfl, rfl⟩⟩, fun _ => ⟨rfl, rfl⟩⟩
  obtain ⟨one, hone, ⟨hshift, hsmall, hkept⟩, hexact⟩ := hstart.foldl hwhole
  have hreset : Keeps (whole.foldl grown 0) 0 one
      { whole.foldl Significand.pushWhole ⟨0, 0, false⟩ with
        full := false } := by
    refine ⟨hshift, hsmall, ?_⟩
    rcases hkept with ⟨hnone, hvalue, -⟩ | hcut
    · exact .inl ⟨hnone, hvalue, rfl⟩
    · exact .inr hcut
  obtain ⟨more, hmore, h⟩ := hreset.foldl hfraction
  rw [Nat.zero_add, ← List.foldl_append] at h
  rw [List.length_append]
  exact ⟨more, by omega, h⟩

open Binary64 (roundoff limit)

/-- What is kept is off by less than a rounding. -/
theorem Keeps.near (h : Keeps n behind dropped s) :
    (1 - roundoff) * (s.value * 10 ^ dropped) ≤ (n : ℚ)
      ∧ (n : ℚ) ≤ (1 + roundoff) * (s.value * 10 ^ dropped) := by
  have hkept : s.value * 10 ^ dropped * 2 ^ 53
        ≤ n * 2 ^ 53 + s.value * 10 ^ dropped
      ∧ n * 2 ^ 53
        ≤ s.value * 10 ^ dropped * 2 ^ 53 + s.value * 10 ^ dropped := by
    rcases h.kept with ⟨rfl, hvalue, -⟩ | ⟨slack, hslack, hlow, hhigh⟩
    · omega
    · have hsmall : slack * 10 ^ dropped * 2 ^ 53 ≤ s.value * 10 ^ dropped := by
        rw [Nat.mul_right_comm]
        refine Nat.mul_le_mul_right _ ?_
        omega
      rw [Nat.add_mul] at hhigh
      omega
  obtain ⟨hlow, hhigh⟩ := hkept
  have hlow : (s.value : ℚ) * 10 ^ dropped * 2 ^ 53
      ≤ n * 2 ^ 53 + s.value * 10 ^ dropped := by
    exact_mod_cast hlow
  have hhigh : (n : ℚ) * 2 ^ 53
      ≤ s.value * 10 ^ dropped * 2 ^ 53 + s.value * 10 ^ dropped := by
    exact_mod_cast hhigh
  unfold roundoff
  constructor <;> linarith

-- ============================================================== exponents

theorem le_foldl_grown (digits : Bytes) (value : Nat) :
    value ≤ digits.foldl grown value := by
  induction digits generalizing value with
  | nil => exact Nat.le_refl _
  | cons d digits ih =>
      refine Nat.le_trans ?_ (ih (grown value d))
      unfold grown
      omega

theorem exponentValue_cons (d : UInt8) (digits : Bytes) (value : Nat) :
    exponentValue (d :: digits) value
      = if 2 ^ 31 ≤ grown value d then (some digits, value)
        else exponentValue digits (grown value d) := rfl

/-- An exponent that is read to its end is the number that its digits make,
and one that is not is larger than what fits in 31 bits. -/
theorem exponentValue_spec (digits : Bytes) (value : Nat) :
    (exponentValue digits value).1 = none
        ∧ (exponentValue digits value).2 = digits.foldl grown value
      ∨ (exponentValue digits value).1 ≠ none
        ∧ 2 ^ 31 ≤ digits.foldl grown value := by
  induction digits generalizing value with
  | nil => exact .inl ⟨rfl, rfl⟩
  | cons d digits ih =>
      rw [exponentValue_cons, List.foldl_cons]
      split
      next hlarge =>
        exact .inr ⟨by simp, Nat.le_trans hlarge (le_foldl_grown digits _)⟩
      next => exact ih _

end

end Toolrun.Json.Reader

namespace Toolrun.Json

open Reader (digitsValue)
open Binary64 (roundoff limit)

/-- The power of ten that a number is written with. -/
def Numeral.power (n : Numeral) : Int :=
  match n.exponent with
  | none => 0
  | some (false, digits) => digitsValue digits
  | some (true, digits) => -digitsValue digits

/-- How large a number is, its sign apart. -/
def Numeral.magnitude (n : Numeral) : ℚ :=
  digitsValue (n.whole ++ n.fraction) * 10 ^ (n.power - n.fraction.length)

/-- A number is no larger than the largest of the format. -/
def Numeral.InRange (n : Numeral) : Prop :=
  n.magnitude ≤ ((2 ^ 53 - 1) * 2 ^ 971 : Nat)

variable {n : Numeral}

/-- An exponent that fits decides together with the significand; any other
decides alone, unless there is nothing but zeros. -/
theorem converts_iff {s : Reader.Significand}
    (hs : Reader.significand n.whole n.fraction = s) :
    (n.Converts ↔ Binary64.scaleOverflows s.value (s.shift + n.power) = false)
      ∨ (n.Converts ↔ s.value = 0) ∧ 2 ^ 31 ≤ n.power
      ∨ n.Converts ∧ n.power ≤ -2 ^ 31 := by
  unfold Numeral.Converts Reader.excess Numeral.power
  rw [hs]
  cases n.exponent with
  | none =>
      left
      simp
  | some exponent =>
      obtain ⟨down, digits⟩ := exponent
      have hspec := Reader.exponentValue_spec digits 0
      simp only []
      generalize Reader.exponentValue digits 0 = found at hspec ⊢
      obtain ⟨leftOver, e⟩ := found
      rcases hspec with ⟨hnone, hvalue⟩ | ⟨hsome, hlarge⟩
      · left
        simp only at hnone hvalue
        subst hnone hvalue
        cases down <;> simp [sub_eq_add_neg, digitsValue]
      · right
        have hlarge : (2 ^ 31 : Int) ≤ digitsValue digits := by
          exact_mod_cast hlarge
        obtain ⟨unread, rfl⟩ := Option.ne_none_iff_exists'.1 hsome
        cases down with
        | false => exact .inl ⟨by simp, hlarge⟩
        | true => exact .inr ⟨by simp, neg_le_neg hlarge⟩

/-- What is put in binary is off by less than a rounding. -/
theorem magnitude_near {dropped : Nat} {s : Reader.Significand}
    (h : Reader.Keeps (digitsValue (n.whole ++ n.fraction)) n.fraction.length
      dropped s) :
    (1 - roundoff) * (s.value * 10 ^ (s.shift + n.power)) ≤ n.magnitude
      ∧ n.magnitude
        ≤ (1 + roundoff) * (s.value * 10 ^ (s.shift + n.power)) := by
  obtain ⟨hlow, hhigh⟩ := h.near
  have hscale : (s.value : ℚ) * 10 ^ (s.shift + n.power)
      = s.value * 10 ^ dropped * 10 ^ (n.power - n.fraction.length) := by
    have hpower : s.shift + n.power
        = dropped + (n.power - n.fraction.length) := by
      rw [h.shift]
      ring
    rw [hpower, zpow_add₀ (by norm_num), zpow_natCast, mul_assoc]
  have hpositive : (0 : ℚ) ≤ 10 ^ (n.power - n.fraction.length) :=
    zpow_nonneg (by norm_num) _
  unfold Numeral.magnitude
  rw [hscale, ← mul_assoc (1 - roundoff), ← mul_assoc (1 + roundoff)]
  exact ⟨mul_le_mul_of_nonneg_right hlow hpositive,
    mul_le_mul_of_nonneg_right hhigh hpositive⟩

/-- Eight parts are more than one and four. -/
theorem le_of_near {x m l : ℚ} (hl : 0 < l) (hm : (1 - roundoff) * x ≤ m)
    (h : m ≤ (1 - 8 * roundoff) * l) : x ≤ (1 - 4 * roundoff) * l := by
  have hfactor : 1 - 8 * roundoff ≤ (1 - roundoff) * (1 - 4 * roundoff) := by
    norm_num [roundoff]
  have hpositive : 0 < 1 - roundoff := by norm_num [roundoff]
  refine le_of_mul_le_mul_left ?_ hpositive
  calc (1 - roundoff) * x
      ≤ (1 - 8 * roundoff) * l := hm.trans h
    _ ≤ (1 - roundoff) * (1 - 4 * roundoff) * l :=
        mul_le_mul_of_nonneg_right hfactor hl.le
    _ = (1 - roundoff) * ((1 - 4 * roundoff) * l) := mul_assoc _ _ _

theorem lt_of_near {x m l : ℚ} (hl : 0 < l) (hm : m ≤ (1 + roundoff) * x)
    (h : x < (1 + 4 * roundoff) * l) : m < (1 + 8 * roundoff) * l := by
  have hfactor : (1 + roundoff) * (1 + 4 * roundoff) ≤ 1 + 8 * roundoff := by
    norm_num [roundoff]
  have hpositive : 0 < 1 + roundoff := by norm_num [roundoff]
  calc m
      ≤ (1 + roundoff) * x := hm
    _ < (1 + roundoff) * ((1 + 4 * roundoff) * l) :=
        mul_lt_mul_of_pos_left h hpositive
    _ = (1 + roundoff) * (1 + 4 * roundoff) * l := (mul_assoc _ _ _).symm
    _ ≤ (1 + 8 * roundoff) * l := mul_le_mul_of_nonneg_right hfactor hl.le

/-- A number converts if it is below the limit of the format, and only then,
up to one part in 2 ^ 50. -/
theorem converts_near
    (hdigits : ∀ d ∈ n.whole ++ n.fraction, Reader.isDigit d = true)
    (hlength : (n.whole ++ n.fraction).length ≤ 2 ^ 30) :
    (n.magnitude ≤ (1 - 8 * roundoff) * limit → n.Converts)
      ∧ (n.Converts → n.magnitude < (1 + 8 * roundoff) * limit) := by
  obtain ⟨dropped, hdropped, hkeeps⟩ := Reader.keeps_significand hdigits
  generalize hs : Reader.significand n.whole n.fraction = s at hkeeps
  have hlimit := Binary64.limit_pos
  have hshift := hkeeps.shift
  have hfraction : n.fraction.length ≤ 2 ^ 30 := by
    rw [List.length_append] at hlength
    omega
  obtain ⟨hlow, hhigh⟩ := magnitude_near hkeeps
  have hbelow := le_of_near hlimit hlow
  have habove := lt_of_near hlimit hhigh
  rcases converts_iff hs with hiff | ⟨hiff, hpower⟩ | ⟨hconverts, hpower⟩
  · rw [hiff]
    obtain ⟨hfits, hends⟩ :=
      Binary64.scaleOverflows_near hkeeps.small (s.shift + n.power)
    exact ⟨fun h => hfits (hbelow h), fun h => habove (hends h)⟩
  · rw [hiff]
    constructor
    · intro h
      by_contra hvalue
      obtain ⟨k, hk⟩ := Int.eq_ofNat_of_zero_le
        (show 0 ≤ s.shift + n.power by omega)
      have hfits := (hbelow h).trans Binary64.below_limit
      rw [hk, zpow_natCast] at hfits
      have hbeyond := @Binary64.limit_lt_scale s.value k hvalue (by omega)
      exact absurd hfits (not_le.2 hbeyond)
    · intro hvalue
      refine habove (lt_of_lt_of_le ?_ Binary64.limit_le)
      simpa [hvalue] using hlimit
  · refine ⟨fun _ => hconverts, fun _ => habove ?_⟩
    have hbelow := @Binary64.scale_lt _ hkeeps.small (s.shift + n.power)
      (by omega)
    exact hbelow.trans_le Binary64.limit_le

theorem Unsigned.isDigit {text rest : Bytes} (h : Unsigned n text rest) :
    ∀ d ∈ n.whole ++ n.fraction, Reader.isDigit d = true := by
  obtain ⟨⟨⟨-, hwhole⟩, -⟩, hfraction, -⟩ := h
  refine List.forall_mem_append.2 ⟨hwhole, ?_⟩
  cases hfraction with
  | absent => exact fun d hd => by cases hd
  | point hdigits => exact hdigits.2

end Toolrun.Json
