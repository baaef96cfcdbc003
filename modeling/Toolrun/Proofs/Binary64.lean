/-
How far rounding to binary64 can lead.

A rounded quotient is off by half a unit at most, and so a number with 53 bits
is off by one part in 2 ^ 53 at most. A decimal number is put in binary with
three roundings: its digits, the power of ten, and their product. So whether
it overflows is a matter of where the format ends, give or take four parts
(`scaleOverflows_near`).
-/
import Mathlib.Algebra.Order.Field.Power
import Mathlib.Data.Rat.Cast.Order
import Mathlib.Tactic.Linarith
import Mathlib.Tactic.NormNum
import Mathlib.Tactic.Ring
import Toolrun.Text.Binary64

namespace Toolrun.Binary64

-- =============================================================== rounding

/-- A rounded quotient is off by half a unit at most. -/
theorem roundQuotient_near {num den : Nat} (hden : 0 < den) :
    2 * num ≤ 2 * (roundQuotient num den * den) + den
      ∧ 2 * (roundQuotient num den * den) ≤ 2 * num + den := by
  have hsplit := Nat.div_add_mod num den
  have hrest := Nat.mod_lt num hden
  rw [Nat.mul_comm] at hsplit
  unfold roundQuotient
  simp only [gt_iff_lt, Bool.or_eq_true, decide_eq_true_eq, Bool.and_eq_true,
    beq_iff_eq]
  split
  next h =>
    rw [Nat.add_mul, Nat.one_mul]
    omega
  next h => omega

theorem roundQuotient_one (n : Nat) : roundQuotient n 1 = n := by
  simp [roundQuotient, Nat.mod_one]

/-- A number rounded to 53 bits is off by one part in 2 ^ 53 at most. -/
theorem roundNat_near (n : Nat) :
    n * 2 ^ 53 ≤ roundNat n * 2 ^ 53 + n
      ∧ roundNat n * 2 ^ 53 ≤ n * 2 ^ 53 + n := by
  unfold roundNat
  simp only [Nat.pow_eq]
  rcases Nat.lt_or_ge n.log2 53 with hsmall | hlarge
  · have hextra : n.log2 - 52 = 0 := by omega
    rw [hextra, Nat.pow_zero, roundQuotient_one]
    omega
  · have hn : n ≠ 0 := by
      rintro rfl
      simp at hlarge
    have hlog := Nat.log2_self_le hn
    have hpow : 2 ^ n.log2 = 2 ^ (n.log2 - 52) * 2 ^ 52 := by
      rw [← Nat.pow_add]
      congr 1
      omega
    rw [hpow] at hlog
    have hnear := @roundQuotient_near n _ (Nat.two_pow_pos (n.log2 - 52))
    omega

/-- How much a step may be off, as a fraction. -/
def roundoff : ℚ := 1 / 2 ^ 53

theorem roundNat_bounds (n : Nat) :
    (1 - roundoff) * n ≤ (roundNat n : ℚ)
      ∧ (roundNat n : ℚ) ≤ (1 + roundoff) * n := by
  obtain ⟨hlow, hhigh⟩ := roundNat_near n
  have hlow : (n : ℚ) * 2 ^ 53 ≤ roundNat n * 2 ^ 53 + n := by
    exact_mod_cast hlow
  have hhigh : (roundNat n : ℚ) * 2 ^ 53 ≤ n * 2 ^ 53 + n := by
    exact_mod_cast hhigh
  unfold roundoff
  constructor <;> linarith

/-- Where the format ends. -/
def limit : ℚ := 2 ^ 1024

theorem limit_pos : 0 < limit := pow_pos two_pos 1024

theorem below_limit : (1 - 4 * roundoff) * limit ≤ limit := by
  refine mul_le_of_le_one_left limit_pos.le ?_
  norm_num [roundoff]

theorem limit_le : limit ≤ (1 + 4 * roundoff) * limit := by
  refine le_mul_of_one_le_left limit_pos.le ?_
  norm_num [roundoff]

theorem isBeyond_iff (n : Nat) : isBeyond n = true ↔ limit ≤ n := by
  have hcast : ((Nat.pow 2 1024 : Nat) : ℚ) = limit := by
    unfold limit
    generalize 1024 = k
    rw [Nat.pow_eq, Nat.cast_pow, Nat.cast_ofNat]
  unfold isBeyond
  rw [decide_eq_true_eq, ← hcast, Nat.cast_le]

theorem limit_lt : limit < 10 ^ 309 := by
  have hpowers : 2 ^ 1024 < 10 ^ 309 := by decide +kernel
  unfold limit
  exact_mod_cast hpowers

/-- Three roundings, one after the other. -/
theorem roundNat_product (a b : Nat) :
    (1 - roundoff) ^ 3 * (a * b) ≤ (roundNat (roundNat a * roundNat b) : ℚ)
      ∧ (roundNat (roundNat a * roundNat b) : ℚ)
        ≤ (1 + roundoff) ^ 3 * (a * b) := by
  obtain ⟨halow, hahigh⟩ := roundNat_bounds a
  obtain ⟨hblow, hbhigh⟩ := roundNat_bounds b
  obtain ⟨hlow, hhigh⟩ := roundNat_bounds (roundNat a * roundNat b)
  rw [Nat.cast_mul] at hlow hhigh
  have hsmall : 0 ≤ 1 - roundoff := by norm_num [roundoff]
  have hlarge : 0 ≤ 1 + roundoff := by norm_num [roundoff]
  have hcast (n : Nat) : (0 : ℚ) ≤ n := Nat.cast_nonneg n
  constructor
  · calc (1 - roundoff) ^ 3 * (a * b : ℚ)
        = (1 - roundoff) * (((1 - roundoff) * a) * ((1 - roundoff) * b)) := by
          ring
      _ ≤ (1 - roundoff) * (roundNat a * roundNat b) :=
          mul_le_mul_of_nonneg_left
            (mul_le_mul halow hblow (mul_nonneg hsmall (hcast b)) (hcast _))
            hsmall
      _ ≤ roundNat (roundNat a * roundNat b) := hlow
  · calc (roundNat (roundNat a * roundNat b) : ℚ)
        ≤ (1 + roundoff) * (roundNat a * roundNat b) := hhigh
      _ ≤ (1 + roundoff) * (((1 + roundoff) * a) * ((1 + roundoff) * b)) :=
          mul_le_mul_of_nonneg_left
            (mul_le_mul hahigh hbhigh (hcast _) (mul_nonneg hlarge (hcast a)))
            hlarge
      _ = (1 + roundoff) ^ 3 * (a * b) := by ring

theorem limit_lt_scale {v k : Nat} (hv : v ≠ 0) (hk : 309 ≤ k) :
    limit < (v : ℚ) * 10 ^ k := by
  have hone : (1 : ℚ) ≤ v := by exact_mod_cast Nat.one_le_iff_ne_zero.2 hv
  calc limit
      < 10 ^ 309 := limit_lt
    _ ≤ 10 ^ k := pow_le_pow_right₀ (by norm_num) hk
    _ ≤ v * 10 ^ k :=
        le_mul_of_one_le_left (pow_nonneg (by norm_num) k) hone

/-- Sixty-four bits are far from the limit. -/
theorem scale_lt {v : Nat} (hv : v < 2 ^ 64) {e : Int} (he : e ≤ 0) :
    (v : ℚ) * 10 ^ e < limit := by
  have hpower : (10 : ℚ) ^ e ≤ 1 := zpow_le_one_of_nonpos₀ (by norm_num) he
  have hv : (v : ℚ) < 2 ^ 64 := by exact_mod_cast hv
  calc (v : ℚ) * 10 ^ e
      ≤ v := mul_le_of_le_one_right (Nat.cast_nonneg v) hpower
    _ < 2 ^ 64 := hv
    _ ≤ limit := by
        unfold limit
        exact pow_le_pow_right₀ (by norm_num) (by norm_num)

/-- Four parts are more than three roundings, in either direction. -/
theorem lt_of_rounded {x r l : ℚ} (hl : 0 < l)
    (hr : r ≤ (1 + roundoff) ^ 3 * x) (hx : x ≤ (1 - 4 * roundoff) * l) :
    r < l := by
  have hscaled : (1 + roundoff) ^ 3 * x
      ≤ (1 + roundoff) ^ 3 * ((1 - 4 * roundoff) * l) := by
    refine mul_le_mul_of_nonneg_left hx ?_
    norm_num [roundoff]
  have hfactor : (1 + roundoff) ^ 3 * (1 - 4 * roundoff) < 1 := by
    norm_num [roundoff]
  calc r
      ≤ (1 + roundoff) ^ 3 * (1 - 4 * roundoff) * l := by linarith
    _ < l := mul_lt_of_lt_one_left hl hfactor

theorem lt_of_lt_rounded {x r l : ℚ} (hl : 0 < l)
    (hr : (1 - roundoff) ^ 3 * x ≤ r) (hx : r < l) :
    x < (1 + 4 * roundoff) * l := by
  have hfactor : 1 < (1 - roundoff) ^ 3 * (1 + 4 * roundoff) := by
    norm_num [roundoff]
  have hpositive : 0 < (1 - roundoff) ^ 3 := by norm_num [roundoff]
  refine lt_of_mul_lt_mul_left ?_ hpositive.le
  calc (1 - roundoff) ^ 3 * x
      < l := hr.trans_lt hx
    _ < (1 - roundoff) ^ 3 * (1 + 4 * roundoff) * l :=
        lt_mul_of_one_lt_left hl hfactor
    _ = (1 - roundoff) ^ 3 * ((1 + 4 * roundoff) * l) := mul_assoc _ _ _

/-- What is put in binary overflows where the format ends, up to four
roundings. -/
theorem scaleOverflows_near {v : Nat} (hv : v < 2 ^ 64) (e : Int) :
    ((v : ℚ) * 10 ^ e ≤ (1 - 4 * roundoff) * limit →
        scaleOverflows v e = false)
      ∧ (scaleOverflows v e = false →
        (v : ℚ) * 10 ^ e < (1 + 4 * roundoff) * limit) := by
  have hlimit := limit_pos
  unfold scaleOverflows
  split
  next hsmall =>
    refine ⟨fun _ => rfl, fun _ => lt_of_lt_of_le ?_ limit_le⟩
    simp only [Bool.or_eq_true, decide_eq_true_eq] at hsmall
    rcases hsmall with hneg | rfl
    · exact scale_lt hv hneg.le
    · simpa using hlimit
  next hsmall =>
    simp only [Bool.or_eq_true, decide_eq_true_eq, not_or, not_lt] at hsmall
    obtain ⟨he, hzero⟩ := hsmall
    obtain ⟨k, rfl⟩ := Int.eq_ofNat_of_zero_le he
    rw [zpow_natCast]
    split
    next hlarge =>
      have hbeyond := @limit_lt_scale v k hzero (by omega)
      refine ⟨fun h => ?_, fun h => by cases h⟩
      exact absurd (h.trans below_limit) (not_le.2 hbeyond)
    next =>
      obtain ⟨hlow, hhigh⟩ := roundNat_product v (10 ^ k)
      push_cast at hlow hhigh
      rw [Int.toNat_natCast, Nat.pow_eq, ← Bool.not_eq_true, isBeyond_iff,
        not_le]
      exact ⟨fun h => lt_of_rounded hlimit hhigh h,
        fun h => lt_of_lt_rounded hlimit hlow h⟩

end Toolrun.Binary64
