import Pursuit.Proofs.Decimal.Cell

/-! The shortest decimal of a float lies in its cell. The search starts at the leading digit, and at
the latest the seventeenth digit makes the grid fine enough. -/
namespace Pursuit.Decimal

open Float.Model (Format)
open Pursuit.Binary

/-! ## The leading digit -/

/-- Powers of ten that 59 over 196 puts below a power of two, for exponents that are not
negative. -/
theorem ten_zpow_le_of_nonneg {k n : ℤ} (nonneg : 0 ≤ n) (below : 196 * k ≤ 59 * n) :
    (10 : ℝ) ^ k ≤ 2 ^ n := by
  have one : (1 : ℝ) ≤ 10 := by norm_num
  have base : (10 : ℝ) ^ (59 : ℤ) ≤ 2 ^ (196 : ℤ) := by norm_num
  refine (pow_le_pow_iff_left₀ (ten_zpow_pos k).le (two_zpow_pos n).le (by norm_num : 196 ≠ 0)).1 ?_
  calc
    ((10 : ℝ) ^ k) ^ 196 = 10 ^ (196 * k) := by rw [← zpow_natCast, ← zpow_mul, mul_comm]; rfl
    _ ≤ 10 ^ (59 * n) := zpow_le_zpow_right₀ one below
    _ = (10 ^ (59 : ℤ)) ^ n := zpow_mul ..
    _ ≤ (2 ^ (196 : ℤ)) ^ n := zpow_le_zpow_left₀ nonneg (ten_zpow_pos _).le base
    _ = ((2 : ℝ) ^ n) ^ 196 := by rw [← zpow_natCast, ← zpow_mul, ← zpow_mul, mul_comm]; rfl

theorem ten_zpow_le_of_nonpos {k n : ℤ} (nonpos : n ≤ 0) (below : 93 * k ≤ 28 * n) :
    (10 : ℝ) ^ k ≤ 2 ^ n := by
  have one : (1 : ℝ) ≤ 10 := by norm_num
  have base : (2 : ℝ) ^ (93 : ℤ) ≤ 10 ^ (28 : ℤ) := by norm_num
  refine (pow_le_pow_iff_left₀ (ten_zpow_pos k).le (two_zpow_pos n).le (by norm_num : 93 ≠ 0)).1 ?_
  calc
    ((10 : ℝ) ^ k) ^ 93 = 10 ^ (93 * k) := by rw [← zpow_natCast, ← zpow_mul, mul_comm]; rfl
    _ ≤ 10 ^ (28 * n) := zpow_le_zpow_right₀ one below
    _ = ((10 ^ (28 : ℤ)) ^ (-n))⁻¹ := by rw [← zpow_mul, ← zpow_neg, neg_mul_eq_mul_neg, neg_neg]
    _ ≤ ((2 ^ (93 : ℤ)) ^ (-n))⁻¹ :=
      inv_anti₀ (zpow_pos (two_zpow_pos _) _)
        (zpow_le_zpow_left₀ (by omega) (two_zpow_pos _).le base)
    _ = ((2 : ℝ) ^ n) ^ 93 := by
      rw [← zpow_neg, neg_neg, ← zpow_natCast, ← zpow_mul, ← zpow_mul, mul_comm]
      rfl

section Shortest

variable {F : Format} {m : ℕ} {e : ℤ}

theorem ten_zpow_magnitude_le (positive : 0 < m) (least : -20000 ≤ m.log2 + e)
    (most : m.log2 + e ≤ 20000) : (10 : ℝ) ^ magnitude m e ≤ m * 2 ^ e := by
  have reached {k : ℤ} (reaches : (Ruler.of e k).step ≤ m * (Ruler.of e k).unit) :
      (10 : ℝ) ^ k ≤ m * 2 ^ e := by
    have reaches : 1 * (Ruler.of e k).step ≤ m * (Ruler.of e k).unit := by rwa [one_mul]
    have value := Ruler.step_le_unit.1 reaches
    rwa [Nat.cast_one, one_mul] at value
  rw [magnitude]
  dsimp only
  split
  next next => exact reached (of_decide_eq_true next)
  next =>
    split
    next here => exact reached (of_decide_eq_true here)
    next =>
      -- The guess is at most one too large.
      have bits : (2 : ℝ) ^ (m.log2 : ℤ) ≤ m := by exact_mod_cast Nat.log2_self_le positive.ne'
      have power : (2 : ℝ) ^ (m.log2 + e) ≤ m * 2 ^ e := by
        rw [two_zpow_add]
        exact mul_le_mul_of_nonneg_right bits (two_zpow_pos e).le
      refine le_trans ?_ power
      generalize (m.log2 : ℤ) + e = n at least most
      have guess : n * 30103 / 100000 = (n * 30103).fdiv 100000 := by
        rw [Int.fdiv_eq_ediv_of_nonneg _ (by norm_num)]
      rw [← guess]
      obtain nonneg | negative := le_or_gt 0 n
      · exact ten_zpow_le_of_nonneg nonneg (by omega)
      · exact ten_zpow_le_of_nonpos negative.le (by omega)

/-! ## The search -/

theorem Cell.search_has (tie : Tie) {c : Cell} (low : c.low < c.mid) (high : c.mid < c.high)
    (wide : (c.mid : ℝ) < (c.high - c.low) * 10 ^ 16) (fuel : ℕ) (j : ℤ)
    (reach : (10 : ℝ) ^ (j - fuel) * 10 ^ 16 ≤ c.mid * 2 ^ c.exponent) :
    c.Has ((c.search tie (fuel + 1) j).digits * 10 ^ (c.search tie (fuel + 1) j).exponent) := by
  induction fuel generalizing j with
  | zero =>
    have fine : (10 : ℝ) ^ j < (c.high - c.low) * 2 ^ c.exponent := by
      rw [Nat.cast_zero, sub_zero] at reach
      have room := mul_lt_mul_of_pos_right wide (two_zpow_pos c.exponent)
      linarith
    obtain ⟨g, chosen⟩ := choose_isSome tie low high fine
    rw [search, chosen]
    exact has_of_choose chosen
  | succ fuel ih =>
    rw [search]
    split
    next g chosen => exact has_of_choose chosen
    next =>
      refine ih (j - 1) ?_
      rwa [show j - 1 - (fuel : ℤ) = j - (fuel + 1 : ℕ) by push_cast; ring]

theorem Scaled.value_trim (fuel : ℕ) (s : Scaled) :
    ((s.trim fuel).digits : ℝ) * 10 ^ (s.trim fuel).exponent = s.digits * 10 ^ s.exponent := by
  induction fuel generalizing s with
  | zero => rfl
  | succ fuel ih =>
    rw [trim]
    split
    next ends =>
      have tens : ((s.digits / 10 : ℕ) : ℝ) * 10 = s.digits := by
        exact_mod_cast (by omega : s.digits / 10 * 10 = s.digits)
      rw [ih, zpow_add_one₀ (by norm_num), ← tens]
      ring
    next => rfl

theorem Cell.wide_ofFloat (canonical : Canonical F m e) (positive : 0 < m)
    (digits : 2 ^ F.mantissaBits ≤ 10 ^ 16) :
    ((Cell.ofFloat F m e).mid : ℝ) <
      ((Cell.ofFloat F m e).high - (Cell.ofFloat F m e).low) * 10 ^ 16 := by
  have small := canonical.small
  have wide : (Cell.ofFloat F m e).mid + (Cell.ofFloat F m e).low * 10 ^ 16 <
      (Cell.ofFloat F m e).high * 10 ^ 16 := by
    simp only [ofFloat]
    split
    next power =>
      have half : Nat.pow 2 (F.mantissaBits - 1) * 2 = 2 ^ F.mantissaBits := by
        rw [mantissaBits_eq, Nat.add_sub_cancel]
        exact (Nat.pow_succ ..).symm
      omega
    next => omega
  have wide : ((Cell.ofFloat F m e).mid : ℝ) + (Cell.ofFloat F m e).low * 10 ^ 16 <
      (Cell.ofFloat F m e).high * 10 ^ 16 := by exact_mod_cast wide
  linarith

/-- The shortest decimal of a float lies in its cell. -/
theorem shortest_has (canonical : Canonical F m e) (positive : 0 < m)
    (digits : 2 ^ F.mantissaBits ≤ 10 ^ 16) (least : -20000 ≤ m.log2 + e)
    (most : m.log2 + e ≤ 20000) (tie : Tie) :
    (Cell.ofFloat F m e).Has
      ((shortest F tie m e).digits * 10 ^ (shortest F tie m e).exponent) := by
  have low : (Cell.ofFloat F m e).low < (Cell.ofFloat F m e).mid := by
    simp only [Cell.ofFloat]
    split <;> omega
  have high : (Cell.ofFloat F m e).mid < (Cell.ofFloat F m e).high := by
    simp only [Cell.ofFloat]
    omega
  rw [shortest, Scaled.value_trim]
  refine Cell.search_has tie low high (Cell.wide_ofFloat canonical positive digits) 16 _ ?_
  have leading := ten_zpow_magnitude_le positive least most
  have middle : ((Cell.ofFloat F m e).mid : ℝ) * 2 ^ (Cell.ofFloat F m e).exponent = m * 2 ^ e := by
    simp only [Cell.ofFloat]
    rw [two_zpow_quarter]
    push_cast
    ring
  rw [middle]
  refine le_trans (le_of_eq ?_) leading
  rw [← zpow_natCast, ← zpow_add₀ (by norm_num)]
  congr 1
  push_cast
  ring

end Shortest

end Pursuit.Decimal
