import Pursuit.Decimal.Reader
import Pursuit.Proofs.Binary.Identity
import Pursuit.Proofs.Decimal.Shortest

/-! Decimals are read to the nearest wide float, so every decimal in the cell of a float is read as
that float. -/
namespace Pursuit.Decimal

open Float.Model (Format UnpackedFloat)
open Float.Model.UnpackedFloat
open Pursuit.Binary

variable {F : Format} {x : ℝ} {m d : ℕ} {e j : ℤ} {s : Sign}

/-! ## Powers of ten -/

theorem denotes_ofScientific (positive : 0 < d) (most : j ≤ 2 ^ F.exponentBits)
    (least : -(2 ^ F.exponentBits + d.log2 : ℤ) ≤ j) :
    Denotes F (ofScientific F d j) (roundTo F (d * 10 ^ j)) := by
  rw [ofScientific, dif_neg positive.ne', if_neg (not_lt.2 most), if_neg (not_lt.2 least)]
  have one : (1 : ℝ) ≤ d := by exact_mod_cast positive
  split
  next nonneg =>
    have power : (10 : ℝ) ^ j = (10 ^ j.toNat : ℕ) := by
      push_cast
      rw [← zpow_natCast, Int.toNat_of_nonneg nonneg]
    have value : (d * 10 ^ j : ℝ) =
        (d <<< F.mantissaBits * 10 ^ j.toNat : ℕ) * 2 ^ (-(F.mantissaBits : ℤ) + 0) := by
      rw [Nat.shiftLeft_eq, power, add_zero, zpow_neg, zpow_natCast]
      push_cast
      field_simp
    have atLeast : (1 : ℝ) ≤ 10 ^ j := one_le_zpow₀ (by norm_num) nonneg
    rw [value]
    refine denotes_roundWithAccuracy_exact (s := .positive) (le_place ?_)
    rw [← value, abs_of_pos (by positivity)]
    calc
      (2 : ℝ) ^ (-(F.mantissaBits : ℤ) + 0 + F.mantissaBits - 1) = 2 ^ (-1 : ℤ) := by
        congr 1
        ring
      _ ≤ 1 := by norm_num
      _ ≤ d * 10 ^ j := one_le_mul_of_one_le_of_one_le one atLeast
  next negative =>
    have power : (10 : ℝ) ^ j = ((10 ^ (-j).toNat : ℕ) : ℝ)⁻¹ := by
      push_cast
      rw [← zpow_natCast, Int.toNat_of_nonneg (by omega), ← zpow_neg, neg_neg]
    have value : (d * 10 ^ j : ℝ) = d * 2 ^ (0 : ℤ) / ((10 ^ (-j).toNat : ℕ) * 2 ^ (0 : ℤ)) := by
      rw [power, zpow_zero, mul_one, mul_one, div_eq_mul_inv]
    rw [value]
    exact denotes_divCore .positive positive (Nat.pow_pos (by norm_num))

/-- What lies in the cell of a float is not so far out that its power of ten is not computed. -/
theorem bounds_of_has (canonical : Canonical .binary64 m e) (positive : 0 < m)
    (small : (m : ℝ) * 2 ^ e < limit .binary64)
    (has : (Cell.ofFloat .binary64 m e).Has (d * 10 ^ j)) :
    0 < d ∧ -400 ≤ j + d.log2 ∧ j ≤ 400 := by
  have least : (-1074 : ℤ) ≤ e := canonical.least
  have one : (1 : ℝ) ≤ m := by exact_mod_cast positive
  have step := two_zpow_pos e
  obtain ⟨near, -⟩ := has.near positive
  rw [abs_le] at near
  have low : (2 : ℝ) ^ (-1075 : ℤ) ≤ d * 10 ^ j := by
    have half : 1 / 2 ≤ (d * 10 ^ j : ℝ) / 2 ^ e := by linarith
    rw [le_div_iff₀ step] at half
    calc
      (2 : ℝ) ^ (-1075 : ℤ) = 1 / 2 * 2 ^ (-1074 : ℤ) := by
        rw [show (-1075 : ℤ) = -1 + -1074 by norm_num, two_zpow_add, zpow_neg_one, one_div]
      _ ≤ 1 / 2 * 2 ^ e := mul_le_mul_of_nonneg_left (two_zpow_le least) (by norm_num)
      _ ≤ d * 10 ^ j := half
  have high : (d * 10 ^ j : ℝ) < 2 ^ (1025 : ℤ) := by
    have twice : (d * 10 ^ j : ℝ) / 2 ^ e ≤ 2 * m := by linarith
    rw [div_le_iff₀ step] at twice
    calc
      (d * 10 ^ j : ℝ) ≤ 2 * (m * 2 ^ e) := by linarith
      _ < 2 * limit .binary64 := by linarith
      _ = 2 ^ (1025 : ℤ) := by
        rw [limit, ← zpow_one_add₀ two_ne_zero]
        rfl
  have nonzero : 0 < d := by
    refine Nat.pos_of_ne_zero fun zero => ?_
    rw [zero, Nat.cast_zero, zero_mul] at low
    exact absurd (two_zpow_pos (-1075)) low.not_gt
  refine ⟨nonzero, ?_, ?_⟩
  · by_contra under
    have digits : (d : ℝ) ≤ 2 * 10 ^ (d.log2 : ℤ) := by
      have bits : (d : ℝ) < 2 ^ (d.log2 + 1) := by exact_mod_cast Nat.lt_log2_self
      have powers : (2 : ℝ) ^ d.log2 ≤ 10 ^ d.log2 :=
        pow_le_pow_left₀ (by norm_num) (by norm_num) _
      rw [zpow_natCast]
      rw [pow_succ] at bits
      linarith
    have tiny : (d * 10 ^ j : ℝ) ≤ 2 * 10 ^ (-401 : ℤ) := by
      calc
        (d * 10 ^ j : ℝ) ≤ 2 * 10 ^ (d.log2 : ℤ) * 10 ^ j :=
          mul_le_mul_of_nonneg_right digits (ten_zpow_pos j).le
        _ = 2 * 10 ^ (j + d.log2) := by rw [zpow_add₀ (by norm_num)]; ring
        _ ≤ 2 * 10 ^ (-401 : ℤ) := by
          refine mul_le_mul_of_nonneg_left (zpow_le_zpow_right₀ (by norm_num) ?_) (by norm_num)
          omega
    have apart : (2 : ℝ) * 10 ^ (-401 : ℤ) < 2 ^ (-1075 : ℤ) := by
      have powers : (10 : ℝ) ^ (-401 : ℤ) ≤ 2 ^ (-1077 : ℤ) :=
        ten_zpow_le_of_nonpos (by norm_num) (by norm_num)
      have quarter : (2 : ℝ) ^ (-1075 : ℤ) = 4 * 2 ^ (-1077 : ℤ) := by
        rw [show (-1075 : ℤ) = 2 + -1077 by norm_num, two_zpow_add]
        norm_num
      have := two_zpow_pos (-1077)
      linarith
    linarith
  · by_contra beyond
    have huge : (10 : ℝ) ^ (401 : ℤ) ≤ d * 10 ^ j := by
      have ones : (1 : ℝ) ≤ d := by exact_mod_cast nonzero
      have powers : (10 : ℝ) ^ (401 : ℤ) ≤ 10 ^ j := zpow_le_zpow_right₀ (by norm_num) (by omega)
      exact powers.trans (le_mul_of_one_le_left (ten_zpow_pos j).le ones)
    have apart : (2 : ℝ) ^ (1025 : ℤ) ≤ 10 ^ (401 : ℤ) := by
      have powers : (10 : ℝ) ^ (-401 : ℤ) ≤ 2 ^ (-1025 : ℤ) :=
        ten_zpow_le_of_nonpos (by norm_num) (by norm_num)
      rwa [zpow_neg, zpow_neg, inv_le_inv₀ (ten_zpow_pos _) (two_zpow_pos _)] at powers
    exact (huge.trans_lt high).not_ge apart

/-- A decimal in the cell of a float is read as that float. -/
theorem nearest_of_has {a : Float} {positive : 0 < m}
    (unpacked : a.toModel.unpack = .finite s m e positive)
    (has : (Cell.ofFloat .binary64 m e).Has (d * 10 ^ j)) : nearest (s == .negative) d j = a := by
  obtain ⟨canonical, room⟩ := canonical_of_unpack (F := .binary64) (by decide) unpacked
  have small := canonical.lt_limit room
  obtain ⟨nonzero, least, most⟩ := bounds_of_has canonical positive small has
  have range : (2 : ℤ) ^ Format.binary64.exponentBits = 2048 := rfl
  have value : Denotes .binary64 (ofScientific .binary64 d j) (roundTo .binary64 (d * 10 ^ j)) :=
    denotes_ofScientific nonzero (by rw [range]; omega) (by rw [range]; omega)
  rw [has.roundTo_eq canonical positive] at value
  have settled : settle .binary64 (ofScientific .binary64 d j) =
      .finite .positive m e positive := by
    rw [settle_of_denotes (by decide) value (by
      rw [abs_of_nonneg (mul_nonneg m.cast_nonneg (two_zpow_pos e).le)]
      exact small)]
    exact eq_finite_of_denotes positive canonical value
  have read : (Float.ofModel (.pack (.ofScientific .binary64 d j))).toModel.unpack =
      .finite .positive m e positive := settled
  have computed : ¬ (d = 0 ∨ j + d.log2 < -400) := by omega
  simp only [nearest, if_neg computed, if_neg (not_lt.2 most)]
  cases s with
  | positive => exact wide_eq_of_unpack_eq (read.trans unpacked.symm)
  | negative =>
    refine wide_eq_of_unpack_eq ?_
    change (-Float.ofModel (.pack (.ofScientific .binary64 d j))).toModel.unpack = _
    rw [wide_unpack_neg, read, unpacked]
    rfl

end Pursuit.Decimal
