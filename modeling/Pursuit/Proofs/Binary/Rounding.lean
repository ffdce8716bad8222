import Mathlib.Data.Int.Log
import Mathlib.Algebra.Order.Archimedean.Real.Basic
import Mathlib.Tactic.Linarith
import Mathlib.Tactic.Positivity

/-! Rounding real numbers to those that a binary format can hold, as if it had no largest exponent.
What is rounded moves by at most half of its last place and passes no number of the format. At the
end stands what a float, unpacked or still with its residual bits, says of a real number. -/
namespace Pursuit.Binary

open Float.Model (Format UnpackedFloat)
open Float.Model.UnpackedFloat

/-! ## To whole numbers -/

/-- The whole number nearest to `x`; of two, the even one. -/
noncomputable def nearestEven (x : ℝ) : ℤ :=
  if x - ⌊x⌋ < 1 / 2 then ⌊x⌋ else if 1 / 2 < x - ⌊x⌋ then ⌊x⌋ + 1 else ⌊x⌋ + ⌊x⌋ % 2

theorem nearestEven_spec (x : ℝ) :
    |x - nearestEven x| ≤ 1 / 2 ∧ (|x - nearestEven x| = 1 / 2 → Even (nearestEven x)) := by
  have low : (⌊x⌋ : ℝ) ≤ x := Int.floor_le x
  have high : x < ⌊x⌋ + 1 := Int.lt_floor_add_one x
  rw [nearestEven]
  split_ifs with below above
  · rw [abs_of_nonneg (by linarith)]
    exact ⟨below.le, fun half => absurd half below.ne⟩
  · push_cast
    rw [abs_of_nonpos (by linarith)]
    exact ⟨by linarith, fun half => by linarith⟩
  · have half : x - ⌊x⌋ = 1 / 2 := by linarith
    obtain even | odd := Int.emod_two_eq_zero_or_one ⌊x⌋
    · rw [even, add_zero, half, abs_of_pos (by norm_num)]
      exact ⟨le_rfl, fun _ => Int.even_iff.2 even⟩
    · rw [odd]
      push_cast
      rw [show x - (⌊x⌋ + 1) = -(1 / 2) by linarith, abs_neg, abs_of_pos (by norm_num)]
      exact ⟨le_rfl, fun _ => Int.even_add_one.2 (Int.not_even_iff.2 odd)⟩

theorem nearestEven_eq {x : ℝ} {n : ℤ} (near : |x - n| ≤ 1 / 2) (tie : |x - n| = 1 / 2 → Even n) :
    nearestEven x = n := by
  obtain ⟨close, even⟩ := nearestEven_spec x
  -- Both are within a half of `x`; if they differ, both are ties, and neighbours are not both even.
  have apart : |((nearestEven x - n : ℤ) : ℝ)| ≤ 1 := by
    push_cast
    rw [abs_le] at *
    constructor <;> linarith
  have apart : |nearestEven x - n| ≤ 1 := by exact_mod_cast apart
  by_contra differ
  obtain up | down : nearestEven x = n + 1 ∨ nearestEven x = n - 1 := by
    rw [abs_le] at apart
    omega
  · rw [up] at close even
    push_cast at close even
    have half : x - n = 1 / 2 := by rw [abs_le] at *; linarith
    have one := even (by rw [show x - (n + 1) = -(1 / 2) by linarith]; norm_num)
    have two := tie (by rw [half]; norm_num)
    exact Int.even_add_one.1 one two
  · rw [down] at close even
    push_cast at close even
    have half : x - n = -(1 / 2) := by rw [abs_le] at *; linarith
    have one := even (by rw [show x - (n - 1) = 1 / 2 by linarith]; norm_num)
    have two := tie (by rw [half]; norm_num)
    exact Int.even_sub_one.1 one two

@[simp] theorem nearestEven_intCast (n : ℤ) : nearestEven n = n :=
  nearestEven_eq (by simp) (by simp)

@[simp] theorem nearestEven_neg (x : ℝ) : nearestEven (-x) = -nearestEven x := by
  obtain ⟨close, even⟩ := nearestEven_spec x
  have turned : |-x - ((-nearestEven x : ℤ) : ℝ)| = |x - nearestEven x| := by
    push_cast
    rw [← abs_neg]
    congr 1
    ring
  exact nearestEven_eq (turned ▸ close) fun half => (even (turned ▸ half)).neg

theorem le_nearestEven {x : ℝ} {n : ℤ} (below : n ≤ x) : n ≤ nearestEven x := by
  by_contra passed
  have passed : (nearestEven x : ℝ) + 1 ≤ n := by exact_mod_cast not_le.1 passed
  obtain ⟨close, even⟩ := nearestEven_spec x
  rw [abs_le] at close
  linarith

theorem nearestEven_le {x : ℝ} {n : ℤ} (above : x ≤ n) : nearestEven x ≤ n := by
  have turned : -n ≤ nearestEven (-x) := le_nearestEven (by push_cast; linarith)
  rw [nearestEven_neg] at turned
  omega

/-! ## To a format -/

section Format

variable {F : Format} {x v : ℝ} {k : ℤ}

theorem mantissaBits_eq (F : Format) :
    F.mantissaBits = F.mantissaBitsWithoutImplicit + 1 := Nat.add_comm ..

theorem two_zpow_pos (k : ℤ) : (0 : ℝ) < 2 ^ k := zpow_pos (by norm_num) k

theorem two_zpow_add (j k : ℤ) : (2 : ℝ) ^ (j + k) = 2 ^ j * 2 ^ k := zpow_add₀ (by norm_num) j k

theorem two_zpow_le {j k : ℤ} (le : j ≤ k) : (2 : ℝ) ^ j ≤ 2 ^ k :=
  zpow_le_zpow_right₀ (by norm_num) le

/-- The exponent of the last place that numbers as large as `x` have. -/
noncomputable def place (F : Format) (x : ℝ) : ℤ :=
  if x = 0 then F.minExponent else max (Int.log 2 |x| + 1 - F.mantissaBits) F.minExponent

/-- The number of the format that is nearest to `x`; of two, the one with the even mantissa. -/
noncomputable def roundTo (F : Format) (x : ℝ) : ℝ :=
  nearestEven (x / 2 ^ place F x) * 2 ^ place F x

/-- Whether the format, its largest exponent apart, can hold a number. -/
def Fits (F : Format) (v : ℝ) : Prop :=
  ∃ m e : ℤ, |m| ≤ 2 ^ F.mantissaBits ∧ F.minExponent ≤ e ∧ v = m * 2 ^ e

theorem place_neg (F : Format) (x : ℝ) : place F (-x) = place F x := by
  simp only [place, abs_neg, neg_eq_zero]

@[simp] theorem roundTo_neg (F : Format) (x : ℝ) : roundTo F (-x) = -roundTo F x := by
  rw [roundTo, roundTo, place_neg, neg_div, nearestEven_neg]
  push_cast
  ring

@[simp] theorem roundTo_zero (F : Format) : roundTo F 0 = 0 := by
  have zero : nearestEven 0 = 0 := by exact_mod_cast nearestEven_intCast 0
  rw [roundTo, zero_div, zero]
  simp

theorem Fits.neg (fits : Fits F v) : Fits F (-v) := by
  obtain ⟨m, e, small, least, rfl⟩ := fits
  exact ⟨-m, e, by rwa [abs_neg], least, by push_cast; ring⟩

theorem minExponent_le_place (F : Format) (x : ℝ) : F.minExponent ≤ place F x := by
  rw [place]
  split
  · exact le_rfl
  · exact le_max_right ..

theorem le_abs_of_place (above : F.minExponent < place F x) :
    2 ^ (place F x + F.mantissaBits - 1) ≤ |x| := by
  by_cases zero : x = 0
  · rw [place, if_pos zero] at above
    exact absurd above (lt_irrefl _)
  · have exact : place F x = Int.log 2 |x| + 1 - F.mantissaBits := by
      rw [place, if_neg zero] at above ⊢
      omega
    rw [exact, show Int.log 2 |x| + 1 - F.mantissaBits + F.mantissaBits - 1 = Int.log 2 |x| by ring]
    exact_mod_cast Int.zpow_log_le_self (by norm_num) (abs_pos.2 zero)

theorem abs_lt_of_place (F : Format) (x : ℝ) : |x| < 2 ^ (place F x + F.mantissaBits) := by
  by_cases zero : x = 0
  · rw [zero, abs_zero]
    exact two_zpow_pos _
  · have above : Int.log 2 |x| + 1 ≤ place F x + F.mantissaBits := by
      rw [place, if_neg zero]
      omega
    calc
      |x| < 2 ^ (Int.log 2 |x| + 1) := by
        exact_mod_cast Int.lt_zpow_succ_log_self (by norm_num) |x|
      _ ≤ 2 ^ (place F x + F.mantissaBits) := two_zpow_le above

theorem place_le (least : F.minExponent ≤ k) (small : |x| < 2 ^ (k + F.mantissaBits)) :
    place F x ≤ k := by
  by_contra above
  have large := le_abs_of_place (lt_of_le_of_lt least (not_le.1 above))
  have further : (2 : ℝ) ^ (k + F.mantissaBits) ≤ 2 ^ (place F x + F.mantissaBits - 1) :=
    two_zpow_le (by omega)
  linarith

theorem le_place (large : 2 ^ (k + F.mantissaBits - 1) ≤ |x|) : k ≤ place F x := by
  by_contra below
  have small := abs_lt_of_place F x
  have further : (2 : ℝ) ^ (place F x + F.mantissaBits) ≤ 2 ^ (k + F.mantissaBits - 1) :=
    two_zpow_le (by omega)
  linarith

/-- What the place of `x` counts in steps fits below `x` if it is there. -/
theorem le_roundTo_of_steps (n : ℤ) (below : n * 2 ^ place F x ≤ x) :
    n * 2 ^ place F x ≤ roundTo F x := by
  have steps : n ≤ nearestEven (x / 2 ^ place F x) :=
    le_nearestEven ((le_div_iff₀ (two_zpow_pos _)).2 below)
  exact mul_le_mul_of_nonneg_right (by exact_mod_cast steps) (two_zpow_pos _).le

/-- Rounding passes no number of the format. -/
theorem le_roundTo (fits : Fits F v) (below : v ≤ x) : v ≤ roundTo F x := by
  obtain ⟨m, e, small, least, rfl⟩ := fits
  obtain coarse | fine := le_or_gt (place F x) e
  · -- The number is a whole number of steps.
    have steps : (m : ℝ) * 2 ^ e = ((m * 2 ^ (e - place F x).toNat : ℤ) : ℝ) * 2 ^ place F x := by
      push_cast
      rw [mul_assoc, ← zpow_natCast, ← two_zpow_add, Int.toNat_of_nonneg (by omega), sub_add_cancel]
    rw [steps] at below ⊢
    exact le_roundTo_of_steps _ below
  · -- Between the number and `x` lies the least of those with the place of `x`.
    have large := le_abs_of_place (lt_of_le_of_lt least fine)
    have least : (2 : ℝ) ^ (place F x + F.mantissaBits - 1) =
        ((2 ^ (F.mantissaBits - 1) : ℤ) : ℝ) * 2 ^ place F x := by
      have positive : 1 ≤ F.mantissaBits := by rw [mantissaBits_eq]; omega
      push_cast
      rw [← zpow_natCast, ← two_zpow_add]
      congr 1
      omega
    have size : |(m : ℝ) * 2 ^ e| ≤ 2 ^ (place F x + F.mantissaBits - 1) := by
      rw [abs_mul, abs_of_pos (two_zpow_pos e)]
      calc
        |(m : ℝ)| * 2 ^ e ≤ 2 ^ (F.mantissaBits : ℤ) * 2 ^ e :=
          mul_le_mul_of_nonneg_right (by exact_mod_cast small) (two_zpow_pos e).le
        _ = 2 ^ (F.mantissaBits + e) := (two_zpow_add ..).symm
        _ ≤ 2 ^ (place F x + F.mantissaBits - 1) := two_zpow_le (by omega)
    rw [abs_le] at size
    obtain right | left := le_total 0 x
    · rw [abs_of_nonneg right, least] at large
      exact (size.2.trans_eq least).trans (le_roundTo_of_steps _ large)
    · rw [abs_of_nonpos left] at large
      have same : (m : ℝ) * 2 ^ e = x := by linarith
      have exact : x = ((-2 ^ (F.mantissaBits - 1) : ℤ) : ℝ) * 2 ^ place F x := by
        push_cast at least ⊢
        linarith
      rw [same]
      exact exact.le.trans (le_roundTo_of_steps _ exact.symm.le)

theorem roundTo_le (fits : Fits F v) (above : x ≤ v) : roundTo F x ≤ v := by
  have turned : -v ≤ roundTo F (-x) := le_roundTo fits.neg (neg_le_neg above)
  rw [roundTo_neg] at turned
  linarith

theorem roundTo_of_fits (fits : Fits F v) : roundTo F v = v :=
  le_antisymm (roundTo_le fits le_rfl) (le_roundTo fits le_rfl)

theorem abs_roundTo_le (fits : Fits F v) (within : |x| ≤ v) : |roundTo F x| ≤ v := by
  rw [abs_le] at within ⊢
  exact ⟨le_roundTo fits.neg within.1, roundTo_le fits within.2⟩

theorem roundTo_nonneg (nonneg : 0 ≤ x) : 0 ≤ roundTo F x :=
  le_roundTo ⟨0, F.minExponent, by simp, le_rfl, by simp⟩ nonneg

theorem abs_nearestEven_place_le (F : Format) (x : ℝ) :
    |nearestEven (x / 2 ^ place F x)| ≤ 2 ^ F.mantissaBits := by
  have bound : |x / 2 ^ place F x| ≤ ((2 ^ F.mantissaBits : ℤ) : ℝ) := by
    rw [abs_div, abs_of_pos (two_zpow_pos _), div_le_iff₀ (two_zpow_pos _)]
    push_cast
    rw [← zpow_natCast, ← two_zpow_add, add_comm]
    exact (abs_lt_of_place F x).le
  rw [abs_le] at bound ⊢
  exact ⟨le_nearestEven (by push_cast at bound ⊢; linarith), nearestEven_le bound.2⟩

theorem le_nearestEven_place (nonneg : 0 ≤ x) (above : F.minExponent < place F x) :
    2 ^ F.mantissaBitsWithoutImplicit ≤ nearestEven (x / 2 ^ place F x) := by
  have large := le_abs_of_place above
  rw [abs_of_nonneg nonneg, mantissaBits_eq] at large
  refine le_nearestEven ((le_div_iff₀ (two_zpow_pos _)).2 (le_trans (le_of_eq ?_) large))
  push_cast
  rw [← zpow_natCast, ← two_zpow_add]
  congr 1
  ring

/-- The error is at most half of a place that numbers below a power of two have. -/
theorem abs_roundTo_sub_le (least : F.minExponent ≤ k) (small : |x| < 2 ^ (k + F.mantissaBits)) :
    |roundTo F x - x| ≤ 2 ^ k / 2 := by
  obtain ⟨close, -⟩ := nearestEven_spec (x / 2 ^ place F x)
  have step := two_zpow_pos (place F x)
  calc
    |roundTo F x - x| = |x / 2 ^ place F x - nearestEven (x / 2 ^ place F x)| * 2 ^ place F x := by
      rw [← abs_of_pos step, ← abs_mul, abs_of_pos step, sub_mul, div_mul_cancel₀ _ step.ne',
        abs_sub_comm, roundTo]
    _ ≤ 1 / 2 * 2 ^ place F x := mul_le_mul_of_nonneg_right close step.le
    _ ≤ 2 ^ k / 2 := by linarith [two_zpow_le (place_le least small)]

end Format

/-! ## Floats as real numbers -/

/-- The form in which a format keeps a mantissa and an exponent. -/
structure Canonical (F : Format) (m : Nat) (e : ℤ) : Prop where
  small : m < 2 ^ F.mantissaBits
  least : F.minExponent ≤ e
  full : 2 ^ F.mantissaBitsWithoutImplicit ≤ m ∨ e = F.minExponent

def signed (s : Sign) (x : ℝ) : ℝ :=
  match s with
  | .positive => x
  | .negative => -x

/-- The float is finite, of the format's form, and has this value. -/
def Denotes (F : Format) : UnpackedFloat → ℝ → Prop
  | .zero _, x => x = 0
  | .finite s m e _, x => Canonical F m e ∧ x = signed s (m * 2 ^ e)
  | _, _ => False

/-- The mantissa and its two residual bits say where a number lies. -/
def Marks (em : ExtendedMantissa) (y : ℝ) : Prop :=
  match em.roundBit, em.stickyBit with
  | false, false => y = em.mantissa
  | false, true => em.mantissa < y ∧ y < em.mantissa + 1 / 2
  | true, false => y = em.mantissa + 1 / 2
  | true, true => em.mantissa + 1 / 2 < y ∧ y < em.mantissa + 1

noncomputable def limit (F : Format) : ℝ := 2 ^ (F.exponentBias + 1 : ℤ)

theorem limit_pos (F : Format) : 0 < limit F := two_zpow_pos _

end Pursuit.Binary
