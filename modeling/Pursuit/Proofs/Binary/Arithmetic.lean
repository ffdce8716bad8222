import Mathlib.Analysis.Real.Sqrt
import Pursuit.Proofs.Binary.Packing

/-! The operations on unpacked floats. On numbers each gives the rounded result of the operation on
real numbers, whatever the format. -/
namespace Pursuit.Binary

open Float.Model (Format UnpackedFloat totalExponent)
open Float.Model.UnpackedFloat

variable {F : Format} {x y : ℝ} {u v : UnpackedFloat}

theorem signed_apply (s : Sign) (m : Nat) : ((s.apply m : ℤ) : ℝ) = signed s m := by
  cases s with
  | positive => rfl
  | negative => exact Int.cast_neg _

theorem signed_mul (s : Sign) (x y : ℝ) : signed s x * y = signed s (x * y) := by
  cases s with
  | positive => rfl
  | negative => exact neg_mul x y

theorem signed_neg (s : Sign) (x : ℝ) : signed (-s) x = -signed s x := by
  cases s with
  | positive => rfl
  | negative => exact (neg_neg x).symm

theorem signed_mul_signed (s s' : Sign) (x y : ℝ) :
    signed s x * signed s' y = signed (s * s') (x * y) := by
  cases s with
  | positive => cases s' with
    | positive => rfl
    | negative => exact mul_neg x y
  | negative => cases s' with
    | positive => exact neg_mul x y
    | negative => exact neg_mul_neg x y

theorem Denotes.roundTo_eq (denotes : Denotes F u x) : roundTo F x = x :=
  roundTo_of_fits denotes.fits

/-! ## Sums -/

theorem Denotes.neg (denotes : Denotes F u x) : Denotes F u.neg (-x) := by
  cases u with
  | notANumber | infinity => exact denotes.elim
  | zero s => exact neg_eq_zero.2 denotes
  | finite s m e positive =>
    obtain ⟨canonical, rfl⟩ := denotes
    exact ⟨canonical, (signed_neg ..).symm⟩

theorem value_aligned (s : Sign) (m : Nat) {e t : ℤ} (least : t ≤ e) :
    ((s.apply (decreaseExponent m e t).1 : ℤ) : ℝ) * 2 ^ t = signed s (m * 2 ^ e) := by
  have value := value_decreaseExponent m e t
  have reached : (decreaseExponent m e t).2 = t := by
    rw [decreaseExponent]
    omega
  rw [reached] at value
  rw [signed_apply, signed_mul, value]

theorem Denotes.add (first : Denotes F u x) (second : Denotes F v y) :
    Denotes F (u.add F v) (roundTo F (x + y)) := by
  cases u with
  | notANumber | infinity => exact first.elim
  | zero s =>
    obtain rfl : x = 0 := first
    rw [zero_add]
    cases v with
    | notANumber | infinity => exact second.elim
    | zero s' =>
      obtain rfl : y = 0 := second
      rw [UnpackedFloat.add]
      split
      · exact roundTo_zero F
      · exact roundTo_zero F
    | finite => rwa [second.roundTo_eq]
  | finite s m e positive =>
    cases v with
    | notANumber | infinity => exact second.elim
    | zero s' =>
      obtain rfl : y = 0 := second
      rwa [add_zero, first.roundTo_eq]
    | finite s' m' e' positive' =>
      obtain ⟨-, rfl⟩ := first
      obtain ⟨-, rfl⟩ := second
      have total := denotes_normalize (F := F)
        (s.apply (decreaseExponent m e (min e e')).1 +
          s'.apply (decreaseExponent m' e' (min e e')).1)
        (min e e') .positive
      rw [Int.cast_add, add_mul, value_aligned s m (min_le_left e e'),
        value_aligned s' m' (min_le_right e e')] at total
      exact total

theorem sub_eq_add (u v : UnpackedFloat) : u.sub F v = u.add F v.neg := by
  cases u with
  | notANumber => cases v <;> rfl
  | infinity s => cases v <;> rfl
  | zero s => cases v <;> rfl
  | finite s m e positive =>
    cases v with
    | notANumber | infinity | zero => rfl
    | finite s' m' e' positive' =>
      rw [UnpackedFloat.sub, neg, UnpackedFloat.add]
      cases s' with
      | positive => rfl
      | negative => simp only [Sign.apply, sub_neg_eq_add]

theorem Denotes.sub (first : Denotes F u x) (second : Denotes F v y) :
    Denotes F (u.sub F v) (roundTo F (x - y)) := by
  rw [sub_eq_add, sub_eq_add_neg]
  exact first.add second.neg

/-! ## Products -/

theorem minExponent_nonpos (F : Format) : F.minExponent ≤ 0 := by
  have := F.hm
  rw [minExponent_eq]
  omega

theorem Canonical.mul_room {m m' : Nat} {e e' : ℤ} (first : Canonical F m e)
    (second : Canonical F m' e') (positive : 0 < m) (positive' : 0 < m') :
    e + e' ≤ place F ((m * m' : ℕ) * 2 ^ (e + e')) := by
  have large (full : 2 ^ F.mantissaBitsWithoutImplicit ≤ m * m') :
      e + e' ≤ place F ((m * m' : ℕ) * 2 ^ (e + e')) := by
    refine le_place ?_
    have full : (2 : ℝ) ^ (F.mantissaBitsWithoutImplicit : ℤ) ≤ (m * m' : ℕ) := by
      exact_mod_cast full
    rw [abs_of_nonneg (mul_nonneg (Nat.cast_nonneg _) (two_zpow_pos _).le)]
    refine le_trans (le_of_eq ?_) (mul_le_mul_of_nonneg_right full (two_zpow_pos _).le)
    rw [← two_zpow_add, mantissaBits_eq]
    congr 1
    push_cast
    ring
  obtain full | least := first.full
  · exact large (full.trans (Nat.le_mul_of_pos_right m positive'))
  obtain full | least' := second.full
  · exact large (full.trans (Nat.le_mul_of_pos_left m' positive))
  have := minExponent_nonpos F
  exact le_trans (by omega) (minExponent_le_place F _)

theorem Denotes.mul (first : Denotes F u x) (second : Denotes F v y) :
    Denotes F (u.mul F v) (roundTo F (x * y)) := by
  cases u with
  | notANumber | infinity => exact first.elim
  | zero s =>
    obtain rfl : x = 0 := first
    rw [zero_mul, roundTo_zero]
    cases v with
    | notANumber | infinity => exact second.elim
    | zero | finite => rfl
  | finite s m e positive =>
    cases v with
    | notANumber | infinity => exact second.elim
    | zero s' =>
      obtain rfl : y = 0 := second
      rw [mul_zero, roundTo_zero]
      rfl
    | finite s' m' e' positive' =>
      obtain ⟨canonical, rfl⟩ := first
      obtain ⟨canonical', rfl⟩ := second
      have product : signed s (m * 2 ^ e) * signed s' (m' * 2 ^ e') =
          signed (s * s') ((m * m' : ℕ) * 2 ^ (e + e')) := by
        rw [signed_mul_signed, two_zpow_add]
        congr 1
        push_cast
        ring
      rw [product, roundTo_signed]
      exact denotes_roundWithAccuracy_exact (canonical.mul_room canonical' positive positive')

/-! ## Quotients and roots -/

theorem targetExponent_le (T : ℤ) (large : 2 ^ (T - 1) ≤ |x|) : F.targetExponent T ≤ place F x := by
  refine max_le (le_place ?_) (minExponent_le_place F x)
  rwa [sub_add_cancel]

theorem two_zpow_le_mantissa {m : Nat} (positive : 0 < m) (e : ℤ) :
    (2 : ℝ) ^ (totalExponent m e - 1) ≤ m * 2 ^ e := by
  have bits : (2 : ℝ) ^ (m.log2 : ℤ) ≤ m := by exact_mod_cast Nat.log2_self_le positive.ne'
  have split : totalExponent m e - 1 = m.log2 + e := by
    rw [totalExponent]
    ring
  rw [split, two_zpow_add]
  exact mul_le_mul_of_nonneg_right bits (two_zpow_pos e).le

theorem mantissa_lt_two_zpow (m : Nat) (e : ℤ) : (m : ℝ) * 2 ^ e < 2 ^ totalExponent m e := by
  have bits : (m : ℝ) < 2 ^ ((m.log2 + 1 : ℕ) : ℤ) := by exact_mod_cast Nat.lt_log2_self
  rw [totalExponent, two_zpow_add]
  refine mul_lt_mul_of_pos_right (bits.trans_le (le_of_eq ?_)) (two_zpow_pos e)
  push_cast
  rfl

theorem value_shiftLeft (m : Nat) {e t : ℤ} (least : t ≤ e) :
    ((m <<< (e - t).toNat : ℕ) : ℝ) * 2 ^ t = m * 2 ^ e := by
  rw [Nat.shiftLeft_eq]
  push_cast
  rw [mul_assoc, ← zpow_natCast, ← two_zpow_add, Int.toNat_of_nonneg (by omega), sub_add_cancel]

theorem marks_quotient (m : Nat) {d : Nat} (positive : 0 < d) :
    Marks (.ofMantissaAndAccuracy (m / d) (accuracyOfFraction (m % d) d)) (m / d : ℝ) := by
  have parts : (m : ℝ) / d = (m / d : ℕ) + (m % d : ℕ) / (d : ℝ) := by
    have whole : ((d * (m / d) + m % d : ℕ) : ℝ) = m := by exact_mod_cast Nat.div_add_mod m d
    have nonzero : (d : ℝ) ≠ 0 := by exact_mod_cast positive.ne'
    rw [← whole]
    push_cast
    field_simp
  have positive' : (0 : ℝ) < d := by exact_mod_cast positive
  have below : ((m % d : ℕ) : ℝ) < d := by exact_mod_cast Nat.mod_lt m positive
  rw [parts, accuracyOfFraction]
  split
  next none =>
    rw [none, Nat.cast_zero, zero_div, add_zero]
    exact marks_exact _
  next some =>
    have some : (0 : ℝ) < (m % d : ℕ) := by exact_mod_cast Nat.pos_of_ne_zero some
    have fraction : (0 : ℝ) < (m % d : ℕ) / d := div_pos some positive'
    have less : ((m % d : ℕ) : ℝ) / d < 1 := (div_lt_one positive').2 below
    obtain lt | eq | gt := lt_trichotomy (2 * (m % d)) d
    · have half : ((m % d : ℕ) : ℝ) / d < 1 / 2 := by
        rw [div_lt_div_iff₀ positive' two_pos]
        exact_mod_cast (by omega : m % d * 2 < 1 * d)
      rw [Nat.compare_eq_lt.2 lt]
      exact marks_below (by linarith) (by linarith)
    · have half : ((m % d : ℕ) : ℝ) / d = 1 / 2 := by
        rw [div_eq_div_iff positive'.ne' two_pos.ne']
        exact_mod_cast (by omega : m % d * 2 = 1 * d)
      rw [Nat.compare_eq_eq.2 eq, half]
      exact rfl
    · have half : 1 / 2 < ((m % d : ℕ) : ℝ) / d := by
        rw [div_lt_div_iff₀ two_pos positive']
        exact_mod_cast (by omega : 1 * d < m % d * 2)
      rw [Nat.compare_eq_gt.2 gt]
      exact marks_above (by linarith) (by linarith)

/-- The quotient of two mantissas, which need not be of the format's form. -/
theorem denotes_divCore {m m' : Nat} {e e' : ℤ} (s : Sign) (positive : 0 < m) (positive' : 0 < m') :
    Denotes F (roundWithAccuracy F s (divCore F m e m' e').1 (divCore F m e m' e').2.1
      (divCore F m e m' e').2.2) (signed s (roundTo F ((m * 2 ^ e) / (m' * 2 ^ e')))) := by
  rw [divCore]
  dsimp only
  generalize aim : min (e - e') (F.targetExponent (totalExponent m e - totalExponent m' e')) = t
  have least : t ≤ e - e' := by omega
  have nonzero : (m' : ℝ) ≠ 0 := by exact_mod_cast positive'.ne'
  have quotient : (m * 2 ^ e : ℝ) / (m' * 2 ^ e') / 2 ^ t =
      ((m <<< (e - e' - t).toNat : ℕ) : ℝ) / m' := by
    have shifted := value_shiftLeft m least
    rw [zpow_sub₀ two_ne_zero] at shifted
    have := (two_zpow_pos t).ne'
    have := (two_zpow_pos e').ne'
    field_simp at shifted ⊢
    linarith
  have large : (0 : ℝ) < m * 2 ^ e := mul_pos (by exact_mod_cast positive) (two_zpow_pos e)
  have large' : (0 : ℝ) < m' * 2 ^ e' := mul_pos (by exact_mod_cast positive') (two_zpow_pos e')
  refine denotes_roundWithAccuracy (div_pos large large').le ?_ ?_
  · rw [quotient]
    exact marks_quotient _ positive'
  · refine le_trans (by omega) (targetExponent_le (totalExponent m e - totalExponent m' e') ?_)
    rw [abs_of_pos (div_pos large large'), le_div_iff₀ large']
    calc
      (2 : ℝ) ^ (totalExponent m e - totalExponent m' e' - 1) * (m' * 2 ^ e')
          ≤ 2 ^ (totalExponent m e - totalExponent m' e' - 1) * 2 ^ totalExponent m' e' :=
        mul_le_mul_of_nonneg_left (mantissa_lt_two_zpow m' e').le (two_zpow_pos _).le
      _ = 2 ^ (totalExponent m e - 1) := by
        rw [← two_zpow_add]
        congr 1
        ring
      _ ≤ m * 2 ^ e := two_zpow_le_mantissa positive e

theorem marks_root (n : Nat) : Marks (.ofMantissaAndAccuracy n.sqrt (if n - n.sqrt * n.sqrt = 0
    then .exact else .inexact (if n - n.sqrt * n.sqrt ≤ n.sqrt then .lt else .gt))) √n := by
  have low : n.sqrt * n.sqrt ≤ n := Nat.sqrt_le n
  have high : n < (n.sqrt + 1) * (n.sqrt + 1) := Nat.lt_succ_sqrt n
  have upper : √(n : ℝ) < n.sqrt + 1 := by
    rw [Real.sqrt_lt' (by positivity), pow_two]
    exact_mod_cast high
  split
  next square =>
    have square : (n : ℝ) = n.sqrt * n.sqrt := by exact_mod_cast (by omega : n = n.sqrt * n.sqrt)
    rw [square, Real.sqrt_mul_self (Nat.cast_nonneg _)]
    exact marks_exact _
  next rest =>
    have lower : (n.sqrt : ℝ) < √n := by
      rw [Real.lt_sqrt (Nat.cast_nonneg _), pow_two]
      exact_mod_cast (by omega : n.sqrt * n.sqrt < n)
    -- The square of the half above is no whole number, so the remainder decides.
    split
    next small =>
      have small : (n : ℝ) ≤ n.sqrt * n.sqrt + n.sqrt := by
        exact_mod_cast (by omega : n ≤ n.sqrt * n.sqrt + n.sqrt)
      refine marks_below lower ?_
      rw [Real.sqrt_lt' (by positivity)]
      linarith
    next large =>
      have large : (n.sqrt * n.sqrt + n.sqrt + 1 : ℝ) ≤ n := by
        exact_mod_cast (by omega : n.sqrt * n.sqrt + n.sqrt + 1 ≤ n)
      refine marks_above ?_ upper
      rw [Real.lt_sqrt (by positivity)]
      linarith

theorem Denotes.sqrt (denotes : Denotes F u x) (nonneg : 0 ≤ x) :
    Denotes F (u.sqrt F) (roundTo F √x) := by
  cases u with
  | notANumber | infinity => exact denotes.elim
  | zero s =>
    obtain rfl : x = 0 := denotes
    rw [Real.sqrt_zero, roundTo_zero]
    rfl
  | finite s m e positive =>
    obtain ⟨-, rfl⟩ := denotes
    have large : (0 : ℝ) < m * 2 ^ e := mul_pos (by exact_mod_cast positive) (two_zpow_pos e)
    cases s with
    | negative =>
      rw [signed] at nonneg
      linarith
    | positive =>
      rw [signed, UnpackedFloat.sqrt, sqrtCore]
      change Denotes F (roundWithAccuracy F .positive
        (m <<< (e - 2 * min (e / 2) (F.targetExponent ((totalExponent m e + 1) / 2))).toNat).sqrt
        (min (e / 2) (F.targetExponent ((totalExponent m e + 1) / 2))) _) _
      generalize aim : min (e / 2) (F.targetExponent ((totalExponent m e + 1) / 2)) = t
      have least : 2 * t ≤ e := by omega
      have root : √(m * 2 ^ e) / 2 ^ t = √((m <<< (e - 2 * t).toNat : ℕ) : ℝ) := by
        rw [← value_shiftLeft m least, two_mul, two_zpow_add, Real.sqrt_mul (Nat.cast_nonneg _),
          Real.sqrt_mul_self (two_zpow_pos t).le, mul_div_cancel_right₀ _ (two_zpow_pos t).ne']
      refine denotes_roundWithAccuracy (Real.sqrt_nonneg _) ?_ ?_
      · rw [root]
        exact marks_root _
      · refine le_trans (by omega) (targetExponent_le ((totalExponent m e + 1) / 2) ?_)
        rw [abs_of_nonneg (Real.sqrt_nonneg _), Real.le_sqrt' (two_zpow_pos _), pow_two,
          ← two_zpow_add]
        refine le_trans (two_zpow_le ?_) (two_zpow_le_mantissa positive e)
        omega

/-! ## Whole numbers -/

theorem denotes_ofNat (n : Nat) : Denotes F (ofNat F n) (roundTo F n) := by
  have rounded := denotes_normalize (F := F) n 0 .positive
  rw [zpow_zero, mul_one] at rounded
  exact rounded

theorem Denotes.toInt_eq (denotes : Denotes F u x) (nonneg : 0 ≤ x) (low high : ℤ) :
    u.toInt low high = ⌊x⌋ := by
  cases u with
  | notANumber | infinity => exact denotes.elim
  | zero s =>
    obtain rfl : x = 0 := denotes
    rw [Int.floor_zero]
    rfl
  | finite s m e positive =>
    obtain ⟨-, rfl⟩ := denotes
    have large : (0 : ℝ) < m * 2 ^ e := mul_pos (by exact_mod_cast positive) (two_zpow_pos e)
    cases s with
    | negative =>
      rw [signed] at nonneg
      linarith
    | positive =>
      have value := value_decreaseExponent m e 0
      obtain ⟨m', e', decreased⟩ : ∃ m' e', decreaseExponent m e 0 = (m', e') := ⟨_, _, rfl⟩
      have least : e' ≤ 0 := by
        rw [decreaseExponent, Prod.mk.injEq] at decreased
        omega
      rw [decreased] at value
      have scale : (m' : ℝ) / 2 ^ (0 - e').toNat = m * 2 ^ e := by
        rw [← value, ← zpow_natCast, Int.toNat_of_nonneg (by omega), zero_sub, zpow_neg,
          div_inv_eq_mul]
      have marked := (marks_exact m').shift (0 - e').toNat
      rw [scale] at marked
      obtain ⟨down, up⟩ := marked.bounds
      rw [signed, toInt, roundToInt]
      simp only [decreased, shiftToExponent]
      exact (Int.floor_eq_iff.2 ⟨by exact_mod_cast down, by exact_mod_cast up⟩).symm

end Pursuit.Binary
