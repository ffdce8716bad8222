import Pursuit.Proofs.Binary.Canonical
import Pursuit.Proofs.Binary.Unpacked

/-! Packed floats as real numbers. Every packed float unpacks to an infinity, to NaN or to a number
of its format, and a number that is not too large comes back unchanged from its packed form. -/
namespace Pursuit.Binary

open Float.Model (Format UnpackedFloat)
open Float.Model.UnpackedFloat

variable {F : Format} {x y : ℝ} {m : Nat} {e : ℤ} {s : Sign} {u v : UnpackedFloat}

/-- What comes out when a float is packed and unpacked again. -/
def settle (F : Format) (u : UnpackedFloat) : UnpackedFloat := unpack F (pack F u)

theorem exponentBias_pos (wide : 2 ≤ F.exponentBits) : 0 < F.exponentBias := by
  have two : 2 ^ 1 ≤ 2 ^ (F.exponentBits - 1) := Nat.pow_le_pow_right (by norm_num) (by omega)
  rw [Format.exponentBias]
  omega

theorem exponent_le_of_lt_limit (wide : 2 ≤ F.exponentBits) (canonical : Canonical F m e)
    (small : (m : ℝ) * 2 ^ e < limit F) : e ≤ F.exponentBias - F.mantissaBitsWithoutImplicit := by
  obtain full | least := canonical.full
  · have full : (2 : ℝ) ^ (F.mantissaBitsWithoutImplicit : ℤ) ≤ m := by exact_mod_cast full
    have below : (2 : ℝ) ^ (F.mantissaBitsWithoutImplicit + e) < 2 ^ (F.exponentBias + 1 : ℤ) := by
      rw [two_zpow_add]
      exact (mul_le_mul_of_nonneg_right full (two_zpow_pos e).le).trans_lt small
    have := (zpow_lt_zpow_iff_right₀ (by norm_num : (1 : ℝ) < 2)).1 below
    omega
  · have := exponentBias_pos wide
    rw [least, minExponent_eq]
    omega

theorem Canonical.lt_limit (canonical : Canonical F m e)
    (room : e ≤ F.exponentBias - F.mantissaBitsWithoutImplicit) : (m : ℝ) * 2 ^ e < limit F := by
  have small : (m : ℝ) < 2 ^ (F.mantissaBits : ℤ) := by exact_mod_cast canonical.small
  calc
    (m : ℝ) * 2 ^ e < 2 ^ (F.mantissaBits : ℤ) * 2 ^ e :=
      mul_lt_mul_of_pos_right small (two_zpow_pos e)
    _ = 2 ^ (F.mantissaBits + e) := (two_zpow_add ..).symm
    _ ≤ limit F := two_zpow_le (by rw [mantissaBits_eq]; push_cast; omega)

/-! ## Unpacking -/

theorem toNat_one_append (n : Nat) (b : BitVec n) : (1#1 ++ b).toNat = 2 ^ n + b.toNat := by
  rw [BitVec.toNat_append, ← Nat.shiftLeft_add_eq_or_of_lt b.isLt]
  simp [Nat.shiftLeft_eq]

theorem ne_allOnes_of_lt {n k : Nat} (small : k + 1 < 2 ^ n) : BitVec.ofNat n k ≠ -1#n := by
  intro same
  have same := congrArg BitVec.toNat same
  rw [BitVec.toNat_ofNat, Nat.mod_eq_of_lt (by omega), BitVec.neg_one_eq_allOnes,
    BitVec.toNat_allOnes] at same
  omega

theorem ofNat_ne_zero {n k : Nat} (positive : 0 < k) (small : k < 2 ^ n) :
    BitVec.ofNat n k ≠ 0#n := by
  intro same
  have same := congrArg BitVec.toNat same
  rw [BitVec.toNat_ofNat, Nat.mod_eq_of_lt small, BitVec.toNat_zero] at same
  omega

/-- Every number of the format that is not too large has a packed form. -/
theorem exists_unpack_eq (wide : 2 ≤ F.exponentBits) (positive : 0 < m)
    (canonical : Canonical F m e) (room : e ≤ F.exponentBias - F.mantissaBitsWithoutImplicit) :
    ∃ b : BitVec F.numBits, unpack F b = .finite s m e positive := by
  have range := two_pow_exponentBits F
  have bias := exponentBias_pos wide
  have least := canonical.least
  have small := canonical.small
  rw [minExponent_eq] at least
  rw [two_pow_mantissaBits] at small
  by_cases full : 2 ^ F.mantissaBitsWithoutImplicit ≤ m
  · -- The leading bit of a normal number is not stored.
    obtain ⟨k, exponent⟩ : ∃ k : ℕ, (k : ℤ) = e + F.exponentBias + F.mantissaBitsWithoutImplicit :=
      ⟨_, Int.toNat_of_nonneg (by omega)⟩
    have rest : m - 2 ^ F.mantissaBitsWithoutImplicit <
      2 ^ F.mantissaBitsWithoutImplicit := by omega
    refine ⟨packComponents F s (.ofNat _ k) (.ofNat _ (m - 2 ^ F.mantissaBitsWithoutImplicit)), ?_⟩
    rw [unpack]
    simp only [unpackMantissa_packComponents, unpackExponent_packComponents,
      unpackSign_packComponents, Sign.ofBitVec_toBitVec]
    rw [if_neg (ne_allOnes_of_lt (by omega)), if_neg (ofNat_ne_zero (by omega) (by omega))]
    congr 1
    · rw [toNat_one_append, BitVec.toNat_ofNat, Nat.mod_eq_of_lt rest]
      omega
    · rw [BitVec.toNat_ofNat, Nat.mod_eq_of_lt (by omega)]
      omega
  · have bottom : e = F.minExponent := canonical.full.resolve_left full
    have rest : m < 2 ^ F.mantissaBitsWithoutImplicit := not_le.1 full
    refine ⟨packComponents F s 0#_ (.ofNat _ m), ?_⟩
    rw [unpack]
    simp only [unpackMantissa_packComponents, unpackExponent_packComponents,
      unpackSign_packComponents, Sign.ofBitVec_toBitVec]
    have notOnes : (0#F.exponentBits) ≠ -1#_ := ne_allOnes_of_lt (by omega)
    rw [if_neg notOnes, if_pos trivial, dif_neg (ofNat_ne_zero positive rest)]
    congr 1
    · rw [BitVec.toNat_ofNat, Nat.mod_eq_of_lt rest]
    · rw [bottom, minExponent_eq, BitVec.toNat_zero]
      push_cast
      ring

theorem settle_of_denotes (wide : 2 ≤ F.exponentBits) (denotes : Denotes F u x)
    (small : |x| < limit F) : settle F u = u := by
  cases u with
  | notANumber | infinity => exact denotes.elim
  | zero => exact unpack_packedZero
  | finite s m e positive =>
    obtain ⟨canonical, rfl⟩ := denotes
    rw [abs_signed, abs_of_nonneg (mul_nonneg m.cast_nonneg (two_zpow_pos e).le)] at small
    obtain ⟨b, packed⟩ :=
      exists_unpack_eq (s := s) wide positive canonical
        (exponent_le_of_lt_limit wide canonical small)
    rw [← packed]
    exact unpack_pack_unpack wide b

theorem denotes_settle (wide : 2 ≤ F.exponentBits) (denotes : Denotes F u x)
    (small : |x| < limit F) : Denotes F (settle F u) x := by
  rwa [settle_of_denotes wide denotes small]

theorem settle_infinity (s : Sign) : settle F (.infinity s) = .infinity s := by
  rw [settle, pack, packedInfinity, unpack]
  simp

theorem settle_of_large (denotes : Denotes F u x) (large : limit F ≤ |x|) :
    ∃ s, settle F u = .infinity s ∧ x = signed s |x| := by
  cases u with
  | notANumber | infinity => exact denotes.elim
  | zero s =>
    obtain rfl : x = 0 := denotes
    rw [abs_zero] at large
    exact absurd (limit_pos F) large.not_gt
  | finite s m e positive =>
    obtain ⟨canonical, rfl⟩ := denotes
    rw [abs_signed, abs_of_nonneg (mul_nonneg m.cast_nonneg (two_zpow_pos e).le)] at large ⊢
    have beyond : F.exponentBias - F.mantissaBitsWithoutImplicit < e :=
      not_le.1 fun room => (canonical.lt_limit room).not_ge large
    have range := two_pow_exponentBits F
    have packed : pack F (.finite s m e positive) = packedInfinity F s := by
      rw [pack]
      exact if_pos (by omega)
    exact ⟨s, by rw [settle, packed]; exact settle_infinity s, rfl⟩

theorem settle_ne_notANumber (wide : 2 ≤ F.exponentBits) (denotes : Denotes F u x) :
    settle F u ≠ .notANumber := by
  obtain small | large := lt_or_ge |x| (limit F)
  · rw [settle_of_denotes wide denotes small]
    rintro rfl
    exact denotes.elim
  · obtain ⟨s, infinite, -⟩ := settle_of_large denotes large
    rw [infinite]
    nofun

/-- What a packed float unpacks to is of the format's form, and not too large. -/
theorem canonical_of_unpack (wide : 2 ≤ F.exponentBits) {b : BitVec F.numBits} {positive : 0 < m}
    (unpacked : unpack F b = .finite s m e positive) :
    Canonical F m e ∧ e ≤ F.exponentBias - F.mantissaBitsWithoutImplicit := by
  have range := two_pow_exponentBits F
  have bits := (unpackMantissa b).isLt
  rw [unpack] at unpacked
  split at unpacked
  · split at unpacked <;> cases unpacked
  next notOnes =>
  -- An exponent that is not all ones is at least two below the range.
  have room : (unpackExponent b).toNat + 2 ≤ 2 ^ F.exponentBits := by
    have below := (unpackExponent b).isLt
    have apart : (unpackExponent b).toNat ≠ 2 ^ F.exponentBits - 1 := by
      intro same
      refine notOnes (BitVec.eq_of_toNat_eq ?_)
      rw [same, BitVec.neg_one_eq_allOnes, BitVec.toNat_allOnes]
    omega
  split at unpacked
  next zero =>
    split at unpacked
    · cases unpacked
    · cases unpacked
      rw [zero, BitVec.toNat_zero]
      refine ⟨⟨?_, ?_, .inr ?_⟩, ?_⟩
      · rw [two_pow_mantissaBits]
        omega
      · rw [minExponent_eq]
        omega
      · rw [minExponent_eq]
        push_cast
        ring
      · have := exponentBias_pos wide
        push_cast
        omega
  next normal =>
    have one : 1 ≤ (unpackExponent b).toNat := by
      refine Nat.one_le_iff_ne_zero.2 fun zero => normal (BitVec.eq_of_toNat_eq ?_)
      rw [zero, BitVec.toNat_zero]
    cases unpacked
    rw [toNat_one_append]
    refine ⟨⟨?_, ?_, .inl (Nat.le_add_right ..)⟩, ?_⟩
    · rw [two_pow_mantissaBits]
      omega
    · rw [minExponent_eq]
      omega
    · omega

theorem unpack_cases (wide : 2 ≤ F.exponentBits) (b : BitVec F.numBits) :
    unpack F b = .notANumber ∨ (∃ s, unpack F b = .infinity s) ∨ ∃ x, Denotes F (unpack F b) x := by
  cases unpacked : unpack F b with
  | notANumber => exact .inl rfl
  | infinity s => exact .inr (.inl ⟨s, rfl⟩)
  | zero s => exact .inr (.inr ⟨0, rfl⟩)
  | finite s m e positive => exact .inr (.inr ⟨_, (canonical_of_unpack wide unpacked).1, rfl⟩)

theorem abs_lt_limit_of_denotes (wide : 2 ≤ F.exponentBits) {b : BitVec F.numBits}
    (denotes : Denotes F (unpack F b) x) : |x| < limit F := by
  cases unpacked : unpack F b with
  | notANumber | infinity =>
    rw [unpacked] at denotes
    exact denotes.elim
  | zero s =>
    rw [unpacked] at denotes
    obtain rfl : x = 0 := denotes
    rw [abs_zero]
    exact limit_pos F
  | finite s m e positive =>
    obtain ⟨canonical, room⟩ := canonical_of_unpack wide unpacked
    rw [unpacked] at denotes
    rw [denotes.2, abs_signed, abs_of_nonneg (mul_nonneg m.cast_nonneg (two_zpow_pos e).le)]
    exact canonical.lt_limit room

/-! ## Order -/

theorem Canonical.lt_of_exponent_lt {m₁ m₂ : Nat} {e₁ e₂ : ℤ} (first : Canonical F m₁ e₁)
    (second : Canonical F m₂ e₂) (lt : e₁ < e₂) : (m₁ : ℝ) * 2 ^ e₁ < m₂ * 2 ^ e₂ := by
  have full : 2 ^ F.mantissaBitsWithoutImplicit ≤ m₂ :=
    second.full.resolve_right (by have := first.least; omega)
  have full : (2 : ℝ) ^ (F.mantissaBitsWithoutImplicit : ℤ) ≤ m₂ := by exact_mod_cast full
  have small : (m₁ : ℝ) < 2 ^ (F.mantissaBits : ℤ) := by exact_mod_cast first.small
  calc
    (m₁ : ℝ) * 2 ^ e₁ < 2 ^ (F.mantissaBits : ℤ) * 2 ^ e₁ :=
      mul_lt_mul_of_pos_right small (two_zpow_pos e₁)
    _ = 2 ^ (F.mantissaBits + e₁) := (two_zpow_add ..).symm
    _ ≤ 2 ^ (F.mantissaBitsWithoutImplicit + e₂) :=
      two_zpow_le (by rw [mantissaBits_eq]; push_cast; omega)
    _ = 2 ^ (F.mantissaBitsWithoutImplicit : ℤ) * 2 ^ e₂ := two_zpow_add ..
    _ ≤ m₂ * 2 ^ e₂ := mul_le_mul_of_nonneg_right full (two_zpow_pos e₂).le

/-- Exponents first and then mantissas compare as the numbers do. -/
theorem Canonical.compare_eq {m₁ m₂ : Nat} {e₁ e₂ : ℤ} (first : Canonical F m₁ e₁)
    (second : Canonical F m₂ e₂) :
    (compare e₁ e₂).then (compare m₁ m₂) = cmp ((m₁ : ℝ) * 2 ^ e₁) (m₂ * 2 ^ e₂) := by
  obtain lt | rfl | gt := lt_trichotomy e₁ e₂
  · rw [Int.compare_eq_lt.2 lt, (cmp_eq_lt_iff _ _).2 (first.lt_of_exponent_lt second lt)]
    rfl
  · have step := two_zpow_pos e₁
    rw [Int.compare_eq_eq.2 rfl, Ordering.eq_then]
    obtain lt | rfl | gt := lt_trichotomy m₁ m₂
    · rw [Nat.compare_eq_lt.2 lt, eq_comm, cmp_eq_lt_iff]
      exact mul_lt_mul_of_pos_right (by exact_mod_cast lt) step
    · rw [Nat.compare_eq_eq.2 rfl, cmp_self_eq_eq]
    · rw [Nat.compare_eq_gt.2 gt, eq_comm, cmp_eq_gt_iff]
      exact mul_lt_mul_of_pos_right (by exact_mod_cast gt) step
  · rw [Int.compare_eq_gt.2 gt, (cmp_eq_gt_iff _ _).2 (second.lt_of_exponent_lt first gt)]
    rfl

theorem cmp_neg_neg (x y : ℝ) : cmp (-x) (-y) = cmp y x := by
  simp only [cmp, cmpUsing, neg_lt_neg_iff]

theorem compare_of_denotes (first : Denotes F u x) (second : Denotes F v y) :
    u.compare v = some (cmp x y) := by
  cases u with
  | notANumber | infinity => exact first.elim
  | zero s =>
    obtain rfl : x = 0 := first
    cases v with
    | notANumber | infinity => exact second.elim
    | zero s' =>
      obtain rfl : y = 0 := second
      rw [cmp_self_eq_eq]
      rfl
    | finite s' m e positive =>
      obtain ⟨-, rfl⟩ := second
      have large : (0 : ℝ) < m * 2 ^ e := mul_pos (by exact_mod_cast positive) (two_zpow_pos e)
      cases s' with
      | positive => rw [signed, (cmp_eq_lt_iff _ _).2 large]; rfl
      | negative => rw [signed, (cmp_eq_gt_iff _ _).2 (neg_neg_of_pos large)]; rfl
  | finite s m e positive =>
    obtain ⟨canonical, rfl⟩ := first
    have large : (0 : ℝ) < m * 2 ^ e := mul_pos (by exact_mod_cast positive) (two_zpow_pos e)
    cases v with
    | notANumber | infinity => exact second.elim
    | zero s' =>
      obtain rfl : y = 0 := second
      cases s with
      | positive => rw [signed, (cmp_eq_gt_iff _ _).2 large]; rfl
      | negative => rw [signed, (cmp_eq_lt_iff _ _).2 (neg_neg_of_pos large)]; rfl
    | finite s' m' e' positive' =>
      obtain ⟨canonical', rfl⟩ := second
      have large' : (0 : ℝ) < m' * 2 ^ e' := mul_pos (by exact_mod_cast positive') (two_zpow_pos e')
      have same := canonical.compare_eq canonical'
      cases s with
      | positive =>
        cases s' with
        | positive => exact congrArg some same
        | negative => rw [signed, signed, (cmp_eq_gt_iff _ _).2 (by linarith)]; rfl
      | negative =>
        cases s' with
        | positive => rw [signed, signed, (cmp_eq_lt_iff _ _).2 (by linarith)]; rfl
        | negative =>
          rw [signed, signed, cmp_neg_neg, ← cmp_swap, ← same]
          rfl

end Pursuit.Binary
