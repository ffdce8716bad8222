import Pursuit.Proofs.Binary.Values

/-! Floats that are the same. A number other than zero has one mantissa and one exponent in each
format, so a float is known by its sign and its value, and a narrow float comes back from the wide
width. -/
namespace Pursuit.Binary

open Float.Model (Format UnpackedFloat)
open Float.Model.UnpackedFloat

variable {F : Format} {m m' : ℕ} {e e' : ℤ} {s : Sign} {u : UnpackedFloat}

theorem Canonical.unique (first : Canonical F m e) (second : Canonical F m' e')
    (same : (m : ℝ) * 2 ^ e = m' * 2 ^ e') : m = m' ∧ e = e' := by
  obtain below | rfl | above := lt_trichotomy e e'
  · exact absurd same (first.lt_of_exponent_lt second below).ne
  · exact ⟨by exact_mod_cast mul_right_cancel₀ (two_zpow_pos e).ne' same, rfl⟩
  · exact absurd same.symm (second.lt_of_exponent_lt first above).ne

theorem eq_finite_of_denotes (positive : 0 < m) (canonical : Canonical F m e)
    (denotes : Denotes F u (signed s (m * 2 ^ e))) : u = .finite s m e positive := by
  have large : (0 : ℝ) < m * 2 ^ e := mul_pos (by exact_mod_cast positive) (two_zpow_pos e)
  cases u with
  | notANumber | infinity => exact denotes.elim
  | zero =>
    have zero : signed s (m * 2 ^ e) = 0 := denotes
    rw [← abs_eq_zero, abs_signed, abs_of_pos large] at zero
    exact absurd zero large.ne'
  | finite s' m' e' positive' =>
    obtain ⟨canonical', same⟩ := denotes
    have large' : (0 : ℝ) < m' * 2 ^ e' := mul_pos (by exact_mod_cast positive') (two_zpow_pos e')
    have size : |signed s (m * 2 ^ e)| = |signed s' (m' * 2 ^ e')| := by rw [same]
    rw [abs_signed, abs_signed, abs_of_pos large, abs_of_pos large'] at size
    obtain ⟨rfl, rfl⟩ := canonical.unique canonical' size
    have sign : s = s' := by
      cases s <;> cases s' <;> simp only [signed] at same <;> first | rfl | linarith
    rw [sign]

theorem wide_eq_of_unpack_eq {a b : Float} (same : a.toModel.unpack = b.toModel.unpack) :
    a = b := by
  obtain ⟨⟨a, aValid⟩⟩ := a
  obtain ⟨⟨b, bValid⟩⟩ := b
  obtain rfl : a = b := UInt64.toBitVec_inj.1 ((unpack_inj_of_valid aValid bValid).1 same)
  rfl

theorem narrow_eq_of_unpack_eq {a b : Float32} (same : a.toModel.unpack = b.toModel.unpack) :
    a = b := by
  obtain ⟨⟨a, aValid⟩⟩ := a
  obtain ⟨⟨b, bValid⟩⟩ := b
  obtain rfl : a = b := UInt32.toBitVec_inj.1 ((unpack_inj_of_valid aValid bValid).1 same)
  rfl

theorem wide_unpack_neg (a : Float) : (-a).toModel.unpack = a.toModel.unpack.neg :=
  unpack_pack_neg (F := .binary64) (by decide) _

theorem narrow_widen (a : Float32) : narrow (widen a) = a := by
  refine narrow_eq_of_unpack_eq ?_
  cases unpacked : a.toModel.unpack with
  | notANumber =>
    have wide : (widen a).toModel.unpack = .notANumber := by
      rw [widen, unpacked]
      exact unpack_packedNaN
    rw [narrow, wide]
    exact unpack_packedNaN
  | infinity s =>
    have wide : (widen a).toModel.unpack = .infinity s := by
      rw [widen, unpacked]
      exact settle_infinity s
    rw [narrow, wide]
    exact settle_infinity s
  | zero s =>
    have wide : (widen a).toModel.unpack = .zero s := by
      rw [widen, unpacked]
      exact unpack_packedZero
    rw [narrow, wide]
    exact unpack_packedZero
  | finite s m e positive =>
    obtain ⟨canonical, -⟩ := canonical_of_unpack (F := .binary32) (by decide) unpacked
    have value := narrowIs_of_unpack unpacked
    have kept := Denotes.roundTo_eq value
    have back := value.widen.narrow (by rw [kept]; exact value.lt_limit)
    rw [kept] at back
    exact eq_finite_of_denotes positive canonical back

end Pursuit.Binary
