import Mathlib
import Pursuit.Binary.Arith

/-! The sign of a packed float. Negation is exact: it gives what is packed with the other sign. So
the bounds that a number above zero makes with its negative are in order. -/
namespace Pursuit.Binary

open Float.Model (Format UnpackedFloat)
open Float.Model.UnpackedFloat

variable {F : Format}

theorem unpack_pack_unpack (wide : 2 ≤ F.exponentBits) (b : BitVec F.numBits) :
    unpack F (pack F (unpack F b)) = unpack F b := by
  rw [pack_unpack b wide]
  split
  next payload =>
    obtain ⟨top, nonzero⟩ := of_decide_eq_true payload
    rw [unpack_packedNaN, unpack, if_pos top, if_neg nonzero]
  next => rfl

def turn (b : BitVec F.numBits) : BitVec F.numBits :=
  packComponents F (-Sign.ofBitVec (unpackSign b)) (unpackExponent b) (unpackMantissa b)

theorem unpack_turn {b : BitVec F.numBits} (number : unpack F b ≠ .notANumber) :
    unpack F (turn b) = (unpack F b).neg := by
  have exponent : unpackExponent (turn b) = unpackExponent b := unpackExponent_packComponents ..
  have mantissa : unpackMantissa (turn b) = unpackMantissa b := unpackMantissa_packComponents ..
  have sign : Sign.ofBitVec (unpackSign (turn b)) = -Sign.ofBitVec (unpackSign b) := by
    rw [turn, unpackSign_packComponents, Sign.ofBitVec_toBitVec]
  -- Only the sign differs, so both sides take the same branch.
  simp only [unpack, exponent, mantissa, sign] at number ⊢
  split
  next top =>
    rw [if_pos top] at number
    split
    next => rfl
    next nonzero => exact absurd (if_neg nonzero) number
  next =>
    split
    next =>
      split
      next => rfl
      next => rfl
    next => rfl

theorem unpack_pack_neg (wide : 2 ≤ F.exponentBits) (b : BitVec F.numBits) :
    unpack F (pack F (unpack F b).neg) = (unpack F b).neg := by
  by_cases number : unpack F b = .notANumber
  · rw [number]
    exact unpack_packedNaN
  · rw [← unpack_turn number, unpack_pack_unpack wide]

/-! ## Narrow floats -/

theorem unpack_neg (x : Float32) : (-x).toModel.unpack = x.toModel.unpack.neg :=
  unpack_pack_neg (F := .binary32) (by decide) _

theorem lt_iff (x y : Float32) :
    x < y ↔ x.toModel.unpack.compare y.toModel.unpack = some .lt := by
  change decide (Float32.Model.lt x.toModel y.toModel) = true ↔ _
  simp [Float32.Model.lt, UnpackedFloat.lt]

theorem le_iff (x y : Float32) :
    x ≤ y ↔ (x.toModel.unpack.compare y.toModel.unpack).any (·.isLE) := by
  change decide (Float32.Model.le x.toModel y.toModel) = true ↔ _
  rw [decide_eq_true_iff]
  rfl

theorem neg_le_self {x : Float32} (positive : .ofBits 0 < x) : -x ≤ x := by
  rw [lt_iff] at positive
  rw [le_iff, unpack_neg]
  have zero : (Float32.ofBits 0).toModel.unpack = .zero .positive := rfl
  rw [zero] at positive
  cases value : x.toModel.unpack with
  | notANumber | zero => rw [value] at positive; cases positive
  | infinity s | finite s m e pos =>
    rw [value] at positive
    cases s with
    | positive => rfl
    | negative => cases positive

end Pursuit.Binary
