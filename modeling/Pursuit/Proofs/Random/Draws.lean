import Pursuit.Random.Generator
import Pursuit.Proofs.Binary.Error
import Pursuit.Proofs.Binary.Waves
import Pursuit.Proofs.Plane.Square

/-! What is drawn. An angle lies in a full turn and a fraction in the unit interval, so a point of a
disc is off its centre by finite numbers, and is without NaN if the centre is. -/
namespace Pursuit.Random

open Float.Model (Format)
open Float.Model.UnpackedFloat
open Pursuit.Binary

variable {x : ℝ}

theorem lt_limit_of_le {y : ℝ} (small : |x| ≤ y) (bound : y ≤ 2 ^ 24) : |x| < limit .binary32 := by
  refine (small.trans bound).trans_lt ?_
  rw [limit, ← zpow_natCast, zpow_lt_zpow_iff_right₀ (by norm_num)]
  decide

theorem narrowIs_toFloat32 {w : UInt32} (small : w.toNat ≤ 2 ^ 24) :
    NarrowIs w.toFloat32 w.toNat := by
  have rounded : Denotes .binary32 (ofUInt32 .binary32 w) w.toNat := by
    have rounded := denotes_ofNat (F := .binary32) w.toNat
    rwa [roundTo_of_fits (fits_natCast small)] at rounded
  refine denotes_settle (by decide) rounded
    (lt_limit_of_le (abs_of_nonneg (Nat.cast_nonneg _)).le ?_)
  exact_mod_cast small

theorem narrowIs_ofBits {w : UInt32} {k : ℕ} (small : k < 2 ^ 23)
    (bits : w.toNat = 0x3f800000 + k) :
    NarrowIs (.ofBits w) (1 + k * 2 ^ (-23 : ℤ)) := by
  have bits : w.toBitVec.toNat = 0x3f800000 + k := bits
  have sign : Sign.ofBitVec (@unpackSign .binary32 w.toBitVec) = .positive := by
    have zero : @unpackSign .binary32 w.toBitVec = 0#1 := by
      refine BitVec.eq_of_toNat_eq ?_
      rw [unpackSign_def, BitVec.extractLsb'_toNat, bits, Nat.shiftRight_eq_div_pow]
      change (0x3f800000 + k) / 2 ^ 31 % 2 ^ 1 = 0
      omega
    rw [zero]
    rfl
  have exponent : @unpackExponent .binary32 w.toBitVec = 127#8 := by
    refine BitVec.eq_of_toNat_eq ?_
    rw [unpackExponent_def, BitVec.extractLsb'_toNat, bits, Nat.shiftRight_eq_div_pow]
    change (0x3f800000 + k) / 2 ^ 23 % 2 ^ 8 = 127
    omega
  have mantissa : (@unpackMantissa .binary32 w.toBitVec).toNat = k := by
    rw [unpackMantissa_def, BitVec.extractLsb'_toNat, bits, Nat.shiftRight_eq_div_pow]
    change (0x3f800000 + k) / 2 ^ 0 % 2 ^ 23 = k
    omega
  have unpacked : (Float32.ofBits w).toModel.unpack =
      .finite .positive (2 ^ 23 + k) (-23) (by omega) := by
    refine (unpack_pack_unpack (F := .binary32) (by decide) w.toBitVec).trans ?_
    rw [unpack]
    simp only [sign, exponent]
    rw [if_neg (by decide), if_neg (by decide)]
    congr 1
    rw [toNat_one_append, mantissa]
  have value := narrowIs_of_unpack unpacked
  rw [signed] at value
  norm_num at value ⊢
  rwa [add_mul, show (8388608 : ℝ) * (1 / 8388608) = 1 by norm_num] at value

namespace Generator

theorem unit_is (g : Generator) : ∃ x, NarrowIs g.unit.1 x ∧ 0 ≤ x ∧ x ≤ 1 := by
  have least : NarrowIs (.ofBits 0x33800000) (2 ^ (-24 : ℤ)) := by
    have value := @narrowIs_of_unpack (.ofBits 0x33800000) .positive 8388608 (-47) (by decide) rfl
    norm_num [signed] at value ⊢
    exact value
  rw [unit]
  obtain ⟨w, rest⟩ := g.word
  dsimp only
  have small : (w >>> 8).toNat ≤ 2 ^ 24 := by
    have bits := w.toNat_lt
    rw [UInt32.toNat_shiftRight]
    change w.toNat >>> 8 ≤ 2 ^ 24
    rw [Nat.shiftRight_eq_div_pow]
    omega
  generalize w >>> 8 = n at small
  have fits : Fits .binary32 (n.toNat * 2 ^ (-24 : ℤ)) :=
    ⟨n.toNat, -24, by rw [Nat.abs_cast]; exact_mod_cast small, by decide, rfl⟩
  have nonneg : (0 : ℝ) ≤ n.toNat * 2 ^ (-24 : ℤ) := by positivity
  have most : (n.toNat : ℝ) * 2 ^ (-24 : ℤ) ≤ 1 := by
    have whole : (n.toNat : ℝ) ≤ 2 ^ 24 := by exact_mod_cast small
    exact (mul_le_mul_of_nonneg_right whole (two_zpow_pos _).le).trans (by norm_num)
  have value := (narrowIs_toFloat32 small).mul least (by
    rw [roundTo_of_fits fits]
    exact lt_limit_of_le ((abs_of_nonneg nonneg).le.trans most) (by norm_num))
  rw [roundTo_of_fits fits] at value
  exact ⟨_, value, nonneg, most⟩

theorem angle_is (g : Generator) : ∃ x, NarrowIs g.angle.1 x ∧ 0 ≤ x ∧ x ≤ 63 / 10 := by
  have tau : NarrowIs tau (13176795 * 2 ^ (-21 : ℤ)) :=
    @narrowIs_of_unpack tau .positive 13176795 (-21) (by decide) rfl
  rw [angle]
  obtain ⟨w, rest⟩ := g.word
  dsimp only
  have small : (w >>> 9).toNat < 2 ^ 23 := by
    have bits := w.toNat_lt
    rw [UInt32.toNat_shiftRight]
    change w.toNat >>> 9 < 2 ^ 23
    rw [Nat.shiftRight_eq_div_pow]
    omega
  generalize w >>> 9 = k at small
  have bits : ((0x3f800000 : UInt32) ||| k).toNat = 0x3f800000 + k.toNat := by
    rw [UInt32.toNat_or]
    exact (Nat.two_pow_add_eq_or_of_lt small 127).symm
  -- The fraction is exact, so it is less than 1, and the full turn bounds the product.
  have fraction : (1 : ℝ) + k.toNat * 2 ^ (-23 : ℤ) - 1 = k.toNat * 2 ^ (-23 : ℤ) := by ring
  have fits : Fits .binary32 (k.toNat * 2 ^ (-23 : ℤ)) :=
    ⟨k.toNat, -23, by rw [Nat.abs_cast]; exact_mod_cast small.le.trans (by decide), by decide, rfl⟩
  have nonneg : (0 : ℝ) ≤ k.toNat * 2 ^ (-23 : ℤ) := by positivity
  have most : (k.toNat : ℝ) * 2 ^ (-23 : ℤ) ≤ 1 := by
    have whole : (k.toNat : ℝ) ≤ 2 ^ 23 := by exact_mod_cast small.le
    exact (mul_le_mul_of_nonneg_right whole (two_zpow_pos _).le).trans (by norm_num)
  have part := (narrowIs_ofBits small bits).sub narrowIs_one (by
    rw [fraction, roundTo_of_fits fits]
    exact lt_limit_of_le ((abs_of_nonneg nonneg).le.trans most) (by norm_num))
  rw [fraction, roundTo_of_fits fits] at part
  generalize (k.toNat : ℝ) * 2 ^ (-23 : ℤ) = u at part nonneg most
  have positive : (0 : ℝ) < 13176795 * 2 ^ (-21 : ℤ) := by positivity
  have low : 0 ≤ roundTo .binary32 (u * (13176795 * 2 ^ (-21 : ℤ))) :=
    roundTo_nonneg (mul_nonneg nonneg positive.le)
  have high : roundTo .binary32 (u * (13176795 * 2 ^ (-21 : ℤ))) ≤ 13176795 * 2 ^ (-21 : ℤ) :=
    roundTo_le (Denotes.fits tau) (mul_le_of_le_one_left positive.le most)
  have bound : (13176795 : ℝ) * 2 ^ (-21 : ℤ) ≤ 63 / 10 := by norm_num
  have room := lt_limit_of_le ((abs_of_nonneg low).le.trans (high.trans bound)) (by norm_num)
  have product := part.mul tau room
  have still := (Denotes.roundTo_eq product)
  have value := product.add narrowIs_zero (by rwa [add_zero, still])
  rw [add_zero, still] at value
  exact ⟨_, value, low, high.trans bound⟩

theorem offset_is {radius unital : Float32} {u : Float32} {r x : ℝ} (reach : NarrowIs radius r)
    (nonneg : 0 ≤ r) (fraction : NarrowIs u x) (least : 0 ≤ x) (most : x ≤ 1)
    (direction : Unital unital) : ∃ y, NarrowIs (unital * (radius * u.sqrt)) y := by
  have one : Fits .binary32 1 := ⟨1, 0, by decide, by decide, by norm_num⟩
  have rootLow : 0 ≤ roundTo .binary32 √x := roundTo_nonneg (Real.sqrt_nonneg x)
  have rootHigh : roundTo .binary32 √x ≤ 1 := roundTo_le one (Real.sqrt_le_one.2 most)
  have root := fraction.sqrt least
    (lt_limit_of_le ((abs_of_nonneg rootLow).le.trans rootHigh) (by norm_num))
  generalize roundTo .binary32 √x = s at rootLow rootHigh root
  have wayLow : 0 ≤ roundTo .binary32 (r * s) := roundTo_nonneg (mul_nonneg nonneg rootLow)
  have wayHigh : roundTo .binary32 (r * s) ≤ r :=
    roundTo_le (Denotes.fits reach) (mul_le_of_le_one_right nonneg rootHigh)
  have bound := reach.lt_limit
  rw [abs_of_nonneg nonneg] at bound
  have way := reach.mul root (by rw [abs_of_nonneg wayLow]; exact wayHigh.trans_lt bound)
  generalize roundTo .binary32 (r * s) = d at wayLow wayHigh way
  obtain ⟨c, value, unit⟩ := direction
  have within : |c * d| ≤ d := by
    rw [abs_mul, abs_of_nonneg wayLow]
    exact mul_le_of_le_one_left wayLow unit
  exact ⟨_, value.mul way
    ((abs_roundTo_le (Denotes.fits way) within).trans_lt (wayHigh.trans_lt bound))⟩

/-- A point of a disc whose centre is without NaN is without NaN. -/
theorem point_isNumber (g : Generator) {center : Point} {radius : Float32} {r : ℝ}
    (number : center.IsNumber) (reach : NarrowIs radius r) (nonneg : 0 ≤ r) :
    (g.point center radius).1.IsNumber := by
  obtain ⟨a, angle, least, most⟩ := g.angle_is
  obtain ⟨u, fraction, low, high⟩ := g.angle.2.unit_is
  obtain ⟨x, offsetX⟩ := offset_is reach nonneg fraction low high (unital_cos angle least most)
  obtain ⟨y, offsetY⟩ := offset_is reach nonneg fraction low high (unital_sin angle least most)
  exact ⟨add_isNaN number.1 offsetX, add_isNaN number.2 offsetY⟩

end Generator

end Pursuit.Random
