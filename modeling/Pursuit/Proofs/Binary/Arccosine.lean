import Pursuit.Proofs.Binary.Error
import Pursuit.Proofs.Binary.Ranks

/-! The arc cosine, as it is rounded. It is well below half a turn for every argument above -1, so
an angle in degrees comes to 180 for -1 alone, and for what is held at -1. -/
namespace Pursuit.Binary

open Float.Model (Format UnpackedFloat)
open Float.Model.UnpackedFloat

variable {a b : Float32} {x y A B C : ℝ}

/-! ## Sizes -/

def AtMost (a : Float32) (A : ℝ) : Prop := ∃ x, NarrowIs a x ∧ |x| ≤ A

/-- Rounding takes hardly anything off what is not large. -/
theorem roundTo_near (small : |x| ≤ 8) :
    |roundTo .binary32 x| < limit .binary32 ∧ |roundTo .binary32 x - x| ≤ 1 / 2 ^ 20 := by
  have bound : |roundTo .binary32 x| ≤ 2 ^ (3 : ℤ) :=
    abs_roundTo_le (fits_two_pow (by decide)) (small.trans (by norm_num))
  refine ⟨lt_limit_of_le_two_zpow bound (by decide), (abs_roundTo_narrow_sub_le x).trans ?_⟩
  norm_num
  linarith

theorem NarrowIs.mul_near (first : NarrowIs a x) (second : NarrowIs b y) (small : |x * y| ≤ 8) :
    ∃ z, NarrowIs (a * b) z ∧ |z - x * y| ≤ 1 / 2 ^ 20 :=
  have ⟨room, near⟩ := roundTo_near small
  ⟨_, first.mul second room, near⟩

theorem NarrowIs.add_near (first : NarrowIs a x) (second : NarrowIs b y) (small : |x + y| ≤ 8) :
    ∃ z, NarrowIs (a + b) z ∧ |z - (x + y)| ≤ 1 / 2 ^ 20 :=
  have ⟨room, near⟩ := roundTo_near small
  ⟨_, first.add second room, near⟩

theorem NarrowIs.sub_near (first : NarrowIs a x) (second : NarrowIs b y) (small : |x - y| ≤ 8) :
    ∃ z, NarrowIs (a - b) z ∧ |z - (x - y)| ≤ 1 / 2 ^ 20 :=
  have ⟨room, near⟩ := roundTo_near small
  ⟨_, first.sub second room, near⟩

theorem abs_le_of_near {z w D : ℝ} (near : |z - w| ≤ 1 / 2 ^ 20) (small : |w| ≤ D)
    (room : D + 1 / 2 ^ 20 ≤ C) :
    |z| ≤ C := by
  have total := abs_add_le (z - w) w
  rw [sub_add_cancel] at total
  linarith

theorem AtMost.mul (first : AtMost a A) (second : AtMost b B) (room : A * B + 1 / 2 ^ 20 ≤ C)
    (bound : C ≤ 8) :
    AtMost (a * b) C := by
  obtain ⟨x, value, small⟩ := first
  obtain ⟨y, value', small'⟩ := second
  have product : |x * y| ≤ A * B := by
    rw [abs_mul]
    exact mul_le_mul small small' (abs_nonneg y) ((abs_nonneg x).trans small)
  obtain ⟨z, value, near⟩ :=
    value.mul_near value' (by linarith [show (0 : ℝ) < 1 / 2 ^ 20 by positivity])
  exact ⟨z, value, abs_le_of_near near product room⟩

theorem AtMost.add (first : AtMost a A) (second : AtMost b B) (room : A + B + 1 / 2 ^ 20 ≤ C)
    (bound : C ≤ 8) :
    AtMost (a + b) C := by
  obtain ⟨x, value, small⟩ := first
  obtain ⟨y, value', small'⟩ := second
  have sum : |x + y| ≤ A + B := (abs_add_le x y).trans (add_le_add small small')
  obtain ⟨z, value, near⟩ :=
    value.add_near value' (by linarith [show (0 : ℝ) < 1 / 2 ^ 20 by positivity])
  exact ⟨z, value, abs_le_of_near near sum room⟩

theorem AtMost.sub (first : AtMost a A) (second : AtMost b B) (room : A + B + 1 / 2 ^ 20 ≤ C)
    (bound : C ≤ 8) :
    AtMost (a - b) C := by
  obtain ⟨x, value, small⟩ := first
  obtain ⟨y, value', small'⟩ := second
  have difference : |x - y| ≤ A + B := (abs_sub x y).trans (add_le_add small small')
  obtain ⟨z, value, near⟩ :=
    value.sub_near value' (by linarith [show (0 : ℝ) < 1 / 2 ^ 20 by positivity])
  exact ⟨z, value, abs_le_of_near near difference room⟩

theorem AtMost.nonneg (bounded : AtMost a A) : 0 ≤ A :=
  have ⟨x, _, small⟩ := bounded
  (abs_nonneg x).trans small

theorem AtMost.step {c r : Float32} {R : ℝ} (coefficient : AtMost c A) (argument : AtMost b B)
    (rest : AtMost r R) (room : A + (B * R + 1 / 2 ^ 20) + 1 / 2 ^ 20 ≤ C) (bound : C ≤ 8) :
    AtMost (c + b * r) C := by
  have nonneg := coefficient.nonneg
  refine coefficient.add (argument.mul rest le_rfl ?_) room bound
  linarith [show (0 : ℝ) < 1 / 2 ^ 20 by positivity]

theorem atMost_of_unpack (s : Sign) (m : ℕ) (e : ℤ) (positive : 0 < m)
    (unpacked : a.toModel.unpack = .finite s m e positive) (small : m * 2 ^ e ≤ A) :
    AtMost a A := by
  refine ⟨_, narrowIs_of_unpack unpacked, ?_⟩
  rwa [abs_signed, abs_of_nonneg (by positivity)]

/-! ## The rational function -/

theorem arcTop_atMost {z : Float32} (argument : AtMost z (26 / 100)) :
    AtMost (z * (.ofBits 0x3e2aaaab + z * (.ofBits 0xbea6b090 + z * (.ofBits 0x3e4e0aa8 +
      z * (.ofBits 0xbd241146 + z * (.ofBits 0x3a4f7f04 + z * .ofBits 0x3811ef08))))))
        (8 / 100) := by
  have p0 : AtMost (.ofBits 0x3e2aaaab) (17 / 100) :=
    atMost_of_unpack .positive 11184811 (-26) (by decide) rfl (by norm_num)
  have p1 : AtMost (.ofBits 0xbea6b090) (33 / 100) :=
    atMost_of_unpack .negative 10924176 (-25) (by decide) rfl (by norm_num)
  have p2 : AtMost (.ofBits 0x3e4e0aa8) (21 / 100) :=
    atMost_of_unpack .positive 13503144 (-26) (by decide) rfl (by norm_num)
  have p3 : AtMost (.ofBits 0xbd241146) (5 / 100) :=
    atMost_of_unpack .negative 10752326 (-28) (by decide) rfl (by norm_num)
  have p4 : AtMost (.ofBits 0x3a4f7f04) (1 / 1000) :=
    atMost_of_unpack .positive 13598468 (-34) (by decide) rfl (by norm_num)
  have p5 : AtMost (.ofBits 0x3811ef08) (1 / 1000) :=
    atMost_of_unpack .positive 9563912 (-38) (by decide) rfl (by norm_num)
  have r4 := p4.step argument p5 (C := 2 / 1000) (by norm_num) (by norm_num)
  have r3 := p3.step argument r4 (C := 6 / 100) (by norm_num) (by norm_num)
  have r2 := p2.step argument r3 (C := 23 / 100) (by norm_num) (by norm_num)
  have r1 := p1.step argument r2 (C := 39 / 100) (by norm_num) (by norm_num)
  have r0 := p0.step argument r1 (C := 28 / 100) (by norm_num) (by norm_num)
  exact argument.mul r0 (by norm_num) (by norm_num)

theorem arcBottom_atMost {z : Float32} (argument : AtMost z (26 / 100)) :
    AtMost (z * (.ofBits 0xc019d139 + z * (.ofBits 0x4001572d + z * (.ofBits 0xbf303361 +
      z * .ofBits 0x3d9dc62e)))) (78 / 100) := by
  have q1 : AtMost (.ofBits 0xc019d139) (241 / 100) :=
    atMost_of_unpack .negative 10080569 (-22) (by decide) rfl (by norm_num)
  have q2 : AtMost (.ofBits 0x4001572d) (203 / 100) :=
    atMost_of_unpack .positive 8476461 (-22) (by decide) rfl (by norm_num)
  have q3 : AtMost (.ofBits 0xbf303361) (69 / 100) :=
    atMost_of_unpack .negative 11547489 (-24) (by decide) rfl (by norm_num)
  have q4 : AtMost (.ofBits 0x3d9dc62e) (8 / 100) :=
    atMost_of_unpack .positive 10339886 (-27) (by decide) rfl (by norm_num)
  have r3 := q3.step argument q4 (C := 72 / 100) (by norm_num) (by norm_num)
  have r2 := q2.step argument r3 (C := 222 / 100) (by norm_num) (by norm_num)
  have r1 := q1.step argument r2 (C := 299 / 100) (by norm_num) (by norm_num)
  exact argument.mul r1 (by norm_num) (by norm_num)

/-- For arguments up to a quarter or hardly more, as the arc cosine has them. -/
theorem arcRatio_atMost {z : Float32} (argument : AtMost z (26 / 100)) :
    AtMost (arcRatio z) (3 / 8) := by
  obtain ⟨P, top, smallP⟩ := arcTop_atMost argument
  obtain ⟨R, rest, smallR⟩ := arcBottom_atMost argument
  obtain ⟨Q, bottom, nearQ⟩ := narrowIs_one.add_near rest (by
    rw [abs_le] at smallR ⊢
    constructor <;> linarith [smallR.1, smallR.2])
  have low : 219 / 1000 ≤ Q := by
    rw [abs_le] at smallR nearQ
    norm_num at nearQ
    linarith [smallR.1, nearQ.1]
  have quotient : |P / Q| ≤ 3 / 8 := by
    rw [abs_div, abs_of_pos (by linarith : 0 < Q), div_le_iff₀ (by linarith)]
    linarith
  have bound : |roundTo .binary32 (P / Q)| ≤ 3 / 8 :=
    abs_roundTo_le ⟨3, -3, by decide, by decide, by norm_num⟩ quotient
  have room : |roundTo .binary32 (P / Q)| ≤ 2 ^ (0 : ℤ) := bound.trans (by norm_num)
  exact ⟨_, top.div bottom (by linarith) (lt_limit_of_le_two_zpow room (by decide)), bound⟩

/-! ## Bits -/

theorem half_is : NarrowIs half (1 / 2) := by
  have value := @narrowIs_of_unpack half .positive 8388608 (-24) (by decide) rfl
  norm_num [signed] at value ⊢
  exact value

/-- Numbers compare in size as their bits below the sign. -/
theorem toBits_and_lt_iff (first : NarrowIs a x) (second : NarrowIs b y) :
    a.toBits &&& 0x7fffffff < b.toBits &&& 0x7fffffff ↔ |x| < |y| := by
  have bits (a : Float32) : (a.toBits &&& 0x7fffffff).toNat = size a := by
    rw [UInt32.toNat_and, size]
    exact Nat.and_two_pow_sub_one_eq_mod a.toBits.toNat 31
  rw [UInt32.lt_iff_toNat_lt, bits, bits, size_lt_iff first second]

theorem toBits_and_lt_half_iff (value : NarrowIs a x) :
    a.toBits &&& 0x7fffffff < 0x3f000000 ↔ |x| < 1 / 2 := by
  have compared := toBits_and_lt_iff value half_is
  rwa [abs_of_pos (by norm_num : (0 : ℝ) < 1 / 2)] at compared

theorem toBits_and_lt_one_iff (value : NarrowIs a x) :
    a.toBits &&& 0x7fffffff < 0x3f800000 ↔ |x| < 1 := by
  have compared := toBits_and_lt_iff value narrowIs_one
  rwa [abs_one] at compared

theorem one_lt_toBits_and_iff (value : NarrowIs a x) :
    0x3f800000 < a.toBits &&& 0x7fffffff ↔ 1 < |x| := by
  have compared := toBits_and_lt_iff narrowIs_one value
  rwa [abs_one] at compared

theorem toBits_and_eq_one_iff (value : NarrowIs a x) :
    a.toBits &&& 0x7fffffff = 0x3f800000 ↔ |x| = 1 := by
  rw [← UInt32.toNat_inj, le_antisymm_iff, ← not_lt, ← not_lt, ← UInt32.lt_iff_toNat_lt,
    ← UInt32.lt_iff_toNat_lt, one_lt_toBits_and_iff value, toBits_and_lt_one_iff value, not_lt,
      not_lt, ← le_antisymm_iff]

theorem signBit_iff (value : NarrowIs a x) (nonzero : x ≠ 0) : signBit a ↔ x < 0 := by
  obtain ⟨s, -, zero⟩ | ⟨s, m, e, positive, unpacked, -, rfl⟩ := Denotes.cases value
  · exact absurd zero nonzero
  have large : (0 : ℝ) < m * 2 ^ e := mul_pos (by exact_mod_cast positive) (two_zpow_pos e)
  have sign : s = Sign.ofBitVec (@unpackSign .binary32 a.toModel.toBits.toBitVec) := by
    rw [Float32.Model.unpack, unpack] at unpacked
    split at unpacked
    · split at unpacked <;> cases unpacked
    · split at unpacked
      · split at unpacked <;> cases unpacked
        rfl
      · cases unpacked
        rfl
  have bit : (@unpackSign .binary32 a.toModel.toBits.toBitVec).toNat =
      a.toBits.toNat / 2 ^ 31 % 2 := by
    rw [unpackSign_def, BitVec.extractLsb'_toNat, Nat.shiftRight_eq_div_pow]
    rfl
  have short := a.toBits.toNat_lt
  rw [signBit, decide_eq_true_iff, sign, Sign.ofBitVec]
  split
  next zero =>
    rw [zero] at bit
    have zero : 0 = a.toBits.toNat / 2 ^ 31 % 2 := bit
    rw [signed]
    exact iff_of_false (by omega) large.not_gt
  next one =>
    have nonzero : a.toBits.toNat / 2 ^ 31 % 2 ≠ 0 := fun zero =>
      one (BitVec.eq_of_toNat_eq (bit.trans zero))
    rw [signed]
    exact iff_of_true (by omega) (neg_lt_zero.2 large)

/-- The bits that the arc cosine keeps of a root. -/
def kept (b : BitVec 32) : BitVec 32 := b &&& 0xfffff000#32

theorem unpackSign_kept (b : BitVec 32) :
    @unpackSign .binary32 (kept b) = @unpackSign .binary32 b := by
  rw [unpackSign_def, unpackSign_def]
  change (b &&& 0xfffff000#32).extractLsb' 31 1 = b.extractLsb' 31 1
  rw [BitVec.extractLsb'_and]
  exact BitVec.and_allOnes

theorem unpackExponent_kept (b : BitVec 32) :
    @unpackExponent .binary32 (kept b) = @unpackExponent .binary32 b := by
  rw [unpackExponent_def, unpackExponent_def]
  change (b &&& 0xfffff000#32).extractLsb' 23 8 = b.extractLsb' 23 8
  rw [BitVec.extractLsb'_and]
  exact BitVec.and_allOnes

theorem unpackMantissa_kept_le (b : BitVec 32) :
    (@unpackMantissa .binary32 (kept b)).toNat ≤ (@unpackMantissa .binary32 b).toNat := by
  rw [unpackMantissa_def, unpackMantissa_def]
  change ((b &&& 0xfffff000#32).extractLsb' 0 23).toNat ≤ (b.extractLsb' 0 23).toNat
  rw [BitVec.extractLsb'_and, BitVec.toNat_and]
  exact Nat.and_le_left

theorem kept_is (value : NarrowIs a x) (positive : 0 < x) :
    ∃ y, NarrowIs (.ofBits (a.toBits &&& 0xfffff000)) y ∧ 0 ≤ y ∧ y ≤ x := by
  have taken : (Float32.ofBits (a.toBits &&& 0xfffff000)).toModel.unpack =
      unpack .binary32 (kept a.toModel.toBits.toBitVec) :=
        unpack_pack_unpack (F := .binary32) (by decide) _
  obtain ⟨s, -, zero⟩ | ⟨s, m, e, large, unpacked, -, same⟩ := Denotes.cases value
  · exact absurd zero positive.ne'
  obtain rfl : s = .positive := by
    cases s with
    | positive => rfl
    | negative =>
      have size : (0 : ℝ) < m * 2 ^ e := mul_pos (by exact_mod_cast large) (two_zpow_pos e)
      rw [signed] at same
      linarith
  rw [signed] at same
  -- A kept mantissa of the same sign and exponent.
  have below {m' : ℕ} {large' : 0 < m'} (less : m' ≤ m)
      (found : (Float32.ofBits (a.toBits &&& 0xfffff000)).toModel.unpack =
        .finite .positive m' e large') :
      ∃ y, NarrowIs (.ofBits (a.toBits &&& 0xfffff000)) y ∧ 0 ≤ y ∧ y ≤ x := by
    refine ⟨_, narrowIs_of_unpack found, ?_, ?_⟩
    · rw [signed]
      positivity
    · rw [signed, same]
      gcongr
  have less := unpackMantissa_kept_le a.toModel.toBits.toBitVec
  rw [Float32.Model.unpack] at unpacked
  unfold unpack at unpacked taken
  simp only [unpackSign_kept, unpackExponent_kept] at unpacked taken
  split at unpacked
  · split at unpacked <;> cases unpacked
  · next top =>
    rw [if_neg top] at taken
    split at unpacked
    · next low =>
      rw [if_pos low] at taken
      split at unpacked
      · cases unpacked
      · obtain ⟨sign, rfl, rfl⟩ := UnpackedFloat.finite.inj unpacked
        split at taken
        · refine ⟨0, ?_, le_rfl, positive.le⟩
          rw [NarrowIs, taken]
          rfl
        · rw [sign] at taken
          exact below less taken
    · next normal =>
      rw [if_neg normal] at taken
      obtain ⟨sign, rfl, rfl⟩ := UnpackedFloat.finite.inj unpacked
      rw [sign] at taken
      refine below ?_ taken
      rw [toNat_one_append, toNat_one_append]
      omega

/-! ## The three parts of the arc cosine -/

theorem halfPiLow_is : NarrowIs halfPiLow (10625384 * 2 ^ (-47 : ℤ)) :=
  @narrowIs_of_unpack halfPiLow .positive 10625384 (-47) (by decide) rfl

theorem pi_is : NarrowIs pi (13176794 * 2 ^ (-22 : ℤ)) :=
  @narrowIs_of_unpack pi .positive 13176794 (-22) (by decide) rfl

theorem two_is : NarrowIs two 2 := by
  have value := @narrowIs_of_unpack two .positive 8388608 (-22) (by decide) rfl
  norm_num [signed] at value
  exact value

theorem halfPiLow_atMost : AtMost halfPiLow (1 / 100) :=
  atMost_of_unpack .positive 10625384 (-47) (by decide) rfl (by norm_num)

theorem halfPiHigh_atMost : AtMost halfPiHigh (158 / 100) :=
  atMost_of_unpack .positive 13176794 (-23) (by decide) rfl (by norm_num)

theorem two_atMost : AtMost two 2 := ⟨2, two_is, by norm_num⟩

theorem acos_middle_atMost (small : AtMost a (1 / 2)) :
    AtMost (halfPiHigh - (a - (halfPiLow - a * arcRatio (a * a)))) 3 := by
  have square : AtMost (a * a) (26 / 100) := small.mul small (by norm_num) (by norm_num)
  have ratio := small.mul (arcRatio_atMost square) (C := 1 / 5) (by norm_num) (by norm_num)
  have inner := halfPiLow_atMost.sub ratio (C := 1 / 4) (by norm_num) (by norm_num)
  have outer := small.sub inner (C := 4 / 5) (by norm_num) (by norm_num)
  exact halfPiHigh_atMost.sub outer (by norm_num) (by norm_num)

/-- Half of what an argument falls short of 1 in size, and its root. -/
theorem root_is {V : ℝ} (value : NarrowIs a V) (low : 1 / 2 ^ 24 ≤ V) (high : V ≤ 1 / 2) : ∃ Z S,
    NarrowIs (a * half) Z ∧ NarrowIs (a * half).sqrt S ∧ 0 ≤ Z ∧ Z ≤ 1 / 4 ∧
      S = roundTo .binary32 √Z ∧
      1 / 2 ^ 13 ≤ S ∧ S ≤ 1 / 2 := by
  have least : (2 : ℝ) ^ (-25 : ℤ) ≤ roundTo .binary32 (V * (1 / 2)) :=
    le_roundTo (fits_two_pow (by decide)) (by norm_num at low ⊢; linarith)
  have most : roundTo .binary32 (V * (1 / 2)) ≤ 2 ^ (-2 : ℤ) :=
    roundTo_le (fits_two_pow (by decide)) (by norm_num; linarith)
  have nonneg : 0 ≤ roundTo .binary32 (V * (1 / 2)) := (two_zpow_pos _).le.trans least
  have isHalf := value.mul half_is
    (lt_limit_of_le_two_zpow (by rwa [abs_of_nonneg nonneg]) (by decide))
  generalize roundTo .binary32 (V * (1 / 2)) = Z at *
  have leastRoot : (2 : ℝ) ^ (-13 : ℤ) ≤ roundTo .binary32 √Z := by
    refine le_roundTo (fits_two_pow (by decide)) (Real.le_sqrt_of_sq_le ?_)
    norm_num at least ⊢
    linarith
  have mostRoot : roundTo .binary32 √Z ≤ 2 ^ (-1 : ℤ) := by
    refine roundTo_le (fits_two_pow (by decide)) (Real.sqrt_le_iff.2 ⟨by positivity, ?_⟩)
    norm_num at most ⊢
    linarith
  have nonnegRoot : 0 ≤ roundTo .binary32 √Z := (two_zpow_pos _).le.trans leastRoot
  have isRoot := isHalf.sqrt nonneg
    (lt_limit_of_le_two_zpow (by rwa [abs_of_nonneg nonnegRoot]) (by decide))
  refine ⟨Z, _, isHalf, isRoot, nonneg, ?_, rfl, ?_, ?_⟩
  · norm_num at most
    exact most
  · norm_num at leastRoot ⊢
    exact leastRoot
  · norm_num at mostRoot ⊢
    exact mostRoot

/-- Of arguments near -1: the root that is taken off half a turn is not small against the errors. -/
theorem acos_far_atMost {V : ℝ} (value : NarrowIs a V) (low : 1 / 2 ^ 24 ≤ V) (high : V ≤ 1 / 2) :
    AtMost (pi - two * ((a * half).sqrt + (arcRatio (a * half) * (a * half).sqrt - halfPiLow)))
      (31415 / 10000) := by
  obtain ⟨Z, S, isHalf, isRoot, nonneg, small, -, least, most⟩ := root_is value low high
  obtain ⟨R, isRatio, ratio⟩ := arcRatio_atMost ⟨Z, isHalf, by rw [abs_of_nonneg nonneg]; linarith⟩
  have product : |R * S| ≤ 3 / 8 * S := by
    rw [abs_mul, abs_of_nonneg (by linarith : 0 ≤ S)]
    exact mul_le_mul_of_nonneg_right ratio (by linarith)
  obtain ⟨M, isProduct, nearM⟩ := isRatio.mul_near isRoot (by linarith)
  have isLow := halfPiLow_is
  have isPi := pi_is
  norm_num at isLow isPi
  rw [abs_le] at product nearM
  norm_num at nearM
  obtain ⟨W, isTail, nearW⟩ := isProduct.sub_near isLow (by rw [abs_le]; constructor <;> linarith)
  rw [abs_le] at nearW
  norm_num at nearW
  obtain ⟨T, isSum, nearT⟩ := isRoot.add_near isTail (by rw [abs_le]; constructor <;> linarith)
  rw [abs_le] at nearT
  norm_num at nearT
  obtain ⟨D, isDouble, nearD⟩ := two_is.mul_near isSum (by rw [abs_le]; constructor <;> linarith)
  rw [abs_le] at nearD
  norm_num at nearD
  obtain ⟨Y, isAngle, nearY⟩ := isPi.sub_near isDouble (by rw [abs_le]; constructor <;> linarith)
  rw [abs_le] at nearY
  norm_num at nearY least
  exact ⟨Y, isAngle, by rw [abs_le]; constructor <;> linarith⟩

/-- What the upper bits of a root leave of it, which the arc cosine makes up for, is no larger than
the root. -/
theorem leftover_atMost {z r top : Float32} {Z S T : ℝ} (isHalf : NarrowIs z Z)
    (isRoot : NarrowIs r S) (isTop : NarrowIs top T) (nonneg : 0 ≤ Z) (small : Z ≤ 1 / 4)
    (root : S = roundTo .binary32 √Z) (least : 1 / 2 ^ 13 ≤ S) (most : S ≤ 1 / 2)
    (nonnegTop : 0 ≤ T) (below : T ≤ S) :
    AtMost ((z - top * top) / (r + top)) (3 / 4) := by
  have positive : 0 < S := by linarith [show (0 : ℝ) < 1 / 2 ^ 13 by positivity]
  -- The square of the upper bits, and what it was taken from, are both about half of the root at
  -- most.
  have square : T * T ≤ 1 / 2 * S :=
    (mul_le_mul below below nonnegTop positive.le).trans (by nlinarith)
  have nonnegSquare : 0 ≤ roundTo .binary32 (T * T) := roundTo_nonneg (mul_self_nonneg T)
  have highSquare := roundTo_narrow_le (mul_self_nonneg T)
  have highHalf : Z ≤ 51 / 100 * S := by
    have low := le_roundTo_narrow (Real.sqrt_nonneg Z)
    have short : √Z ≤ 1 / 2 := Real.sqrt_le_iff.2 ⟨by norm_num, by norm_num; linarith⟩
    have whole : Z ≤ 1 / 2 * √Z := by
      calc
        Z = √Z * √Z := (Real.mul_self_sqrt nonneg).symm
        _ ≤ 1 / 2 * √Z := mul_le_mul_of_nonneg_right short (Real.sqrt_nonneg Z)
    rw [← root] at low
    norm_num at low least
    linarith
  have isSquare := isTop.mul isTop (lt_limit_of_le_two_zpow (k := 0) (by
    rw [abs_of_nonneg nonnegSquare]
    norm_num at highSquare ⊢
    linarith) (by decide))
  generalize roundTo .binary32 (T * T) = M at *
  norm_num at highSquare least
  have difference : |Z - M| ≤ 52 / 100 * S := by rw [abs_le]; constructor <;> linarith
  obtain ⟨room, -⟩ := roundTo_near (x := Z - M) (by linarith)
  have error := abs_roundTo_narrow_sub_le (Z - M)
  have isTopPart := isHalf.sub isSquare room
  have high : |roundTo .binary32 (Z - M)| ≤ 53 / 100 * S := by
    rw [abs_le] at error ⊢
    norm_num at error
    constructor <;> linarith [(abs_le.1 difference).1, (abs_le.1 difference).2, error.1, error.2]
  generalize roundTo .binary32 (Z - M) = N at *
  obtain ⟨roomBottom, -⟩ := roundTo_near (x := S + T) (by rw [abs_le]; constructor <;> linarith)
  have isBottom := isRoot.add isTop roomBottom
  have wide : S ≤ roundTo .binary32 (S + T) := le_roundTo (Denotes.fits isRoot) (by linarith)
  generalize roundTo .binary32 (S + T) = D at *
  have quotient : |N / D| ≤ 3 / 4 := by
    rw [abs_div, abs_of_pos (by linarith : 0 < D), div_le_iff₀ (by linarith)]
    linarith
  have bound : |roundTo .binary32 (N / D)| ≤ 3 / 4 :=
    abs_roundTo_le ⟨3, -2, by decide, by decide, by norm_num⟩ quotient
  have room : |roundTo .binary32 (N / D)| ≤ 2 ^ (0 : ℤ) := bound.trans (by norm_num)
  exact ⟨_, isTopPart.div isBottom (by linarith) (lt_limit_of_le_two_zpow room (by decide)), bound⟩

theorem acos_near_atMost {V : ℝ} (value : NarrowIs a V) (low : 1 / 2 ^ 24 ≤ V) (high : V ≤ 1 / 2) :
    let z := a * half
    let s := z.sqrt
    let top := Float32.ofBits (s.toBits &&& 0xfffff000)
    AtMost (two * (top + (arcRatio z * s + (z - top * top) / (s + top)))) 3 := by
  obtain ⟨Z, S, isHalf, isRoot, nonneg, small, root, least, most⟩ := root_is value low high
  have positive : 0 < S := by linarith [show (0 : ℝ) < 1 / 2 ^ 13 by positivity]
  obtain ⟨T, isTop, nonnegTop, below⟩ := kept_is isRoot positive
  dsimp only
  generalize Float32.ofBits ((a * half).sqrt.toBits &&& 0xfffff000) = top at isTop ⊢
  have isRatio := arcRatio_atMost ⟨Z, isHalf, by rw [abs_of_nonneg nonneg]; linarith⟩
  have rootAtMost : AtMost (a * half).sqrt (1 / 2) := ⟨S, isRoot, by rwa [abs_of_pos positive]⟩
  have topAtMost : AtMost top (1 / 2) := ⟨T, isTop, by rw [abs_of_nonneg nonnegTop]; linarith⟩
  have rest := leftover_atMost isHalf isRoot isTop nonneg small root least most nonnegTop below
  have tail := (isRatio.mul rootAtMost (C := 19 / 100) (by norm_num) (by norm_num)).add rest
    (C := 95 / 100) (by norm_num) (by norm_num)
  exact two_atMost.mul (topAtMost.add tail (C := 146 / 100) (by norm_num) (by norm_num))
    (by norm_num) (by norm_num)

theorem abs_le_of_lt_one (value : NarrowIs a x) (short : |x| < 1) : |x| ≤ 1 - 1 / 2 ^ 24 := by
  have isLast : NarrowIs (.ofBits 0x3f7fffff) (16777215 * 2 ^ (-24 : ℤ)) :=
    @narrowIs_of_unpack (.ofBits 0x3f7fffff) .positive 16777215 (-24) (by decide) rfl
  have less : size a < size one := (size_lt_iff value narrowIs_one).2 (by rwa [abs_one])
  have last : size (.ofBits 0x3f7fffff) = 0x3f7fffff := by decide
  have top : size one = 0x3f800000 := by decide
  by_contra above
  have more : size (.ofBits 0x3f7fffff) < size a := by
    refine (size_lt_iff isLast value).2 ?_
    rw [abs_of_pos (by positivity)]
    norm_num at above ⊢
    exact above
  omega

/-- Rounding keeps a gap between the last place of 1 and a half. -/
theorem gap_is {V : ℝ} (value : NarrowIs b (roundTo .binary32 V)) (low : 1 / 2 ^ 24 ≤ V)
    (high : V ≤ 1 / 2) :
    ∃ V, NarrowIs b V ∧ 1 / 2 ^ 24 ≤ V ∧ V ≤ 1 / 2 := by
  have least : (2 : ℝ) ^ (-24 : ℤ) ≤ roundTo .binary32 V :=
    le_roundTo (fits_two_pow (by decide)) (by norm_num at low ⊢; exact low)
  have most : roundTo .binary32 V ≤ 2 ^ (-1 : ℤ) :=
    roundTo_le (fits_two_pow (by decide)) (by norm_num at high ⊢; exact high)
  norm_num at least most
  exact ⟨_, value, by norm_num; exact least, most⟩

/-- Above -1 the arc cosine stays below half a turn by more than what rounding can add. -/
theorem acos_atMost (value : NarrowIs a x) (above : -1 < x) (below : x ≤ 1) :
    AtMost (acos a) (31415 / 10000) := by
  have middle {b : Float32} (atMost : AtMost b 3) : AtMost b (31415 / 10000) := by
    obtain ⟨y, isY, small⟩ := atMost
    exact ⟨y, isY, small.trans (by norm_num)⟩
  rw [acos]
  dsimp only
  split
  next unit =>
    rw [toBits_and_eq_one_iff value] at unit
    have positive : ¬ signBit a := by
      rw [signBit_iff value (by rintro rfl; simp at unit)]
      intro negative
      rw [abs_of_neg negative] at unit
      linarith
    rw [if_neg positive]
    exact ⟨0, narrowIs_zero, by norm_num⟩
  next other =>
    rw [toBits_and_eq_one_iff value] at other
    have most : |x| ≤ 1 := abs_le.2 ⟨above.le, below⟩
    rw [if_neg (mt (one_lt_toBits_and_iff value).1 most.not_gt)]
    split
    next less =>
      rw [toBits_and_lt_half_iff value] at less
      split
      · exact middle (halfPiHigh_atMost.add halfPiLow_atMost (by norm_num) (by norm_num))
      · exact middle (acos_middle_atMost ⟨x, value, less.le⟩)
    next least =>
      rw [toBits_and_lt_half_iff value, not_lt] at least
      have last := abs_le_of_lt_one value (lt_of_le_of_ne most other)
      have sign := signBit_iff value (by rintro rfl; norm_num at least)
      split
      next negative =>
        rw [sign] at negative
        rw [abs_of_neg negative] at least last
        obtain ⟨room, -⟩ := roundTo_near (x := 1 + x) (by rw [abs_le]; constructor <;> linarith)
        obtain ⟨V, isGap, low, high⟩ :=
          gap_is (narrowIs_one.add value room) (by linarith) (by linarith)
        exact acos_far_atMost isGap low high
      next positive =>
        rw [sign, not_lt] at positive
        rw [abs_of_nonneg positive] at least last
        obtain ⟨room, -⟩ := roundTo_near (x := 1 - x) (by rw [abs_le]; constructor <;> linarith)
        obtain ⟨V, isGap, low, high⟩ :=
          gap_is (narrowIs_one.sub value room) (by linarith) (by linarith)
        exact middle (acos_near_atMost isGap low high)

/-! ## Half a turn -/

theorem hold_unit_is (value : NarrowIs a x) :
    NarrowIs (hold (-one) one a) (max (-1) (min 1 x)) := by
  rw [hold]
  split
  next below =>
    have below := (narrow_lt_iff value narrowIs_one.neg).1 below
    rw [min_eq_right (by linarith), max_eq_left below.le]
    exact narrowIs_one.neg
  next low =>
    have low := not_lt.1 (mt (narrow_lt_iff value narrowIs_one.neg).2 low)
    split
    next above =>
      have above := (narrow_lt_iff narrowIs_one value).1 above
      rw [min_eq_left above.le, max_eq_right (by norm_num)]
      exact narrowIs_one
    next high =>
      have high := not_lt.1 (mt (narrow_lt_iff narrowIs_one value).2 high)
      rw [min_eq_right high, max_eq_right low]
      exact value

theorem narrow_eq_of_value (value : NarrowIs a x) (value' : NarrowIs b x) (nonzero : x ≠ 0) :
    a = b := by
  obtain ⟨s, -, zero⟩ | ⟨s, m, e, positive, unpacked, canonical, rfl⟩ := Denotes.cases value
  · exact absurd zero nonzero
  · exact narrow_eq_of_unpack_eq
      (unpacked.trans (eq_finite_of_denotes positive canonical value').symm)

theorem toDegrees_lt (angle : AtMost a (31415 / 10000)) : ¬ .ofBits 0x43340000 ≤ toDegrees a := by
  obtain ⟨y, isAngle, small⟩ := angle
  have isUnit : NarrowIs degreesPerRadian (15019745 * 2 ^ (-18 : ℤ)) :=
    @narrowIs_of_unpack degreesPerRadian .positive 15019745 (-18) (by decide) rfl
  have isBorder : NarrowIs (.ofBits 0x43340000) (11796480 * 2 ^ (-16 : ℤ)) :=
    @narrowIs_of_unpack (.ofBits 0x43340000) .positive 11796480 (-16) (by decide) rfl
  norm_num at isUnit isBorder
  have product : |y * (15019745 / 262144)| ≤ 17999 / 100 + 55 / 10000 := by
    rw [abs_mul, abs_of_pos (by norm_num : (0 : ℝ) < 15019745 / 262144)]
    linarith
  have error := abs_roundTo_narrow_sub_le (y * (15019745 / 262144))
  have degrees : |roundTo .binary32 (y * (15019745 / 262144))| < 180 := by
    rw [abs_le] at error product
    rw [abs_lt]
    norm_num at error
    constructor <;> linarith [abs_le.2 product]
  have room : |roundTo .binary32 (y * (15019745 / 262144))| ≤ 2 ^ (8 : ℤ) :=
    degrees.le.trans (by norm_num)
  have isDegrees := isAngle.mul isUnit (lt_limit_of_le_two_zpow room (by decide))
  rw [toDegrees, narrow_le_iff isBorder isDegrees]
  exact not_le.2 ((le_abs_self _).trans_lt degrees)

/-- An angle comes to half a turn if its cosine is at most -1, and for no other value of it. -/
theorem half_turn_iff (a : Float32) :
    .ofBits 0x43340000 ≤ toDegrees (acos (hold (-one) one a)) ↔ a ≤ -one := by
  obtain nan | ⟨s, infinite⟩ | ⟨x, value⟩ := narrow_cases a
  · obtain rfl : a = .ofBits 0x7fc00000 := narrow_eq_of_unpack_eq (nan.trans rfl)
    decide +kernel
  · cases s with
    | positive =>
      obtain rfl : a = .ofBits 0x7f800000 := narrow_eq_of_unpack_eq (infinite.trans rfl)
      decide +kernel
    | negative =>
      obtain rfl : a = .ofBits 0xff800000 := narrow_eq_of_unpack_eq (infinite.trans rfl)
      decide +kernel
  · have held := hold_unit_is value
    rw [narrow_le_iff value narrowIs_one.neg]
    obtain below | above := le_or_gt x (-1)
    · rw [min_eq_right (by linarith), max_eq_left below] at held
      rw [narrow_eq_of_value held narrowIs_one.neg (by norm_num)]
      exact iff_of_true (by decide +kernel) below
    · refine iff_of_false (toDegrees_lt (acos_atMost held ?_ ?_)) (not_le.2 above)
      · exact lt_max_of_lt_right (lt_min (by norm_num) above)
      · exact max_le (by norm_num) (min_le_left 1 x)

/-! ## Next to -1 -/

theorem not_le_of_idle {a : Float32} (idle : Idle a) : ¬ a ≤ -one := by
  obtain nan | zero := idle
  · rw [le_iff, narrow_isNaN_iff.1 nan]
    exact nofun
  · rw [narrow_le_iff zero narrowIs_one.neg]
    norm_num

theorem le_of_roundTo_le {x : ℝ} (below : roundTo .binary32 x ≤ -1) : x ≤ -(1 - 1 / 2 ^ 24) := by
  by_contra above
  have fits : Fits .binary32 (-(1 - 1 / 2 ^ 24)) :=
    ⟨-16777215, -24, by decide, by decide, by norm_num⟩
  have least := le_roundTo fits (not_le.1 above).le
  norm_num at least
  linarith

end Pursuit.Binary
