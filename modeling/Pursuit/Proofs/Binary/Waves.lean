import Mathlib.Analysis.SpecialFunctions.Pow.Real
import Pursuit.Binary.Trig
import Pursuit.Proofs.Binary.Values

/-! Sine and cosine of the angles of a full turn are finite and at most 1. The polynomials are
evaluated in the wide width on an angle below 4/5, where their errors are far smaller than what the
last rounding takes off. -/
namespace Pursuit.Binary

open Float.Model (Format)
open Float.Model.UnpackedFloat (Sign)

variable {a b : Float} {x y : ℝ}

/-! ## The last rounding -/

/-- What exceeds 1 by less than half of the next place is rounded to at most 1. -/
theorem abs_roundTo_le_one (small : |x| ≤ 1 + 1 / 2 ^ 30) : |roundTo .binary32 x| ≤ 1 := by
  have above {x : ℝ} (small : x ≤ 1 + 1 / 2 ^ 30) : roundTo .binary32 x ≤ 1 := by
    obtain within | beyond := le_or_gt x 1
    · exact roundTo_le ⟨1, 0, by decide, by decide, by norm_num⟩ within
    · have size : |x| = x := abs_of_pos (by linarith)
      have place : place .binary32 x = -23 := by
        refine le_antisymm (place_le (by decide) ?_) (le_place ?_)
        · rw [size, show (-23 : ℤ) + Format.binary32.mantissaBits = 1 from rfl]
          norm_num at small ⊢
          linarith
        · rw [size, show (-23 : ℤ) + Format.binary32.mantissaBits - 1 = 0 from rfl]
          norm_num
          linarith
      have nearest : nearestEven (x / 2 ^ (-23 : ℤ)) = 2 ^ 23 := by
        have close : |x / 2 ^ (-23 : ℤ) - ((2 ^ 23 : ℤ) : ℝ)| < 1 / 2 := by
          rw [abs_lt]
          norm_num at small ⊢
          constructor <;> linarith
        exact nearestEven_eq close.le fun half => absurd half close.ne
      rw [roundTo, place, nearest]
      norm_num
  rw [abs_le] at small ⊢
  refine ⟨?_, above small.2⟩
  have turned := above (neg_le.1 small.1)
  rw [roundTo_neg] at turned
  linarith

theorem one_lt_limit : 1 < limit .binary32 := by
  rw [limit, show (1 : ℝ) = 2 ^ (0 : ℤ) by norm_num, zpow_lt_zpow_iff_right₀ (by norm_num)]
  decide

def Unital (a : Float32) : Prop := ∃ x, NarrowIs a x ∧ |x| ≤ 1

theorem unital_narrow (value : WideIs a x) (small : |x| ≤ 1 + 1 / 2 ^ 30) : Unital (narrow a) :=
  have le := abs_roundTo_le_one small
  ⟨_, value.narrow (le.trans_lt one_lt_limit), le⟩

/-! ## The polynomials -/

theorem abs_le_of_near_mul {z A B ε : ℝ} (near : |z - x * y| ≤ ε) (small : |x| ≤ A)
    (small' : |y| ≤ B) : |z| ≤ A * B + ε := by
  have product : |x * y| ≤ A * B := by
    rw [abs_mul]
    exact mul_le_mul small small' (abs_nonneg _) ((abs_nonneg _).trans small)
  calc
    |z| = |x * y + (z - x * y)| := by rw [add_sub_cancel]
    _ ≤ |x * y| + |z - x * y| := abs_add_le ..
    _ ≤ A * B + ε := add_le_add product near

theorem WideIs.mul_le {A B C : ℝ} (first : WideIs a x) (second : WideIs b y) (small : |x| ≤ A)
    (small' : |y| ≤ B) (room : A * B + 1 / 2 ^ 53 ≤ C) (bound : C ≤ 1) :
    ∃ z, WideIs (a * b) z ∧ |z - x * y| ≤ 1 / 2 ^ 53 ∧ |z| ≤ C := by
  have product : |x * y| ≤ A * B := by
    rw [abs_mul]
    exact mul_le_mul small small' (abs_nonneg _) ((abs_nonneg _).trans small)
  obtain ⟨z, value, near⟩ := first.mul_near (k := 1) second (by norm_num) (by
    have : (0 : ℝ) < 1 / 2 ^ 53 := by positivity
    rw [pow_one]
    linarith)
  have near : |z - x * y| ≤ 1 / 2 ^ 53 := near.trans (by norm_num)
  exact ⟨z, value, near, (abs_le_of_near_mul near small small').trans room⟩

theorem WideIs.add_le {A B C : ℝ} (first : WideIs a x) (second : WideIs b y) (small : |x| ≤ A)
    (small' : |y| ≤ B) (room : A + B + 1 / 2 ^ 53 ≤ C) (bound : C ≤ 3 / 2) :
    ∃ z, WideIs (a + b) z ∧ |z - (x + y)| ≤ 1 / 2 ^ 53 ∧ |z| ≤ C := by
  have total : |x + y| ≤ A + B := (abs_add_le x y).trans (add_le_add small small')
  obtain ⟨z, value, near⟩ := first.add_near (k := 1) second (by norm_num) (by
    have : (0 : ℝ) < 1 / 2 ^ 53 := by positivity
    rw [pow_one]
    linarith)
  have near : |z - (x + y)| ≤ 1 / 2 ^ 53 := near.trans (by norm_num)
  refine ⟨z, value, near, ?_⟩
  calc
    |z| = |x + y + (z - (x + y))| := by rw [add_sub_cancel]
    _ ≤ |x + y| + |z - (x + y)| := abs_add_le ..
    _ ≤ C := by linarith

/-- What the bounds need to know of the coefficients of a wave, whose cosine half has the sign
`σ`. -/
structure Wave.Tame (w : Wave) (σ : ℝ) : Prop where
  unit : σ = 1 ∨ σ = -1
  s1 : ∃ x, WideIs w.s1 x ∧ |x| ≤ 17 / 100
  s2 : ∃ x, WideIs w.s2 x ∧ |x| ≤ 9 / 1000
  s3 : ∃ x, WideIs w.s3 x ∧ |x| ≤ 2 / 10000
  c0 : WideIs w.c0 σ
  c1 : ∃ x, WideIs w.c1 (-(σ * x)) ∧ 49 / 100 ≤ x ∧ x ≤ 1 / 2
  c2 : ∃ x, WideIs w.c2 x ∧ |x| ≤ 42 / 1000
  c3 : ∃ x, WideIs w.c3 x ∧ |x| ≤ 14 / 10000
  c4 : ∃ x, WideIs w.c4 x ∧ |x| ≤ 3 / 100000

theorem Wave.upright_tame : Wave.upright.Tame 1 where
  unit := .inl rfl
  s1 := ⟨_, @wideIs_of_unpack _ .negative 6004795279517187 (-55) (by decide) rfl,
    by norm_num [signed]⟩
  s2 := ⟨_, @wideIs_of_unpack _ .positive 4803173682449348 (-59) (by decide) rfl,
    by norm_num [signed]⟩
  s3 := ⟨_, @wideIs_of_unpack _ .negative 7200612386393892 (-65) (by decide) rfl,
    by norm_num [signed]⟩
  c0 := by
    have value := @wideIs_of_unpack Wave.upright.c0 .positive 4503599627370496 (-52) (by decide) rfl
    norm_num [signed] at value
    exact value
  c1 := by
    have value := @wideIs_of_unpack Wave.upright.c1 .negative 9007199205220892 (-54) (by decide) rfl
    refine ⟨9007199205220892 * 2 ^ (-54 : ℤ), by rw [one_mul]; exact value, ?_, ?_⟩ <;> norm_num
  c2 := ⟨_, @wideIs_of_unpack _ .positive 6004793256873753 (-57) (by decide) rfl,
    by norm_num [signed]⟩
  c3 := ⟨_, @wideIs_of_unpack _ .negative 6404139443172765 (-62) (by decide) rfl,
    by norm_num [signed]⟩
  c4 := ⟨_, @wideIs_of_unpack _ .positive 7198790431537347 (-68) (by decide) rfl,
    by norm_num [signed]⟩

theorem Wave.inverted_tame : Wave.inverted.Tame (-1) where
  unit := .inr rfl
  s1 := Wave.upright_tame.s1
  s2 := Wave.upright_tame.s2
  s3 := Wave.upright_tame.s3
  c0 := by
    have value := @wideIs_of_unpack Wave.inverted.c0 .negative 4503599627370496 (-52)
      (by decide) rfl
    norm_num [signed] at value
    exact value
  c1 := by
    have value := @wideIs_of_unpack Wave.inverted.c1 .positive 9007199205220892 (-54)
      (by decide) rfl
    refine ⟨9007199205220892 * 2 ^ (-54 : ℤ), by rw [neg_one_mul, neg_neg]; exact value, ?_, ?_⟩ <;>
      norm_num
  c2 := ⟨_, @wideIs_of_unpack _ .negative 6004793256873753 (-57) (by decide) rfl,
    by norm_num [signed]⟩
  c3 := ⟨_, @wideIs_of_unpack _ .positive 6404139443172765 (-62) (by decide) rfl,
    by norm_num [signed]⟩
  c4 := ⟨_, @wideIs_of_unpack _ .negative 7198790431537347 (-68) (by decide) rfl,
    by norm_num [signed]⟩

theorem Wave.Tame.sine_le {w : Wave} {σ : ℝ} (tame : w.Tame σ) {q : ℝ} (angle : WideIs a x)
    (square : WideIs b q) (small : |x| ≤ 4 / 5) (small' : |q| ≤ 65 / 100) :
    ∃ z, WideIs (w.sine a b) z ∧ |z| ≤ 1 := by
  obtain ⟨k1, s1, small1⟩ := tame.s1
  obtain ⟨k2, s2, small2⟩ := tame.s2
  obtain ⟨k3, s3, small3⟩ := tame.s3
  obtain ⟨x3, cube, -, cubeSmall⟩ :=
    angle.mul_le square small small' (C := 53 / 100) (by norm_num) (by norm_num)
  obtain ⟨t, term, -, termSmall⟩ :=
    square.mul_le s3 small' small3 (C := 1 / 1000) (by norm_num) (by norm_num)
  obtain ⟨l, tail, -, tailSmall⟩ :=
    s2.add_le term small2 termSmall (C := 2 / 100) (by norm_num) (by norm_num)
  obtain ⟨h, lead, -, leadSmall⟩ :=
    cube.mul_le s1 cubeSmall small1 (C := 1 / 10) (by norm_num) (by norm_num)
  obtain ⟨d, head, -, headSmall⟩ :=
    angle.add_le lead small leadSmall (C := 91 / 100) (by norm_num) (by norm_num)
  obtain ⟨x7, high, -, highSmall⟩ :=
    cube.mul_le square cubeSmall small' (C := 35 / 100) (by norm_num) (by norm_num)
  obtain ⟨p, rest, -, restSmall⟩ :=
    high.mul_le tail highSmall tailSmall (C := 1 / 100) (by norm_num) (by norm_num)
  obtain ⟨z, value, -, valueSmall⟩ :=
    head.add_le rest headSmall restSmall (C := 1) (by norm_num) (by norm_num)
  exact ⟨z, value, valueSmall⟩

/-- The cosine half is at most 1 because the linear term, which takes off, outweighs what follows
it. -/
theorem Wave.Tame.cosine_le {w : Wave} {σ : ℝ} (tame : w.Tame σ) {q : ℝ} (square : WideIs b q)
    (nonneg : 0 ≤ q) (small : q ≤ 65 / 100) :
    ∃ z, WideIs (w.cosine b) z ∧ |z| ≤ 1 + 1 / 2 ^ 30 := by
  have small' : |q| ≤ 65 / 100 := by rwa [abs_of_nonneg nonneg]
  have unit : |σ| ≤ 1 := by obtain rfl | rfl := tame.unit <;> norm_num
  obtain ⟨k1, c1, low1, high1⟩ := tame.c1
  obtain ⟨k2, c2, small2⟩ := tame.c2
  obtain ⟨k3, c3, small3⟩ := tame.c3
  obtain ⟨k4, c4, small4⟩ := tame.c4
  have small1 : |-(σ * k1)| ≤ 1 / 2 := by
    rw [abs_neg, abs_mul, abs_of_nonneg (by linarith : (0 : ℝ) ≤ k1)]
    nlinarith
  obtain ⟨x4, fourth, nearFourth, fourthSmall⟩ :=
    square.mul_le square small' small' (C := 43 / 100) (by norm_num) (by norm_num)
  obtain ⟨t, term, -, termSmall⟩ :=
    square.mul_le c4 small' small4 (C := 1 / 10000) (by norm_num) (by norm_num)
  obtain ⟨l, tail, -, tailSmall⟩ :=
    c3.add_le term small3 termSmall (C := 2 / 1000) (by norm_num) (by norm_num)
  obtain ⟨s, slope, nearSlope, slopeSmall⟩ :=
    square.mul_le c1 small' small1 (C := 33 / 100) (by norm_num) (by norm_num)
  obtain ⟨r, start, nearStart, startSmall⟩ :=
    tame.c0.add_le slope unit slopeSmall (C := 134 / 100) (by norm_num) (by norm_num)
  obtain ⟨x6, sixth, nearSixth, sixthSmall⟩ :=
    fourth.mul_le square fourthSmall small' (C := 28 / 100) (by norm_num) (by norm_num)
  obtain ⟨d, second, nearSecond, secondSmall⟩ :=
    fourth.mul_le c2 fourthSmall small2 (C := 2 / 100) (by norm_num) (by norm_num)
  obtain ⟨h, head, nearHead, headSmall⟩ :=
    start.add_le second startSmall secondSmall (C := 137 / 100) (by norm_num) (by norm_num)
  obtain ⟨p, rest, nearRest, restSmall⟩ :=
    sixth.mul_le tail sixthSmall tailSmall (C := 1 / 1000) (by norm_num) (by norm_num)
  obtain ⟨z, value, nearValue, -⟩ :=
    head.add_le rest headSmall restSmall (C := 138 / 100) (by norm_num) (by norm_num)
  refine ⟨z, value, ?_⟩
  -- All after the linear term is below a thirtieth of the angle's square.
  have fourthSmall : |x4| ≤ 65 / 100 * q + 1 / 2 ^ 53 :=
    abs_le_of_near_mul nearFourth small' (abs_of_nonneg nonneg).le
  have sixthSmall : |x6| ≤ (65 / 100 * q + 1 / 2 ^ 53) * (65 / 100) + 1 / 2 ^ 53 :=
    abs_le_of_near_mul nearSixth fourthSmall small'
  have secondSmall : |d| ≤ (65 / 100 * q + 1 / 2 ^ 53) * (42 / 1000) + 1 / 2 ^ 53 :=
    abs_le_of_near_mul nearSecond fourthSmall small2
  have restSmall : |p| ≤ ((65 / 100 * q + 1 / 2 ^ 53) * (65 / 100) + 1 / 2 ^ 53) * (2 / 1000) +
      1 / 2 ^ 53 :=
    abs_le_of_near_mul nearRest sixthSmall tailSmall
  have falling : 49 / 100 * q ≤ k1 * q ∧ k1 * q ≤ 1 / 2 * q :=
    ⟨mul_le_mul_of_nonneg_right low1 nonneg, mul_le_mul_of_nonneg_right high1 nonneg⟩
  rw [abs_le] at *
  norm_num at *
  obtain rfl | rfl := tame.unit
  · constructor <;> linarith
  · constructor <;> linarith

/-! ## The reduced angle -/

/-- What the scaled angle says about the number of quarter turns in it. -/
theorem quarters_near {N n : ℕ} (low : (N : ℝ) ≤ x) (high : x < N + 1) (below : y ≤ 63 / 10)
    (near : |x - y * (5734161139222659 * 2 ^ (-29 : ℤ))| ≤ 1 / 2 ^ 27)
    (counted : (N + 0x800000) >>> 24 = n) :
    n ≤ 4 ∧ |y - n * (7074237752028440 * 2 ^ (-52 : ℤ))| ≤ 786 / 1000 := by
  rw [Nat.shiftRight_eq_div_pow] at counted
  have down : (n : ℝ) * 2 ^ 24 ≤ N + 2 ^ 23 := by
    exact_mod_cast (by omega : n * 2 ^ 24 ≤ N + 2 ^ 23)
  have up : (N : ℝ) + 2 ^ 23 + 1 ≤ (n + 1) * 2 ^ 24 := by
    exact_mod_cast (by omega : N + 2 ^ 23 + 1 ≤ (n + 1) * 2 ^ 24)
  rw [abs_le] at near ⊢
  norm_num at near down up ⊢
  have few : (n : ℝ) < 5 := by linarith
  have few : n < 5 := by exact_mod_cast few
  have few' : (n : ℝ) ≤ 4 := by exact_mod_cast (by omega : n ≤ 4)
  refine ⟨by omega, ?_, ?_⟩ <;> linarith

theorem quarterReduce_near (angle : WideIs a y) (nonneg : 0 ≤ y) (below : y ≤ 63 / 10) :
    ∃ z, WideIs (quarterReduce a).1 z ∧ |z| ≤ 79 / 100 := by
  have scale : WideIs (.ofBits 0x41645f306dc9c883) (5734161139222659 * 2 ^ (-29 : ℤ)) :=
    @wideIs_of_unpack _ .positive 5734161139222659 (-29) (by decide) rfl
  have quarter : WideIs (.ofBits 0x3ff921fb54442d18) (7074237752028440 * 2 ^ (-52 : ℤ)) :=
    @wideIs_of_unpack _ .positive 7074237752028440 (-52) (by decide) rfl
  have positive : 0 ≤ y * (5734161139222659 * 2 ^ (-29 : ℤ)) := by positivity
  have small : |y * (5734161139222659 * 2 ^ (-29 : ℤ))| < 2 ^ 27 := by
    rw [abs_of_nonneg positive]
    norm_num
    linarith
  obtain ⟨room, near⟩ := roundTo_wide_near (by norm_num) small
  have scaled := angle.mul scale room
  generalize rounded : roundTo .binary64 (y * (5734161139222659 * 2 ^ (-29 : ℤ))) = x at near scaled
  have floored : 0 ≤ x := rounded ▸ roundTo_nonneg positive
  have near : |x - y * (5734161139222659 * 2 ^ (-29 : ℤ))| ≤ 1 / 2 ^ 27 := near.trans (by norm_num)
  have counted := scaled.toUInt64 floored (by
    rw [abs_le] at near
    rw [abs_of_nonneg positive] at small
    norm_num at near small ⊢
    linarith)
  rw [quarterReduce]
  dsimp only
  generalize (a * .ofBits 0x41645f306dc9c883).toUInt64.toNat = N at counted
  have low : (N : ℝ) ≤ x := by
    have := Int.floor_le x
    rw [← counted] at this
    exact_mod_cast this
  have high : x < N + 1 := by
    have := Int.lt_floor_add_one x
    rw [← counted] at this
    exact_mod_cast this
  obtain ⟨few, reduced⟩ := quarters_near low high below near rfl
  generalize (N + 0x800000) >>> 24 = n at few reduced
  have few : (n : ℝ) ≤ 4 := by exact_mod_cast few
  have turns := wideIs_natCast (n := n) (by
    have : n ≤ 4 := by exact_mod_cast few
    omega)
  obtain ⟨p, back, backNear⟩ := turns.mul_near (k := 3) quarter (by norm_num) (by
    rw [abs_of_nonneg (by positivity)]
    norm_num
    linarith)
  have backNear : |p - n * (7074237752028440 * 2 ^ (-52 : ℤ))| ≤ 1 / 1000 :=
    backNear.trans (by norm_num)
  have rest : |y - p| ≤ 787 / 1000 := by
    rw [abs_le] at *
    constructor <;> linarith
  obtain ⟨z, value, valueNear⟩ := angle.sub_near (k := 1) back (by norm_num) (by
    norm_num
    linarith)
  have valueNear : |z - (y - p)| ≤ 1 / 1000 := valueNear.trans (by norm_num)
  refine ⟨z, value, ?_⟩
  rw [abs_le] at *
  constructor <;> linarith

/-! ## Sine and cosine -/

theorem toNat_leading (c : Float32) : (leading c).toNat = size c / 2 ^ 20 := by
  have bits := c.toBits.toNat_lt
  have mask (n : ℕ) : n &&& 0x7ff = n % 2 ^ 11 := Nat.and_two_pow_sub_one_eq_mod n 11
  rw [leading, UInt32.toNat_and, UInt32.toNat_shiftRight, size]
  change (c.toBits.toNat >>> 20) &&& 0x7ff = _
  rw [mask, Nat.shiftRight_eq_div_pow]
  omega

theorem abs_lt_of_leading {c : Float32} (value : NarrowIs c x)
    (small : leading c < leading (.ofBits 0x3f490fdb)) : |x| < 3 / 4 := by
  have bound : NarrowIs (.ofBits 0x3f400000) (3 / 4) := by
    have value := @narrowIs_of_unpack (.ofBits 0x3f400000) .positive 12582912 (-24) (by decide) rfl
    norm_num [signed] at value
    norm_num
    exact value
  rw [UInt32.lt_iff_toNat_lt, toNat_leading, toNat_leading] at small
  have last : size (.ofBits 0x3f490fdb) = 0x3f490fdb := rfl
  have least : size (.ofBits 0x3f400000) = 0x3f400000 := rfl
  have below : size c < size (.ofBits 0x3f400000) := by omega
  have below := (size_lt_iff value bound).1 below
  rwa [abs_of_pos (by norm_num : (0 : ℝ) < 3 / 4)] at below

theorem WideIs.square_le (value : WideIs a x) (small : |x| ≤ 79 / 100) :
    ∃ q, WideIs (a * a) q ∧ 0 ≤ q ∧ q ≤ 65 / 100 := by
  have product : x * x ≤ 79 / 100 * (79 / 100) := by
    rw [← abs_mul_abs_self]
    exact mul_le_mul small small (abs_nonneg _) (by norm_num)
  have small : |x * x| < 2 ^ 1 := by
    rw [abs_of_nonneg (mul_self_nonneg x)]
    linarith
  obtain ⟨room, near⟩ := roundTo_wide_near (by norm_num) small
  refine ⟨_, value.mul value room, roundTo_nonneg (mul_self_nonneg x), ?_⟩
  rw [abs_le] at near
  norm_num at near product ⊢
  linarith

theorem wideIs_quarterSign (n : ℕ) : ∃ x, WideIs (quarterSign n) x ∧ |x| ≤ 1 := by
  have one : WideIs 1.0 1 := by
    have value := @wideIs_of_unpack 1.0 .positive 4503599627370496 (-52) (by decide) rfl
    norm_num [signed] at value
    exact value
  have minusOne : WideIs (-1.0) (-1) := by
    have value := @wideIs_of_unpack (-1.0) .negative 4503599627370496 (-52) (by decide) rfl
    norm_num [signed] at value
    exact value
  rw [quarterSign]
  split
  · exact ⟨1, one, by norm_num⟩
  · exact ⟨-1, minusOne, by norm_num⟩

theorem Wave.Tame.sine_unital {w : Wave} {σ : ℝ} (tame : w.Tame σ) {square : Float} {q : ℝ}
    (angle : WideIs a x) (squared : WideIs square q) (small : |x| ≤ 4 / 5) (nonneg : 0 ≤ q)
    (small' : q ≤ 65 / 100) : Unital (narrow (w.sine a square)) := by
  obtain ⟨z, value, le⟩ := tame.sine_le angle squared small (by rwa [abs_of_nonneg nonneg])
  exact unital_narrow value (le.trans (by norm_num))

theorem Wave.Tame.cosine_unital {w : Wave} {σ : ℝ} (tame : w.Tame σ) {square : Float} {q : ℝ}
    (squared : WideIs square q) (nonneg : 0 ≤ q) (small : q ≤ 65 / 100) :
    Unital (narrow (w.cosine square)) := by
  obtain ⟨z, value, le⟩ := tame.cosine_le squared nonneg small
  exact unital_narrow value le

theorem unital_largeAngle {c : Float32} (angle : NarrowIs c x) (nonneg : 0 ≤ x)
    (below : x ≤ 63 / 10) (cosine : Bool) : Unital (largeAngle c cosine) := by
  obtain ⟨z, value, small⟩ := quarterReduce_near angle.widen nonneg below
  obtain ⟨q, squared, least, most⟩ := value.square_le small
  obtain ⟨σ, tame⟩ : ∃ σ, Wave.Tame (if (quarterReduce (widen c)).2 / 2 % 2 = 1
      then Wave.inverted else Wave.upright) σ := by
    split
    · exact ⟨-1, Wave.inverted_tame⟩
    · exact ⟨1, Wave.upright_tame⟩
  rw [largeAngle]
  dsimp only
  split
  · exact tame.cosine_unital squared least most
  · obtain ⟨s, sign, unit⟩ := wideIs_quarterSign (quarterReduce (widen c)).2
    obtain ⟨y, turned, -, small⟩ :=
      value.mul_le sign small unit (C := 4 / 5) (by norm_num) (by norm_num)
    exact tame.sine_unital turned squared small least most

theorem unital_sin {c : Float32} (angle : NarrowIs c x) (nonneg : 0 ≤ x) (below : x ≤ 63 / 10) :
    Unital (sin c) := by
  rw [sin]
  split
  next small =>
    have small := abs_lt_of_leading angle small
    split
    · exact ⟨x, angle, by linarith⟩
    · obtain ⟨q, squared, least, most⟩ := angle.widen.square_le (by linarith)
      exact Wave.upright_tame.sine_unital angle.widen squared (by linarith) least most
  next => exact unital_largeAngle angle nonneg below false

theorem unital_cos {c : Float32} (angle : NarrowIs c x) (nonneg : 0 ≤ x) (below : x ≤ 63 / 10) :
    Unital (cos c) := by
  rw [cos]
  split
  next small =>
    have small := abs_lt_of_leading angle small
    split
    · have one := @narrowIs_of_unpack (.ofBits 0x3f800000) .positive 8388608 (-23) (by decide) rfl
      exact ⟨_, one, by norm_num [signed]⟩
    · obtain ⟨q, squared, least, most⟩ := angle.widen.square_le (by linarith)
      exact Wave.upright_tame.cosine_unital squared least most
  next => exact unital_largeAngle angle nonneg below true

end Pursuit.Binary
