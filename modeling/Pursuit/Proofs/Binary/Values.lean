import Pursuit.Binary.Width
import Pursuit.Proofs.Binary.Arithmetic

/-! The real numbers that narrow and wide floats stand for, and what the operations make of them. -/
namespace Pursuit.Binary

open Float.Model (Format UnpackedFloat)
open Float.Model.UnpackedFloat

/-- The narrow float is finite and stands for this number. -/
def NarrowIs (a : Float32) (x : ℝ) : Prop := Denotes .binary32 a.toModel.unpack x

def WideIs (a : Float) (x : ℝ) : Prop := Denotes .binary64 a.toModel.unpack x

variable {x y : ℝ}

theorem Denotes.cases {F : Format} {u : UnpackedFloat} (denotes : Denotes F u x) :
    (∃ s, u = .zero s ∧ x = 0) ∨ ∃ s m e positive, u = .finite s m e positive ∧
      Canonical F m e ∧ x = signed s (m * 2 ^ e) := by
  cases u with
  | notANumber | infinity => exact denotes.elim
  | zero s => exact .inl ⟨s, rfl, denotes⟩
  | finite s m e positive => exact .inr ⟨s, m, e, positive, rfl, denotes⟩

/-! ## Narrow floats -/

section Narrow

variable {a b : Float32}

theorem narrow_cases (a : Float32) :
    a.toModel.unpack = .notANumber ∨ (∃ s, a.toModel.unpack = .infinity s) ∨ ∃ x, NarrowIs a x :=
  unpack_cases (F := .binary32) (by decide) a.toModel.toBits.toBitVec

theorem narrowIs_zero : NarrowIs (.ofBits 0) 0 := (rfl : (0 : ℝ) = 0)

theorem NarrowIs.lt_limit (value : NarrowIs a x) : |x| < limit .binary32 :=
  abs_lt_limit_of_denotes (by decide) value

theorem narrow_isFinite_iff : a.isFinite ↔ ∃ x, NarrowIs a x := by
  change a.toModel.unpack.isFinite = true ↔ _
  constructor
  · intro finite
    obtain nan | ⟨s, infinite⟩ | value := narrow_cases a
    · rw [nan] at finite
      cases finite
    · rw [infinite] at finite
      cases finite
    · exact value
  · rintro ⟨x, value⟩
    obtain ⟨s, unpacked, -⟩ | ⟨s, m, e, positive, unpacked, -⟩ := Denotes.cases value <;>
    · rw [unpacked]
      rfl

theorem narrow_lt_iff (first : NarrowIs a x) (second : NarrowIs b y) : a < b ↔ x < y := by
  rw [lt_iff, compare_of_denotes first second, Option.some_inj, cmp_eq_lt_iff]

theorem narrow_le_iff (first : NarrowIs a x) (second : NarrowIs b y) : a ≤ b ↔ x ≤ y := by
  rw [le_iff, compare_of_denotes first second, Option.any_some, Ordering.isLE_iff_ne_gt,
    ← not_lt, ← cmp_eq_gt_iff]

theorem lt_of_infinity (infinite : a.toModel.unpack = .infinity .positive) (second : NarrowIs b y) :
    b < a := by
  obtain ⟨s, unpacked, -⟩ | ⟨s, m, e, positive, unpacked, -⟩ := Denotes.cases second <;>
  · rw [lt_iff, infinite, unpacked]
    cases s <;> rfl

theorem lt_of_negative_infinity (infinite : a.toModel.unpack = .infinity .negative)
    (second : NarrowIs b y) : a < b := by
  obtain ⟨s, unpacked, -⟩ | ⟨s, m, e, positive, unpacked, -⟩ := Denotes.cases second <;>
  · rw [lt_iff, infinite, unpacked]
    cases s <;> rfl

theorem narrowIs_of_unpack {s : Sign} {m : Nat} {e : ℤ} {positive : 0 < m}
    (unpacked : a.toModel.unpack = .finite s m e positive) : NarrowIs a (signed s (m * 2 ^ e)) := by
  rw [NarrowIs, unpacked]
  exact ⟨(canonical_of_unpack (F := .binary32) (by decide) unpacked).1, rfl⟩

theorem NarrowIs.neg (value : NarrowIs a x) : NarrowIs (-a) (-x) := by
  rw [NarrowIs, unpack_neg]
  exact Denotes.neg value

theorem NarrowIs.add (first : NarrowIs a x) (second : NarrowIs b y)
    (small : |roundTo .binary32 (x + y)| < limit .binary32) :
    NarrowIs (a + b) (roundTo .binary32 (x + y)) :=
  denotes_settle (by decide) (Denotes.add first second) small

theorem NarrowIs.sub (first : NarrowIs a x) (second : NarrowIs b y)
    (small : |roundTo .binary32 (x - y)| < limit .binary32) :
    NarrowIs (a - b) (roundTo .binary32 (x - y)) :=
  denotes_settle (by decide) (Denotes.sub first second) small

theorem NarrowIs.mul (first : NarrowIs a x) (second : NarrowIs b y)
    (small : |roundTo .binary32 (x * y)| < limit .binary32) :
    NarrowIs (a * b) (roundTo .binary32 (x * y)) :=
  denotes_settle (by decide) (Denotes.mul first second) small

theorem NarrowIs.sqrt (value : NarrowIs a x) (nonneg : 0 ≤ x)
    (small : |roundTo .binary32 √x| < limit .binary32) : NarrowIs a.sqrt (roundTo .binary32 √x) :=
  denotes_settle (by decide) (Denotes.sqrt value nonneg) small

theorem Denotes.abs {F : Format} {u : UnpackedFloat} (denotes : Denotes F u x) :
    Denotes F u.abs |x| := by
  cases u with
  | notANumber | infinity => exact denotes.elim
  | zero s => exact abs_eq_zero.2 denotes
  | finite s m e positive =>
    obtain ⟨canonical, rfl⟩ := denotes
    exact ⟨canonical, by
      rw [abs_signed, abs_of_nonneg (mul_nonneg m.cast_nonneg (two_zpow_pos e).le)]; rfl⟩

theorem NarrowIs.abs (value : NarrowIs a x) : NarrowIs a.abs |x| :=
  denotes_settle (by decide) (Denotes.abs value) (by rw [abs_abs]; exact value.lt_limit)

theorem narrow_isNaN_iff : a.isNaN ↔ a.toModel.unpack = .notANumber := isNaN_iff

theorem add_isNaN (number : a.isNaN = false) (second : NarrowIs b y) : (a + b).isNaN = false := by
  have settled : (a + b).toModel.unpack =
      settle .binary32 (a.toModel.unpack.add .binary32 b.toModel.unpack) := rfl
  rw [Bool.eq_false_iff, ne_eq, narrow_isNaN_iff] at number ⊢
  rw [settled]
  obtain nan | ⟨s, infinite⟩ | ⟨x, first⟩ := narrow_cases a
  · exact absurd nan number
  · have kept : a.toModel.unpack.add .binary32 b.toModel.unpack = .infinity s := by
      obtain ⟨t, unpacked, -⟩ | ⟨t, m, e, positive, unpacked, -⟩ := Denotes.cases second <;>
      · rw [infinite, unpacked]
        rfl
    rw [kept, settle_infinity]
    nofun
  · exact settle_ne_notANumber (by decide) (Denotes.add first second)

/-! ### Bits -/

def size (a : Float32) : ℕ := a.toBits.toNat % 2 ^ 31

theorem size_fields (a : Float32) :
    size a = (@unpackExponent .binary32 a.toModel.toBits.toBitVec).toNat * 2 ^ 23 +
      (@unpackMantissa .binary32 a.toModel.toBits.toBitVec).toNat := by
  rw [unpackExponent_def, unpackMantissa_def, BitVec.extractLsb'_toNat, BitVec.extractLsb'_toNat]
  change a.toModel.toBits.toNat % 2 ^ 31 = a.toModel.toBits.toNat >>> 23 % 2 ^ 8 * 2 ^ 23 +
    a.toModel.toBits.toNat >>> 0 % 2 ^ 23
  rw [Nat.shiftRight_eq_div_pow, Nat.shiftRight_eq_div_pow]
  omega

theorem size_of_zero {s : Sign} (unpacked : a.toModel.unpack = .zero s) : size a = 0 := by
  rw [Float32.Model.unpack, unpack] at unpacked
  rw [size_fields]
  split at unpacked
  · split at unpacked <;> cases unpacked
  · split at unpacked
    next exponent =>
      split at unpacked
      next mantissa => rw [exponent, mantissa]; rfl
      next => cases unpacked
    next => cases unpacked

/-- The bits count mantissas through all exponents. -/
theorem size_of_finite {s : Sign} {m : Nat} {e : ℤ} {positive : 0 < m}
    (unpacked : a.toModel.unpack = .finite s m e positive) :
    (size a : ℤ) = m + (e + 149) * 2 ^ 23 := by
  have bias : (Format.binary32.exponentBias : ℤ) = 127 := rfl
  rw [Float32.Model.unpack, unpack] at unpacked
  rw [size_fields]
  split at unpacked
  · split at unpacked <;> cases unpacked
  · split at unpacked
    next exponent =>
      split at unpacked
      · cases unpacked
      · cases unpacked
        rw [exponent, BitVec.toNat_zero, bias]
        push_cast
        ring
    next =>
      cases unpacked
      rw [toNat_one_append, bias]
      push_cast
      ring

theorem Canonical.count_lt_iff {m m' : Nat} {e e' : ℤ} (first : Canonical .binary32 m e)
    (second : Canonical .binary32 m' e') :
    (m : ℤ) + (e + 149) * 2 ^ 23 < m' + (e' + 149) * 2 ^ 23 ↔ (m : ℝ) * 2 ^ e < m' * 2 ^ e' := by
  have least : Format.binary32.minExponent = -149 := rfl
  have places : 2 ^ Format.binary32.mantissaBits = 2 * 2 ^ 23 := rfl
  have stored : 2 ^ Format.binary32.mantissaBitsWithoutImplicit = 2 ^ 23 := rfl
  have small := first.small
  have small' := second.small
  have full := first.full
  have full' := second.full
  have bottom := first.least
  have bottom' := second.least
  rw [places] at small small'
  rw [stored, least] at full full'
  rw [least] at bottom bottom'
  rw [← cmp_eq_lt_iff (m * 2 ^ e : ℝ), ← first.compare_eq second]
  obtain lt | rfl | gt := lt_trichotomy e e'
  · rw [Int.compare_eq_lt.2 lt, Ordering.lt_then]
    simp only [iff_true]
    omega
  · rw [Int.compare_eq_eq.2 rfl, Ordering.eq_then, Nat.compare_eq_lt]
    omega
  · rw [Int.compare_eq_gt.2 gt, Ordering.gt_then]
    simp only [reduceCtorEq, iff_false]
    omega

/-- The bits but for the sign are in the order of the absolute values. -/
theorem size_lt_iff (first : NarrowIs a x) (second : NarrowIs b y) :
    size a < size b ↔ |x| < |y| := by
  have size_pos {a : Float32} {s : Sign} {m : Nat} {e : ℤ} {positive : 0 < m}
      (unpacked : a.toModel.unpack = .finite s m e positive) (canonical : Canonical .binary32 m e) :
      0 < size a := by
    have counted := size_of_finite unpacked
    have bottom := canonical.least
    rw [show Format.binary32.minExponent = -149 from rfl] at bottom
    omega
  obtain ⟨s, zero, rfl⟩ | ⟨s, m, e, positive, finite, canonical, rfl⟩ := Denotes.cases first
  · rw [size_of_zero zero, abs_zero]
    obtain ⟨t, zero', rfl⟩ | ⟨t, m', e', positive', finite', canonical', rfl⟩ :=
      Denotes.cases second
    · rw [size_of_zero zero', abs_zero]
      exact iff_of_false (lt_irrefl _) (lt_irrefl _)
    · refine iff_of_true (size_pos finite' canonical') ?_
      rw [abs_signed]
      exact abs_pos.2 (mul_pos (by exact_mod_cast positive') (two_zpow_pos e')).ne'
  · obtain ⟨t, zero', rfl⟩ | ⟨t, m', e', positive', finite', canonical', rfl⟩ :=
      Denotes.cases second
    · rw [size_of_zero zero', abs_zero]
      exact iff_of_false (Nat.not_lt_zero _) (abs_nonneg _).not_gt
    · rw [abs_signed, abs_signed, abs_of_nonneg (mul_nonneg m.cast_nonneg (two_zpow_pos e).le),
        abs_of_nonneg (mul_nonneg m'.cast_nonneg (two_zpow_pos e').le),
        ← canonical.count_lt_iff canonical', ← size_of_finite finite, ← size_of_finite finite',
        Int.ofNat_lt]

end Narrow

/-! ## Wide floats -/

section Wide

variable {a b : Float}

theorem WideIs.add (first : WideIs a x) (second : WideIs b y)
    (small : |roundTo .binary64 (x + y)| < limit .binary64) :
    WideIs (a + b) (roundTo .binary64 (x + y)) :=
  denotes_settle (by decide) (Denotes.add first second) small

theorem WideIs.sub (first : WideIs a x) (second : WideIs b y)
    (small : |roundTo .binary64 (x - y)| < limit .binary64) :
    WideIs (a - b) (roundTo .binary64 (x - y)) :=
  denotes_settle (by decide) (Denotes.sub first second) small

theorem WideIs.mul (first : WideIs a x) (second : WideIs b y)
    (small : |roundTo .binary64 (x * y)| < limit .binary64) :
    WideIs (a * b) (roundTo .binary64 (x * y)) :=
  denotes_settle (by decide) (Denotes.mul first second) small

theorem roundTo_wide_near {k : ℕ} (bound : k ≤ 1000) (small : |x| < 2 ^ k) :
    |roundTo .binary64 x| < limit .binary64 ∧ |roundTo .binary64 x - x| ≤ 2 ^ k / 2 ^ 54 := by
  have least : Format.binary64.minExponent ≤ k - 53 := by
    have : Format.binary64.minExponent = -1074 := rfl
    omega
  have fits : Fits .binary64 (2 ^ k) := ⟨1, k, by decide, by omega, by simp⟩
  constructor
  · refine (abs_roundTo_le fits small.le).trans_lt ?_
    rw [← zpow_natCast, limit, zpow_lt_zpow_iff_right₀ (by norm_num)]
    have : Format.binary64.exponentBias = 1023 := rfl
    omega
  · have near := abs_roundTo_sub_le least (x := x) (by
      rw [show (k - 53 + (Format.binary64.mantissaBits : ℤ)) = k from by
        rw [show Format.binary64.mantissaBits = 53 from rfl]; push_cast; ring, zpow_natCast]
      exact small)
    refine near.trans (le_of_eq ?_)
    rw [zpow_sub₀ two_ne_zero, zpow_natCast]
    norm_num
    ring

theorem WideIs.add_near {k : ℕ} (first : WideIs a x) (second : WideIs b y) (bound : k ≤ 1000)
    (small : |x + y| < 2 ^ k) : ∃ z, WideIs (a + b) z ∧ |z - (x + y)| ≤ 2 ^ k / 2 ^ 54 :=
  have ⟨room, near⟩ := roundTo_wide_near bound small
  ⟨_, first.add second room, near⟩

theorem WideIs.sub_near {k : ℕ} (first : WideIs a x) (second : WideIs b y) (bound : k ≤ 1000)
    (small : |x - y| < 2 ^ k) : ∃ z, WideIs (a - b) z ∧ |z - (x - y)| ≤ 2 ^ k / 2 ^ 54 :=
  have ⟨room, near⟩ := roundTo_wide_near bound small
  ⟨_, first.sub second room, near⟩

theorem WideIs.mul_near {k : ℕ} (first : WideIs a x) (second : WideIs b y) (bound : k ≤ 1000)
    (small : |x * y| < 2 ^ k) : ∃ z, WideIs (a * b) z ∧ |z - x * y| ≤ 2 ^ k / 2 ^ 54 :=
  have ⟨room, near⟩ := roundTo_wide_near bound small
  ⟨_, first.mul second room, near⟩

theorem wideIs_of_unpack {s : Sign} {m : Nat} {e : ℤ} {positive : 0 < m}
    (unpacked : a.toModel.unpack = .finite s m e positive) : WideIs a (signed s (m * 2 ^ e)) := by
  rw [WideIs, unpacked]
  exact ⟨(canonical_of_unpack (F := .binary64) (by decide) unpacked).1, rfl⟩

theorem fits_natCast {F : Format} {n : ℕ} (small : n ≤ 2 ^ F.mantissaBits) : Fits F n :=
  ⟨n, 0, by rw [Nat.abs_cast]; exact_mod_cast small, minExponent_nonpos F, by simp⟩

theorem wideIs_natCast {n : ℕ} (small : n ≤ 2 ^ 53) : WideIs n.toUInt64.toFloat n := by
  have same : n.toUInt64.toNat = n := by
    rw [Nat.toUInt64_eq, UInt64.toNat_ofNat_of_lt']
    exact small.trans_lt (by decide)
  have fits : Fits .binary64 n := fits_natCast small
  have bound : |(n : ℝ)| < limit .binary64 := by
    rw [abs_of_nonneg n.cast_nonneg]
    calc
      (n : ℝ) ≤ 2 ^ (53 : ℤ) := by exact_mod_cast small
      _ < limit .binary64 := by
        rw [limit, zpow_lt_zpow_iff_right₀ (by norm_num)]
        decide
  have rounded : Denotes .binary64 (ofUInt64 .binary64 n.toUInt64) n := by
    rw [ofUInt64, same]
    have rounded := denotes_ofNat (F := .binary64) n
    rwa [roundTo_of_fits fits] at rounded
  exact denotes_settle (by decide) rounded bound

theorem WideIs.toUInt64 (value : WideIs a x) (nonneg : 0 ≤ x) (small : x < 2 ^ 64) :
    (a.toUInt64.toNat : ℤ) = ⌊x⌋ := by
  have floor : a.toModel.unpack.toInt 0 (UInt64.size - 1) = ⌊x⌋ := Denotes.toInt_eq value nonneg ..
  have low : 0 ≤ ⌊x⌋ := Int.floor_nonneg.2 nonneg
  have high : ⌊x⌋ < 2 ^ 64 := Int.floor_lt.2 (by exact_mod_cast small)
  have clamped : a.toUInt64 = UInt64.ofNatClamp ⌊x⌋.toNat := by
    rw [← floor]
    rfl
  rw [clamped, UInt64.toNat_ofNatClamp_of_lt (by rw [UInt64.size]; omega), Int.toNat_of_nonneg low]

end Wide

/-! ## From one width to the other -/

theorem NarrowIs.widen {a : Float32} (value : NarrowIs a x) : WideIs (widen a) x := by
  have fits : Fits .binary64 x := by
    obtain ⟨m, e, small, least, rfl⟩ := Denotes.fits value
    have : Format.binary32.minExponent = -149 := rfl
    have : Format.binary64.minExponent = -1074 := rfl
    have : |m| ≤ 2 ^ Format.binary64.mantissaBits :=
      small.trans (by norm_num [Format.mantissaBits])
    exact ⟨m, e, this, by omega, rfl⟩
  have small : |x| < limit .binary64 :=
    value.lt_limit.trans (by
      rw [limit, limit, zpow_lt_zpow_iff_right₀ (by norm_num)]
      decide)
  obtain ⟨s, unpacked, zero⟩ | ⟨s, m, e, positive, unpacked, -, same⟩ := Denotes.cases value
  · have denotes : Denotes .binary64 (.zero s) x := zero
    rw [Binary.widen, unpacked]
    exact denotes_settle (by decide) denotes small
  · have rounded := denotes_round (F := .binary64) (s := s) (e := e) positive
    rw [← roundTo_signed, ← same, roundTo_of_fits fits] at rounded
    rw [Binary.widen, unpacked]
    exact denotes_settle (by decide) rounded small

theorem WideIs.narrow {a : Float} (value : WideIs a x)
    (small : |roundTo .binary32 x| < limit .binary32) :
    NarrowIs (narrow a) (roundTo .binary32 x) := by
  obtain ⟨s, unpacked, rfl⟩ | ⟨s, m, e, positive, unpacked, -, same⟩ := Denotes.cases value
  · have denotes : Denotes .binary32 (.zero s) (roundTo .binary32 0) := roundTo_zero _
    rw [Binary.narrow, unpacked]
    exact denotes_settle (by decide) denotes small
  · have rounded := denotes_round (F := .binary32) (s := s) (e := e) positive
    rw [← roundTo_signed, ← same] at rounded
    rw [Binary.narrow, unpacked]
    exact denotes_settle (by decide) rounded small

end Pursuit.Binary
