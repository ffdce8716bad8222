import Pursuit.Binary.Trig
import Pursuit.Proofs.Binary.Values

/-! How far a rounded result is off, and what a result says of its operands. A finite sum, product
or root comes from finite operands. What comes of an operation on an infinity is at most a zero,
which adds nothing, or NaN. -/
namespace Pursuit.Binary

open Float.Model (Format UnpackedFloat)
open Float.Model.UnpackedFloat

variable {x y z : ℝ} {a b : Float32}

/-! ## Errors -/

/-- The error is half a unit in the last place of a mantissa or half the least number. -/
theorem abs_roundTo_narrow_sub_le (x : ℝ) :
    |roundTo .binary32 x - x| ≤ 1 / 2 ^ 24 * |x| + 1 / 2 ^ 150 := by
  have step := abs_roundTo_sub_le (minExponent_le_place .binary32 x) (abs_lt_of_place .binary32 x)
  have bits : (Format.binary32.mantissaBits : ℤ) = 24 := rfl
  have bottom : Format.binary32.minExponent = -149 := rfl
  obtain least | above := (minExponent_le_place .binary32 x).eq_or_lt
  · rw [← least, bottom] at step
    have half : (2 : ℝ) ^ (-149 : ℤ) / 2 = 1 / 2 ^ 150 := by norm_num
    have := abs_nonneg x
    linarith
  · have full := le_abs_of_place above
    have scale : (2 : ℝ) ^ (place .binary32 x + Format.binary32.mantissaBits - 1) =
        2 ^ place .binary32 x * 2 ^ 23 := by
      rw [bits, add_sub_assoc, two_zpow_add]
      norm_num
    rw [scale] at full
    linarith

theorem roundTo_nonpos {F : Format} (nonpos : x ≤ 0) : roundTo F x ≤ 0 := by
  have turned := roundTo_nonneg (F := F) (neg_nonneg.2 nonpos)
  rw [roundTo_neg] at turned
  linarith

theorem roundTo_narrow_le (nonneg : 0 ≤ x) :
    roundTo .binary32 x ≤ (1 + 1 / 2 ^ 24) * x + 1 / 2 ^ 150 := by
  have near := abs_le.1 (abs_roundTo_narrow_sub_le x)
  rw [abs_of_nonneg nonneg] at near
  linarith

theorem le_roundTo_narrow (nonneg : 0 ≤ x) :
    (1 - 1 / 2 ^ 24) * x - 1 / 2 ^ 150 ≤ roundTo .binary32 x := by
  have near := abs_le.1 (abs_roundTo_narrow_sub_le x)
  rw [abs_of_nonneg nonneg] at near
  linarith

theorem fits_two_pow {k : ℤ} (least : -149 ≤ k) : Fits .binary32 (2 ^ k) :=
  ⟨1, k, by decide, least, by norm_num⟩

theorem narrowIs_one : NarrowIs one 1 := by
  have value := @narrowIs_of_unpack one .positive 8388608 (-23) (by decide) rfl
  norm_num [signed] at value
  exact value

theorem narrowIs_half : NarrowIs 0.5 (1 / 2) := by
  have value := @narrowIs_of_unpack 0.5 .positive 8388608 (-24) (by decide) rfl
  norm_num [signed] at value ⊢
  exact value

theorem narrowIs_epsilon : NarrowIs epsilon (1 / 2 ^ 23) := by
  have value := @narrowIs_of_unpack epsilon .positive 8388608 (-46) (by decide) rfl
  norm_num [signed] at value ⊢
  exact value

theorem limit_binary32 : limit .binary32 = 2 ^ (128 : ℤ) := rfl

theorem lt_limit_of_le_two_zpow {k : ℤ} (bound : |x| ≤ 2 ^ k) (small : k < 128) :
    |x| < limit .binary32 := by
  rw [limit_binary32]
  exact bound.trans_lt (zpow_lt_zpow_right₀ (by norm_num) small)

theorem NarrowIs.abs_le (value : NarrowIs a x) : |x| ≤ (2 ^ 24 - 1) * 2 ^ (104 : ℤ) := by
  obtain ⟨s, unpacked, rfl⟩ | ⟨s, m, e, positive, unpacked, canonical, rfl⟩ := Denotes.cases value
  · rw [abs_zero]
    positivity
  · have room := (canonical_of_unpack (F := .binary32) (by decide) unpacked).2
    have room : e ≤ 104 := room
    have small : (m : ℝ) ≤ 2 ^ 24 - 1 := by
      have below : m + 1 ≤ 2 ^ 24 := canonical.small
      have below : (m : ℝ) + 1 ≤ 2 ^ 24 := by exact_mod_cast below
      linarith
    rw [abs_signed, abs_of_nonneg (mul_nonneg m.cast_nonneg (two_zpow_pos e).le)]
    exact mul_le_mul small (two_zpow_le room) (two_zpow_pos e).le (by norm_num)

/-- A small number can be added to any without overflow. -/
theorem NarrowIs.add_small (first : NarrowIs a x) (second : NarrowIs b y)
    (small : |y| ≤ 2 ^ (100 : ℤ)) : NarrowIs (a + b) (roundTo .binary32 (x + y)) := by
  refine first.add second ?_
  have sum : |x + y| ≤ (2 ^ 24 - 1) * 2 ^ (104 : ℤ) + 2 ^ (100 : ℤ) :=
    (abs_add_le x y).trans (add_le_add first.abs_le small)
  have error := abs_roundTo_sub_le (F := .binary32) (k := 104) (by decide) (x := x + y)
    (sum.trans_lt (by norm_num [Format.mantissaBits]))
  calc
    |roundTo .binary32 (x + y)| = |(roundTo .binary32 (x + y) - (x + y)) + (x + y)| := by
      rw [sub_add_cancel]
    _ ≤ 2 ^ (104 : ℤ) / 2 + ((2 ^ 24 - 1) * 2 ^ (104 : ℤ) + 2 ^ (100 : ℤ)) :=
      (abs_add_le _ _).trans (add_le_add error sum)
    _ < limit .binary32 := by
      rw [limit_binary32]
      norm_num

/-! ## Operands of finite results -/

theorem Denotes.unique {F : Format} {u : UnpackedFloat} (first : Denotes F u x)
    (second : Denotes F u y) : x = y := by
  cases u with
  | notANumber | infinity => exact first.elim
  | zero => exact Eq.trans first (Eq.symm second)
  | finite => exact first.2.trans second.2.symm

theorem Denotes.of_settle {F : Format} {u : UnpackedFloat} (wide : 2 ≤ F.exponentBits)
    (denotes : Denotes F u x) (finite : Denotes F (settle F u) z) : z = x := by
  obtain small | large := lt_or_ge |x| (limit F)
  · exact finite.unique (denotes_settle wide denotes small)
  · obtain ⟨s, infinite, -⟩ := settle_of_large denotes large
    rw [infinite] at finite
    exact finite.elim

def Endless : UnpackedFloat → Prop
  | .notANumber | .infinity _ => True
  | .zero _ | .finite .. => False

theorem narrow_endless_or (a : Float32) : Endless a.toModel.unpack ∨ ∃ x, NarrowIs a x := by
  obtain nan | ⟨s, infinite⟩ | value := narrow_cases a
  · rw [nan]
    exact .inl trivial
  · rw [infinite]
    exact .inl trivial
  · exact .inr value

section Endless

variable {F : Format} {u v : UnpackedFloat}

theorem Endless.add (endless : Endless u ∨ Endless v) : Endless (u.add F v) := by
  cases u with
  | notANumber => trivial
  | infinity s =>
    cases v with
    | infinity s' =>
      rw [UnpackedFloat.add]
      split
      · trivial
      · trivial
    | notANumber | zero | finite => trivial
  | zero | finite =>
    cases v with
    | notANumber | infinity => trivial
    | zero | finite => exact (or_self_iff.1 endless).elim

theorem Endless.mul (endless : Endless u ∨ Endless v) : Endless (u.mul F v) := by
  cases u <;> cases v <;> simp only [Endless, or_self, or_true, true_or] at endless <;>
    simp only [UnpackedFloat.mul, Endless]

theorem Endless.neg (endless : Endless u) : Endless u.neg := by
  cases u <;> simp_all only [Endless, UnpackedFloat.neg]

theorem Endless.sqrt (endless : Endless u) : Endless (u.sqrt F) := by
  cases u with
  | notANumber => trivial
  | infinity s => cases s <;> trivial
  | zero | finite => exact endless.elim

theorem settle_notANumber : settle F .notANumber = .notANumber := unpack_packedNaN

theorem Endless.settle (endless : Endless u) : ¬ Denotes F (settle F u) x := by
  cases u with
  | notANumber =>
    rw [settle_notANumber]
    exact id
  | infinity s =>
    rw [settle_infinity]
    exact id
  | zero | finite => exact endless.elim

end Endless

theorem NarrowIs.of_add (finite : NarrowIs (a + b) z) :
    ∃ x y, NarrowIs a x ∧ NarrowIs b y ∧ z = roundTo .binary32 (x + y) := by
  obtain endless | ⟨x, first⟩ := narrow_endless_or a
  · exact absurd finite (Endless.add (.inl endless)).settle
  obtain endless | ⟨y, second⟩ := narrow_endless_or b
  · exact absurd finite (Endless.add (.inr endless)).settle
  exact ⟨x, y, first, second, (Denotes.add first second).of_settle (by decide) finite⟩

theorem NarrowIs.of_sub (finite : NarrowIs (a - b) z) :
    ∃ x y, NarrowIs a x ∧ NarrowIs b y ∧ z = roundTo .binary32 (x - y) := by
  have settled : Denotes .binary32
      (settle .binary32 (a.toModel.unpack.sub .binary32 b.toModel.unpack)) z :=
    finite
  obtain endless | ⟨x, first⟩ := narrow_endless_or a
  · rw [sub_eq_add] at settled
    exact absurd settled (Endless.add (.inl endless)).settle
  obtain endless | ⟨y, second⟩ := narrow_endless_or b
  · rw [sub_eq_add] at settled
    exact absurd settled (Endless.add (.inr endless.neg)).settle
  exact ⟨x, y, first, second, (Denotes.sub first second).of_settle (by decide) finite⟩

theorem NarrowIs.of_mul (finite : NarrowIs (a * b) z) :
    ∃ x y, NarrowIs a x ∧ NarrowIs b y ∧ z = roundTo .binary32 (x * y) := by
  obtain endless | ⟨x, first⟩ := narrow_endless_or a
  · exact absurd finite (Endless.mul (.inl endless)).settle
  obtain endless | ⟨y, second⟩ := narrow_endless_or b
  · exact absurd finite (Endless.mul (.inr endless)).settle
  exact ⟨x, y, first, second, (Denotes.mul first second).of_settle (by decide) finite⟩

theorem NarrowIs.of_sqrt (finite : NarrowIs a.sqrt z) (nonneg : ∀ x, NarrowIs a x → 0 ≤ x) :
    ∃ x, NarrowIs a x ∧ z = roundTo .binary32 √x := by
  obtain endless | ⟨x, value⟩ := narrow_endless_or a
  · exact absurd finite endless.sqrt.settle
  exact ⟨x, value, (Denotes.sqrt value (nonneg x value)).of_settle (by decide) finite⟩

/-! ## Quotients -/

theorem Denotes.div {F : Format} {u v : UnpackedFloat} (first : Denotes F u x)
    (second : Denotes F v y) (nonzero : y ≠ 0) : Denotes F (u.div F v) (roundTo F (x / y)) := by
  cases v with
  | notANumber | infinity => exact second.elim
  | zero => exact absurd second nonzero
  | finite s' m' e' positive' =>
    cases u with
    | notANumber | infinity => exact first.elim
    | zero s =>
      obtain rfl : x = 0 := first
      rw [zero_div, roundTo_zero]
      rfl
    | finite s m e positive =>
      obtain ⟨-, rfl⟩ := first
      obtain ⟨-, rfl⟩ := second
      have quotient : signed s (m * 2 ^ e) / signed s' (m' * 2 ^ e') =
          signed (s / s') ((m * 2 ^ e) / (m' * 2 ^ e')) := by
        cases s with
        | positive => cases s' with
          | positive => rfl
          | negative => exact div_neg _
        | negative => cases s' with
          | positive => exact neg_div ..
          | negative => exact neg_div_neg_eq ..
      rw [quotient, roundTo_signed]
      exact denotes_divCore _ positive positive'

theorem NarrowIs.div (first : NarrowIs a x) (second : NarrowIs b y) (nonzero : y ≠ 0)
    (small : |roundTo .binary32 (x / y)| < limit .binary32) :
    NarrowIs (a / b) (roundTo .binary32 (x / y)) :=
  denotes_settle (by decide) (Denotes.div first second nonzero) small

/-! ## Zero or NaN -/

/-- A zero or NaN: what is added to a number without making another of it. -/
def Idle (a : Float32) : Prop := a.isNaN ∨ NarrowIs a 0

def Blank : UnpackedFloat → Prop
  | .notANumber | .zero _ => True
  | .infinity _ | .finite .. => False

section Idle

variable {F : Format} {u v : UnpackedFloat}

theorem idle_iff : Idle a ↔ Blank a.toModel.unpack := by
  rw [Idle, narrow_isNaN_iff, NarrowIs]
  cases unpacked : a.toModel.unpack with
  | notANumber => exact iff_of_true (.inl rfl) trivial
  | zero s => exact iff_of_true (.inr rfl) trivial
  | infinity s =>
    refine iff_of_false ?_ id
    rintro (nan | value)
    · cases nan
    · exact value
  | finite s m e positive =>
    refine iff_of_false ?_ id
    rintro (nan | ⟨-, zero⟩)
    · cases nan
    · have large : (0 : ℝ) < m * 2 ^ e := mul_pos (by exact_mod_cast positive) (two_zpow_pos e)
      have size : |signed s (m * 2 ^ e)| = 0 := by rw [← zero, abs_zero]
      rw [abs_signed, abs_of_pos large] at size
      exact large.ne' size

theorem Blank.settle (blank : Blank u) : Blank (settle F u) := by
  cases u with
  | notANumber =>
    rw [settle_notANumber]
    trivial
  | zero s =>
    have same : Binary.settle F (.zero s) = .zero s := unpack_packedZero
    rw [same]
    trivial
  | infinity | finite => exact blank.elim

theorem Blank.mul (blank : Blank u ∨ Blank v) : Blank (u.mul F v) := by
  cases u <;> cases v <;> simp only [Blank, or_self, or_true, true_or] at blank <;>
    simp only [UnpackedFloat.mul, Blank]

theorem Idle.mul_right (idle : Idle a) (b : Float32) : Idle (a * b) :=
  idle_iff.2 (Blank.mul (.inl (idle_iff.1 idle))).settle

theorem Idle.mul_left (idle : Idle b) (a : Float32) : Idle (a * b) :=
  idle_iff.2 (Blank.mul (.inr (idle_iff.1 idle))).settle

theorem idle_div (a : Float32) (endless : Endless b.toModel.unpack) : Idle (a / b) := by
  refine idle_iff.2 (Blank.settle (F := .binary32)
    (u := a.toModel.unpack.div .binary32 b.toModel.unpack) ?_)
  generalize a.toModel.unpack = u
  generalize b.toModel.unpack = v at endless
  cases u <;> cases v <;> first | exact endless.elim | trivial

theorem isNaN_add (nan : a.isNaN) (b : Float32) : (a + b).isNaN := by
  rw [narrow_isNaN_iff] at nan ⊢
  have settled : (a + b).toModel.unpack =
      settle .binary32 (a.toModel.unpack.add .binary32 b.toModel.unpack) := rfl
  rw [settled, nan]
  exact settle_notANumber

theorem NarrowIs.isNaN_eq_false (value : NarrowIs a x) : a.isNaN = false := by
  rw [Bool.eq_false_iff, ne_eq, narrow_isNaN_iff]
  intro nan
  rw [NarrowIs, nan] at value
  exact value

theorem NarrowIs.add_idle (value : NarrowIs a x) (idle : Idle b) :
    (a + b).isNaN ∨ NarrowIs (a + b) x := by
  obtain nan | zero := idle
  · left
    rw [narrow_isNaN_iff] at nan ⊢
    have kept : a.toModel.unpack.add .binary32 .notANumber = .notANumber := by
      cases a.toModel.unpack <;> rfl
    change settle .binary32 (a.toModel.unpack.add .binary32 b.toModel.unpack) = .notANumber
    rw [nan, kept, settle_notANumber]
  · right
    have total := value.add zero (by rw [add_zero, Denotes.roundTo_eq value]; exact value.lt_limit)
    rwa [add_zero, Denotes.roundTo_eq value] at total

end Idle

/-! ## Sizes without bound -/

theorem cases_of_not_lt_zero (ahead : ¬ a < .ofBits 0) :
    a.toModel.unpack = .notANumber ∨ a.toModel.unpack = .infinity .positive ∨
      ∃ x, NarrowIs a x ∧ 0 ≤ x := by
  obtain nan | ⟨s, infinite⟩ | ⟨x, value⟩ := narrow_cases a
  · exact .inl nan
  · cases s with
    | positive => exact .inr (.inl infinite)
    | negative => exact absurd (lt_of_negative_infinity infinite narrowIs_zero) ahead
  · exact .inr
      (.inr ⟨x, value, not_lt.1 fun below => ahead ((narrow_lt_iff value narrowIs_zero).2 below)⟩)

theorem narrow_le_of_lt (less : a < b) : a ≤ b := by
  rw [lt_iff] at less
  rw [le_iff, less]
  rfl

theorem not_lt_of_notANumber (nan : a.toModel.unpack = .notANumber) : ¬ a < b := by
  rw [lt_iff, nan]
  nofun

theorem not_mul_lt_zero (first : NarrowIs a x) (nonneg : 0 ≤ x) (ahead : ¬ b < .ofBits 0) :
    ¬ a * b < .ofBits 0 := by
  have settled : (a * b).toModel.unpack =
      settle .binary32 (a.toModel.unpack.mul .binary32 b.toModel.unpack) := rfl
  have zero : (Float32.ofBits 0).toModel.unpack = .zero .positive := rfl
  obtain nan | infinite | ⟨y, second, nonneg'⟩ := cases_of_not_lt_zero ahead
  · have kept : a.toModel.unpack.mul .binary32 .notANumber = .notANumber := by
      cases a.toModel.unpack <;> rfl
    rw [nan, kept, settle_notANumber] at settled
    exact not_lt_of_notANumber settled
  · obtain ⟨s, unpacked, -⟩ | ⟨s, m, e, positive, unpacked, -, same⟩ := Denotes.cases first
    · have nan : (UnpackedFloat.zero s).mul .binary32 (.infinity .positive) = .notANumber := rfl
      rw [unpacked, infinite, nan, settle_notANumber] at settled
      exact not_lt_of_notANumber settled
    · have large : (0 : ℝ) < m * 2 ^ e := mul_pos (by exact_mod_cast positive) (two_zpow_pos e)
      cases s with
      | negative =>
        rw [same, signed] at nonneg
        linarith
      | positive =>
        have kept : (UnpackedFloat.finite .positive m e positive).mul .binary32
          (.infinity .positive) =
            .infinity .positive := rfl
        rw [unpacked, infinite, kept, settle_infinity] at settled
        rw [lt_iff, settled, zero]
        intro below
        cases below
  · have product := Denotes.mul first second
    have product_nonneg := roundTo_nonneg (F := .binary32) (mul_nonneg nonneg nonneg')
    obtain small | large := lt_or_ge |roundTo .binary32 (x * y)| (limit .binary32)
    · rw [narrow_lt_iff (first.mul second small) narrowIs_zero]
      exact product_nonneg.not_gt
    · obtain ⟨s, infinite, sign⟩ := settle_of_large product large
      cases s with
      | negative =>
        have positive := (limit_pos .binary32).trans_le large
        rw [signed] at sign
        linarith
      | positive =>
        rw [infinite] at settled
        rw [lt_iff, settled, zero]
        intro below
        cases below

theorem least_is (ahead : ¬ a < .ofBits 0) (value : NarrowIs b y) (nonneg : 0 ≤ y) :
    ∃ t, NarrowIs (least a b) t ∧ 0 ≤ t ∧ t ≤ y := by
  rw [least]
  split
  · exact ⟨y, value, nonneg, le_rfl⟩
  next number =>
    split
    · exact ⟨y, value, nonneg, le_rfl⟩
    next below =>
      obtain nan | infinite | ⟨x, value', nonneg'⟩ := cases_of_not_lt_zero ahead
      · exact absurd (narrow_isNaN_iff.2 nan) number
      · exact absurd (lt_of_infinity infinite value) below
      · exact ⟨x, value', nonneg', not_lt.1 fun above =>
          below ((narrow_lt_iff value value').2 above)⟩

theorem not_le_of_infinity (infinite : a.toModel.unpack = .infinity .positive)
    (value : NarrowIs b y) :
    ¬ a ≤ b := by
  obtain ⟨s, unpacked, -⟩ | ⟨s, m, e, positive, unpacked, -⟩ := Denotes.cases value <;>
  · rw [le_iff, infinite, unpacked]
    cases s <;> exact nofun

theorem not_le_of_negative_infinity (infinite : a.toModel.unpack = .infinity .negative)
    (value : NarrowIs b y) : ¬ b ≤ a := by
  obtain ⟨s, unpacked, -⟩ | ⟨s, m, e, positive, unpacked, -⟩ := Denotes.cases value <;>
  · rw [le_iff, infinite, unpacked]
    cases s <;> exact nofun

theorem not_le_of_lt_narrow (value : NarrowIs b y) (above : b < a) : ¬ a ≤ b := by
  obtain nan | ⟨s, infinite⟩ | ⟨x, value'⟩ := narrow_cases a
  · rw [le_iff, nan]
    exact nofun
  · cases s with
    | positive => exact not_le_of_infinity infinite value
    | negative => exact absurd (narrow_le_of_lt above) (not_le_of_negative_infinity infinite value)
  · rw [narrow_lt_iff value value'] at above
    exact fun below => above.not_ge ((narrow_le_iff value' value).1 below)

theorem least_of_le (value : NarrowIs b y) (reach : b ≤ a) : NarrowIs (least a b) y := by
  rw [least]
  split
  · exact value
  next number =>
    split
    · exact value
    next below =>
      obtain nan | ⟨s, infinite⟩ | ⟨x, value'⟩ := narrow_cases a
      · exact absurd (narrow_isNaN_iff.2 nan) number
      · cases s with
        | positive => exact absurd (lt_of_infinity infinite value) below
        | negative => exact absurd reach (not_le_of_negative_infinity infinite value)
      · have same : x = y :=
          le_antisymm (not_lt.1 fun above => below ((narrow_lt_iff value value').2 above))
          ((narrow_le_iff value value').1 reach)
        exact same ▸ value'

theorem not_sqrt_lt_zero (a : Float32) : ¬ a.sqrt < .ofBits 0 := by
  have settled : a.sqrt.toModel.unpack = settle .binary32 (a.toModel.unpack.sqrt .binary32) := rfl
  obtain nan | ⟨s, infinite⟩ | ⟨x, value⟩ := narrow_cases a
  · rw [nan] at settled
    exact not_lt_of_notANumber (settled.trans settle_notANumber)
  · rw [infinite] at settled
    cases s with
    | negative => exact not_lt_of_notANumber (settled.trans settle_notANumber)
    | positive =>
      rw [lt_iff, settled.trans (settle_infinity .positive)]
      exact nofun
  · obtain ⟨s, unpacked, -⟩ | ⟨s, m, e, positive, unpacked, -, same⟩ := Denotes.cases value
    · have zero : (UnpackedFloat.zero s).sqrt .binary32 = .zero s := rfl
      have blank : (settle .binary32 (.zero s)) = .zero s := unpack_packedZero
      rw [lt_iff, settled, unpacked, zero, blank]
      cases s <;> exact nofun
    · cases s with
      | negative =>
        have nan : (UnpackedFloat.finite .negative m e positive).sqrt .binary32 = .notANumber := rfl
        rw [unpacked, nan, settle_notANumber] at settled
        exact not_lt_of_notANumber settled
      | positive =>
        have nonneg : 0 ≤ x := by
          rw [same, signed]
          positivity
        have top : Fits .binary32 (2 ^ (64 : ℤ)) := fits_two_pow (by decide)
        have root : |roundTo .binary32 √x| ≤ 2 ^ (64 : ℤ) := by
          refine abs_roundTo_le top ?_
          rw [abs_of_nonneg (Real.sqrt_nonneg x), Real.sqrt_le_left (two_zpow_pos _).le]
          have below := (le_abs_self x).trans value.lt_limit.le
          rw [limit_binary32] at below
          exact below.trans (by norm_num)
        rw [narrow_lt_iff (value.sqrt nonneg (lt_limit_of_le_two_zpow root (by decide)))
          narrowIs_zero]
        exact (roundTo_nonneg (Real.sqrt_nonneg x)).not_gt

theorem not_le_of_endless (endless : Endless a.toModel.unpack) (ahead : ¬ a < .ofBits 0)
    (value : NarrowIs b y) : ¬ a ≤ b := by
  obtain nan | infinite | ⟨x, value', -⟩ := cases_of_not_lt_zero ahead
  · rw [le_iff, nan]
    exact nofun
  · exact not_le_of_infinity infinite value
  · obtain ⟨s, unpacked, -⟩ | ⟨s, m, e, positive, unpacked, -⟩ := Denotes.cases value' <;>
    · rw [unpacked] at endless
      exact endless.elim

end Pursuit.Binary
