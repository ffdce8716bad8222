import Pursuit.Proofs.Binary.Values

/-! Wide floats that measure an amount: a number that is not negative, or infinity. They compare as
what they measure, and adding to one of them neither makes NaN nor lowers it, even if the sum
overflows. -/
namespace Pursuit.Binary

open Float.Model (Format UnpackedFloat)
open Float.Model.UnpackedFloat

variable {a b : Float} {x : ℝ} {v w : WithTop ℝ}

inductive Measures (a : Float) : WithTop ℝ → Prop
  | endless (infinite : a.toModel.unpack = .infinity .positive) : Measures a ⊤
  | number {x : ℝ} (value : WideIs a x) (nonneg : 0 ≤ x) : Measures a x

/-! ## Comparing -/

theorem wide_lt_iff (a b : Float) :
    a < b ↔ a.toModel.unpack.compare b.toModel.unpack = some .lt := by
  change decide (Float.Model.lt a.toModel b.toModel) = true ↔ _
  simp [Float.Model.lt, UnpackedFloat.lt]

theorem wide_le_iff (a b : Float) :
    a ≤ b ↔ (a.toModel.unpack.compare b.toModel.unpack).any (·.isLE) := by
  change decide (Float.Model.le a.toModel b.toModel) = true ↔ _
  rw [decide_eq_true_iff]
  rfl

theorem WideIs.lt_iff {y : ℝ} (first : WideIs a x) (second : WideIs b y) : a < b ↔ x < y := by
  rw [wide_lt_iff, compare_of_denotes first second, Option.some_inj, cmp_eq_lt_iff]

theorem WideIs.le_iff {y : ℝ} (first : WideIs a x) (second : WideIs b y) : a ≤ b ↔ x ≤ y := by
  rw [wide_le_iff, compare_of_denotes first second, Option.any_some,
    Ordering.isLE_iff_ne_gt, ← not_lt, ← cmp_eq_gt_iff]

theorem Denotes.compare_infinity {F : Format} {u : UnpackedFloat} (denotes : Denotes F u x) :
    u.compare (.infinity .positive) = some .lt ∧
      (UnpackedFloat.infinity .positive).compare u = some .gt := by
  obtain ⟨s, rfl, -⟩ | ⟨s, m, e, positive, rfl, -⟩ := denotes.cases
  · cases s <;> exact ⟨rfl, rfl⟩
  · cases s <;> exact ⟨rfl, rfl⟩

theorem Measures.compare_eq (first : Measures a v) (second : Measures b w) :
    a.toModel.unpack.compare b.toModel.unpack = some (cmp v w) := by
  cases first with
  | endless infinite =>
    cases second with
    | endless infinite' =>
      rw [infinite, infinite', cmp_self_eq_eq]
      rfl
    | @number y value' nonneg' =>
      rw [infinite, (Denotes.compare_infinity value').2,
        (cmp_eq_gt_iff _ _).2 (WithTop.coe_lt_top y)]
  | @number x value nonneg =>
    cases second with
    | endless infinite' =>
      rw [infinite', (Denotes.compare_infinity value).1,
        (cmp_eq_lt_iff _ _).2 (WithTop.coe_lt_top x)]
    | @number y value' nonneg' =>
      rw [compare_of_denotes value value']
      simp [cmp, cmpUsing]

theorem Measures.lt_iff (first : Measures a v) (second : Measures b w) : a < b ↔ v < w := by
  rw [wide_lt_iff, first.compare_eq second, Option.some_inj, cmp_eq_lt_iff]

theorem Measures.le_iff (first : Measures a v) (second : Measures b w) : a ≤ b ↔ v ≤ w := by
  rw [wide_le_iff, first.compare_eq second, Option.any_some, Ordering.isLE_iff_ne_gt, ← not_lt,
    ← cmp_eq_gt_iff]

theorem measures_zero : Measures 0.0 0 := .number (rfl : (0 : ℝ) = 0) le_rfl

theorem Measures.not_lt_zero (amount : Measures a v) : ¬ a < 0.0 := by
  rw [amount.lt_iff measures_zero, not_lt]
  cases amount with
  | endless => exact le_top
  | number value nonneg => exact_mod_cast nonneg

theorem Measures.isNaN_eq_false (amount : Measures a v) : a.isNaN = false := by
  cases amount with
  | endless infinite =>
    change a.toModel.unpack.isNaN = false
    rw [infinite]
    rfl
  | number value nonneg =>
    change a.toModel.unpack.isNaN = false
    obtain ⟨s, unpacked, -⟩ | ⟨s, m, e, positive, unpacked, -⟩ := Denotes.cases value <;>
    · rw [unpacked]
      rfl

/-! ## Finite amounts -/

theorem wide_cases (a : Float) :
    a.toModel.unpack = .notANumber ∨ (∃ s, a.toModel.unpack = .infinity s) ∨ ∃ x, WideIs a x :=
  unpack_cases (F := .binary64) (by decide) a.toModel.toBits.toBitVec

theorem wideIs_zero : WideIs 0.0 0 := (rfl : (0 : ℝ) = 0)

theorem wideIs_of_isFinite (finite : a.isFinite) : ∃ x, WideIs a x := by
  change a.toModel.unpack.isFinite = true at finite
  obtain nan | ⟨s, infinite⟩ | value := wide_cases a
  · rw [nan] at finite
    cases finite
  · rw [infinite] at finite
    cases finite
  · exact value

theorem measures_of_isFinite (finite : a.isFinite) (ahead : ¬ a < 0.0) : ∃ x : ℝ, Measures a x := by
  obtain ⟨x, value⟩ := wideIs_of_isFinite finite
  exact ⟨x, .number value (not_lt.1 fun below => ahead ((value.lt_iff wideIs_zero).2 below))⟩

/-! ## Sums -/

theorem Measures.add (first : Measures a v) (second : Measures b w) :
    ∃ u, Measures (a + b) u ∧ v ≤ u := by
  have settled : (a + b).toModel.unpack =
      settle .binary64 (a.toModel.unpack.add .binary64 b.toModel.unpack) := rfl
  have overflow (kept : a.toModel.unpack.add .binary64 b.toModel.unpack = .infinity .positive) :
      Measures (a + b) ⊤ := by
    rw [kept, settle_infinity] at settled
    exact .endless settled
  cases first with
  | endless infinite =>
    refine ⟨⊤, overflow ?_, le_rfl⟩
    cases second with
    | endless infinite' =>
      rw [infinite, infinite']
      rfl
    | number value nonneg =>
      obtain ⟨s, unpacked, -⟩ | ⟨s, m, e, positive, unpacked, -⟩ := Denotes.cases value <;>
      · rw [infinite, unpacked]
        rfl
  | @number x value nonneg =>
    cases second with
    | endless infinite' =>
      refine ⟨⊤, overflow ?_, le_top⟩
      obtain ⟨s, unpacked, -⟩ | ⟨s, m, e, positive, unpacked, -⟩ := Denotes.cases value <;>
      · rw [unpacked, infinite']
        rfl
    | @number y value' nonneg' =>
      -- The first summand is a number of the format below the exact sum, so rounding does not pass
      -- it.
      have total := Denotes.add value value'
      have least : x ≤ roundTo .binary64 (x + y) :=
        le_roundTo (Denotes.fits value) (le_add_of_nonneg_right nonneg')
      obtain small | large := lt_or_ge |roundTo .binary64 (x + y)| (limit .binary64)
      · exact ⟨_, .number (value.add value' small) (nonneg.trans least), by exact_mod_cast least⟩
      · obtain ⟨s, infinite, sign⟩ := settle_of_large total large
        cases s with
        | negative =>
          have positive := (limit_pos .binary64).trans_le large
          rw [signed] at sign
          linarith
        | positive =>
          rw [infinite] at settled
          exact ⟨⊤, .endless settled, le_top⟩

end Pursuit.Binary
