import Pursuit.Proofs.Binary.Ranks

/-! What comes of floats that are no numbers. NaN stays NaN and compares with nothing; infinities
and NaN stay without end in sums, products and roots, and a quotient of two of them is NaN. A length
is NaN only where a coordinate is. -/
namespace Pursuit.Binary

open Float.Model (Format UnpackedFloat)
open Float.Model.UnpackedFloat

variable {F : Format} {u v : UnpackedFloat} {a b c : Float32} {y : ℝ}

/-! ## Results without end -/

theorem Endless.endless_settle (endless : Endless u) : Endless (Binary.settle F u) := by
  cases u with
  | notANumber =>
    rw [settle_notANumber]
    trivial
  | infinity s =>
    rw [settle_infinity]
    trivial
  | zero | finite => exact endless.elim

theorem not_isFinite_iff : ¬ a.isFinite ↔ Endless a.toModel.unpack := by
  change ¬ a.toModel.unpack.isFinite = true ↔ _
  cases a.toModel.unpack <;> simp [UnpackedFloat.isFinite, Endless]

theorem endless_add (endless : Endless a.toModel.unpack ∨ Endless b.toModel.unpack) :
    Endless (a + b).toModel.unpack := (Endless.add endless).endless_settle (F := .binary32)

theorem endless_mul (endless : Endless a.toModel.unpack ∨ Endless b.toModel.unpack) :
    Endless (a * b).toModel.unpack := (Endless.mul endless).endless_settle (F := .binary32)

theorem endless_sqrt (endless : Endless a.toModel.unpack) : Endless a.sqrt.toModel.unpack :=
  endless.sqrt.endless_settle (F := .binary32)

theorem endless_sub (endless : Endless a.toModel.unpack ∨ Endless b.toModel.unpack) :
    Endless (a - b).toModel.unpack := by
  change Endless (settle .binary32 (a.toModel.unpack.sub .binary32 b.toModel.unpack))
  rw [sub_eq_add]
  exact (Endless.add (endless.imp_right .neg)).endless_settle

theorem not_narrowIs (endless : Endless a.toModel.unpack) : ¬ NarrowIs a y := by
  rw [NarrowIs]
  cases unpacked : a.toModel.unpack with
  | notANumber | infinity => exact id
  | zero | finite =>
    rw [unpacked] at endless
    exact endless.elim

/-! ## NaN -/

theorem isNaN_of_settle (settled : a.toModel.unpack = settle F u) (nan : u = .notANumber) :
    a.isNaN := by
  rw [narrow_isNaN_iff, settled, nan, settle_notANumber]

theorem isNaN_add_right (a : Float32) (nan : b.isNaN) : (a + b).isNaN := by
  refine isNaN_of_settle (F := .binary32) rfl ?_
  rw [narrow_isNaN_iff.1 nan]
  cases a.toModel.unpack <;> rfl

theorem isNaN_sub (nan : a.isNaN ∨ b.isNaN) : (a - b).isNaN := by
  refine isNaN_of_settle (F := .binary32)
    (u := a.toModel.unpack.sub .binary32 b.toModel.unpack) rfl ?_
  rw [sub_eq_add]
  obtain nan | nan := nan <;> rw [narrow_isNaN_iff.1 nan]
  · rfl
  · cases a.toModel.unpack <;> rfl

theorem sub_isNaN (number : a.isNaN = false) (second : NarrowIs b y) : (a - b).isNaN = false := by
  have turned : a - b = a + -b := by
    refine narrow_eq_of_unpack_eq ?_
    change settle .binary32 (a.toModel.unpack.sub .binary32 b.toModel.unpack) =
      settle .binary32 (a.toModel.unpack.add .binary32 (-b).toModel.unpack)
    rw [sub_eq_add, unpack_neg]
  rw [turned]
  exact add_isNaN number second.neg

theorem isNaN_mul (nan : a.isNaN ∨ b.isNaN) : (a * b).isNaN := by
  refine isNaN_of_settle (F := .binary32) rfl ?_
  obtain nan | nan := nan <;> rw [narrow_isNaN_iff.1 nan]
  · rfl
  · cases a.toModel.unpack <;> rfl

theorem isNaN_sqrt (nan : a.isNaN) : a.sqrt.isNaN := by
  refine isNaN_of_settle (F := .binary32) rfl ?_
  rw [narrow_isNaN_iff.1 nan]
  rfl

theorem isNaN_div (first : Endless a.toModel.unpack) (second : Endless b.toModel.unpack) :
    (a / b).isNaN := by
  refine isNaN_of_settle (F := .binary32)
    (u := a.toModel.unpack.div .binary32 b.toModel.unpack) rfl ?_
  generalize a.toModel.unpack = u at first
  generalize b.toModel.unpack = v at second
  cases u <;> cases v <;> first | rfl | exact first.elim | exact second.elim

theorem eq_of_isNaN (nan : a.isNaN) : a = .ofBits 0x7fc00000 :=
  narrow_eq_of_unpack_eq ((narrow_isNaN_iff.1 nan).trans rfl)

theorem not_lt_of_isNaN (nan : a.isNaN ∨ b.isNaN) : ¬ a < b := by
  rw [lt_iff]
  obtain nan | nan := nan <;> rw [narrow_isNaN_iff.1 nan]
  · exact nofun
  · cases a.toModel.unpack <;> exact nofun

theorem not_le_of_isNaN (nan : a.isNaN ∨ b.isNaN) : ¬ a ≤ b := by
  rw [le_iff]
  obtain nan | nan := nan <;> rw [narrow_isNaN_iff.1 nan]
  · exact nofun
  · cases a.toModel.unpack <;> exact nofun

theorem not_lt_iff_le (first : ¬ a.isNaN) (second : ¬ b.isNaN) : ¬ b < a ↔ a ≤ b := by
  refine ⟨fun above => ?_, not_lt_of_le⟩
  rw [narrow_isNaN_iff] at first second
  obtain nan | ⟨s, infinite⟩ | ⟨x, value⟩ := narrow_cases a
  · exact absurd nan first
  · obtain nan | ⟨t, infinite'⟩ | ⟨y, value'⟩ := narrow_cases b
    · exact absurd nan second
    · rw [lt_iff, infinite, infinite'] at above
      rw [le_iff, infinite, infinite']
      revert above
      cases s <;> cases t <;> decide
    · cases s with
      | positive => exact absurd (lt_of_infinity infinite value') above
      | negative => exact narrow_le_of_lt (lt_of_negative_infinity infinite value')
  · obtain nan | ⟨t, infinite'⟩ | ⟨y, value'⟩ := narrow_cases b
    · exact absurd nan second
    · cases t with
      | positive => exact narrow_le_of_lt (lt_of_infinity infinite' value)
      | negative => exact absurd (lt_of_negative_infinity infinite' value) above
    · rw [narrow_lt_iff value' value, not_lt] at above
      exact (narrow_le_iff value value').2 above

theorem hold_of_isNaN (lo hi : Float32) (nan : a.isNaN) : hold lo hi a = a := by
  rw [hold, if_neg (not_lt_of_isNaN (.inl nan)), if_neg (not_lt_of_isNaN (.inr nan))]

/-! ## Extents -/

def IsExtent (a : Float32) : Prop :=
  a.toModel.unpack = .infinity .positive ∨ ∃ x, NarrowIs a x ∧ 0 ≤ x

theorem IsExtent.not_isNaN (extent : IsExtent a) : ¬ a.isNaN := by
  rw [narrow_isNaN_iff]
  obtain infinite | ⟨x, value, -⟩ := extent
  · rw [infinite]
    exact nofun
  · intro nan
    rw [NarrowIs, nan] at value
    exact value

theorem IsExtent.not_lt_zero (extent : IsExtent a) : ¬ a < .ofBits 0 := by
  obtain infinite | ⟨x, value, nonneg⟩ := extent
  · rw [lt_iff, infinite]
    exact nofun
  · rw [narrow_lt_iff value narrowIs_zero]
    exact nonneg.not_gt

theorem isExtent_of_settle {x : ℝ} (settled : a.toModel.unpack = settle .binary32 u)
    (denotes : Denotes .binary32 u x) (nonneg : 0 ≤ x) : IsExtent a := by
  obtain small | large := lt_or_ge |x| (limit .binary32)
  · refine .inr ⟨x, ?_, nonneg⟩
    rw [NarrowIs, settled]
    exact denotes_settle (by decide) denotes small
  · obtain ⟨s, infinite, sign⟩ := settle_of_large denotes large
    cases s with
    | positive => exact .inl (settled.trans infinite)
    | negative =>
      have positive := (limit_pos .binary32).trans_le large
      rw [signed] at sign
      linarith

theorem isExtent_mul_self (number : ¬ a.isNaN) : IsExtent (a * a) := by
  obtain nan | ⟨s, infinite⟩ | ⟨x, value⟩ := narrow_cases a
  · exact absurd (narrow_isNaN_iff.2 nan) number
  · left
    change settle .binary32 (a.toModel.unpack.mul .binary32 a.toModel.unpack) = _
    rw [infinite]
    cases s <;> exact settle_infinity .positive
  · exact isExtent_of_settle rfl (Denotes.mul value value) (roundTo_nonneg (mul_self_nonneg x))

theorem IsExtent.add (first : IsExtent a) (second : IsExtent b) : IsExtent (a + b) := by
  have settled : (a + b).toModel.unpack =
      settle .binary32 (a.toModel.unpack.add .binary32 b.toModel.unpack) := rfl
  obtain infinite | ⟨x, value, nonneg⟩ := first
  · left
    rw [settled, infinite]
    obtain infinite' | ⟨y, value', -⟩ := second
    · rw [infinite']
      exact settle_infinity .positive
    · obtain ⟨t, unpacked, -⟩ | ⟨t, m, e, positive, unpacked, -⟩ := Denotes.cases value' <;>
      · rw [unpacked]
        exact settle_infinity .positive
  · obtain infinite' | ⟨y, value', nonneg'⟩ := second
    · left
      rw [settled, infinite']
      obtain ⟨t, unpacked, -⟩ | ⟨t, m, e, positive, unpacked, -⟩ := Denotes.cases value <;>
      · rw [unpacked]
        exact settle_infinity .positive
    · exact isExtent_of_settle settled (Denotes.add value value')
        (roundTo_nonneg (add_nonneg nonneg nonneg'))

theorem IsExtent.sqrt (extent : IsExtent a) : IsExtent a.sqrt := by
  obtain infinite | ⟨x, value, nonneg⟩ := extent
  · left
    change settle .binary32 (a.toModel.unpack.sqrt .binary32) = _
    rw [infinite]
    exact settle_infinity .positive
  · exact isExtent_of_settle rfl (Denotes.sqrt value nonneg) (roundTo_nonneg (Real.sqrt_nonneg x))

/-- The product with an infinity or NaN, which is NaN for a zero, is below no number. -/
theorem not_mul_le (first : ¬ a < .ofBits 0) (second : ¬ b < .ofBits 0)
    (endless : Endless b.toModel.unpack) (value : NarrowIs c y) : ¬ a * b ≤ c := by
  obtain nan | infinite | ⟨z, isB, -⟩ := cases_of_not_lt_zero second
  · exact not_le_of_isNaN (.inl (isNaN_mul (.inr (narrow_isNaN_iff.2 nan))))
  · have settled : (a * b).toModel.unpack =
        settle .binary32 (a.toModel.unpack.mul .binary32 (.infinity .positive)) := by
      rw [← infinite]
      rfl
    obtain nan | infinite' | ⟨x, isA, nonneg⟩ := cases_of_not_lt_zero first
    · exact not_le_of_isNaN (.inl (isNaN_mul (.inl (narrow_isNaN_iff.2 nan))))
    · rw [infinite'] at settled
      exact not_le_of_infinity (settled.trans (settle_infinity .positive)) value
    · obtain ⟨s, unpacked, -⟩ | ⟨s, m, e, positive, unpacked, -, rfl⟩ := Denotes.cases isA
      · rw [unpacked] at settled
        exact not_le_of_isNaN (.inl (isNaN_of_settle settled rfl))
      · cases s with
        | positive =>
          rw [unpacked] at settled
          exact not_le_of_infinity (settled.trans (settle_infinity .positive)) value
        | negative =>
          have large : (0 : ℝ) < m * 2 ^ e := mul_pos (by exact_mod_cast positive) (two_zpow_pos e)
          rw [signed] at nonneg
          linarith
  · exact absurd isB (not_narrowIs endless)

end Pursuit.Binary
