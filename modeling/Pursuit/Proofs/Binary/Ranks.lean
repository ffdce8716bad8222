import Pursuit.Proofs.Binary.Error
import Pursuit.Proofs.Binary.Identity

/-! The rank of a float among all of its width. A root of a sum of squares carries no sign, be it a
zero, so such sizes are ranked as they compare, and two of one rank are the same. -/
namespace Pursuit.Binary

open Float.Model (Format UnpackedFloat)
open Float.Model.UnpackedFloat

variable {F : Format} {u v : UnpackedFloat} {a b : Float32}

/-! ## Signs -/

def Upright : UnpackedFloat → Prop
  | .notANumber => True
  | .infinity s | .zero s | .finite s .. => s = .positive

theorem upright_roundWithAccuracy (m : ℕ) (e : ℤ) (accuracy : Accuracy) :
    Upright (roundWithAccuracy F .positive m e accuracy) := by
  simp only [roundWithAccuracy]
  split <;> rfl

theorem upright_mul_self (u : UnpackedFloat) : Upright (u.mul F u) := by
  have square (s : Sign) : s * s = .positive := by cases s <;> rfl
  cases u with
  | notANumber => trivial
  | infinity s => exact square s
  | zero s => exact square s
  | finite s m e =>
    simp only [UnpackedFloat.mul, square]
    apply upright_roundWithAccuracy

theorem Upright.add (first : Upright u) (second : Upright v) : Upright (u.add F v) := by
  cases u <;> cases v
  case finite.finite s m e positive s' m' e' positive' =>
    obtain rfl : s = .positive := first
    obtain rfl : s' = .positive := second
    simp only [UnpackedFloat.add, UnpackedFloat.normalize, Sign.apply]
    -- two numbers without sign add up to one
    split
    next less =>
      rw [Int.compare_eq_lt] at less
      omega
    · rfl
    · apply upright_roundWithAccuracy
  all_goals simp_all [UnpackedFloat.add, Upright]

theorem Upright.sqrt (upright : Upright u) : Upright (u.sqrt F) := by
  cases u with
  | notANumber => trivial
  | infinity s =>
    obtain rfl : s = .positive := upright
    rfl
  | zero s => exact upright
  | finite s m e =>
    obtain rfl : s = .positive := upright
    simp only [UnpackedFloat.sqrt]
    apply upright_roundWithAccuracy

theorem Upright.unpackSign_pack (upright : Upright u) : unpackSign (pack F u) = 0#1 := by
  cases u with
  | notANumber => simp [pack, packedNaN, Sign.toBitVec]
  | infinity s => simp_all [pack, packedInfinity, Upright, Sign.toBitVec]
  | zero s => simp_all [pack, packedZero, Upright, Sign.toBitVec]
  | finite s m e positive =>
    simp only [pack]
    split
    · simp_all [packedInfinity, Upright, Sign.toBitVec]
    · split <;> simp_all [Upright, Sign.toBitVec]

theorem upright_unpack {bits : BitVec F.numBits} (clear : unpackSign bits = 0#1) :
    Upright (unpack F bits) := by
  simp only [unpack, clear]
  split
  · split <;> simp [Upright, Sign.ofBitVec]
  · split
    · split <;> simp [Upright, Sign.ofBitVec]
    · simp [Upright, Sign.ofBitVec]

theorem Upright.settle (upright : Upright u) : Upright (settle F u) :=
  upright_unpack upright.unpackSign_pack

theorem Upright.toBits_lt (upright : Upright u) :
    (Float32.ofModel (.pack u)).toBits.toNat < 2 ^ 31 := by
  have clear : unpackSign (pack .binary32 u) = 0#1 := upright.unpackSign_pack
  rw [unpackSign_def] at clear
  have top := congrArg BitVec.toNat clear
  rw [BitVec.extractLsb'_toNat] at top
  have short := (pack .binary32 u).isLt
  change (pack .binary32 u).toNat >>> 31 % 2 ^ 1 = 0 at top
  change (pack .binary32 u).toNat < 2 ^ 32 at short
  change (pack .binary32 u).toNat < 2 ^ 31
  rw [Nat.shiftRight_eq_div_pow] at top
  omega

theorem toBits_sqrt_squares_lt (a b : Float32) : (a * a + b * b).sqrt.toBits.toNat < 2 ^ 31 := by
  have square (a : Float32) : Upright (a * a).toModel.unpack :=
    (upright_mul_self (F := .binary32) _).settle
  have sum : Upright (a * a + b * b).toModel.unpack :=
    ((square a).add (F := .binary32) (square b)).settle
  exact sum.sqrt.toBits_lt

/-! ## Order -/

theorem not_lt_of_le (below : a ≤ b) : ¬ b < a := by
  intro above
  obtain nan | ⟨s, infinite⟩ | ⟨y, value⟩ := narrow_cases b
  · exact not_lt_of_notANumber nan above
  · obtain nan | ⟨s', infinite'⟩ | ⟨x, value'⟩ := narrow_cases a
    · rw [le_iff, nan] at below
      exact nomatch below
    · rw [lt_iff, infinite, infinite'] at above
      rw [le_iff, infinite, infinite'] at below
      revert above below
      cases s <;> cases s' <;> decide
    · cases s with
      | positive => exact not_le_of_infinity infinite value' (narrow_le_of_lt above)
      | negative => exact not_le_of_negative_infinity infinite value' below
  · exact not_le_of_lt_narrow value above below

/-! ## Ranks -/

theorem rank_eq_size (unsigned : a.toBits.toNat < 2 ^ 31) : rank a = size a := by
  rw [rank, size, Nat.mod_eq_of_lt unsigned]
  exact if_pos unsigned

theorem size_of_infinity {s : Sign} (infinite : a.toModel.unpack = .infinity s) :
    size a = 255 * 2 ^ 23 := by
  rw [Float32.Model.unpack, unpack] at infinite
  rw [size_fields]
  split at infinite
  next exponent =>
    split at infinite
    next mantissa => rw [exponent, mantissa]; rfl
    next => cases infinite
  next =>
    split at infinite
    · split at infinite <;> cases infinite
    · cases infinite

theorem NarrowIs.size_lt {x : ℝ} (value : NarrowIs a x) : size a < 255 * 2 ^ 23 := by
  obtain ⟨s, zero, -⟩ | ⟨s, m, e, positive, finite, canonical, -⟩ := Denotes.cases value
  · rw [size_of_zero zero]
    decide
  · have counted := size_of_finite finite
    have small : m < 2 ^ 24 := canonical.small
    have room : e ≤ 104 := (canonical_of_unpack (F := .binary32) (by decide) finite).2
    omega

/-- Sizes that are no NaN are ranked as they compare. -/
theorem rank_lt_iff (unsigned : a.toBits.toNat < 2 ^ 31) (unsigned' : b.toBits.toNat < 2 ^ 31)
    (ahead : ¬ a < .ofBits 0) (ahead' : ¬ b < .ofBits 0) (number : a.isNaN = false)
    (number' : b.isNaN = false) :
    rank a < rank b ↔ a < b := by
  have cases {a : Float32} (ahead : ¬ a < .ofBits 0) (number : a.isNaN = false) :
      a.toModel.unpack = .infinity .positive ∨ ∃ x, NarrowIs a x ∧ 0 ≤ x := by
    obtain nan | rest := cases_of_not_lt_zero ahead
    · exact absurd (narrow_isNaN_iff.2 nan) (Bool.eq_false_iff.1 number)
    · exact rest
  rw [rank_eq_size unsigned, rank_eq_size unsigned', Int.ofNat_lt]
  obtain infinite | ⟨x, value, nonneg⟩ := cases ahead number
  · obtain infinite' | ⟨y, value', -⟩ := cases ahead' number'
    · obtain rfl : a = b := narrow_eq_of_unpack_eq (infinite.trans infinite'.symm)
      simp [lt_iff, infinite, UnpackedFloat.compare]
    · have above := value'.size_lt
      rw [size_of_infinity infinite]
      have less := lt_of_infinity infinite value'
      refine iff_of_false above.not_gt fun more => ?_
      exact not_le_of_infinity infinite value' (narrow_le_of_lt more)
  · obtain infinite' | ⟨y, value', nonneg'⟩ := cases ahead' number'
    · rw [size_of_infinity infinite']
      exact iff_of_true value.size_lt (lt_of_infinity infinite' value)
    · rw [size_lt_iff value value', narrow_lt_iff value value', abs_of_nonneg nonneg,
        abs_of_nonneg nonneg']

theorem eq_of_rank_eq (unsigned : a.toBits.toNat < 2 ^ 31) (unsigned' : b.toBits.toNat < 2 ^ 31)
    (same : rank a = rank b) : a = b := by
  rw [rank_eq_size unsigned, rank_eq_size unsigned', Int.ofNat_inj, size, size,
    Nat.mod_eq_of_lt unsigned, Nat.mod_eq_of_lt unsigned'] at same
  exact Float32.toBits_inj.1 (UInt32.toNat_inj.1 same)

end Pursuit.Binary
