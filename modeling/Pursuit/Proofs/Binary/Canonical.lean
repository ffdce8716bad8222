import Mathlib
import Pursuit.Proofs.Binary.Rounding

/-! Unpacked floats as real numbers. Each has one mantissa and exponent that its format keeps it in;
the rounding of a mantissa by two residual bits gives that form of the rounded real number, and
packing loses nothing of it unless the exponent is too large. -/
namespace Pursuit.Binary

open Float.Model (Format UnpackedFloat totalExponent)
open Float.Model.UnpackedFloat

variable {F : Format} {x y : ℝ} {m : Nat} {e : ℤ} {s : Sign}

/-! ## Formats -/

theorem two_pow_mantissaBits (F : Format) :
    2 ^ F.mantissaBits = 2 * 2 ^ F.mantissaBitsWithoutImplicit := by
  rw [mantissaBits_eq, Nat.pow_succ, Nat.mul_comm]

theorem minExponent_eq (F : Format) :
    F.minExponent = 1 - F.exponentBias - F.mantissaBitsWithoutImplicit := by
  have positive : 1 ≤ 2 ^ (F.exponentBits - 1) := Nat.one_le_two_pow
  rw [Format.minExponent, Format.exponentBias, mantissaBits_eq, Nat.cast_sub positive]
  push_cast
  ring

theorem two_pow_exponentBits (F : Format) : 2 ^ F.exponentBits = 2 * F.exponentBias + 2 := by
  have positive : 1 ≤ 2 ^ (F.exponentBits - 1) := Nat.one_le_two_pow
  have halves : 2 ^ F.exponentBits = 2 * 2 ^ (F.exponentBits - 1) := by
    rw [← Nat.pow_succ', Nat.succ_eq_add_one, Nat.sub_add_cancel F.he]
  rw [halves, Format.exponentBias]
  omega

/-! ## Values -/

theorem roundTo_signed (s : Sign) (x : ℝ) : roundTo F (signed s x) = signed s (roundTo F x) := by
  cases s with
  | positive => rfl
  | negative => exact roundTo_neg F x

theorem abs_signed (s : Sign) (x : ℝ) : |signed s x| = |x| := by
  cases s with
  | positive => rfl
  | negative => exact abs_neg x

theorem Denotes.fits {u : UnpackedFloat} (denotes : Denotes F u x) : Fits F x := by
  cases u with
  | notANumber | infinity => exact denotes.elim
  | zero => exact ⟨0, F.minExponent, by simp, le_rfl, by rw [denotes]; simp⟩
  | finite s m e positive =>
    obtain ⟨canonical, rfl⟩ := denotes
    have fits : Fits F (m * 2 ^ e) :=
      ⟨m, e, by rw [Nat.abs_cast]; exact_mod_cast canonical.small.le, canonical.least, rfl⟩
    cases s with
    | positive => exact fits
    | negative => exact fits.neg

/-! ## Residual bits -/

theorem marks_exact (m : Nat) : Marks (.ofMantissaAndAccuracy m .exact) m := rfl

theorem marks_below (low : m < y) (high : y < m + 1 / 2) :
    Marks (.ofMantissaAndAccuracy m (.inexact .lt)) y := ⟨low, high⟩

theorem marks_above (low : m + 1 / 2 < y) (high : y < m + 1) :
    Marks (.ofMantissaAndAccuracy m (.inexact .gt)) y := ⟨low, high⟩

theorem Marks.bounds {em : ExtendedMantissa} (marks : Marks em y) :
    em.mantissa ≤ y ∧ y < em.mantissa + 1 := by
  obtain ⟨m, round, sticky⟩ := em
  cases round <;> cases sticky <;> simp only [Marks] at marks ⊢ <;> constructor <;> linarith

theorem Marks.roundedMantissa {em : ExtendedMantissa} (marks : Marks em y) :
    (em.roundedMantissa : ℤ) = nearestEven y := by
  obtain ⟨low, high⟩ := marks.bounds
  have floor : ⌊y⌋ = (em.mantissa : ℤ) :=
    Int.floor_eq_iff.2 ⟨by exact_mod_cast low, by exact_mod_cast high⟩
  rw [nearestEven, floor]
  obtain ⟨m, round, sticky⟩ := em
  simp only [Int.cast_natCast]
  cases round <;> cases sticky <;> simp only [Marks] at marks
  · rw [if_pos (by linarith)]
    rfl
  · rw [if_pos (by linarith)]
    rfl
  · rw [if_neg (by linarith), if_neg (by linarith)]
    exact_mod_cast rfl
  · rw [if_neg (by linarith), if_pos (by linarith)]
    exact_mod_cast rfl

theorem Marks.half {em : ExtendedMantissa} (marks : Marks em y) :
    Marks em.shiftRightOne (y / 2) := by
  obtain ⟨m, round, sticky⟩ := em
  have parts : ((m / 2 : ℕ) : ℝ) * 2 + ((m % 2 : ℕ) : ℝ) = m := by
    exact_mod_cast Nat.div_add_mod' m 2
  obtain even | odd := Nat.mod_two_eq_zero_or_one m
  · rw [even, Nat.cast_zero] at parts
    cases round <;> cases sticky <;>
      simp_all only [Marks, ExtendedMantissa.shiftRightOne, bne_self_eq_false, Bool.or_false,
        Bool.or_true] <;> (try constructor) <;> linarith
  · rw [odd, Nat.cast_one] at parts
    cases round <;> cases sticky <;>
      simp_all only [Marks, ExtendedMantissa.shiftRightOne, Bool.or_false, Bool.or_true,
        show (1 != 0) = true from rfl] <;> (try constructor) <;> linarith

theorem Marks.shift {em : ExtendedMantissa} (marks : Marks em y) (n : Nat) :
    Marks (em >>> n) (y / 2 ^ n) := by
  change Marks (n.repeat ExtendedMantissa.shiftRightOne em) _
  induction n with
  | zero => simpa [Nat.repeat] using marks
  | succ n ih =>
    rw [pow_succ, ← div_div]
    exact ih.half

/-! ## Rounding a mantissa -/

theorem targetExponent_le_place (positive : 0 < m) (low : (m : ℝ) * 2 ^ e ≤ x) :
    F.targetExponent (totalExponent m e) ≤ place F x := by
  rw [Format.targetExponent, totalExponent]
  refine max_le (le_place ?_) (minExponent_le_place F x)
  have bits : (2 : ℝ) ^ (m.log2 : ℤ) ≤ m := by exact_mod_cast Nat.log2_self_le positive.ne'
  calc
    (2 : ℝ) ^ (m.log2 + 1 + e - F.mantissaBits + F.mantissaBits - 1) =
        2 ^ (m.log2 : ℤ) * 2 ^ e := by
      rw [← two_zpow_add]
      congr 1
      ring
    _ ≤ m * 2 ^ e := mul_le_mul_of_nonneg_right bits (two_zpow_pos e).le
    _ ≤ |x| := low.trans (le_abs_self x)

/-- A mantissa says how large a number is, unless it is too short for the place that the number
has. -/
theorem targetExponent_eq_place (low : (m : ℝ) * 2 ^ e ≤ x) (high : x < (m + 1) * 2 ^ e)
    (room : e ≤ place F x) : F.targetExponent (totalExponent m e) = place F x := by
  have nonneg : 0 ≤ x := le_trans (mul_nonneg m.cast_nonneg (two_zpow_pos e).le) low
  refine le_antisymm ?_ (place_le (le_max_right ..) ?_)
  · obtain rfl | positive := Nat.eq_zero_or_pos m
    · have bits := mantissaBits_eq F
      have least := minExponent_le_place F x
      rw [Format.targetExponent, totalExponent, Nat.log2_zero]
      omega
    · exact targetExponent_le_place positive low
  · have bits : ((m : ℝ) + 1) ≤ 2 ^ ((m.log2 + 1 : ℕ) : ℤ) := by exact_mod_cast Nat.lt_log2_self
    calc
      |x| = x := abs_of_nonneg nonneg
      _ < (m + 1) * 2 ^ e := high
      _ ≤ 2 ^ ((m.log2 + 1 : ℕ) : ℤ) * 2 ^ e :=
        mul_le_mul_of_nonneg_right bits (two_zpow_pos e).le
      _ = 2 ^ (totalExponent m e) := by rw [← two_zpow_add, totalExponent]; push_cast; rfl
      _ ≤ 2 ^ (F.targetExponent (totalExponent m e) + F.mantissaBits) := by
        refine two_zpow_le ?_
        rw [Format.targetExponent]
        omega

/-- A mantissa that is short enough, or too long by one bit, is brought to its form without loss. -/
theorem shift_of_le (small : m ≤ 2 ^ F.mantissaBits) (least : F.minExponent ≤ e) :
    ∃ m' e', shiftToTargetExponent F m e .exact = (.ofMantissaAndAccuracy m' .exact, e') ∧
      (m' : ℝ) * 2 ^ e' = m * 2 ^ e ∧ m' < 2 ^ F.mantissaBits ∧ e ≤ e' ∧
      (2 ^ F.mantissaBitsWithoutImplicit ≤ m → 2 ^ F.mantissaBitsWithoutImplicit ≤ m') ∧
      (e ≠ e' → 2 ^ F.mantissaBitsWithoutImplicit ≤ m') := by
  obtain short | rfl := small.lt_or_eq
  · have bits : m.log2 < F.mantissaBits := by
      obtain rfl | positive := Nat.eq_zero_or_pos m
      · rw [Nat.log2_zero, mantissaBits_eq]
        omega
      · exact (Nat.log2_lt positive.ne').2 short
    have still : (F.targetExponent (totalExponent m e) - e).toNat = 0 := by
      rw [Format.targetExponent, totalExponent]
      omega
    refine ⟨m, e, ?_, rfl, short, le_rfl, id, fun moved => absurd rfl moved⟩
    rw [shiftToTargetExponent, shiftToExponent, still]
    simp [HShiftRight.hShiftRight, Nat.repeat]
  · have once : (F.targetExponent (totalExponent (2 ^ F.mantissaBits) e) - e).toNat = 1 := by
      rw [Format.targetExponent, totalExponent, Nat.log2_two_pow]
      omega
    have half : 2 ^ F.mantissaBits / 2 = 2 ^ F.mantissaBitsWithoutImplicit := by
      rw [two_pow_mantissaBits, Nat.mul_div_cancel_left _ (by norm_num)]
    have even : 2 ^ F.mantissaBits % 2 = 0 := by
      rw [two_pow_mantissaBits, Nat.mul_mod_right]
    refine ⟨2 ^ F.mantissaBitsWithoutImplicit, e + 1, ?_, ?_, ?_, by omega, fun _ => le_rfl,
      fun _ => le_rfl⟩
    · rw [shiftToTargetExponent, shiftToExponent, once]
      change (ExtendedMantissa.shiftRightOne ⟨2 ^ F.mantissaBits, false, false⟩, _) = _
      simp only [ExtendedMantissa.shiftRightOne, half, even]
      rfl
    · rw [two_pow_mantissaBits, two_zpow_add]
      push_cast
      ring
    · rw [two_pow_mantissaBits]
      have := Nat.two_pow_pos F.mantissaBitsWithoutImplicit
      omega

theorem shift_to_place {acc : Accuracy}
    (marks : Marks (.ofMantissaAndAccuracy m acc) (x / 2 ^ e)) (room : e ≤ place F x) :
    ∃ em, shiftToTargetExponent F m e acc = (em, place F x) ∧ Marks em (x / 2 ^ place F x) := by
  have step := two_zpow_pos e
  obtain ⟨low, high⟩ := marks.bounds
  have whole : (ExtendedMantissa.ofMantissaAndAccuracy m acc).mantissa = m := by
    cases acc with
    | exact => rfl
    | inexact o => cases o <;> rfl
  rw [whole, le_div_iff₀ step] at low
  rw [whole, div_lt_iff₀ step] at high
  have way : ((place F x - e).toNat : ℤ) = place F x - e := Int.toNat_of_nonneg (by omega)
  have scale : x / 2 ^ e / 2 ^ (place F x - e).toNat = x / 2 ^ place F x := by
    rw [div_div, ← zpow_natCast, ← two_zpow_add, way, add_sub_cancel]
  have marked := marks.shift (place F x - e).toNat
  rw [scale] at marked
  refine ⟨_, ?_, marked⟩
  rw [shiftToTargetExponent, targetExponent_eq_place low high room, shiftToExponent, way,
    add_sub_cancel]

theorem denotes_roundWithAccuracy {acc : Accuracy} (nonneg : 0 ≤ x)
    (marks : Marks (.ofMantissaAndAccuracy m acc) (x / 2 ^ e)) (room : e ≤ place F x) :
    Denotes F (roundWithAccuracy F s m e acc) (signed s (roundTo F x)) := by
  obtain ⟨em, shifted, marked⟩ := shift_to_place marks room
  have nearest := marked.roundedMantissa
  have bound : em.roundedMantissa ≤ 2 ^ F.mantissaBits := by
    have bound := abs_nearestEven_place_le F x
    rw [← nearest, Nat.abs_cast] at bound
    exact_mod_cast bound
  have full : place F x ≠ F.minExponent →
      2 ^ F.mantissaBitsWithoutImplicit ≤ em.roundedMantissa := by
    intro above
    have large := le_nearestEven_place nonneg (lt_of_le_of_ne (minExponent_le_place F x) above.symm)
    rw [← nearest] at large
    exact_mod_cast large
  -- The second shift only takes a carry back.
  obtain ⟨m', e', again, value, small, grown, kept, moved⟩ :=
    shift_of_le bound (minExponent_le_place F x)
  have value : (m' : ℝ) * 2 ^ e' = roundTo F x := by
    rw [value, roundTo, ← nearest]
    rfl
  rw [roundWithAccuracy]
  simp only [shifted, again]
  split
  next zero =>
    obtain rfl : m' = 0 := zero
    rw [← value]
    cases s <;> simp [Denotes, signed]
  next =>
    refine ⟨⟨small, (minExponent_le_place F x).trans grown, ?_⟩, by rw [← value]; rfl⟩
    by_cases same : place F x = e'
    · by_cases least : place F x = F.minExponent
      · exact .inr (same ▸ least)
      · exact .inl (kept (full least))
    · exact .inl (moved same)

theorem value_decreaseExponent (m : Nat) (e t : ℤ) :
    ((decreaseExponent m e t).1 : ℝ) * 2 ^ (decreaseExponent m e t).2 = m * 2 ^ e := by
  rw [decreaseExponent, Nat.shiftLeft_eq]
  push_cast
  rw [mul_assoc, ← zpow_natCast, ← two_zpow_add, add_sub_cancel]

theorem denotes_roundWithAccuracy_exact (room : e ≤ place F (m * 2 ^ e)) :
    Denotes F (roundWithAccuracy F s m e .exact) (signed s (roundTo F (m * 2 ^ e))) := by
  refine denotes_roundWithAccuracy (mul_nonneg m.cast_nonneg (two_zpow_pos e).le) ?_ room
  rw [mul_div_cancel_right₀ _ (two_zpow_pos e).ne']
  exact marks_exact m

theorem denotes_round (positive : 0 < m) :
    Denotes F (round F s m e) (signed s (roundTo F (m * 2 ^ e))) := by
  obtain ⟨m', e', decreased⟩ : ∃ m' e',
      decreaseExponent m e (F.targetExponent (totalExponent m e)) = (m', e') := ⟨_, _, rfl⟩
  have value := value_decreaseExponent m e (F.targetExponent (totalExponent m e))
  have lower : (decreaseExponent m e (F.targetExponent (totalExponent m e))).2 ≤
      F.targetExponent (totalExponent m e) := by
    rw [decreaseExponent]
    omega
  rw [decreased] at value lower
  rw [UnpackedFloat.round]
  simp only [decreased]
  rw [← value]
  refine denotes_roundWithAccuracy_exact (lower.trans ?_)
  rw [value]
  exact targetExponent_le_place positive le_rfl

theorem denotes_normalize (m e : ℤ) (zeroSign : Sign) :
    Denotes F (UnpackedFloat.normalize F m e zeroSign) (roundTo F (m * 2 ^ e)) := by
  rw [UnpackedFloat.normalize]
  obtain negative | rfl | positive := lt_trichotomy m 0
  · have size : (((-m).toNat : ℕ) : ℝ) = -m := by
      exact_mod_cast Int.toNat_of_nonneg (neg_nonneg.2 negative.le)
    have rounded := denotes_round (F := F) (s := .negative) (m := (-m).toNat) (e := e) (by omega)
    rw [size, neg_mul, roundTo_neg] at rounded
    rw [Int.compare_eq_lt.2 negative]
    simpa [signed] using rounded
  · simp [Denotes]
  · have size : ((m.toNat : ℕ) : ℝ) = m := by exact_mod_cast Int.toNat_of_nonneg positive.le
    have rounded := denotes_round (F := F) (s := .positive) (m := m.toNat) (e := e) (by omega)
    rw [size] at rounded
    rw [Int.compare_eq_gt.2 positive]
    exact rounded

end Pursuit.Binary
