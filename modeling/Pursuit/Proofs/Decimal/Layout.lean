import Pursuit.Decimal.Layout
import Pursuit.Decimal.Reader
import Pursuit.Proofs.Decimal.Cell

/-! Digits as text. Reading the digits of a number gives it back, and a number that is laid out
without an exponent is a whole part, a point and places, which together have its value. -/
namespace Pursuit.Decimal

/-! ## Digits -/

theorem isDigit_iff {c : Char} : isDigit c ↔ c.isDigit := by
  simp [isDigit, Char.isDigit, Char.le_def, UInt32.le_iff_toNat_le]

theorem isDigit_zero : isDigit '0' := by decide

theorem natOfDigits_append (a b : List Char) :
    natOfDigits (a ++ b) = natOfDigits a * 10 ^ b.length + natOfDigits b := by
  rw [natOfDigits, natOfDigits, List.foldl_append]
  generalize a.foldl (fun n c => 10 * n + digitValue c) 0 = n
  rw [natOfDigits]
  -- Over any number of digits read so far.
  suffices ∀ m, b.foldl (fun n c => 10 * n + digitValue c) (n + m) =
      n * 10 ^ b.length + b.foldl (fun n c => 10 * n + digitValue c) m by simpa using this 0
  induction b generalizing n with
  | nil => simp
  | cons c b ih =>
    intro m
    rw [List.foldl_cons, List.foldl_cons, List.length_cons,
      show 10 * (n + m) + digitValue c = 10 * n + (10 * m + digitValue c) by ring, ih]
    ring

theorem natOfDigits_zeros (n : ℕ) : natOfDigits (zeros n) = 0 := by
  induction n with
  | zero => rfl
  | succ n ih =>
    have split : zeros (n + 1) = ['0'] ++ zeros n := List.replicate_succ
    rw [split, natOfDigits_append, ih]
    simp [natOfDigits, digitValue]

theorem digits_repr (n : ℕ) : ∀ c ∈ (Nat.repr n).toList, isDigit c := by
  intro c member
  rw [Nat.toList_repr] at member
  exact isDigit_iff.2 (Nat.isDigit_of_mem_toDigits (by decide) (by decide) member)

theorem natOfDigits_repr (n : ℕ) : natOfDigits (Nat.repr n).toList = n := by
  rw [Nat.toList_repr]
  exact Nat.ofDigitChars_toDigits (by decide) (by decide)

theorem repr_ne_nil (n : ℕ) : (Nat.repr n).toList ≠ [] := by
  rw [Nat.toList_repr]
  exact Nat.toDigits_ne_nil

theorem head?_repr {n : ℕ} (positive : 0 < n) : (Nat.repr n).toList.head? ≠ some '0' := by
  rw [Nat.toList_repr]
  induction n using Nat.strong_induction_on with
  | _ n ih =>
    rw [Nat.toDigits_eq_if (by decide)]
    split
    next small =>
      intro zero
      have value := Nat.ofDigitChars_toDigits (b := 10) (n := n) (by decide) (by decide)
      rw [Nat.toDigits_of_lt_base small] at value
      rw [List.head?_cons, Option.some_inj] at zero
      rw [zero] at value
      exact absurd value.symm positive.ne'
    next large =>
      rw [List.head?_append_of_ne_nil _ Nat.toDigits_ne_nil]
      exact ih (n / 10) (by omega) (by omega)

theorem digits_zeros (n : ℕ) : ∀ c ∈ zeros n, isDigit c := by
  intro c member
  rw [List.eq_of_mem_replicate member]
  exact isDigit_zero

/-! ## Numbers without an exponent -/

structure Positional (whole places : List Char) : Prop where
  whole_ne_nil : whole ≠ []
  places_ne_nil : places ≠ []
  whole_digits : ∀ c ∈ whole, isDigit c
  places_digits : ∀ c ∈ places, isDigit c
  no_zero_first : whole.head? = some '0' → whole.length = 1

noncomputable def pointed (whole places : List Char) : ℝ :=
  natOfDigits (whole ++ places) * 10 ^ (0 - places.length : ℤ)

theorem magnitude_toml {s : Scaled} (positive : 0 < s.digits) : ∃ whole places,
    Layout.toml.magnitude s = whole ++ '.' :: places ∧ Positional whole places ∧
      pointed whole places = s.digits * 10 ^ s.exponent := by
  obtain ⟨ds, text⟩ : ∃ ds, (Nat.repr s.digits).toList = ds := ⟨_, rfl⟩
  have digits : ∀ c ∈ ds, isDigit c := text ▸ digits_repr s.digits
  have value : natOfDigits ds = s.digits := text ▸ natOfDigits_repr s.digits
  have nonempty : ds ≠ [] := text ▸ repr_ne_nil s.digits
  have first : ds.head? ≠ some '0' := text ▸ head?_repr positive
  have laid : Layout.toml.magnitude s = Layout.toml.spread ds (ds.length + s.exponent) := by
    rw [Layout.magnitude, text]
    exact if_pos rfl
  rw [laid, Layout.spread]
  split
  next small =>
    refine ⟨['0'], zeros (-(ds.length + s.exponent)).toNat ++ ds, by simp,
      ⟨by simp, by simp [nonempty], ?_, ?_, fun _ => rfl⟩, ?_⟩
    · exact List.forall_mem_singleton.2 isDigit_zero
    · exact List.forall_mem_append.2 ⟨digits_zeros _, digits⟩
    · have leading : natOfDigits (['0'] ++ (zeros (-(ds.length + s.exponent)).toNat ++ ds)) =
          natOfDigits ds := by
        rw [natOfDigits_append, natOfDigits_append, natOfDigits_zeros]
        simp [natOfDigits, digitValue]
      rw [pointed, leading, value]
      congr 2
      rw [List.length_append, zeros, List.length_replicate]
      omega
  next large =>
    dsimp only
    split
    next short =>
      have whole : 0 ≤ s.exponent := by omega
      refine ⟨ds ++ zeros ((ds.length + s.exponent).toNat - ds.length), ['0'],
        by simp [Layout.toml],
          ⟨by simp [nonempty], by simp, List.forall_mem_append.2 ⟨digits, digits_zeros _⟩,
          List.forall_mem_singleton.2 isDigit_zero, ?_⟩, ?_⟩
      · rw [List.head?_append_of_ne_nil _ nonempty]
        exact fun zero => absurd zero first
      · have following : natOfDigits
            (ds ++ zeros ((ds.length + s.exponent).toNat - ds.length) ++ ['0']) =
            s.digits * 10 ^ (s.exponent.toNat + 1) := by
          rw [natOfDigits_append, natOfDigits_append, natOfDigits_zeros, value]
          have count : (ds.length + s.exponent).toNat - ds.length = s.exponent.toNat := by omega
          rw [zeros, List.length_replicate, count, List.length_singleton]
          simp [natOfDigits, digitValue]
          ring
        rw [pointed, following]
        push_cast
        rw [mul_assoc, ← zpow_natCast, ← zpow_add₀ (by norm_num)]
        congr 2
        rw [List.length_singleton, Nat.cast_add, Int.toNat_of_nonneg whole]
        norm_num
    next long =>
      refine ⟨ds.take (ds.length + s.exponent).toNat, ds.drop (ds.length + s.exponent).toNat, rfl,
        ⟨?_, ?_, fun c member => digits c (List.mem_of_mem_take member),
          fun c member => digits c (List.mem_of_mem_drop member), ?_⟩, ?_⟩
      · rw [ne_eq, List.take_eq_nil_iff]
        exact not_or.2 ⟨by omega, nonempty⟩
      · rw [ne_eq, List.drop_eq_nil_iff]
        exact long
      · rw [List.head?_take, if_neg (by omega)]
        exact fun zero => absurd zero first
      · rw [pointed, List.take_append_drop, value]
        congr 2
        rw [List.length_drop]
        omega

end Pursuit.Decimal
