import Pursuit.Decimal.Shortest
import Pursuit.Proofs.Binary.Canonical

/-! The cell of a float as real numbers. Whatever lies in it rounds to the float, and a decimal grid
that is finer than the cell is wide has a point in it next to the middle. -/
namespace Pursuit.Decimal

open Float.Model (Format)
open Pursuit.Binary

structure Cell.Has (c : Cell) (x : ℝ) : Prop where
  low_le : c.low * 2 ^ c.exponent ≤ x
  le_high : x ≤ c.high * 2 ^ c.exponent
  inside : c.closed = false → c.low * 2 ^ c.exponent < x ∧ x < c.high * 2 ^ c.exponent

theorem ten_zpow_pos (k : ℤ) : (0 : ℝ) < 10 ^ k := zpow_pos (by norm_num) k

section Cell

variable {c : Cell} {x : ℝ} {j : ℤ} {g : ℕ}

theorem Cell.has_of_between (low : c.low * 2 ^ c.exponent < x)
    (high : x < c.high * 2 ^ c.exponent) :
    c.Has x := ⟨low.le, high.le, fun _ => ⟨low, high⟩⟩

/-- Both lengths of a ruler are true to one scale. -/
theorem Ruler.scale (binary decimal : ℤ) : ∃ k : ℝ, 0 < k ∧
    ((Ruler.of binary decimal).step : ℝ) = 10 ^ decimal * k ∧
    ((Ruler.of binary decimal).unit : ℝ) = 2 ^ binary * k := by
  refine ⟨2 ^ ((-binary).toNat : ℤ) * 10 ^ ((-decimal).toNat : ℤ),
    mul_pos (two_zpow_pos _) (ten_zpow_pos _), ?_, ?_⟩
  · have tens : (10 : ℝ) ^ decimal * 10 ^ ((-decimal).toNat : ℤ) = 10 ^ (decimal.toNat : ℤ) := by
      rw [← zpow_add₀ (by norm_num)]
      congr 1
      omega
    have step : ((Ruler.of binary decimal).step : ℝ) =
        10 ^ (decimal.toNat : ℤ) * 2 ^ ((-binary).toNat : ℤ) := by
      simp [Ruler.of, zpow_natCast, -Int.ofNat_toNat]
    rw [step, ← tens]
    ring
  · have twos : (2 : ℝ) ^ binary * 2 ^ ((-binary).toNat : ℤ) = 2 ^ (binary.toNat : ℤ) := by
      rw [← two_zpow_add]
      congr 1
      omega
    have unit : ((Ruler.of binary decimal).unit : ℝ) =
        2 ^ (binary.toNat : ℤ) * 10 ^ ((-decimal).toNat : ℤ) := by
      simp [Ruler.of, zpow_natCast, -Int.ofNat_toNat]
    rw [unit, ← twos]
    ring

theorem Ruler.unit_le_step {binary decimal : ℤ} {n g : ℕ} :
    n * (Ruler.of binary decimal).unit ≤ g * (Ruler.of binary decimal).step ↔
      (n * 2 ^ binary : ℝ) ≤ g * 10 ^ decimal := by
  obtain ⟨k, positive, step, unit⟩ := Ruler.scale binary decimal
  rw [← Nat.cast_le (α := ℝ)]
  push_cast
  rw [step, unit, ← mul_assoc, ← mul_assoc, mul_le_mul_iff_left₀ positive]

theorem Ruler.step_le_unit {binary decimal : ℤ} {n g : ℕ} :
    g * (Ruler.of binary decimal).step ≤ n * (Ruler.of binary decimal).unit ↔
      (g * 10 ^ decimal : ℝ) ≤ n * 2 ^ binary := by
  obtain ⟨k, positive, step, unit⟩ := Ruler.scale binary decimal
  rw [← Nat.cast_le (α := ℝ)]
  push_cast
  rw [step, unit, ← mul_assoc, ← mul_assoc, mul_le_mul_iff_left₀ positive]

theorem Cell.holds_iff : c.holds (.of c.exponent j) g ↔ c.Has (g * 10 ^ j) := by
  rw [holds]
  split
  next closed =>
    rw [decide_eq_true_iff, Ruler.unit_le_step, Ruler.step_le_unit]
    exact ⟨fun ⟨low, high⟩ => ⟨low, high, fun opened => by simp [closed] at opened⟩,
      fun has => ⟨has.low_le, has.le_high⟩⟩
  next opened =>
    rw [decide_eq_true_iff, ← not_le, ← not_le, Ruler.unit_le_step, Ruler.step_le_unit,
      not_le, not_le]
    exact ⟨fun ⟨low, high⟩ => has_of_between low high,
      fun has => has.inside (Bool.eq_false_iff.2 opened)⟩

theorem Cell.has_of_choose {tie : Tie} (chosen : c.choose tie (.of c.exponent j) = some g) :
    c.Has (g * 10 ^ j) := by
  rw [← holds_iff]
  unfold Cell.choose at chosen
  dsimp only at chosen
  generalize c.mid * (Ruler.of c.exponent j).unit / (Ruler.of c.exponent j).step = n at chosen
  split at chosen
  next low high =>
    -- A tie may go to either side, and both are held.
    have even : c.holds (.of c.exponent j) (n + n % 2) := by
      obtain zero | one := Nat.mod_two_eq_zero_or_one n
      · rwa [zero]
      · rwa [one]
    split at chosen
    · exact Option.some.inj chosen ▸ low
    · split at chosen
      · exact Option.some.inj chosen ▸ high
      · split at chosen
        · exact Option.some.inj chosen ▸ high
        · exact Option.some.inj chosen ▸ even
  next low _ => exact Option.some.inj chosen ▸ low
  next _ high => exact Option.some.inj chosen ▸ high
  next => cases chosen

/-- A grid that is finer than the cell is wide has a point in it beside the middle. -/
theorem Cell.choose_isSome (tie : Tie) (low : c.low < c.mid) (high : c.mid < c.high)
    (fine : (10 : ℝ) ^ j < (c.high - c.low) * 2 ^ c.exponent) :
    ∃ g, c.choose tie (.of c.exponent j) = some g := by
  obtain ⟨k, scale, step, unit⟩ := Ruler.scale c.exponent j
  have ten := ten_zpow_pos j
  have two := two_zpow_pos c.exponent
  have low : (c.low : ℝ) * 2 ^ c.exponent < c.mid * 2 ^ c.exponent :=
    mul_lt_mul_of_pos_right (by exact_mod_cast low) two
  have high : (c.mid : ℝ) * 2 ^ c.exponent < c.high * 2 ^ c.exponent :=
    mul_lt_mul_of_pos_right (by exact_mod_cast high) two
  obtain ⟨g, floor⟩ :
      ∃ g, c.mid * (Ruler.of c.exponent j).unit / (Ruler.of c.exponent j).step = g :=
    ⟨_, rfl⟩
  have positive : 0 < (Ruler.of c.exponent j).step := by
    have : (0 : ℝ) < (Ruler.of c.exponent j).step := step ▸ mul_pos ten scale
    exact_mod_cast this
  have below : (g * 10 ^ j : ℝ) ≤ c.mid * 2 ^ c.exponent := by
    rw [← Ruler.step_le_unit, ← floor]
    exact Nat.div_mul_le_self ..
  have above : c.mid * 2 ^ c.exponent < ((g + 1 : ℕ) * 10 ^ j : ℝ) := by
    rw [← not_le, ← Ruler.step_le_unit, not_le, ← floor]
    exact Nat.lt_mul_of_div_lt (Nat.lt_succ_self _) positive
  -- The first grid point above the lower end lies below the upper one.
  obtain ⟨n, first, last⟩ : ∃ n : ℕ, c.low * 2 ^ c.exponent < (n * 10 ^ j : ℝ) ∧
      (n * 10 ^ j : ℝ) < c.high * 2 ^ c.exponent := by
    have down := Nat.floor_le (a := c.low * 2 ^ c.exponent / (10 : ℝ) ^ j) (by positivity)
    have up := Nat.lt_floor_add_one (c.low * 2 ^ c.exponent / (10 : ℝ) ^ j)
    rw [le_div_iff₀ ten] at down
    rw [div_lt_iff₀ ten] at up
    refine ⟨⌊c.low * 2 ^ c.exponent / (10 : ℝ) ^ j⌋₊ + 1, by push_cast; exact up, ?_⟩
    push_cast
    linarith
  have beside : c.holds (.of c.exponent j) g ∨ c.holds (.of c.exponent j) (g + 1) := by
    rw [holds_iff, holds_iff]
    obtain left | right := le_or_gt n g
    · have further : (n * 10 ^ j : ℝ) ≤ g * 10 ^ j :=
        mul_le_mul_of_nonneg_right (by exact_mod_cast left) ten.le
      exact .inl (has_of_between (first.trans_le further) (below.trans_lt high))
    · have further : ((g + 1 : ℕ) * 10 ^ j : ℝ) ≤ n * 10 ^ j :=
        mul_le_mul_of_nonneg_right (by exact_mod_cast right) ten.le
      exact .inr (has_of_between (low.trans above) (further.trans_lt last))
  unfold Cell.choose
  dsimp only
  rw [floor]
  split
  · split
    · exact ⟨_, rfl⟩
    · split
      · exact ⟨_, rfl⟩
      · cases tie with
        | up | even => exact ⟨_, rfl⟩
  · exact ⟨_, rfl⟩
  · exact ⟨_, rfl⟩
  next absent absent' =>
    rw [absent, absent'] at beside
    simp at beside

end Cell

/-! ## The cell of a float -/

section Float

variable {F : Format} {m : ℕ} {e : ℤ} {x : ℝ}

theorem two_zpow_quarter (e : ℤ) : (2 : ℝ) ^ (e - 2) = 2 ^ e / 4 := by
  rw [zpow_sub₀ two_ne_zero]
  norm_num

theorem Cell.Has.near (positive : 0 < m) (has : (Cell.ofFloat F m e).Has x) :
    |x / 2 ^ e - m| ≤ 1 / 2 ∧ (|x / 2 ^ e - m| = 1 / 2 → Even (m : ℤ)) := by
  have step := two_zpow_pos e
  -- The lower end is a half of a place away, or a quarter below a power of two.
  have low : (4 * m - 2 : ℝ) ≤ (Cell.ofFloat F m e).low := by
    rw [ofFloat]
    split_ifs
    · rw [Nat.cast_sub (by omega)]
      push_cast
      linarith
    · rw [Nat.cast_sub (by omega)]
      push_cast
      linarith
  have low : (m - 1 / 2 : ℝ) * 2 ^ e ≤ (Cell.ofFloat F m e).low * 2 ^ (e - 2) := by
    rw [two_zpow_quarter]
    linarith [mul_le_mul_of_nonneg_right low step.le]
  have high : ((Cell.ofFloat F m e).high : ℝ) * 2 ^ (e - 2) = (m + 1 / 2) * 2 ^ e := by
    rw [two_zpow_quarter]
    simp only [ofFloat]
    push_cast
    ring
  have closed : (Cell.ofFloat F m e).closed = decide (m % 2 = 0) := rfl
  have exponent : (Cell.ofFloat F m e).exponent = e - 2 := rfl
  obtain ⟨atLeast, atMost, inside⟩ := has
  rw [exponent] at atLeast
  rw [exponent, high] at atMost
  rw [closed, exponent, high] at inside
  have scaled : x = x / 2 ^ e * 2 ^ e := (div_mul_cancel₀ x step.ne').symm
  generalize x / 2 ^ e = u at scaled
  rw [scaled] at atLeast atMost inside
  have left := le_of_mul_le_mul_right (low.trans atLeast) step
  have right := le_of_mul_le_mul_right atMost step
  refine ⟨abs_le.2 ⟨by linarith, by linarith⟩, fun tie => ?_⟩
  rw [Int.even_coe_nat, Nat.even_iff]
  by_contra odd
  obtain ⟨above, below⟩ := inside (decide_eq_false odd)
  have left := lt_of_mul_lt_mul_right (low.trans_lt above) step.le
  have right := lt_of_mul_lt_mul_right below step.le
  have strict : |u - m| < 1 / 2 := abs_lt.2 ⟨by linarith, by linarith⟩
  exact strict.ne tie

theorem Cell.Has.near_power (positive : 0 < m) (has : (Cell.ofFloat F m e).Has x)
    (power : m = 2 ^ F.mantissaBitsWithoutImplicit) (above : F.minExponent < e) :
    m - 1 / 4 ≤ x / 2 ^ e := by
  have bits : F.mantissaBits - 1 = F.mantissaBitsWithoutImplicit := by
    rw [mantissaBits_eq, Nat.add_sub_cancel]
  have low : (Cell.ofFloat F m e).low = 4 * m - 1 := by
    rw [ofFloat, bits]
    exact if_pos ⟨power, above⟩
  have bound := has.low_le
  have exponent : (Cell.ofFloat F m e).exponent = e - 2 := rfl
  rw [low, exponent, two_zpow_quarter, Nat.cast_sub (by omega)] at bound
  push_cast at bound
  rw [le_div_iff₀ (two_zpow_pos e)]
  linarith

/-- What lies in the cell of a float rounds to it. -/
theorem Cell.Has.roundTo_eq (canonical : Canonical F m e) (positive : 0 < m)
    (has : (Cell.ofFloat F m e).Has x) : roundTo F x = m * 2 ^ e := by
  obtain ⟨near, tie⟩ := has.near positive
  have step := two_zpow_pos e
  have bounds := abs_le.1 near
  have one : (1 : ℝ) ≤ m := by exact_mod_cast positive
  have scaled : x = x / 2 ^ e * 2 ^ e := (div_mul_cancel₀ x step.ne').symm
  have nonneg : 0 ≤ x := by
    rw [scaled]
    exact mul_nonneg (by linarith) step.le
  have small : (m + 1 : ℝ) ≤ 2 ^ (F.mantissaBits : ℤ) := by exact_mod_cast canonical.small
  have atMost : place F x ≤ e := by
    refine place_le canonical.least ?_
    rw [abs_of_nonneg nonneg, scaled, add_comm, two_zpow_add]
    exact mul_lt_mul_of_pos_right (by linarith) step
  obtain atLeast | below := le_or_gt e (place F x)
  · have same : place F x = e := le_antisymm atMost atLeast
    rw [roundTo, same, nearestEven_eq (n := m) (by exact_mod_cast near) (by exact_mod_cast tie)]
    push_cast
    rfl
  · -- Only just below a power of two does a number have a lower place than its float.
    have above : F.minExponent < e := (minExponent_le_place F x).trans_lt below
    have full : 2 ^ F.mantissaBitsWithoutImplicit ≤ m :=
      canonical.full.resolve_right above.ne'
    have less : x < 2 ^ (e + F.mantissaBits - 1) := by
      by_contra large
      exact below.not_ge (le_place (by rw [abs_of_nonneg nonneg]; exact not_lt.1 large))
    have exponent : e + F.mantissaBits - 1 = F.mantissaBitsWithoutImplicit + e := by
      rw [mantissaBits_eq]
      push_cast
      ring
    rw [exponent, two_zpow_add, ← div_lt_iff₀ step] at less
    have power : m = 2 ^ F.mantissaBitsWithoutImplicit := by
      have bound : (m : ℝ) < 2 ^ F.mantissaBitsWithoutImplicit + 1 := by
        rw [zpow_natCast] at less
        linarith
      have bound : m < 2 ^ F.mantissaBitsWithoutImplicit + 1 := by exact_mod_cast bound
      omega
    have quarter := has.near_power positive power above
    have value : (m : ℝ) = 2 ^ (F.mantissaBitsWithoutImplicit : ℤ) := by exact_mod_cast power
    rw [← value] at less
    have half : (2 : ℝ) ^ e = 2 * 2 ^ (e - 1) := by
      rw [zpow_sub_one₀ two_ne_zero]
      ring
    have same : place F x = e - 1 := by
      refine le_antisymm (by omega) (le_place ?_)
      rw [abs_of_nonneg nonneg, scaled, show e - 1 + F.mantissaBits - 1 =
        F.mantissaBitsWithoutImplicit + (e - 1) by rw [mantissaBits_eq]; push_cast; ring,
        two_zpow_add, ← value, show (m : ℝ) * 2 ^ (e - 1) = m / 2 * 2 ^ e by rw [half]; ring]
      exact mul_le_mul_of_nonneg_right (by linarith) step.le
    have double : x / 2 ^ (e - 1) = 2 * (x / 2 ^ e) := by
      have := (two_zpow_pos (e - 1)).ne'
      rw [half]
      field_simp
    have rounded : nearestEven (x / 2 ^ (e - 1)) = 2 * m := by
      rw [double]
      refine nearestEven_eq ?_ fun _ => even_two_mul _
      push_cast
      rw [abs_le]
      constructor <;> linarith
    rw [roundTo, same, rounded, half]
    push_cast
    ring

end Float

end Pursuit.Decimal
