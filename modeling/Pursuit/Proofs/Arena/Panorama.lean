import Pursuit.Arena.Sight
import Pursuit.Settings.Run
import Pursuit.Proofs.Arena.Heading
import Pursuit.Proofs.Binary.Arccosine

/-! A view all around. Half of it is half a turn, and what lies at half a turn is not seen: just the
targets whose cosine comes to -1 or less, and these are next to straight behind. -/
namespace Pursuit

open Pursuit.Binary

/-! ## The cosine of an angle -/

namespace Point

variable {p q : Point}

def scope (p q : Point) : Float32 := p.length * q.length

def cosine (p q : Point) : Float32 := p.dot q / p.scope q

theorem half_turn_le_angle_iff (p q : Point) :
    .ofBits 0x43340000 ≤ p.angle q ↔ ¬ p.scope q ≤ epsilon ∧ p.cosine q ≤ -one := by
  have border : ¬ .ofBits 0x43340000 ≤ (.ofBits 0 : Float32) := by decide +kernel
  rw [angle]
  by_cases narrow : p.length * q.length ≤ epsilon
  · rw [if_pos narrow]
    exact iff_of_false border fun both => both.1 narrow
  · rw [if_neg narrow, half_turn_iff]
    exact (and_iff_right narrow).symm

end Point

namespace Arena

variable {v : ViewCone} {eye forward target : Point} {w : World}

/-- All that is in range and in line of sight is seen, but for what lies at half a turn. -/
theorem ViewCone.sees_of_full (full : v.angle = .ofBits 0x43b40000) :
    v.sees eye forward target w ↔ ¬ v.range < (target.sub eye).length ∧ w.lineOfSight eye target ∧
      ¬ (¬ forward.scope (target.sub eye) ≤ epsilon ∧ forward.cosine (target.sub eye) ≤ -one) := by
  have halved : (.ofBits 0x43b40000 : Float32) / two = .ofBits 0x43340000 := by decide +kernel
  rw [sees, full, halved, ← Point.half_turn_le_angle_iff]
  split
  next beyond => simp [beyond]
  next within =>
    split
    next behind => simp [behind]
    next ahead => simp [within, ahead]

/-! ## What is missed -/

section Behind

variable {f n lf ln D : ℝ}

theorem le_scope (unit : |f - 1| ≤ 1 / 2 ^ 20) (first : |lf - f| ≤ f / 2 ^ 21 + 1 / 2 ^ 72)
    (second : |ln - n| ≤ n / 2 ^ 21 + 1 / 2 ^ 72) (nonneg' : 0 ≤ ln)
    (product : D = roundTo .binary32 (lf * ln)) (wide : 1 / 2 ^ 23 < D) :
    (1 - 4 / 2 ^ 20) * (f * n) ≤ D ∧ 1 / 2 ^ 27 ≤ n ∧ 1 / 2 ^ 28 ≤ f * n := by
  rw [abs_le] at unit first second
  norm_num at unit first second wide
  have positive : 0 ≤ lf * ln := mul_nonneg (by linarith) nonneg'
  have high := roundTo_narrow_le positive
  have low := le_roundTo_narrow positive
  rw [← product] at high low
  norm_num at high low
  have room : lf * ln ≤ 2 * ln := mul_le_mul_of_nonneg_right (by linarith) nonneg'
  have long : 1 / 2 ^ 27 ≤ n := by norm_num; linarith
  have size : 1 / 2 ^ 28 ≤ f * n := by
    calc
      (1 : ℝ) / 2 ^ 28 = 1 / 2 * (1 / 2 ^ 27) := by norm_num
      _ ≤ f * n := mul_le_mul (by linarith) long (by positivity) (by linarith)
  refine ⟨?_, long, size⟩
  norm_num at long
  have shortF : (1 - 1 / 2 ^ 20) * f ≤ lf := by norm_num; linarith
  have shortN : (1 - 1 / 2 ^ 20) * n ≤ ln := by norm_num; linarith
  have both : (1 - 1 / 2 ^ 20) * f * ((1 - 1 / 2 ^ 20) * n) ≤ lf * ln :=
    mul_le_mul shortF shortN (by norm_num; linarith) (by linarith)
  norm_num at both size ⊢
  linarith

variable {v way : Point} {F z : ℂ}

section Quotient

variable (low : (1 - 4 / 2 ^ 20) * (‖F‖ * ‖z‖) ≤ D) (size : 1 / 2 ^ 28 ≤ ‖F‖ * ‖z‖)
  (positive : 0 < D)

include low size positive

theorem abs_dot_div_le : |roundedDot F z / D| ≤ 2 ^ (2 : ℤ) := by
  have error := abs_roundedDot_sub_le F z
  have inner := (abs_add_le _ _).trans (abs_mul_add_abs_mul_le F z)
  rw [abs_div, abs_of_pos positive, div_le_iff₀ positive]
  rw [abs_le] at error inner ⊢
  norm_num at error size low ⊢
  constructor <;> linarith

theorem dot_le_of_div (behind : roundTo .binary32 (roundedDot F z / D) ≤ -1) :
    F.re * z.re + F.im * z.im ≤ -((1 - 6 / 2 ^ 20) * (‖F‖ * ‖z‖)) := by
  have short := le_of_roundTo_le behind
  have error := abs_roundedDot_sub_le F z
  rw [div_le_iff₀ positive] at short
  rw [abs_le] at error
  norm_num at error short low size ⊢
  linarith

end Quotient

/-- A cosine of at most -1, as it is computed, is next to -1. -/
theorem dot_le_of_cosine (isF : v.Is F) (unit : |‖F‖ - 1| ≤ 1 / 2 ^ 20)
    (wide : ¬ v.scope way ≤ epsilon) (behind : v.cosine way ≤ -one) :
    ∃ z, way.Is z ∧ 1 / 2 ^ 27 ≤ ‖z‖ ∧
      F.re * z.re + F.im * z.im ≤ -((1 - 6 / 2 ^ 20) * (‖F‖ * ‖z‖)) := by
  obtain endless | ⟨D, isScope⟩ := narrow_endless_or (v.scope way)
  · exact absurd behind (not_le_of_idle (idle_div _ endless))
  obtain ⟨lf, ln, isFirst, isSecond, product⟩ := isScope.of_mul
  obtain ⟨z, isZ, root, nonneg, short⟩ := is_of_length isSecond
  have lengthF : ‖F‖ ≤ 2 := by
    rw [abs_le] at unit
    norm_num at unit
    linarith
  obtain rfl := Denotes.unique isFirst (isF.length (lengthF.trans (by norm_num)))
  have second := abs_roundedNorm_sub_le z
  rw [← root] at second
  have wide : 1 / 2 ^ 23 < D :=
    not_le.1 fun below => wide ((narrow_le_iff isScope narrowIs_epsilon).2 below)
  have positive : 0 < D := lt_trans (by positivity) wide
  obtain ⟨low, long, size⟩ := le_scope unit (abs_roundedNorm_sub_le F) second nonneg product wide
  have room : ‖F‖ * ‖z‖ ≤ 2 ^ (66 : ℤ) := by
    have far : ‖z‖ ≤ 2 ^ 65 := by
      rw [abs_le] at second
      norm_num at second short ⊢
      linarith
    calc
      ‖F‖ * ‖z‖ ≤ 2 * 2 ^ 65 := mul_le_mul lengthF far (norm_nonneg z) (by norm_num)
      _ = 2 ^ (66 : ℤ) := by norm_num
  have isDot := isF.dot isZ (by decide) (by decide) room
  have bound := abs_roundTo_le (fits_two_pow (by decide)) (abs_dot_div_le low size positive)
  have isCosine := isDot.div isScope positive.ne' (lt_limit_of_le_two_zpow bound (by decide))
  exact ⟨z, isZ, long,
    dot_le_of_div low size positive ((narrow_le_iff isCosine narrowIs_one.neg).1 behind)⟩

theorem eq_rounded_sub {p q : Point} {P Q : ℂ} (isP : p.Is P) (isQ : q.Is Q)
    (way : (q.sub p).Is z) :
    z = rounded (Q - P) := by
  obtain ⟨x, x', isX, isX', re⟩ := way.1.of_sub
  obtain ⟨y, y', isY, isY', im⟩ := way.2.of_sub
  rw [Denotes.unique isX isQ.1, Denotes.unique isX' isP.1] at re
  rw [Denotes.unique isY isQ.2, Denotes.unique isY' isP.2] at im
  exact Complex.ext re im

/-- What is missed all around lies next to straight behind. -/
theorem dot_way_le {E T : ℂ} (isE : eye.Is E) (isT : target.Is T) (isF : forward.Is F)
    (unit : |‖F‖ - 1| ≤ 1 / 2 ^ 20) (wide : ¬ forward.scope (target.sub eye) ≤ epsilon)
    (behind : forward.cosine (target.sub eye) ≤ -one) :
    F.re * (T - E).re + F.im * (T - E).im ≤ -((1 - 1 / 2 ^ 17) * (‖F‖ * ‖T - E‖)) := by
  obtain ⟨z, isZ, long, most⟩ := dot_le_of_cosine isF unit wide behind
  have error := norm_rounded_sub_le (T - E)
  rw [← eq_rounded_sub isE isT isZ] at error
  generalize T - E = w at *
  -- The heading against what was rounded off.
  have off := (abs_add_le _ _).trans (abs_mul_add_abs_mul_le F (z - w))
  have size := norm_sub_norm_le z w
  have size' := norm_sub_norm_le w z
  rw [norm_sub_rev] at size'
  rw [Complex.sub_re, Complex.sub_im] at off
  have shift : ‖F‖ * ‖z - w‖ ≤ ‖F‖ * (3 / 2 ^ 24 * ‖z‖) := by
    refine mul_le_mul_of_nonneg_left ?_ (norm_nonneg F)
    norm_num at error long ⊢
    linarith
  have total : ‖F‖ * ‖w‖ ≤ ‖F‖ * ((1 + 3 / 2 ^ 24) * ‖z‖) := by
    refine mul_le_mul_of_nonneg_left ?_ (norm_nonneg F)
    norm_num at error long ⊢
    linarith
  have nonneg : 0 ≤ ‖F‖ * ‖z‖ := by positivity
  rw [abs_le] at off
  norm_num at shift total most ⊢
  linarith

end Behind

/-- A view of 360 degrees. It sees what is in range and in line of sight, unless the target's cosine
comes to -1 or less, which is where the computed angle is half a turn. From a finite point, with a
finite heading as long as 1 but for rounding, that can only be a target whose direction is straight
behind but for about a fifth of a degree. -/
theorem ViewCone.full_view (full : v.angle = .ofBits 0x43b40000) :
    (∀ eye forward target w, v.sees eye forward target w ↔
      ¬ v.range < (target.sub eye).length ∧ w.lineOfSight eye target ∧
        ¬ (¬ forward.scope (target.sub eye) ≤ epsilon ∧ forward.cosine (target.sub eye) ≤ -one)) ∧
    ∀ eye forward target w E F T, eye.Is E → target.Is T → forward.Is F → |‖F‖ - 1| ≤ 1 / 2 ^ 20 →
      withinReach eye target v.range → w.lineOfSight eye target →
      -((1 - 1 / 2 ^ 17) * (‖F‖ * ‖T - E‖)) < F.re * (T - E).re + F.im * (T - E).im →
      v.sees eye forward target w := by
  refine ⟨fun eye forward target w => sees_of_full full, ?_⟩
  intro eye forward target w E F T isE isT isF unit near sight ahead
  have near : (target.sub eye).length ≤ v.range := of_decide_eq_true near
  refine (sees_of_full full).2 ⟨?_, sight, fun behind => ?_⟩
  · exact not_lt_of_le near
  · exact (dot_way_le isE isT isF unit behind.1 behind.2).not_gt ahead

theorem ViewCone.full_view_aside :
    ViewCone.sees ⟨narrowOfInt 10, .ofBits 0x43b40000⟩ .origin (.ofInts 1 0) (.ofInts (-3) 4)
      (.ofPlaces (narrowOfInt 20) [] []) := by
  have left : NarrowIs (narrowOfInt (-3)) (-3) := by
    have value := @narrowIs_of_unpack (narrowOfInt (-3)) .negative 12582912 (-22) (by decide) rfl
    norm_num [signed] at value
    exact value
  have up : NarrowIs (narrowOfInt 4) 4 := by
    have value := @narrowIs_of_unpack (narrowOfInt 4) .positive 8388608 (-21) (by decide) rfl
    norm_num [signed] at value
    exact value
  have size : ‖(⟨-3, 4⟩ : ℂ)‖ = 5 := by
    rw [Complex.norm_def, Complex.normSq_mk, show (-3 : ℝ) * -3 + 4 * 4 = 5 ^ 2 by norm_num]
    exact Real.sqrt_sq (by norm_num)
  refine (full_view rfl).2 .origin (.ofInts 1 0) (.ofInts (-3) 4) _ 0 1 ⟨-3, 4⟩
    ⟨narrowIs_zero, narrowIs_zero⟩
    ⟨left, up⟩ ⟨narrowIs_one, narrowIs_zero⟩ ?_ ?_ ?_ ?_
  · norm_num
  · decide +kernel
  · decide +kernel
  · rw [sub_zero, size]
    norm_num

/-- What lies behind is not seen, and neither is what lies next to it. -/
theorem ViewCone.full_view_behind :
    let c : Settings.CatSettings := { viewAngle := .ofBits 0x43b40000 }
    let w : World := .ofPlaces (narrowOfInt 20) [] []
    ({ cat := c } : Settings.RunSettings).validate = .ok () ∧
      ∀ target ∈ [.ofInts (-5) 0, ⟨narrowOfInt (-5), .ofBits 0x3a83126f⟩],
        withinReach .origin target c.viewRange ∧ w.lineOfSight .origin target ∧
          ViewCone.sees ⟨c.viewRange, c.viewAngle⟩ .origin (.ofInts 1 0) target w = false := by
  refine ⟨rfl, ?_⟩
  decide +kernel

end Arena

end Pursuit
