import Pursuit.Proofs.Arena.Travel
import Pursuit.Proofs.Plane.Rounded

/-! Which way an agent faces. A leg turns it towards its destination, and the heading that it gets
is as long as 1 but for rounding, if the way left is a number above `epsilon`. From a shorter way it
gets the origin for a heading, and from one that is too long to be squared at most zeros and NaN. -/
namespace Pursuit.Arena

open Pursuit.Binary

/-- Finite, and as long as 1 but for rounding. -/
inductive IsDirection (v : Point) : Prop
  | intro (z : ℂ) (value : v.Is z) (unit : |‖z‖ - 1| ≤ 1 / 2 ^ 20)

def IsAimless (v : Point) : Prop := Idle v.x ∧ Idle v.y

/-! ## Unit vectors -/

section Unit

variable {v : Point} {z : ℂ} {l L Q : ℝ}

theorem is_of_length (value : NarrowIs v.length l) :
    ∃ z, v.Is z ∧ l = roundedNorm z ∧ 0 ≤ l ∧ l ≤ 2 ^ 64 := by
  obtain ⟨x, y, isX, isY, nonneg, short, root⟩ := of_length value
  exact ⟨⟨x, y⟩, ⟨isX, isY⟩, root, nonneg, short⟩

theorem abs_norm_scaled_sub_le (root : L = roundedNorm z) (long : 1 / 2 ^ 23 < L) (nonneg : 0 ≤ Q)
    (inverse : |Q * L - 1| ≤ 2 / 2 ^ 24) : |‖z * Q‖ - 1| ≤ 12 / 2 ^ 24 := by
  have length := abs_roundedNorm_sub_le z
  rw [← root] at length
  have small : Q ≤ 2 ^ 24 := by
    have top : Q * (1 / 2 ^ 23) ≤ Q * L := mul_le_mul_of_nonneg_left long.le nonneg
    have := (abs_le.1 inverse).2
    norm_num at this top ⊢
    linarith
  have size : ‖z * Q‖ = Q * ‖z‖ := by
    rw [norm_mul, Complex.norm_real, Real.norm_of_nonneg nonneg, mul_comm]
  have scaled : |Q * L - ‖z * Q‖| ≤ ‖z * Q‖ / 2 ^ 21 + 1 / 2 ^ 48 := by
    rw [size, ← mul_sub, abs_mul, abs_of_nonneg nonneg]
    calc
      Q * |L - ‖z‖| ≤ Q * (‖z‖ / 2 ^ 21 + 1 / 2 ^ 72) := mul_le_mul_of_nonneg_left length nonneg
      _ = Q * ‖z‖ / 2 ^ 21 + Q * (1 / 2 ^ 72) := by ring
      _ ≤ Q * ‖z‖ / 2 ^ 21 + 2 ^ 24 * (1 / 2 ^ 72) := by gcongr
      _ = Q * ‖z‖ / 2 ^ 21 + 1 / 2 ^ 48 := by norm_num
  rw [abs_le] at inverse scaled ⊢
  constructor
  · linarith [inverse.1, scaled.2]
  · linarith [inverse.2, scaled.1]

/-- A vector whose length is a number gives a direction, or the origin if it is hardly longer than
zero. -/
theorem normalized_of_length (value : NarrowIs v.length l) :
    (v.normalized = .origin ∧ l ≤ 1 / 2 ^ 23) ∨ IsDirection v.normalized := by
  obtain ⟨z, isV, root, -, short⟩ := is_of_length value
  by_cases near : v.length ≤ epsilon
  · exact .inl ⟨normalized_of_near near, (narrow_le_iff value narrowIs_epsilon).1 near⟩
  · have long : 1 / 2 ^ 23 < l :=
      not_le.1 fun below => near ((narrow_le_iff value narrowIs_epsilon).2 below)
    obtain ⟨isInverse, nonneg, inverse⟩ := reciprocal_is value long short
    have scaled := abs_norm_scaled_sub_le root long nonneg inverse
    have small : ‖z * (roundTo .binary32 (1 / l) : ℝ)‖ ≤ 2 ^ (1 : ℤ) := by
      norm_num at scaled ⊢
      linarith [(abs_le.1 scaled).2]
    rw [normalized_of_far near]
    refine .inr ⟨_, isV.scale isInverse (by decide) (by decide) small, ?_⟩
    have last := (abs_norm_sub_norm_le _ _).trans
      (norm_rounded_sub_le (z * (roundTo .binary32 (1 / l) : ℝ)))
    rw [abs_le] at scaled last ⊢
    constructor
    · linarith [scaled.1, scaled.2, last.1]
    · linarith [scaled.2, last.2]

/-- Any other vector gives no direction at all. -/
theorem normalized_of_endless (endless : Endless v.length.toModel.unpack) :
    IsAimless v.normalized := by
  by_cases near : v.length ≤ epsilon
  · rw [normalized_of_near near]
    exact ⟨.inr narrowIs_zero, .inr narrowIs_zero⟩
  · have idle := idle_div one endless
    rw [normalized_of_far near]
    exact ⟨idle.mul_left _, idle.mul_left _⟩

theorem origin_angle (value : NarrowIs v.length l) : Point.origin.angle v = .ofBits 0 := by
  have zero : NarrowIs Point.origin.length 0 := narrowIs_zero
  have product := zero.mul value (by
    rw [zero_mul, roundTo_zero, abs_zero]
    exact limit_pos _)
  rw [zero_mul, roundTo_zero] at product
  exact if_pos ((narrow_le_iff product narrowIs_epsilon).2 (by positivity))

end Unit

/-! ## Agents on their way -/

theorem Navigator.step_stoppingDistance (n : Navigator) (dt : Float32) :
    (n.step dt).stoppingDistance = n.stoppingDistance := by
  rw [Navigator.step]
  split
  · rfl
  · split
    · rfl
    · split
      · rfl
      · rfl

theorem isDirection_ahead : IsDirection (.ofInts 1 0) := by
  refine ⟨1, ⟨?_, ?_⟩, ?_⟩
  · exact narrowIs_one
  · exact narrowIs_zero
  · rw [norm_one, sub_self, abs_zero]
    positivity

/-- The heading of an agent in the square of half side `H` that stops at a distance of `S` from
where it is to go. -/
structure Navigator.Headed (H S : ℝ) (n : Navigator) : Prop where
  stopping : NarrowIs n.stoppingDistance S
  heading : IsDirection n.forward ∨ IsAimless n.forward
  known : H ≤ 2 ^ 61 → IsDirection n.forward ∨ n.forward = .origin
  steady : H ≤ 2 ^ 61 → 1 / 2 ^ 23 ≤ S → IsDirection n.forward

namespace Navigator.Headed

variable {h dt : Float32} {H S : ℝ} {n n' : Navigator} {d : Point}

theorem of_same (headed : n.Headed H S) (stopping : n'.stoppingDistance = n.stoppingDistance)
    (forward : n'.forward = n.forward) : n'.Headed H S := by
  obtain ⟨value, heading, known, steady⟩ := headed
  exact ⟨stopping ▸ value, forward ▸ heading, forward ▸ known, forward ▸ steady⟩

theorem ahead (stopping : NarrowIs n.stoppingDistance S) (forward : n.forward = .ofInts 1 0) :
    n.Headed H S := by
  have direction : IsDirection n.forward := forward ▸ isDirection_ahead
  exact ⟨stopping, .inl direction, fun _ => .inl direction, fun _ _ => direction⟩

theorem travel (side : NarrowIs h H) (confined : n.Confined h H) (inside : d.isWithin h)
    (headed : n.Headed H S) (far : ¬ n.position.distance d ≤ n.stoppingDistance) :
    (n.travel d dt).Headed H S := by
  have turned {L : ℝ} (length : NarrowIs (n.position.distance d) L) :=
    normalized_of_length (v := d.sub n.position) length
  have number (large : H ≤ 2 ^ 61) :=
    length_of_stands large (confined.stands large) (standsAt_of_within side inside)
  refine ⟨headed.stopping, ?_, fun large => ?_, fun large least => ?_⟩
  · obtain endless | ⟨L, length⟩ := narrow_endless_or (n.position.distance d)
    · exact .inr (normalized_of_endless endless)
    · obtain ⟨zero, -⟩ | direction := turned length
      · rw [Navigator.travel, zero]
        exact .inr ⟨.inr narrowIs_zero, .inr narrowIs_zero⟩
      · exact .inl direction
  · obtain ⟨L, length⟩ := number large
    exact (turned length).symm.imp_right And.left
  · obtain ⟨L, length⟩ := number large
    have apart : S < L := not_le.1 fun below => far ((narrow_le_iff length headed.stopping).2 below)
    obtain ⟨-, near⟩ | direction := turned length
    · linarith
    · exact direction

theorem step (side : NarrowIs h H) (confined : n.Confined h H) (headed : n.Headed H S)
    (dt : Float32) :
    (n.step dt).Headed H S := by
  rw [Navigator.step]
  split
  · exact headed
  · split
    · exact headed
    next d aim =>
      split
      · exact headed
      next far => exact headed.travel side confined (confined.inside d aim) far

end Navigator.Headed

end Pursuit.Arena
