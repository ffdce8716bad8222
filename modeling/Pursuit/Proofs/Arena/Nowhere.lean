import Pursuit.Arena.Sight
import Pursuit.Settings.Run
import Pursuit.Proofs.Binary.Endless
import Pursuit.Proofs.Plane.Square

/-! Targets with no finite way to them. No obstacle hides such a target and its direction is no
angle, so that it is seen wherever its distance is not above the range: not at infinity, but always
where a coordinate is NaN, as nothing is above or below that. -/
namespace Pursuit

open Pursuit.Binary

/-! ## Points without finite coordinates -/

namespace Point

variable {p q : Point}

theorem not_isFinite_iff :
    ¬ p.isFinite ↔ Endless p.x.toModel.unpack ∨ Endless p.y.toModel.unpack := by
  rw [isFinite, Bool.and_eq_true, not_and_or, Binary.not_isFinite_iff, Binary.not_isFinite_iff]

theorem not_isNumber_iff : ¬ p.IsNumber ↔ p.x.isNaN ∨ p.y.isNaN := by
  rw [IsNumber, not_and_or, Bool.not_eq_false, Bool.not_eq_false]

theorem not_isFinite_sub (endless : ¬ p.isFinite) (q : Point) : ¬ (p.sub q).isFinite :=
  not_isFinite_iff.2 <| (not_isFinite_iff.1 endless).imp (endless_sub ∘ .inl) (endless_sub ∘ .inl)

theorem not_isNumber_sub (nan : ¬ p.IsNumber) (q : Point) : ¬ (p.sub q).IsNumber :=
  not_isNumber_iff.2 <| (not_isNumber_iff.1 nan).imp (isNaN_sub ∘ .inl) (isNaN_sub ∘ .inl)

theorem isNumber_sub (number : p.IsNumber) (finite : q.isFinite) : (p.sub q).IsNumber := by
  rw [isFinite, Bool.and_eq_true] at finite
  obtain ⟨x, left⟩ := narrow_isFinite_iff.1 finite.1
  obtain ⟨y, up⟩ := narrow_isFinite_iff.1 finite.2
  exact ⟨sub_isNaN number.1 left, sub_isNaN number.2 up⟩

theorem endless_dot (p : Point) (endless : ¬ q.isFinite) : Endless (p.dot q).toModel.unpack :=
  endless_add <| (not_isFinite_iff.1 endless).imp (endless_mul ∘ .inr) (endless_mul ∘ .inr)

theorem endless_length (endless : ¬ p.isFinite) : Endless p.length.toModel.unpack :=
  endless_sqrt (endless_dot p endless)

theorem isExtent_dot_self (number : p.IsNumber) : IsExtent (p.dot p) :=
  (isExtent_mul_self (Bool.eq_false_iff.1 number.1)).add
    (isExtent_mul_self (Bool.eq_false_iff.1 number.2))

theorem isNaN_dot_self (nan : ¬ p.IsNumber) : (p.dot p).isNaN := by
  obtain nan | nan := not_isNumber_iff.1 nan
  · exact isNaN_add (isNaN_mul (.inl nan)) _
  · exact isNaN_add_right _ (isNaN_mul (.inl nan))

theorem isNaN_length_iff : p.length.isNaN ↔ ¬ p.IsNumber :=
  ⟨fun nan number => (isExtent_dot_self number).sqrt.not_isNaN nan,
    fun nan => isNaN_sqrt (isNaN_dot_self nan)⟩

theorem not_dot_self_lt_zero (p : Point) : ¬ p.dot p < .ofBits 0 := by
  by_cases number : p.IsNumber
  · exact (isExtent_dot_self number).not_lt_zero
  · exact not_lt_of_isNaN (.inl (isNaN_dot_self number))

theorem isNaN_angle (p : Point) (endless : ¬ q.isFinite) : (p.angle q).isNaN := by
  have length := endless_length endless
  have wide : ¬ p.length * q.length ≤ epsilon :=
    not_mul_le (not_sqrt_lt_zero _) (not_sqrt_lt_zero _) length narrowIs_epsilon
  have cosine : (p.dot q / (p.length * q.length)).isNaN :=
    isNaN_div (endless_dot p endless) (endless_mul (.inr length))
  rw [angle, if_neg wide, hold_of_isNaN _ _ cosine, eq_of_isNaN cosine]
  decide +kernel

end Point

namespace Arena

/-! ## What is seen of them -/

variable {v : ViewCone} {eye forward target a b : Point} {w : World}

theorem Obstacle.not_blocks (o : Obstacle) (endless : ¬ (b.sub a).isFinite) :
    o.blocks a b = false := by
  have square := Point.endless_dot (b.sub a) endless
  have long : ¬ (b.sub a).dot (b.sub a) ≤ epsilon :=
    not_le_of_endless square (Point.not_dot_self_lt_zero _) narrowIs_epsilon
  have part : ((o.center.sub a).dot (b.sub a) / (b.sub a).dot (b.sub a)).isNaN :=
    isNaN_div (Point.endless_dot _ endless) square
  rw [blocks, if_neg long, hold_of_isNaN _ _ part]
  refine decide_eq_false (not_lt_of_isNaN (.inl (Point.isNaN_length_iff.2 fun number => ?_)))
  refine Bool.eq_false_iff.1 number.1 (isNaN_sub (.inr ?_))
  exact isNaN_add_right _ (isNaN_mul (.inr part))

theorem World.lineOfSight_of_endless (w : World) (endless : ¬ (b.sub a).isFinite) :
    w.lineOfSight a b := by
  rw [lineOfSight, Bool.not_eq_true', List.any_eq_false]
  exact fun o _ => Bool.eq_false_iff.1 (o.not_blocks endless)

theorem ViewCone.sees_iff : v.sees eye forward target w ↔ ¬ v.range < eye.distance target ∧
    ¬ v.angle / two ≤ forward.angle (target.sub eye) ∧ w.lineOfSight eye target := by
  rw [sees, Point.distance]
  split
  next beyond => simp [beyond]
  next within =>
    split
    next aside => simp [aside]
    next ahead => simp [within, ahead]

theorem ViewCone.sees_of_endless (endless : ¬ (target.sub eye).isFinite) :
    v.sees eye forward target w ↔ ¬ v.range < eye.distance target := by
  have ahead : ¬ v.angle / two ≤ forward.angle (target.sub eye) :=
    not_le_of_isNaN (.inr (Point.isNaN_angle forward endless))
  rw [sees_iff, and_iff_right ahead, and_iff_left (w.lineOfSight_of_endless endless)]

theorem not_lt_distance_iff {r : Float32} (endless : ¬ (target.sub eye).isFinite) :
    ¬ r < eye.distance target ↔ r.isNaN ∨ (eye.distance target).isNaN ∨ r = .ofBits 0x7f800000 := by
  by_cases nan : r.isNaN ∨ (eye.distance target).isNaN
  · rw [← or_assoc]
    exact iff_of_true (not_lt_of_isNaN nan) (.inl nan)
  rw [← or_assoc, or_iff_right nan]
  rw [not_or, narrow_isNaN_iff, narrow_isNaN_iff] at nan
  have far : (eye.distance target).toModel.unpack = .infinity .positive := by
    have length := Point.endless_length endless
    obtain none | infinite | ⟨x, value, -⟩ :=
      cases_of_not_lt_zero (not_sqrt_lt_zero ((target.sub eye).dot _))
    · exact absurd none nan.2
    · exact infinite
    · exact absurd value (not_narrowIs length)
  obtain none | ⟨s, infinite⟩ | ⟨x, value⟩ := narrow_cases r
  · exact absurd none nan.1
  · cases s with
    | positive =>
      obtain rfl : r = .ofBits 0x7f800000 := narrow_eq_of_unpack_eq (infinite.trans rfl)
      refine iff_of_true ?_ rfl
      rw [lt_iff, infinite, far]
      decide
    | negative =>
      refine iff_of_false (not_not_intro ?_) ?_
      · rw [lt_iff, infinite, far]
        rfl
      · rintro rfl
        cases infinite.symm.trans (rfl : _ = Float.Model.UnpackedFloat.infinity .positive)
  · refine iff_of_false (not_not_intro (lt_of_infinity far value)) ?_
    rintro rfl
    exact value

/-- What is seen is in line of sight, and it is within reach if the range and its distance are in
order at all, which NaN is not. Of a target without finite coordinates neither its direction nor an
obstacle matters, so it is seen unless its distance is above the range: always at a NaN distance, as
that of a target with a NaN coordinate is, and otherwise only with a range that is itself NaN or
infinite. -/
theorem ViewCone.sees_withinReach (v : ViewCone) (eye forward target : Point) (w : World) :
    (v.sees eye forward target w → w.lineOfSight eye target ∧
      (withinReach eye target v.range ↔ ¬ v.range.isNaN ∧ ¬ (eye.distance target).isNaN)) ∧
    (¬ target.isFinite → (v.sees eye forward target w ↔
      v.range.isNaN ∨ (eye.distance target).isNaN ∨ v.range = .ofBits 0x7f800000)) ∧
    (¬ target.IsNumber → (eye.distance target).isNaN) ∧
    (eye.isFinite → ((eye.distance target).isNaN ↔ ¬ target.IsNumber)) := by
  refine ⟨fun seen => ?_, fun endless => ?_, fun nan => ?_, fun finite => ?_⟩
  · obtain ⟨near, -, sight⟩ := sees_iff.1 seen
    refine ⟨sight, fun reach => ?_, fun ⟨range, distance⟩ => ?_⟩
    · have reach : eye.distance target ≤ v.range := of_decide_eq_true reach
      exact ⟨fun nan => not_le_of_isNaN (.inr nan) reach,
        fun nan => not_le_of_isNaN (.inl nan) reach⟩
    · exact decide_eq_true ((not_lt_iff_le distance range).1 near)
  · have endless := Point.not_isFinite_sub endless eye
    rw [sees_of_endless endless, not_lt_distance_iff endless]
  · exact Point.isNaN_length_iff.2 (Point.not_isNumber_sub nan eye)
  · rw [Point.distance, Point.isNaN_length_iff]
    exact not_congr ⟨fun number => by_contra fun nan => Point.not_isNumber_sub nan eye number,
      fun number => Point.isNumber_sub number finite⟩

theorem ViewCone.sees_withinReach_ahead :
    let v : ViewCone := ⟨narrowOfInt 15, narrowOfInt 90⟩
    let w : World := .ofPlaces (narrowOfInt 20) [⟨.ofInts 0 5, 2.0⟩] []
    withinReach .origin (.ofInts 10 2) v.range ∧ w.lineOfSight .origin (.ofInts 10 2) ∧
      ¬ v.sees .origin (.ofInts 1 0) ⟨.ofBits 0x7f800000, .ofBits 0⟩ w := by
  intro v w
  obtain ⟨seen, -⟩ := v.sees_withinReach .origin (.ofInts 1 0) (.ofInts 10 2) w
  obtain ⟨-, far, -⟩ := v.sees_withinReach .origin (.ofInts 1 0) ⟨.ofBits 0x7f800000, .ofBits 0⟩ w
  obtain ⟨sight, reach⟩ := seen (by decide +kernel)
  exact ⟨reach.2 (by decide +kernel), sight,
    fun phantom => absurd ((far (by decide +kernel)).1 phantom)
    (by decide +kernel)⟩

/-- A mouse that is nowhere is seen, but it is not within reach. -/
theorem ViewCone.sees_nowhere :
    let c : Settings.CatSettings := {}
    let target : Point := ⟨.ofBits 0x7fc00000, .ofBits 0⟩
    let w : World := .ofPlaces (narrowOfInt 20) [] []
    ({ cat := c } : Settings.RunSettings).validate = .ok () ∧ ¬ target.isFinite ∧
      ViewCone.sees ⟨c.viewRange, c.viewAngle⟩ .origin (.ofInts 1 0) target w ∧
        ¬ withinReach .origin target c.viewRange := by
  refine ⟨rfl, ?_⟩
  decide +kernel

end Arena

end Pursuit
