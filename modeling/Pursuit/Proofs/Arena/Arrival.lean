import Pursuit.Proofs.Arena.Heading

/-! A leg that is long enough to reach the destination. It ends next to it, so an agent that may
stop at some distance has arrived; one that has to be at the destination may miss it by the
roundings of the leg, and then it gets no nearer if the way left has no direction. -/
namespace Pursuit.Arena

open Pursuit.Binary

/-! ## The landing -/

section Landing

variable {P D w : ℂ} {L Q : ℝ}

theorem norm_le_of_root (root : L = roundedNorm w) (long : 1 / 2 ^ 23 < L) :
    ‖w‖ ≤ (1 + 1 / 2 ^ 20) * L := by
  have length := (abs_le.1 (abs_roundedNorm_sub_le w)).1
  rw [← root] at length
  norm_num at length long ⊢
  linarith

theorem norm_leg_sub_le (root : L = roundedNorm w) (long : 1 / 2 ^ 23 < L) (nonneg : 0 ≤ Q)
    (inverse : |Q * L - 1| ≤ 2 / 2 ^ 24) :
    ‖rounded (rounded (w * Q) * L) - w‖ ≤ 5 / 2 ^ 24 * L := by
  have positive : 0 < L := lt_trans (by norm_num) long
  have size := norm_le_of_root root long
  have turn := norm_rounded_sub_le (w * Q)
  have move := norm_rounded_sub_le (rounded (w * Q) * L)
  -- The errors of the direction, scaled up again, and of the inverse.
  have first : ‖rounded (w * Q) * L - w * Q * L‖ ≤ (‖w * (Q : ℂ)‖ / 2 ^ 24 + 1 / 2 ^ 149) * L := by
    rw [← sub_mul, norm_mul, Complex.norm_real, Real.norm_of_nonneg positive.le]
    exact mul_le_mul_of_nonneg_right turn positive.le
  have second : ‖w * Q * L - w‖ ≤ 2 / 2 ^ 24 * ‖w‖ := by
    have scaled : w * Q * L - w = ((Q * L - 1 : ℝ) : ℂ) * w := by
      push_cast
      ring
    rw [scaled, norm_mul, Complex.norm_real]
    exact mul_le_mul_of_nonneg_right inverse (norm_nonneg w)
  have scaled : ‖w * (Q : ℂ)‖ * L ≤ (1 + 2 / 2 ^ 24) * ‖w‖ := by
    rw [norm_mul, Complex.norm_real, Real.norm_of_nonneg nonneg, mul_assoc, mul_comm ‖w‖]
    exact mul_le_mul_of_nonneg_right (by linarith [(abs_le.1 inverse).2]) (norm_nonneg w)
  have total : ‖rounded (w * Q) * L‖ ≤
      ‖rounded (w * Q) * L - w * Q * L‖ + ‖w * Q * L - w‖ + ‖w‖ := by
    refine (norm_add₃_le).trans_eq' ?_
    rw [sub_add_sub_cancel, sub_add_cancel]
  have parts : ‖rounded (rounded (w * Q) * L) - w‖ ≤
    ‖rounded (rounded (w * Q) * L) - rounded (w * Q) * L‖ +
      ‖rounded (w * Q) * L - w * Q * L‖ + ‖w * Q * L - w‖ := by
    refine (norm_add₃_le).trans_eq' ?_
    rw [sub_add_sub_cancel, sub_add_sub_cancel]
  have tail : (1 : ℝ) / 2 ^ 149 * L ≤ 1 / 2 ^ 80 * L := by gcongr <;> norm_num
  have rest : (1 : ℝ) / 2 ^ 149 ≤ 1 / 2 ^ 80 * L := by
    norm_num at long ⊢
    linarith
  rw [add_mul, div_mul_eq_mul_div] at first
  linarith

theorem norm_landing_sub_le (root : L = roundedNorm (rounded (D - P))) (long : 1 / 2 ^ 23 < L)
    (nonneg : 0 ≤ Q) (inverse : |Q * L - 1| ≤ 2 / 2 ^ 24) :
    ‖rounded (P + rounded (rounded (rounded (D - P) * Q) * L)) - D‖ ≤ (L + ‖D‖) / 2 ^ 21 := by
  have leg := norm_leg_sub_le root long nonneg inverse
  have size := norm_le_of_root root long
  have way := norm_rounded_sub_le (D - P)
  generalize rounded (D - P) = w at leg size way
  generalize rounded (rounded (w * Q) * L) = m at leg ⊢
  have last := norm_rounded_sub_le (P + m)
  have apart : ‖D - P‖ ≤ ‖w - (D - P)‖ + ‖w‖ := by
    rw [norm_sub_rev w]
    exact norm_le_norm_sub_add _ _
  have near : ‖P + m - D‖ ≤ ‖m - w‖ + ‖w - (D - P)‖ := by
    refine (norm_add_le _ _).trans_eq' ?_
    congr 1
    ring
  have place : ‖P + m‖ ≤ ‖P + m - D‖ + ‖D‖ := norm_le_norm_sub_add _ _
  have total := norm_sub_le_norm_sub_add_norm_sub (rounded (P + m)) (P + m) D
  norm_num at long size way leg last ⊢
  linarith [norm_nonneg D]

end Landing

section Reach

variable {n : Navigator} {p q d u v : Point} {dt : Float32} {P D z : ℂ} {L S l : ℝ}

theorem of_distance (isP : p.Is P) (isD : d.Is D) (length : NarrowIs (p.distance d) L) :
    (d.sub p).Is (rounded (D - P)) ∧ L = roundedNorm (rounded (D - P)) ∧ L ≤ 2 ^ 64 := by
  obtain ⟨w, isW, root, -, short⟩ := is_of_length (v := d.sub p) length
  obtain ⟨dx, px, isDx, isPx, sameX⟩ := NarrowIs.of_sub isW.1
  obtain ⟨dy, py, isDy, isPy, sameY⟩ := NarrowIs.of_sub isW.2
  obtain rfl := Denotes.unique isD.1 isDx
  obtain rfl := Denotes.unique isD.2 isDy
  obtain rfl := Denotes.unique isP.1 isPx
  obtain rfl := Denotes.unique isP.2 isPy
  obtain rfl : w = rounded (D - P) := Complex.ext sameX sameY
  exact ⟨isW, root, short⟩

theorem travel_lands (isP : n.position.Is P) (isD : d.Is D)
    (length : NarrowIs (n.position.distance d) L) (long : 1 / 2 ^ 23 < L)
    (reach : n.position.distance d ≤ n.speed * dt) :
    ∃ z, (n.travel d dt).position.Is z ∧ ‖z - D‖ ≤ (L + ‖D‖) / 2 ^ 21 := by
  have positive : 0 < L := lt_trans (by norm_num) long
  obtain ⟨isWay, root, short⟩ := of_distance isP isD length
  have far : ¬ n.position.distance d ≤ epsilon := fun near =>
    long.not_ge ((narrow_le_iff length narrowIs_epsilon).1 near)
  obtain ⟨isInverse, nonneg, inverse⟩ := reciprocal_is length long short
  have landing := norm_landing_sub_le root long nonneg inverse
  have leg := norm_leg_sub_le root long nonneg inverse
  have unit := abs_norm_scaled_sub_le root long nonneg inverse
  have size := norm_le_of_root root long
  have isWhole := least_of_le length reach
  have turned : ‖rounded (D - P) * (roundTo .binary32 (1 / L) : ℝ)‖ ≤ 2 ^ (1 : ℤ) := by
    norm_num at unit ⊢
    linarith [(abs_le.1 unit).2]
  have isTurned := isWay.scale isInverse (by decide) (by decide) turned
  generalize rounded (D - P) = w at *
  have moved : ‖rounded (w * (roundTo .binary32 (1 / L) : ℝ)) * L‖ ≤ 2 ^ (66 : ℤ) := by
    have direction : ‖rounded (w * (roundTo .binary32 (1 / L) : ℝ))‖ ≤ 2 ^ 2 := by
      have := norm_rounded_le (w * (roundTo .binary32 (1 / L) : ℝ))
      norm_num at this turned ⊢
      linarith
    rw [norm_mul, Complex.norm_real, Real.norm_of_nonneg positive.le]
    calc
      _ ≤ 2 ^ 2 * 2 ^ 64 := mul_le_mul direction short positive.le (by positivity)
      _ = (2 : ℝ) ^ (66 : ℤ) := by norm_num
  have isMoved := isTurned.scale isWhole (by decide) (by decide) moved
  rw [Navigator.travel, normalized_of_far far]
  refine ⟨_, isP.add_small isMoved ?_, landing⟩
  refine (norm_le_norm_sub_add _ w).trans ?_
  norm_num at leg size short ⊢
  linarith

/-- An agent has arrived if it may stop at some distance from its destination. -/
theorem travel_arrives (isP : n.position.Is P) (isD : d.Is D)
    (length : NarrowIs (n.position.distance d) L) (long : 1 / 2 ^ 23 < L)
    (reach : n.position.distance d ≤ n.speed * dt) (stop : NarrowIs n.stoppingDistance S)
    (apart : S < L) (wide : (L + ‖D‖) / 2 ^ 18 ≤ S) :
    (n.travel d dt).position.distance d ≤ (n.travel d dt).stoppingDistance := by
  obtain ⟨z, isZ, landing⟩ := travel_lands isP isD length long reach
  obtain ⟨-, -, short⟩ := of_distance isP isD length
  have near : ‖D - z‖ ≤ 2 ^ 61 := by
    rw [norm_sub_rev]
    norm_num at landing wide short ⊢
    linarith
  obtain ⟨l, left, error⟩ := isZ.distance isD near
  refine (narrow_le_iff left stop).2 ?_
  rw [norm_sub_rev] at landing
  have high := (abs_le.1 error).2
  norm_num at landing wide long high ⊢
  linarith [norm_nonneg D]

/-! ## The way that is never made -/

def Strays (x : ℝ) (a : Float32) : Prop := a.isNaN ∨ NarrowIs a x

theorem Strays.add_idle {x : ℝ} {a b : Float32} (strays : Strays x a) (idle : Idle b) :
    Strays x (a + b) := by
  obtain nan | value := strays
  · exact .inl (isNaN_add nan b)
  · exact value.add_idle idle

theorem length_congr (isV : v.Is z) (isU : u.Is z) (value : NarrowIs v.length l) :
    NarrowIs u.length l := by
  obtain ⟨s, dot, rfl⟩ := NarrowIs.of_sqrt value fun _ => nonneg_of_dot_self
  have limit := dot.lt_limit
  obtain ⟨w, w', isX, isY, squareX, squareY, rfl, nonneg⟩ := of_dot_self dot
  obtain rfl := Denotes.unique isV.1 isX
  obtain rfl := Denotes.unique isV.2 isY
  exact ((isU.1.mul isU.1 squareX.lt_limit).add (isU.2.mul isU.2 squareY.lt_limit) limit).sqrt
    nonneg
    value.lt_limit

/-- Zeros of either sign apart, a place that has a distance is known by its coordinates. -/
theorem distance_congr (isP : p.Is P) (straysX : Strays P.re q.x) (straysY : Strays P.im q.y)
    (length : NarrowIs (q.distance d) L) : NarrowIs (p.distance d) L := by
  obtain ⟨w, isW, -, -⟩ := is_of_length (v := d.sub q) length
  have side {a b : Float32} {x y : ℝ} (strays : Strays x b) (way : NarrowIs (a - b) y) :
      ∃ z, NarrowIs a z ∧ y = roundTo .binary32 (z - x) := by
    obtain ⟨z, x', isA, isB, rfl⟩ := NarrowIs.of_sub way
    obtain nan | value := strays
    · rw [isB.isNaN_eq_false] at nan
      cases nan
    · exact ⟨z, isA, by rw [Denotes.unique value isB]⟩
  obtain ⟨dx, isDx, sameX⟩ := side straysX isW.1
  obtain ⟨dy, isDy, sameY⟩ := side straysY isW.2
  have isWay : (d.sub p).Is w := by
    refine ⟨sameX ▸ isDx.sub isP.1 ?_, sameY ▸ isDy.sub isP.2 ?_⟩
    · exact sameX ▸ isW.1.lt_limit
    · exact sameY ▸ isW.2.lt_limit
  exact length_congr isW isWay length

/-- On its way to `d` from a place `P`, unless it has got lost. -/
structure Navigator.Aground (d : Point) (P : ℂ) (n : Navigator) : Prop where
  aim : n.destination = some d
  x : Strays P.re n.position.x
  y : Strays P.im n.position.y

namespace Navigator.Aground

variable (isP : p.Is P) (aground : n.Aground d P)

include isP aground

/-- From a place next to the destination, or too far from it, there is no direction to go. -/
theorem step (hopeless : ∀ L, NarrowIs (p.distance d) L → L ≤ 1 / 2 ^ 23) (dt : Float32) :
    (n.step dt).Aground d P := by
  have aimless : IsAimless (d.sub n.position).normalized := by
    obtain endless | ⟨L, length⟩ := narrow_endless_or (n.position.distance d)
    · exact normalized_of_endless endless
    · have near := hopeless L (distance_congr isP aground.x aground.y length)
      rw [normalized_of_near ((narrow_le_iff length narrowIs_epsilon).2 near)]
      exact ⟨.inr narrowIs_zero, .inr narrowIs_zero⟩
  rw [Navigator.step, aground.aim]
  split
  · exact aground
  · dsimp only
    split
    · exact aground
    · exact ⟨aground.aim, aground.x.add_idle (aimless.1.mul_right _),
        aground.y.add_idle (aimless.2.mul_right _)⟩

theorem run (hopeless : ∀ L, NarrowIs (p.distance d) L → L ≤ 1 / 2 ^ 23) (dts : List Float32) :
    (dts.foldl Navigator.step n).Aground d P ∧
      (dts.foldl Navigator.step n).stoppingDistance = n.stoppingDistance := by
  induction dts generalizing n with
  | nil => exact ⟨aground, rfl⟩
  | cons dt dts ih =>
    obtain ⟨kept, same⟩ := ih (aground.step isP hopeless dt)
    exact ⟨kept, same.trans (n.step_stoppingDistance dt)⟩

theorem not_arrived (stop : NarrowIs n.stoppingDistance S)
    (far : ∀ L, NarrowIs (p.distance d) L → S < L) : n.hasArrived = false := by
  rw [hasArrived, remaining, aground.aim, decide_eq_false_iff_not]
  obtain endless | ⟨L, length⟩ := narrow_endless_or (n.position.distance d)
  · exact not_le_of_endless endless (not_sqrt_lt_zero _) stop
  · have apart := far L (distance_congr isP aground.x aground.y length)
    exact fun near => apart.not_ge ((narrow_le_iff length stop).1 near)

end Navigator.Aground

/-- An agent that can make the whole way left in one leg. If that way is a number above `epsilon`
the leg ends next to the destination, and the agent has arrived there if it stops at a distance that
the roundings cannot exceed. If it is not, the agent never arrives. -/
theorem Navigator.step_of_reach (aim : n.destination = some d) (moving : n.isStopped = false)
    (isP : n.position.Is P) (isD : d.Is D) (stop : NarrowIs n.stoppingDistance S)
    (far : n.hasArrived = false) (ahead : .ofBits 0 < dt) (reach : n.remaining ≤ n.speed * dt) :
    (∃ L z, NarrowIs n.remaining L ∧ 1 / 2 ^ 23 < L ∧ (n.step dt).position.Is z ∧
      ‖z - D‖ ≤ (L + ‖D‖) / 2 ^ 21 ∧ ((L + ‖D‖) / 2 ^ 18 ≤ S → (n.step dt).hasArrived)) ∨
    (∀ L, NarrowIs n.remaining L → L ≤ 1 / 2 ^ 23) ∧
      ∀ dts : List Float32, (dts.foldl Navigator.step n).hasArrived = false := by
  have left : n.remaining = n.position.distance d := by rw [remaining, aim]
  rw [hasArrived, decide_eq_false_iff_not] at far
  rw [left] at far reach ⊢
  by_cases reachable : ∃ L, NarrowIs (n.position.distance d) L ∧ 1 / 2 ^ 23 < L
  · obtain ⟨L, length, long⟩ := reachable
    have on : ¬ (n.isStopped || dt ≤ .ofBits 0) := by
      rw [moving, Bool.false_or, decide_eq_true_iff]
      exact not_le_of_lt_narrow narrowIs_zero ahead
    have gone : n.step dt = n.travel d dt := by
      rw [Navigator.step, if_neg on, aim]
      exact if_neg far
    rw [gone]
    obtain ⟨z, isZ, landing⟩ := travel_lands isP isD length long reach
    have apart : S < L := not_le.1 fun below => far ((narrow_le_iff length stop).2 below)
    refine .inl ⟨L, z, length, long, isZ, landing, fun wide => ?_⟩
    rw [hasArrived, remaining, show (n.travel d dt).destination = some d from aim]
    exact decide_eq_true (travel_arrives isP isD length long reach stop apart wide)
  · have hopeless (L : ℝ) (length : NarrowIs (n.position.distance d) L) : L ≤ 1 / 2 ^ 23 :=
      not_lt.1 fun long => reachable ⟨L, length, long⟩
    have aground : n.Aground d P := ⟨aim, .inr isP.1, .inr isP.2⟩
    refine .inr ⟨hopeless, fun dts => ?_⟩
    obtain ⟨kept, same⟩ := aground.run isP hopeless dts
    exact kept.not_arrived isP (same ▸ stop) fun L length =>
      not_le.1 fun below => far ((narrow_le_iff length stop).2 below)

def crossing : Navigator where
  position := .ofInts 0 0
  destination := some (.ofInts 0 3)
  speed := 100.0
  stoppingDistance := 0.5
  isStopped := false

theorem Navigator.step_of_reach_crossing : crossing.hasArrived = false ∧
    crossing.remaining ≤ crossing.speed * 1.0 ∧ (crossing.step 1.0).hasArrived := by
  have far : crossing.hasArrived = false := by decide +kernel
  have reach : crossing.remaining ≤ crossing.speed * 1.0 := by decide +kernel
  have three : NarrowIs 3.0 3 := by
    have value := @narrowIs_of_unpack 3.0 .positive 12582912 (-22) (by decide) rfl
    norm_num [signed] at value
    exact value
  have left : NarrowIs crossing.remaining 3 := by
    have evaluated : crossing.remaining = 3.0 := by decide +kernel
    exact evaluated ▸ three
  refine ⟨far, reach, ?_⟩
  obtain ⟨L, z, length, -, -, -, arrived⟩ | ⟨hopeless, -⟩ :=
    step_of_reach (n := crossing) (d := .ofInts 0 3) (P := 0) (D := ⟨0, 3⟩) rfl rfl
      ⟨narrowIs_zero, narrowIs_zero⟩ ⟨narrowIs_zero, three⟩ narrowIs_half far
        (by decide +kernel) reach
  · obtain rfl : L = 3 := Denotes.unique length left
    have size : ‖(⟨0, 3⟩ : ℂ)‖ = 3 := by
      rw [Complex.norm_def, Complex.normSq_mk]
      norm_num
    exact arrived (by rw [size]; norm_num)
  · have := hopeless 3 left
    norm_num at this

def overrun : Navigator where
  position := .ofInts (-20) (-20)
  destination := some (.ofInts 20 20)
  speed := 100.0
  stoppingDistance := 0.0
  isStopped := false

/-- The leg is long enough, but it ends beyond the corner. -/
theorem Navigator.overrun_not_arrived :
    (∃ w : World, overrun.headFor (.ofInts 20 20) w = .ok overrun) ∧ overrun.hasArrived = false ∧
      .ofBits 0 < overrun.speed ∧ overrun.remaining ≤ overrun.speed * 1.0 ∧
      (overrun.step 1.0).hasArrived = false := by
  refine ⟨⟨⟨20.0, [], []⟩, if_pos (by decide +kernel)⟩, ?_, ?_, ?_, ?_⟩ <;> decide +kernel

end Reach

end Pursuit.Arena
