import Pursuit.Arena.Navigator
import Pursuit.Proofs.Binary.Error
import Pursuit.Proofs.Plane.Square

/-! One leg of the way to a destination inside the square. Each operation of it is rounded, so an
agent may come to stand beyond its destination, but by so little that it never is beyond the border
by more than one part in 2^20. In a square so large that squares of distances overflow a coordinate
may become NaN. -/
namespace Pursuit.Arena

open Float.Model (Format)
open Pursuit.Binary

/-! ## In real numbers -/

section Real

variable {H p d q t l w s : ℝ}

/-- With a destination further up, the way made is that to it but for the errors of its five
roundings. -/
theorem leg_le (fits : Fits .binary32 p) (size : 1 / 2 ^ 27 ≤ H) (low : -((1 + 1 / 2 ^ 20) * H) ≤ p)
    (high : p ≤ (1 + 1 / 2 ^ 20) * H) (aim : d ≤ H) (nonneg : 0 ≤ q)
    (inverse : q * l ≤ 1 + 2 / 2 ^ 24) (forward : 0 ≤ t) (most : t ≤ l) (short : l ≤ 2 ^ 64) :
    roundTo .binary32 (p +
      roundTo .binary32 (roundTo .binary32 (roundTo .binary32 (d - p) * q) * t)) ≤
      (1 + 1 / 2 ^ 20) * H := by
  obtain back | ahead := le_or_gt (roundTo .binary32 (d - p)) 0
  · -- A way that does not lead up leads to no more than `p`.
    have turned := roundTo_nonpos (F := .binary32) (mul_nonpos_of_nonpos_of_nonneg back nonneg)
    have moved := roundTo_nonpos (F := .binary32) (mul_nonpos_of_nonpos_of_nonneg turned forward)
    exact (roundTo_le fits (by linarith)).trans high
  · have apart : 0 ≤ d - p := by
      by_contra beyond
      exact absurd (roundTo_nonpos (F := .binary32) (not_le.1 beyond).le) ahead.not_ge
    have w_le := roundTo_narrow_le apart
    generalize roundTo .binary32 (d - p) = w at ahead w_le ⊢
    have u_le := roundTo_narrow_le (mul_nonneg ahead.le nonneg)
    have u_nonneg := roundTo_nonneg (F := .binary32) (mul_nonneg ahead.le nonneg)
    generalize roundTo .binary32 (w * q) = u at u_le u_nonneg ⊢
    have m_le := roundTo_narrow_le (mul_nonneg u_nonneg forward)
    have scaled : u * t ≤ (1 + 1 / 2 ^ 24) * ((1 + 2 / 2 ^ 24) * w) + 1 / 2 ^ 86 :=
      calc
        u * t ≤ u * l := mul_le_mul_of_nonneg_left most u_nonneg
        _ ≤ ((1 + 1 / 2 ^ 24) * (w * q) + 1 / 2 ^ 150) * l :=
          mul_le_mul_of_nonneg_right u_le (forward.trans most)
        _ = (1 + 1 / 2 ^ 24) * (w * (q * l)) + 1 / 2 ^ 150 * l := by ring
        _ ≤ (1 + 1 / 2 ^ 24) * (w * (1 + 2 / 2 ^ 24)) + 1 / 2 ^ 150 * 2 ^ 64 := by gcongr
        _ = (1 + 1 / 2 ^ 24) * ((1 + 2 / 2 ^ 24) * w) + 1 / 2 ^ 86 := by ring
    obtain below | above := le_or_gt (p + roundTo .binary32 (u * t)) 0
    · exact (roundTo_nonpos below).trans (by linarith)
    · have last := roundTo_narrow_le above.le
      linarith

theorem abs_leg_le (fits : Fits .binary32 p) (size : 1 / 2 ^ 27 ≤ H)
    (start : |p| ≤ (1 + 1 / 2 ^ 20) * H) (aim : |d| ≤ H) (nonneg : 0 ≤ q)
    (inverse : q * l ≤ 1 + 2 / 2 ^ 24) (forward : 0 ≤ t) (most : t ≤ l) (short : l ≤ 2 ^ 64) :
    |roundTo .binary32
      (p + roundTo .binary32 (roundTo .binary32 (roundTo .binary32 (d - p) * q) * t))| ≤
      (1 + 1 / 2 ^ 20) * H := by
  rw [abs_le] at start aim ⊢
  have turned := leg_le fits.neg size (neg_le_neg start.2) (by linarith [start.1]) (neg_le.1 aim.1)
    nonneg inverse forward most short
  rw [show -d - -p = -(d - p) by ring, roundTo_neg, neg_mul, roundTo_neg, neg_mul, roundTo_neg,
    ← neg_add, roundTo_neg] at turned
  exact ⟨by linarith, leg_le fits size start.1 start.2 aim.2 nonneg inverse forward most short⟩

theorem abs_le_root (nonneg : 0 ≤ s)
    (root : l = roundTo .binary32 √(roundTo .binary32 (roundTo .binary32 (w * w) + s)))
    (long : 1 / 2 ^ 23 < l) : |w| ≤ 2 * l := by
  obtain tiny | large := lt_or_ge |w| (1 / 2 ^ 23)
  · linarith
  have square : 1 / 2 ^ 46 ≤ w * w := by
    rw [← abs_mul_abs_self]
    calc
      (1 : ℝ) / 2 ^ 46 = 1 / 2 ^ 23 * (1 / 2 ^ 23) := by norm_num
      _ ≤ |w| * |w| := mul_le_mul large large (by positivity) (abs_nonneg w)
  have le_square := le_roundTo_narrow (mul_self_nonneg w)
  have le_sum := le_roundTo_narrow
    (add_nonneg (roundTo_nonneg (F := .binary32) (mul_self_nonneg w)) nonneg)
  generalize roundTo .binary32 (w * w) = a at le_square le_sum root
  have half : 9 / 16 * |w| ≤ √(roundTo .binary32 (a + s)) := by
    refine Real.le_sqrt_of_sq_le ?_
    rw [mul_pow, sq_abs, pow_two w]
    linarith
  have le_root := le_roundTo_narrow (Real.sqrt_nonneg (roundTo .binary32 (a + s)))
  rw [root]
  linarith

end Real

/-! ## Lengths -/

section Length

variable {v : Point} {w w' l : ℝ} {k : ℤ}

theorem normalized_of_near (near : v.length ≤ epsilon) : v.normalized = .origin := if_pos near

theorem normalized_of_far (far : ¬ v.length ≤ epsilon) : v.normalized = v.scale (one / v.length) :=
  if_neg far

theorem mul_self_le_two_zpow (small : |w| ≤ 2 ^ k) : |w * w| ≤ 2 ^ (2 * k) := by
  rw [abs_mul, two_mul, two_zpow_add]
  exact mul_le_mul small small (abs_nonneg w) (two_zpow_pos k).le

/-- The length of a vector that is neither too long to be squared nor vanishingly short. -/
theorem length_is (isX : NarrowIs v.x w) (isY : NarrowIs v.y w') (low : -70 ≤ k) (high : k ≤ 63)
    (smallX : |w| ≤ 2 ^ k) (smallY : |w'| ≤ 2 ^ k) :
    ∃ l, NarrowIs v.length l ∧ 0 ≤ l ∧ l ≤ 2 ^ (k + 1) := by
  have squareX := abs_roundTo_le (fits_two_pow (by omega)) (mul_self_le_two_zpow smallX)
  have squareY := abs_roundTo_le (fits_two_pow (by omega)) (mul_self_le_two_zpow smallY)
  have isSquareX := isX.mul isX (lt_limit_of_le_two_zpow squareX (by omega))
  have isSquareY := isY.mul isY (lt_limit_of_le_two_zpow squareY (by omega))
  have sum : |roundTo .binary32 (w * w) + roundTo .binary32 (w' * w')| ≤ 2 ^ (2 * k + 1) := by
    rw [two_zpow_add, zpow_one, mul_two]
    exact (abs_add_le _ _).trans (add_le_add squareX squareY)
  have total := abs_roundTo_le (fits_two_pow (by omega)) sum
  have isTotal := isSquareX.add isSquareY (lt_limit_of_le_two_zpow total (by omega))
  have nonneg := roundTo_nonneg (F := .binary32) (add_nonneg
    (roundTo_nonneg (F := .binary32) (mul_self_nonneg w))
    (roundTo_nonneg (F := .binary32) (mul_self_nonneg w')))
  generalize roundTo .binary32 (roundTo .binary32 (w * w) + roundTo .binary32 (w' * w')) = z
    at total isTotal nonneg
  have root : |√z| ≤ 2 ^ (k + 1) := by
    rw [abs_of_nonneg (Real.sqrt_nonneg z), Real.sqrt_le_left (two_zpow_pos _).le, pow_two,
      ← two_zpow_add]
    exact (le_abs_self z).trans (total.trans (two_zpow_le (by omega)))
  have bound := abs_roundTo_le (fits_two_pow (by omega)) root
  exact ⟨_, isTotal.sqrt nonneg (lt_limit_of_le_two_zpow bound (by omega)),
    roundTo_nonneg (Real.sqrt_nonneg z), (le_abs_self _).trans bound⟩

theorem of_dot_self {z : ℝ} (dot : NarrowIs (v.dot v) z) :
    ∃ w w', NarrowIs v.x w ∧ NarrowIs v.y w' ∧
    NarrowIs (v.x * v.x) (roundTo .binary32 (w * w)) ∧
    NarrowIs (v.y * v.y) (roundTo .binary32 (w' * w')) ∧
    z = roundTo .binary32 (roundTo .binary32 (w * w) + roundTo .binary32 (w' * w')) ∧ 0 ≤ z := by
  obtain ⟨_, _, squareX, squareY, rfl⟩ := NarrowIs.of_add dot
  obtain ⟨w, _, isX, again, rfl⟩ := NarrowIs.of_mul squareX
  obtain rfl := Denotes.unique isX again
  obtain ⟨w', _, isY, again, rfl⟩ := NarrowIs.of_mul squareY
  obtain rfl := Denotes.unique isY again
  exact ⟨w, w', isX, isY, squareX, squareY, rfl, roundTo_nonneg (add_nonneg
    (roundTo_nonneg (mul_self_nonneg w)) (roundTo_nonneg (mul_self_nonneg w')))⟩

theorem nonneg_of_dot_self {z : ℝ} (dot : NarrowIs (v.dot v) z) : 0 ≤ z := by
  obtain ⟨-, -, -, -, -, -, -, nonneg⟩ := of_dot_self dot
  exact nonneg

theorem of_length (value : NarrowIs v.length l) : ∃ w w', NarrowIs v.x w ∧ NarrowIs v.y w' ∧
    0 ≤ l ∧ l ≤ 2 ^ 64 ∧
    l = roundTo .binary32 √(roundTo .binary32
      (roundTo .binary32 (w * w) + roundTo .binary32 (w' * w'))) := by
  obtain ⟨z, dot, rfl⟩ := NarrowIs.of_sqrt value fun _ => nonneg_of_dot_self
  have below := dot.lt_limit
  obtain ⟨w, w', isX, isY, -, -, rfl, nonneg⟩ := of_dot_self dot
  refine ⟨w, w', isX, isY, roundTo_nonneg (Real.sqrt_nonneg _), ?_, rfl⟩
  have top : Fits .binary32 (2 ^ 64) := fits_two_pow (k := 64) (by decide)
  refine roundTo_le top ((Real.sqrt_le_left (by norm_num)).2 ?_)
  rw [abs_of_nonneg nonneg, limit_binary32] at below
  exact below.le.trans (by norm_num)

end Length

/-! ## One leg -/

/-- NaN, or beyond the border by hardly anything. -/
inductive Grazes (H : ℝ) (a : Float32) : Prop
  | lost (nan : a.isNaN)
  | near (x : ℝ) (value : NarrowIs a x) (bound : |x| ≤ (1 + 1 / 2 ^ 20) * H)

section Leg

variable {H : ℝ} {a b : Float32} {x : ℝ}

theorem Grazes.abs_le (grazes : Grazes H a) (value : NarrowIs a x) :
    |x| ≤ (1 + 1 / 2 ^ 20) * H := by
  obtain nan | ⟨y, same, bound⟩ := grazes
  · rw [value.isNaN_eq_false] at nan
    cases nan
  · rwa [Denotes.unique value same]

theorem Grazes.add_idle (grazes : Grazes H a) (idle : Idle b) : Grazes H (a + b) := by
  obtain nan | ⟨x, value, bound⟩ := grazes
  · exact .lost (isNaN_add nan b)
  · obtain nan | kept := value.add_idle idle
    · exact .lost nan
    · exact .near x kept bound

theorem leg_is {p d q t : Float32} {P D Q T l : ℝ} (size : 1 / 2 ^ 27 ≤ H) (isP : NarrowIs p P)
    (start : |P| ≤ (1 + 1 / 2 ^ 20) * H) (aim : |D| ≤ H)
    (isWay : NarrowIs (d - p) (roundTo .binary32 (D - P)))
    (side : |roundTo .binary32 (D - P)| ≤ 2 * l) (isQ : NarrowIs q Q) (nonneg : 0 ≤ Q)
    (inverse : Q * l ≤ 1 + 2 / 2 ^ 24) (isT : NarrowIs t T) (forward : 0 ≤ T) (most : T ≤ l)
    (short : l ≤ 2 ^ 64) :
    ∃ x, NarrowIs (p + (d - p) * q * t) x ∧ |x| ≤ (1 + 1 / 2 ^ 20) * H := by
  have unit : |roundTo .binary32 (D - P) * Q| ≤ 2 ^ (2 : ℤ) := by
    rw [abs_mul, abs_of_nonneg nonneg]
    calc
      |roundTo .binary32 (D - P)| * Q ≤ 2 * l * Q := mul_le_mul_of_nonneg_right side nonneg
      _ = 2 * (Q * l) := by ring
      _ ≤ 2 ^ (2 : ℤ) := by
        norm_num at inverse ⊢
        linarith
  have turned := abs_roundTo_le (fits_two_pow (by decide)) unit
  have isTurned := isWay.mul isQ (lt_limit_of_le_two_zpow turned (by decide))
  have moved : |roundTo .binary32 (roundTo .binary32 (D - P) * Q) * T| ≤ 2 ^ (66 : ℤ) := by
    rw [abs_mul, abs_of_nonneg forward]
    calc
      |roundTo .binary32 (roundTo .binary32 (D - P) * Q)| * T ≤ 2 ^ (2 : ℤ) * 2 ^ 64 :=
        mul_le_mul turned (most.trans short) forward (by positivity)
      _ = 2 ^ (66 : ℤ) := by norm_num
  have small := abs_roundTo_le (fits_two_pow (by decide)) moved
  have isMoved := isTurned.mul isT (lt_limit_of_le_two_zpow small (by decide))
  exact ⟨_, isP.add_small isMoved (small.trans (by norm_num)),
    abs_leg_le (Denotes.fits isP) size start aim nonneg inverse forward most short⟩

theorem still_is {p t : Float32} {P T : ℝ} (isP : NarrowIs p P) (isT : NarrowIs t T) :
    NarrowIs (p + .ofBits 0 * t) P := by
  have nothing := narrowIs_zero.mul isT (by
    rw [zero_mul, roundTo_zero, abs_zero]
    exact limit_pos _)
  rw [zero_mul, roundTo_zero] at nothing
  have kept := isP.add nothing (by
    rw [add_zero, Denotes.roundTo_eq isP]
    exact isP.lt_limit)
  rwa [add_zero, Denotes.roundTo_eq isP] at kept

theorem reciprocal_is {l : Float32} {L : ℝ} (length : NarrowIs l L) (long : 1 / 2 ^ 23 < L)
    (short : L ≤ 2 ^ 64) : NarrowIs (one / l) (roundTo .binary32 (1 / L)) ∧
      0 ≤ roundTo .binary32 (1 / L) ∧ |roundTo .binary32 (1 / L) * L - 1| ≤ 2 / 2 ^ 24 := by
  have positive : 0 < L := lt_trans (by norm_num) long
  have nonneg : 0 ≤ 1 / L := (one_div_pos.2 positive).le
  have small : |1 / L| ≤ 2 ^ (23 : ℤ) := by
    rw [abs_of_nonneg nonneg, div_le_iff₀ positive]
    norm_num at long ⊢
    linarith
  have bound := abs_roundTo_le (fits_two_pow (by decide)) small
  refine ⟨narrowIs_one.div length positive.ne' (lt_limit_of_le_two_zpow bound (by decide)),
    roundTo_nonneg nonneg, ?_⟩
  have error := abs_roundTo_narrow_sub_le (1 / L)
  rw [abs_of_nonneg nonneg] at error
  have scaled : roundTo .binary32 (1 / L) * L - 1 = (roundTo .binary32 (1 / L) - 1 / L) * L := by
    field_simp
  calc
    |roundTo .binary32 (1 / L) * L - 1| = |roundTo .binary32 (1 / L) - 1 / L| * L := by
      rw [scaled, abs_mul, abs_of_pos positive]
    _ ≤ (1 / 2 ^ 24 * (1 / L) + 1 / 2 ^ 150) * L := mul_le_mul_of_nonneg_right error positive.le
    _ = 1 / 2 ^ 24 + 1 / 2 ^ 150 * L := by field_simp
    _ ≤ 1 / 2 ^ 24 + 1 / 2 ^ 150 * 2 ^ 64 := by gcongr
    _ ≤ 2 / 2 ^ 24 := by norm_num

theorem inverse_is {l : Float32} {L : ℝ} (length : NarrowIs l L) (long : 1 / 2 ^ 23 < L)
    (short : L ≤ 2 ^ 64) : ∃ Q, NarrowIs (one / l) Q ∧ 0 ≤ Q ∧ Q * L ≤ 1 + 2 / 2 ^ 24 := by
  obtain ⟨value, nonneg, near⟩ := reciprocal_is length long short
  exact ⟨_, value, nonneg, by linarith [(abs_le.1 near).2]⟩

end Leg

/-! ## Travel -/

def GrazesAt (H : ℝ) (p : Point) : Prop := Grazes H p.x ∧ Grazes H p.y

/-- Both coordinates are numbers, and beyond the border by hardly anything. -/
inductive StandsAt (H : ℝ) (p : Point) : Prop
  | intro (x y : ℝ) (isX : NarrowIs p.x x) (isY : NarrowIs p.y y)
      (boundX : |x| ≤ (1 + 1 / 2 ^ 20) * H) (boundY : |y| ≤ (1 + 1 / 2 ^ 20) * H)

section Travel

variable {H L s : ℝ} {h dt : Float32} {n : Navigator} {d : Point}

theorem StandsAt.grazes {p : Point} (stands : StandsAt H p) : GrazesAt H p := by
  obtain ⟨x, y, isX, isY, boundX, boundY⟩ := stands
  exact ⟨.near x isX boundX, .near y isY boundY⟩

theorem size_of_long {v : Point} {px py dx dy : ℝ}
    (isX : NarrowIs v.x (roundTo .binary32 (dx - px)))
    (isY : NarrowIs v.y (roundTo .binary32 (dy - py))) (length : NarrowIs v.length L)
    (long : 1 / 2 ^ 23 < L) (startX : |px| ≤ (1 + 1 / 2 ^ 20) * H)
    (startY : |py| ≤ (1 + 1 / 2 ^ 20) * H) (aimX : |dx| ≤ H) (aimY : |dy| ≤ H) :
    1 / 2 ^ 27 ≤ H := by
  by_contra small
  have side {p d : ℝ} (start : |p| ≤ (1 + 1 / 2 ^ 20) * H) (aim : |d| ≤ H) :
      |roundTo .binary32 (d - p)| ≤ 2 ^ (-25 : ℤ) := by
    refine abs_roundTo_le (fits_two_pow (by decide)) ?_
    refine (abs_sub d p).trans ?_
    norm_num at small start ⊢
    linarith
  obtain ⟨l, same, -, bound⟩ := length_is isX isY (by decide) (by decide) (side startX aimX)
    (side startY aimY)
  rw [Denotes.unique length same] at long
  norm_num at bound long
  linarith

theorem travel_of_length (side : NarrowIs h H) (inside : d.isWithin h)
    (start : GrazesAt H n.position) (speed : NarrowIs n.speed s) (nonneg : 0 ≤ s)
    (ahead : ¬ dt < .ofBits 0) (length : NarrowIs (n.position.distance d) L) :
    StandsAt H (n.travel d dt).position := by
  obtain ⟨_, _, isX, isY, nonnegL, short, root⟩ := of_length (v := d.sub n.position) length
  obtain ⟨dx, px, isDx, isPx, rfl⟩ := NarrowIs.of_sub isX
  obtain ⟨dy, py, isDy, isPy, rfl⟩ := NarrowIs.of_sub isY
  have startX := start.1.abs_le isPx
  have startY := start.2.abs_le isPy
  obtain ⟨t, isT, forward, most⟩ := least_is (not_mul_lt_zero speed nonneg ahead) length nonnegL
  by_cases near : n.position.distance d ≤ epsilon
  · rw [Navigator.travel, normalized_of_near near]
    exact ⟨px, py, still_is isPx isT, still_is isPy isT, startX, startY⟩
  · have long : 1 / 2 ^ 23 < L :=
      not_le.1 fun below => near ((narrow_le_iff length narrowIs_epsilon).2 below)
    obtain ⟨dx', dy', isDx', isDy', aimX, aimY⟩ := (Point.isWithin_iff side).1 inside
    obtain rfl := Denotes.unique isDx isDx'
    obtain rfl := Denotes.unique isDy isDy'
    have size := size_of_long isX isY length long startX startY aimX aimY
    obtain ⟨q, isQ, nonnegQ, inverse⟩ := inverse_is length long short
    have sideX := abs_le_root (roundTo_nonneg (mul_self_nonneg _)) root long
    have sideY : |roundTo .binary32 (dy - py)| ≤ 2 * L :=
      abs_le_root (roundTo_nonneg (mul_self_nonneg _)) (by rw [root, add_comm]) long
    obtain ⟨x, isX', boundX⟩ :=
      leg_is size isPx startX aimX isX sideX isQ nonnegQ inverse isT forward
      most short
    obtain ⟨y, isY', boundY⟩ :=
      leg_is size isPy startY aimY isY sideY isQ nonnegQ inverse isT forward
      most short
    rw [Navigator.travel, normalized_of_far near]
    exact ⟨x, y, isX', isY', boundX, boundY⟩

/-- Where it is none the direction is zero or NaN, so an agent stays where it is or gets lost. -/
theorem travel_of_endless (start : GrazesAt H n.position)
    (endless : Endless (n.position.distance d).toModel.unpack) :
    GrazesAt H (n.travel d dt).position := by
  have moved {k t p : Float32} (grazes : Grazes H p) (idle : Idle k) : Grazes H (p + k * t) :=
    grazes.add_idle (idle.mul_right t)
  by_cases near : n.position.distance d ≤ epsilon
  · rw [Navigator.travel, normalized_of_near near]
    exact ⟨moved start.1 (.inr narrowIs_zero), moved start.2 (.inr narrowIs_zero)⟩
  · have idle := idle_div one endless
    rw [Navigator.travel, normalized_of_far near]
    exact ⟨moved start.1 (idle.mul_left _), moved start.2 (idle.mul_left _)⟩

theorem travel_grazes (side : NarrowIs h H) (inside : d.isWithin h) (start : GrazesAt H n.position)
    (speed : NarrowIs n.speed s) (nonneg : 0 ≤ s) (ahead : ¬ dt < .ofBits 0) :
    GrazesAt H (n.travel d dt).position := by
  obtain endless | ⟨L, length⟩ := narrow_endless_or (n.position.distance d)
  · exact travel_of_endless start endless
  · exact (travel_of_length side inside start speed nonneg ahead length).grazes

theorem standsAt_of_within {p : Point} (side : NarrowIs h H) (inside : p.isWithin h) :
    StandsAt H p := by
  obtain ⟨x, y, isX, isY, boundX, boundY⟩ := (Point.isWithin_iff side).1 inside
  have := abs_nonneg x
  exact ⟨x, y, isX, isY, by linarith, by linarith⟩

theorem length_of_stands {p q : Point} (large : H ≤ 2 ^ 61) (start : StandsAt H p)
    (goal : StandsAt H q) :
    ∃ L, NarrowIs (p.distance q) L := by
  obtain ⟨px, py, isPx, isPy, startX, startY⟩ := start
  obtain ⟨qx, qy, isQx, isQy, goalX, goalY⟩ := goal
  have apart {p q : ℝ} (start : |p| ≤ (1 + 1 / 2 ^ 20) * H) (goal : |q| ≤ (1 + 1 / 2 ^ 20) * H) :
      |roundTo .binary32 (q - p)| ≤ 2 ^ (63 : ℤ) := by
    refine abs_roundTo_le (fits_two_pow (by decide)) ((abs_sub q p).trans ?_)
    norm_num at large start goal ⊢
    linarith
  have isX : NarrowIs (q.sub p).x _ :=
    isQx.sub isPx (lt_limit_of_le_two_zpow (apart startX goalX) (by decide))
  have isY : NarrowIs (q.sub p).y _ :=
    isQy.sub isPy (lt_limit_of_le_two_zpow (apart startY goalY) (by decide))
  obtain ⟨L, length, -⟩ :=
    length_is isX isY (by decide) (by decide) (apart startX goalX) (apart startY goalY)
  exact ⟨L, length⟩

theorem travel_stands (side : NarrowIs h H) (large : H ≤ 2 ^ 61) (inside : d.isWithin h)
    (start : StandsAt H n.position) (speed : NarrowIs n.speed s) (nonneg : 0 ≤ s)
    (ahead : ¬ dt < .ofBits 0) : StandsAt H (n.travel d dt).position := by
  obtain ⟨L, length⟩ := length_of_stands large start (standsAt_of_within side inside)
  exact travel_of_length side inside start.grazes speed nonneg ahead length

end Travel

/-! ## Agents on their way -/

/-- An agent in the square of half side `h`, which stands for `H`. -/
structure Navigator.Confined (h : Float32) (H : ℝ) (n : Navigator) : Prop where
  grazes : GrazesAt H n.position
  stands : H ≤ 2 ^ 61 → StandsAt H n.position
  inside : ∀ d, n.destination = some d → d.isWithin h
  speed : ∃ s, NarrowIs n.speed s ∧ 0 ≤ s

namespace Navigator.Confined

variable {h : Float32} {H : ℝ} {n : Navigator}

theorem headFor {p : Point} {w : World} {n' : Navigator} (confined : n.Confined w.halfExtent H)
    (accepted : n.headFor p w = .ok n') : n'.Confined w.halfExtent H := by
  rw [Navigator.headFor] at accepted
  split at accepted
  next inside =>
    obtain rfl := Except.ok.inj accepted
    refine ⟨confined.grazes, confined.stands, fun d aim => ?_, confined.speed⟩
    obtain rfl := Option.some.inj aim
    exact inside
  next => cases accepted

theorem moveAt (confined : n.Confined h H) {speed : Float32}
    (size : ∃ s, NarrowIs speed s ∧ 0 ≤ s) :
    (n.moveAt speed).Confined h H :=
  ⟨confined.grazes, confined.stands, confined.inside, size⟩

theorem stop (confined : n.Confined h H) : n.stop.Confined h H :=
  ⟨confined.grazes, confined.stands, confined.inside, 0, narrowIs_zero, le_rfl⟩

theorem step (side : NarrowIs h H) (confined : n.Confined h H) (dt : Float32) :
    (n.step dt).Confined h H := by
  rw [Navigator.step]
  split
  · exact confined
  next moving =>
    split
    · exact confined
    next d aim =>
      split
      · exact confined
      · obtain ⟨s, speed, nonneg⟩ := confined.speed
        have ahead : ¬ dt < .ofBits 0 := by
          intro back
          simp [narrow_le_of_lt back] at moving
        have inside := confined.inside d aim
        exact ⟨travel_grazes side inside confined.grazes speed nonneg ahead,
          fun large => travel_stands side large inside (confined.stands large) speed nonneg ahead,
          confined.inside, confined.speed⟩

end Navigator.Confined

end Pursuit.Arena
