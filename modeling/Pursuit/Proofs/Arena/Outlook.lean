import Pursuit.Arena.World
import Pursuit.Proofs.Arena.Arrival
import Pursuit.Proofs.Plane.Segment

/-! What an obstacle hides. Whether it does is found from one end of the segment, with rounding, and
a segment that is too short is taken for that end. So both ends agree if the border of no obstacle
is next to where the segment passes it. -/
namespace Pursuit

open Pursuit.Binary

variable {p a b : Point} {A B : ℂ} {q : Float32} {Q : ℝ}

theorem Point.Is.rounded_eq (isP : p.Is A) : rounded A = A :=
  Complex.ext (Denotes.roundTo_eq isP.1) (Denotes.roundTo_eq isP.2)

theorem hold_is (value : NarrowIs q Q) : NarrowIs (hold (.ofBits 0) one q) (clip Q) := by
  rw [hold, clip]
  split
  next below =>
    have below := (narrow_lt_iff value narrowIs_zero).1 below
    rw [min_eq_left (below.le.trans zero_le_one), max_eq_left below.le]
    exact narrowIs_zero
  next low =>
    have low := not_lt.1 (mt (narrow_lt_iff value narrowIs_zero).2 low)
    split
    next above =>
      have above := (narrow_lt_iff narrowIs_one value).1 above
      rw [min_eq_right above.le, max_eq_right zero_le_one]
      exact narrowIs_one
    next high =>
      have high := not_lt.1 (mt (narrow_lt_iff narrowIs_one value).2 high)
      rw [min_eq_left high, max_eq_right low]
      exact value

namespace Arena

open Metric

structure Obstacle.Is (o : Obstacle) (C : ℂ) (r : ℝ) : Prop where
  center : o.center.Is C
  radius : NarrowIs o.radius r

theorem Obstacle.Is.norm_le {o : Obstacle} {C : ℂ} {r M : ℝ} (here : o.Is C r)
    (placed : ∃ C r, o.Is C r ∧ ‖C‖ ≤ M) : ‖C‖ ≤ M := by
  obtain ⟨C', r', here', size⟩ := placed
  rwa [here.center.unique here'.center]

section Blocks

variable {o : Obstacle} {C : ℂ} {M r : ℝ}

/-- The place on a segment where the distance of an obstacle is taken. -/
def Obstacle.nearest (o : Obstacle) (a b : Point) : Point :=
  let d := b.sub a
  let square := d.dot d
  let t := if square ≤ Binary.epsilon then .ofBits 0
    else hold (.ofBits 0) one ((o.center.sub a).dot d / square)
  a.add (d.scale t)

theorem Obstacle.blocks_eq (o : Obstacle) (a b : Point) :
    o.blocks a b = decide ((o.nearest a b).distance o.center < o.radius) := rfl

theorem way_is (isA : a.Is A) (isB : b.Is B) (sizeA : ‖A‖ ≤ M) (sizeB : ‖B‖ ≤ M)
    (large : M ≤ 2 ^ 58) :
    (b.sub a).Is (rounded (B - A)) ∧ ‖rounded (B - A) - (B - A)‖ ≤ 2 * M / 2 ^ 24 + 1 / 2 ^ 149 ∧
      ‖rounded (B - A)‖ ≤ 2 * M + 2 * M / 2 ^ 24 + 1 / 2 ^ 149 := by
  have apart : ‖B - A‖ ≤ 2 * M := (norm_sub_le B A).trans (by linarith)
  have near := norm_rounded_sub_le (B - A)
  have size := norm_rounded_le (B - A)
  refine ⟨isB.sub isA (k := 59) (by decide) (by decide) ?_, ?_, ?_⟩
  · norm_num at large ⊢
    linarith
  · linarith
  · linarith

theorem le_of_size {v : ℂ} (large : M ≤ 2 ^ 58)
    (size : ‖v‖ ≤ 2 * M + 2 * M / 2 ^ 24 + 1 / 2 ^ 149) :
    ‖v‖ ≤ 2 ^ 60 := by
  norm_num at large size ⊢
  linarith

theorem mul_le_of_size {v w : ℂ} (large : M ≤ 2 ^ 58)
    (first : ‖v‖ ≤ 2 * M + 2 * M / 2 ^ 24 + 1 / 2 ^ 149)
    (second : ‖w‖ ≤ 2 * M + 2 * M / 2 ^ 24 + 1 / 2 ^ 149) : ‖v‖ * ‖w‖ ≤ 2 ^ (120 : ℤ) :=
  calc
    ‖v‖ * ‖w‖ ≤ 2 ^ 60 * 2 ^ 60 :=
      mul_le_mul (le_of_size large first) (le_of_size large second) (norm_nonneg w) (by positivity)
    _ = 2 ^ (120 : ℤ) := by norm_num

theorem nearest_of_long (long : ¬ (b.sub a).dot (b.sub a) ≤ epsilon) : o.nearest a b = a.add
    ((b.sub a).scale (hold (.ofBits 0) one
      ((o.center.sub a).dot (b.sub a) / (b.sub a).dot (b.sub a)))) := by
  rw [Obstacle.nearest, if_neg long]

theorem nearest_of_short (short : (b.sub a).dot (b.sub a) ≤ epsilon) :
    o.nearest a b = a.add ((b.sub a).scale (.ofBits 0)) := by
  rw [Obstacle.nearest, if_pos short]

section Segment

variable (isA : a.Is A) (isB : b.Is B) (isC : o.center.Is C) (sizeA : ‖A‖ ≤ M) (sizeB : ‖B‖ ≤ M)
  (sizeC : ‖C‖ ≤ M) (large : M ≤ 2 ^ 58)

include isA isB sizeA sizeB large

theorem square_is :
    NarrowIs ((b.sub a).dot (b.sub a)) (roundedDot (rounded (B - A)) (rounded (B - A))) := by
  obtain ⟨isWay, -, size⟩ := way_is isA isB sizeA sizeB large
  exact isWay.dot isWay (k := 120) (by decide) (by decide) (mul_le_of_size large size size)

include isC sizeC

/-- The part of a long segment to go from `a`, before it is clipped, is next to that which is
nearest. -/
theorem part_is (long : ¬ (b.sub a).dot (b.sub a) ≤ epsilon) : ∃ q,
    NarrowIs (hold (.ofBits 0) one ((o.center.sub a).dot (b.sub a) / (b.sub a).dot (b.sub a)))
      (clip q) ∧
    |q * ‖rounded (B - A)‖ ^ 2 - ((rounded (C - A)).re * (rounded (B - A)).re +
      (rounded (C - A)).im * (rounded (B - A)).im)| ≤
        (12 / 2 ^ 24 * ‖rounded (C - A)‖ + 1 / 2 ^ 80) * ‖rounded (B - A)‖ ∧
    1 / 2 ^ 12 ≤ ‖rounded (B - A)‖ := by
  have isSquare := square_is isA isB sizeA sizeB large
  obtain ⟨isWay, -, size⟩ := way_is isA isB sizeA sizeB large
  obtain ⟨isAim, -, sizeAim⟩ := way_is isA isC sizeA sizeC large
  generalize rounded (B - A) = w at *
  generalize rounded (C - A) = g at *
  have tall : 1 / 2 ^ 23 < roundedDot w w := not_le.1 fun below =>
    long ((narrow_le_iff isSquare narrowIs_epsilon).2 below)
  have isProduct : NarrowIs ((o.center.sub a).dot (b.sub a)) (roundedDot g w) :=
    isAim.dot isWay (k := 120) (by decide) (by decide) (mul_le_of_size large sizeAim size)
  have bound := abs_roundTo_le (fits_two_pow (by decide))
    (abs_quotient_le (g := g) tall ((le_of_size large sizeAim).trans (by norm_num)))
  exact ⟨_, hold_is (isProduct.div isSquare (by linarith)
    (lt_limit_of_le_two_zpow bound (by decide))), abs_quotient_sub_le tall
      ((le_of_size large size).trans (by norm_num)), (abs_square_sub_le tall).2⟩

/-- On a long segment the distance is taken next to the place that is nearest. -/
theorem distance_of_long (long : ¬ (b.sub a).dot (b.sub a) ≤ epsilon) :
    ∃ l, NarrowIs ((o.nearest a b).distance o.center) l ∧
      |l - infDist C (segment ℝ A B)| ≤ M / 2 ^ 17 := by
  obtain ⟨q, isPart, near, least⟩ := part_is isA isB isC sizeA sizeB sizeC large long
  obtain ⟨isWay, way, size⟩ := way_is isA isB sizeA sizeB large
  obtain ⟨-, aim, sizeAim⟩ := way_is isA isC sizeA sizeC large
  rw [nearest_of_long long]
  generalize rounded (B - A) = w at *
  generalize rounded (C - A) = g at *
  have room := le_of_size large size
  have part := norm_part_le (w := w) (clip_nonneg q) (clip_le_one q)
  obtain ⟨move, place⟩ := norm_place_sub_le (w := w) (A := A) (clip_nonneg q) (clip_le_one q)
  have isMove := isWay.scale isPart (k := 60) (by decide) (by decide)
    (part.trans (room.trans (by norm_num)))
  have isPlace := isA.add isMove (k := 61) (by decide) (by decide) (by
    refine (norm_add_le _ _).trans ?_
    norm_num at large room ⊢
    linarith)
  have off := abs_norm_sub_infDist_le (by positivity) way aim near place
  have far : ‖rounded (A + rounded (w * clip q))‖ ≤
      ‖rounded (A + rounded (w * clip q)) - (A + w * clip q)‖ + (‖A‖ + ‖w * clip q‖) :=
    (norm_le_norm_sub_add _ _).trans (add_le_add_right (norm_add_le _ _) _)
  generalize rounded (A + rounded (w * clip q)) = z at *
  have apart := norm_sub_le C z
  obtain ⟨l, value, error⟩ := isPlace.distance isC (by
    norm_num at large room ⊢
    linarith)
  refine ⟨l, value, ?_⟩
  -- The errors of the place and of the distance, all of them small against `M`.
  rw [norm_sub_rev] at error apart
  rw [abs_le] at error off ⊢
  norm_num at least ⊢
  constructor
  · linarith
  · linarith

omit isC sizeC

theorem nearest_is (short : (b.sub a).dot (b.sub a) ≤ epsilon) : (o.nearest a b).Is A := by
  obtain ⟨isWay, -, size⟩ := way_is isA isB sizeA sizeB large
  have nothing : rounded (rounded (B - A) * (0 : ℝ)) = 0 := by
    rw [Complex.ofReal_zero, mul_zero]
    exact Complex.ext (roundTo_zero _) (roundTo_zero _)
  have isMove := isWay.scale narrowIs_zero (k := 0) (by decide) (by decide) (by simp)
  rw [nothing] at isMove
  have isPlace := isA.add_small isMove (by simp)
  rwa [add_zero, isA.rounded_eq, ← nearest_of_short (o := o) short] at isPlace

theorem norm_sub_le_of_short (short : (b.sub a).dot (b.sub a) ≤ epsilon) :
    ‖B - A‖ ≤ 7 / 2 ^ 14 := by
  have low := (narrow_le_iff (square_is isA isB sizeA sizeB large) narrowIs_epsilon).1 short
  have error := (abs_le.1 (abs_roundedSquare_sub_le (rounded (B - A)))).1
  have square : ‖rounded (B - A)‖ ^ 2 ≤ (3 / 2 ^ 13) ^ 2 := by
    norm_num at error low ⊢
    linarith
  have size := abs_le_of_sq_le_sq' square (by positivity) |>.2
  have near := norm_rounded_sub_le (B - A)
  have total := norm_le_norm_sub_add (B - A) (rounded (B - A))
  rw [norm_sub_rev] at near
  norm_num at size ⊢
  linarith

include isC sizeC

theorem distance_of_short (short : (b.sub a).dot (b.sub a) ≤ epsilon) :
    ∃ l, NarrowIs ((o.nearest a b).distance o.center) l ∧
      |l - infDist C (segment ℝ A B)| ≤ M / 2 ^ 17 + 1 / 2 ^ 11 := by
  have brief := norm_sub_le_of_short isA isB sizeA sizeB large short
  have apart := norm_sub_le C A
  obtain ⟨l, value, error⟩ := (nearest_is (o := o) isA isB sizeA sizeB large short).distance isC (by
    norm_num at large ⊢
    linarith)
  have high := infDist_segment_le (A := A) (B := B) (C := C) le_rfl zero_le_one
  have low := le_infDist_segment (A := A) (B := B) (C := C)
      (ρ := ‖C - A‖ - ‖B - A‖) fun s nonneg most => by
    have part := norm_part_le (w := B - A) nonneg most
    have total := norm_sub_le (A + (B - A) * s - C) ((B - A) * s)
    rw [show A + (B - A) * s - C - (B - A) * s = A - C by ring, norm_sub_rev A] at total
    linarith
  rw [Complex.ofReal_zero, mul_zero, add_zero, norm_sub_rev] at high
  refine ⟨l, value, ?_⟩
  rw [abs_le] at error ⊢
  norm_num at brief ⊢
  constructor
  · linarith
  · linarith

/-- An obstacle that the segment passes at some distance from the border blocks it if it is in the
way. -/
theorem Obstacle.blocks_iff (radius : NarrowIs o.radius r)
    (clear : M / 2 ^ 17 + 1 / 2 ^ 11 < |infDist C (segment ℝ A B) - r|) :
    o.blocks a b ↔ infDist C (segment ℝ A B) < r := by
  obtain ⟨l, value, near⟩ : ∃ l, NarrowIs ((o.nearest a b).distance o.center) l ∧
      |l - infDist C (segment ℝ A B)| ≤ M / 2 ^ 17 + 1 / 2 ^ 11 := by
    by_cases short : (b.sub a).dot (b.sub a) ≤ epsilon
    · exact distance_of_short isA isB isC sizeA sizeB sizeC large short
    · obtain ⟨l, value, near⟩ := distance_of_long isA isB isC sizeA sizeB sizeC large short
      exact ⟨l, value, near.trans (le_add_of_nonneg_right (by positivity))⟩
  rw [o.blocks_eq, decide_eq_true_iff, narrow_lt_iff value radius]
  rw [abs_le] at near
  obtain inside | outside := lt_abs.1 clear
  · exact iff_of_false (by linarith) (by linarith)
  · exact iff_of_true (by linarith) (by linarith)

omit isC sizeC

theorem short_of_near (near : ‖B - A‖ ≤ 1 / 2 ^ 12) : (b.sub a).dot (b.sub a) ≤ epsilon := by
  refine (narrow_le_iff (square_is isA isB sizeA sizeB large) narrowIs_epsilon).2 ?_
  have size := norm_rounded_le (B - A)
  have error := (abs_le.1 (abs_roundedSquare_sub_le (rounded (B - A)))).2
  have square : ‖rounded (B - A)‖ ^ 2 ≤ (9 / 2 ^ 15) ^ 2 := by
    refine pow_le_pow_left₀ (norm_nonneg _) ?_ 2
    norm_num at near size ⊢
    linarith
  norm_num at error square ⊢
  linarith

include isC sizeC

/-- From next to it an obstacle blocks what it blocks from the point itself. -/
theorem Obstacle.blocks_of_near (radius : NarrowIs o.radius r) (near : ‖B - A‖ ≤ 1 / 2 ^ 12) :
    o.blocks a b = o.blocks a a := by
  have here : ‖A - A‖ ≤ 1 / 2 ^ 12 := by
    rw [sub_self, norm_zero]
    positivity
  have first := nearest_is (o := o) isA isB sizeA sizeB large
    (short_of_near isA isB sizeA sizeB large near)
  have second := nearest_is (o := o) isA isA sizeA sizeA large
    (short_of_near isA isA sizeA sizeA large here)
  obtain ⟨l, value, -⟩ := first.distance isC ((norm_sub_le C A).trans (by
    norm_num at large ⊢
    linarith))
  have same := distance_congr second (.inr first.1) (.inr first.2) value
  rw [o.blocks_eq, o.blocks_eq, decide_eq_decide, narrow_lt_iff value radius,
    narrow_lt_iff same radius]

end Segment

section World

variable {w : World}

theorem World.lineOfSight_iff : w.lineOfSight a b ↔ ∀ o ∈ w.obstacles, ¬ o.blocks a b := by
  simp [World.lineOfSight]

theorem World.lineOfSight_congr {c d : Point}
    (same : ∀ o ∈ w.obstacles, o.blocks a b = o.blocks c d) :
    w.lineOfSight a b = w.lineOfSight c d := by
  rw [Bool.eq_iff_iff, lineOfSight_iff, lineOfSight_iff]
  exact forall₂_congr fun o member => by rw [same o member]

/-- For points that are at most `M` from the origin. If the segment between them does not pass next
to the border of an obstacle, there is sight if and only if it passes outside of all of them, and so
it is from either end. Two points next to each other see of one another what each sees of itself. -/
theorem World.lineOfSight_symm (isA : a.Is A) (isB : b.Is B) (sizeA : ‖A‖ ≤ M) (sizeB : ‖B‖ ≤ M)
    (large : M ≤ 2 ^ 58) (placed : ∀ o ∈ w.obstacles, ∃ C r, o.Is C r ∧ ‖C‖ ≤ M) :
    ((∀ o ∈ w.obstacles, ∀ C r, o.Is C r →
        M / 2 ^ 17 + 1 / 2 ^ 11 < |infDist C (segment ℝ A B) - r|) →
      (w.lineOfSight a b ↔ ∀ o ∈ w.obstacles, ∀ C r, o.Is C r → r < infDist C (segment ℝ A B)) ∧
        w.lineOfSight b a = w.lineOfSight a b) ∧
    (‖B - A‖ ≤ 1 / 2 ^ 12 → w.lineOfSight a b = w.lineOfSight a a ∧
      w.lineOfSight b a = w.lineOfSight b b) := by
  refine ⟨fun clear => ?_, fun near => ⟨?_, ?_⟩⟩
  · have blocks {o : Obstacle} (member : o ∈ w.obstacles) {C : ℂ} {r : ℝ} (here : o.Is C r) :
        (¬ o.blocks a b ↔ r < infDist C (segment ℝ A B)) ∧ (o.blocks b a ↔ o.blocks a b) := by
      have sizeC := here.norm_le (placed o member)
      have apart := clear o member C r here
      have forth := Obstacle.blocks_iff isA isB here.center sizeA sizeB sizeC large
        here.radius apart
      rw [segment_symm] at apart
      have back := Obstacle.blocks_iff isB isA here.center sizeB sizeA sizeC large here.radius apart
      rw [segment_symm] at back apart
      have off : infDist C (segment ℝ A B) ≠ r := by
        rintro rfl
        rw [sub_self, abs_zero] at apart
        have := (norm_nonneg A).trans sizeA
        exact apart.not_ge (by positivity)
      exact ⟨(not_congr forth).trans (not_lt.trans off.symm.le_iff_lt), back.trans forth.symm⟩
    refine ⟨lineOfSight_iff.trans (forall₂_congr fun o member => ?_), ?_⟩
    · obtain ⟨C, r, here, -⟩ := placed o member
      refine ⟨fun free C r here => (blocks member here).1.1 free, fun outside => ?_⟩
      exact (blocks member here).1.2 (outside C r here)
    · rw [Bool.eq_iff_iff, lineOfSight_iff, lineOfSight_iff]
      refine forall₂_congr fun o member => not_congr ?_
      obtain ⟨C, r, here, -⟩ := placed o member
      exact (blocks member here).2
  · exact lineOfSight_congr fun o member => by
      obtain ⟨C, r, here, sizeC⟩ := placed o member
      exact Obstacle.blocks_of_near isA isB here.center sizeA sizeB sizeC large here.radius near
  · exact lineOfSight_congr fun o member => by
      obtain ⟨C, r, here, sizeC⟩ := placed o member
      rw [norm_sub_rev] at near
      exact Obstacle.blocks_of_near isB isA here.center sizeB sizeA sizeC large here.radius near

def post : World := ⟨20.0, [⟨.ofInts 1 0, 0.5⟩], []⟩

theorem World.lineOfSight_symm_post : post.lineOfSight (.ofInts 0 0) (.ofInts 0 2) ∧
    post.lineOfSight (.ofInts 0 2) (.ofInts 0 0) := by
  have two : NarrowIs (narrowOfInt 2) 2 := by
    have value := @narrowIs_of_unpack (narrowOfInt 2) .positive 8388608 (-22) (by decide) rfl
    norm_num [signed] at value
    exact value
  have size : ‖(⟨0, 2⟩ : ℂ)‖ = 2 := by
    rw [Complex.norm_def, Complex.normSq_mk]
    norm_num
  have here : Obstacle.Is ⟨.ofInts 1 0, 0.5⟩ 1 (1 / 2) :=
    ⟨⟨narrowIs_one, narrowIs_zero⟩, narrowIs_half⟩
  have only {o : Obstacle} (member : o ∈ post.obstacles) : o = ⟨.ofInts 1 0, 0.5⟩ :=
    List.mem_singleton.1 member
  -- The foot of the way is nearest to the post.
  have apart : 1 ≤ infDist 1 (segment ℝ 0 (⟨0, 2⟩ : ℂ)) := le_infDist_segment fun s _ _ => by
    have side := Complex.abs_re_le_norm (0 + (⟨0, 2⟩ - 0) * s - 1)
    simpa using side
  have known {C : ℂ} {r : ℝ} (is' : Obstacle.Is ⟨.ofInts 1 0, 0.5⟩ C r) :
      1 / 2 ≤ infDist C (segment ℝ 0 (⟨0, 2⟩ : ℂ)) - r := by
    rw [is'.center.unique here.center, Denotes.unique is'.radius here.radius]
    linarith
  obtain ⟨seen, -⟩ := lineOfSight_symm (w := post) (a := .ofInts 0 0) (b := .ofInts 0 2) (A := 0)
    (B := ⟨0, 2⟩) (M := 2) ⟨narrowIs_zero, narrowIs_zero⟩ ⟨narrowIs_zero, two⟩ (by norm_num) size.le
    (by norm_num) fun o member => ⟨1, 1 / 2, only member ▸ here, by norm_num⟩
  obtain ⟨sight, same⟩ := seen fun o member C r is' => by
    obtain rfl := only member
    exact lt_of_lt_of_le (by norm_num) ((known is').trans (le_abs_self _))
  have there := sight.2 fun o member C r is' => by
    obtain rfl := only member
    linarith [known is']
  exact ⟨there, same.trans there⟩

def rim : World := ⟨20.0, [⟨.ofInts 1 0, one⟩], []⟩

/-- A point just outside it sees one just inside, but is not seen from there. -/
theorem World.rim_lineOfSight :
    rim.lineOfSight ⟨.ofBits 0xb8d1b717, .ofBits 0⟩ ⟨.ofBits 0x38d1b717, .ofBits 0⟩ = true ∧
    rim.lineOfSight ⟨.ofBits 0x38d1b717, .ofBits 0⟩ ⟨.ofBits 0xb8d1b717, .ofBits 0⟩ = false := by
  decide +kernel

end World

end Blocks

end Arena

end Pursuit
