import Mathlib.Analysis.Complex.Norm
import Pursuit.Proofs.Binary.Error
import Pursuit.Proofs.Plane.Square

/-! Points as complex numbers. Each operation rounds both coordinates, so that its error is small
against the length of its result. -/
namespace Pursuit

open Pursuit.Binary

def Point.Is (p : Point) (z : ℂ) : Prop := NarrowIs p.x z.re ∧ NarrowIs p.y z.im

noncomputable def rounded (z : ℂ) : ℂ := ⟨roundTo .binary32 z.re, roundTo .binary32 z.im⟩

section Norm

variable {z w : ℂ} {k : ℤ}

theorem norm_le_of_parts (re : |z.re| ≤ |w.re|) (im : |z.im| ≤ |w.im|) : ‖z‖ ≤ ‖w‖ := by
  rw [Complex.norm_def, Complex.norm_def, Complex.normSq_apply, Complex.normSq_apply]
  exact Real.sqrt_le_sqrt (add_le_add (abs_le_iff_mul_self_le.1 re) (abs_le_iff_mul_self_le.1 im))

theorem norm_rounded_sub_le (z : ℂ) : ‖rounded z - z‖ ≤ ‖z‖ / 2 ^ 24 + 1 / 2 ^ 149 := by
  have size : ‖(⟨|z.re|, |z.im|⟩ : ℂ)‖ = ‖z‖ := by
    rw [Complex.norm_def, Complex.norm_def, Complex.normSq_mk, Complex.normSq_apply,
      abs_mul_abs_self, abs_mul_abs_self]
  have corner : ‖(⟨1 / 2 ^ 150, 1 / 2 ^ 150⟩ : ℂ)‖ ≤ 1 / 2 ^ 149 := by
    refine (Complex.norm_le_abs_re_add_abs_im _).trans ?_
    norm_num
  -- The bound on the error of a part, taken as a part itself.
  have part {x y : ℝ} (near : |x| ≤ 1 / 2 ^ 24 * |y| + 1 / 2 ^ 150) :
      |x| ≤ |1 / 2 ^ 24 * |y| + 1 / 2 ^ 150| := near.trans (le_abs_self _)
  calc
    ‖rounded z - z‖ ≤ ‖((1 / 2 ^ 24 : ℝ) : ℂ) * ⟨|z.re|, |z.im|⟩ + ⟨1 / 2 ^ 150, 1 / 2 ^ 150⟩‖ := by
      refine norm_le_of_parts ?_ ?_
      · rw [Complex.add_re, Complex.re_ofReal_mul]
        exact part (abs_roundTo_narrow_sub_le z.re)
      · rw [Complex.add_im, Complex.im_ofReal_mul]
        exact part (abs_roundTo_narrow_sub_le z.im)
    _ ≤ 1 / 2 ^ 24 * ‖z‖ + 1 / 2 ^ 149 := by
      refine (norm_add_le _ _).trans (add_le_add ?_ corner)
      rw [norm_mul, size, Complex.norm_real, Real.norm_of_nonneg (by norm_num)]
    _ = ‖z‖ / 2 ^ 24 + 1 / 2 ^ 149 := by ring

theorem norm_rounded_le (z : ℂ) : ‖rounded z‖ ≤ (1 + 1 / 2 ^ 24) * ‖z‖ + 1 / 2 ^ 149 := by
  have error := norm_rounded_sub_le z
  have total := norm_add_le (rounded z - z) z
  rw [sub_add_cancel] at total
  linarith

/-- The scalar product, in absolute terms. -/
theorem abs_mul_add_abs_mul_le (z w : ℂ) : |z.re * w.re| + |z.im * w.im| ≤ ‖z‖ * ‖w‖ := by
  refine abs_le_of_sq_le_sq' ?_ (by positivity) |>.2
  rw [mul_pow, Complex.sq_norm, Complex.sq_norm, Complex.normSq_apply,
    Complex.normSq_apply, abs_mul, abs_mul]
  nlinarith [sq_nonneg (|z.re| * |w.im| - |z.im| * |w.re|), abs_mul_abs_self z.re,
    abs_mul_abs_self z.im, abs_mul_abs_self w.re, abs_mul_abs_self w.im]

end Norm

namespace Point.Is

variable {p q v : Point} {z w : ℂ} {k : ℤ}

theorem rounded_small (least : -149 ≤ k) (most : k < 128) (small : ‖z‖ ≤ 2 ^ k) :
    |roundTo .binary32 z.re| < limit .binary32 ∧ |roundTo .binary32 z.im| < limit .binary32 := by
  have part {x : ℝ} (within : |x| ≤ ‖z‖) : |roundTo .binary32 x| < limit .binary32 :=
    lt_limit_of_le_two_zpow (abs_roundTo_le (fits_two_pow least) (within.trans small)) most
  exact ⟨part (Complex.abs_re_le_norm z), part (Complex.abs_im_le_norm z)⟩

theorem add (isP : p.Is z) (isQ : q.Is w) (least : -149 ≤ k) (most : k < 128)
    (small : ‖z + w‖ ≤ 2 ^ k) : (p.add q).Is (rounded (z + w)) :=
  have ⟨re, im⟩ := rounded_small least most small
  ⟨isP.1.add isQ.1 re, isP.2.add isQ.2 im⟩

theorem sub (isP : p.Is z) (isQ : q.Is w) (least : -149 ≤ k) (most : k < 128)
    (small : ‖z - w‖ ≤ 2 ^ k) : (p.sub q).Is (rounded (z - w)) :=
  have ⟨re, im⟩ := rounded_small least most small
  ⟨isP.1.sub isQ.1 re, isP.2.sub isQ.2 im⟩

theorem scale {a : Float32} {t : ℝ} (isP : p.Is z) (isA : NarrowIs a t) (least : -149 ≤ k)
    (most : k < 128) (small : ‖z * t‖ ≤ 2 ^ k) : (p.scale a).Is (rounded (z * t)) := by
  obtain ⟨re, im⟩ := rounded_small least most small
  simp only [rounded, Complex.re_mul_ofReal, Complex.im_mul_ofReal] at re im ⊢
  exact ⟨isP.1.mul isA re, isP.2.mul isA im⟩

theorem add_small (isP : p.Is z) (isQ : q.Is w) (small : ‖w‖ ≤ 2 ^ (100 : ℤ)) :
    (p.add q).Is (rounded (z + w)) :=
  ⟨isP.1.add_small isQ.1 ((Complex.abs_re_le_norm w).trans small),
    isP.2.add_small isQ.2 ((Complex.abs_im_le_norm w).trans small)⟩

theorem unique (first : p.Is z) (second : p.Is w) : z = w :=
  Complex.ext (Denotes.unique first.1 second.1) (Denotes.unique first.2 second.2)

end Point.Is

/-! ## Scalar products and lengths -/

noncomputable def roundedDot (z w : ℂ) : ℝ :=
  roundTo .binary32 (roundTo .binary32 (z.re * w.re) + roundTo .binary32 (z.im * w.im))

section Dot

variable {p q v : Point} {z w : ℂ} {k : ℤ}

theorem abs_roundedDot_sub_le (z w : ℂ) :
    |roundedDot z w - (z.re * w.re + z.im * w.im)| ≤ ‖z‖ * ‖w‖ / 2 ^ 22 + 1 / 2 ^ 147 := by
  have first := abs_roundTo_narrow_sub_le (z.re * w.re)
  have second := abs_roundTo_narrow_sub_le (z.im * w.im)
  have last := abs_roundTo_narrow_sub_le
    (roundTo .binary32 (z.re * w.re) + roundTo .binary32 (z.im * w.im))
  have total := abs_mul_add_abs_mul_le z w
  rw [roundedDot]
  generalize roundTo .binary32 (z.re * w.re) = a at first last ⊢
  generalize roundTo .binary32 (z.im * w.im) = b at second last ⊢
  have sum : |a + b| ≤ (1 + 1 / 2 ^ 24) * (‖z‖ * ‖w‖) + 2 / 2 ^ 150 := by
    have split : a + b =
      (a - z.re * w.re) + (b - z.im * w.im) + (z.re * w.re + z.im * w.im) := by ring
    have := abs_add_le (a - z.re * w.re + (b - z.im * w.im)) (z.re * w.re + z.im * w.im)
    have := abs_add_le (a - z.re * w.re) (b - z.im * w.im)
    have := abs_add_le (z.re * w.re) (z.im * w.im)
    rw [split]
    linarith
  have parts : roundTo .binary32 (a + b) - (z.re * w.re + z.im * w.im) =
      (roundTo .binary32 (a + b) - (a + b)) + ((a - z.re * w.re) + (b - z.im * w.im)) := by ring
  have := abs_add_le (roundTo .binary32 (a + b) - (a + b)) (a - z.re * w.re + (b - z.im * w.im))
  have := abs_add_le (a - z.re * w.re) (b - z.im * w.im)
  have : 0 ≤ ‖z‖ * ‖w‖ := by positivity
  rw [parts]
  linarith

theorem Point.Is.dot (isP : p.Is z) (isQ : q.Is w) (least : -149 ≤ k) (most : k < 127)
    (small : ‖z‖ * ‖w‖ ≤ 2 ^ k) : NarrowIs (p.dot q) (roundedDot z w) := by
  have total := (abs_mul_add_abs_mul_le z w).trans small
  have part {x : ℝ} (within : |x| ≤ 2 ^ k) :
      |roundTo .binary32 x| ≤ 2 ^ k := abs_roundTo_le (fits_two_pow least) within
  have first := part (le_of_add_le_of_nonneg_left total (abs_nonneg _))
  have second := part (le_of_add_le_of_nonneg_right total (abs_nonneg _))
  have sum : |roundTo .binary32 (z.re * w.re) + roundTo .binary32 (z.im * w.im)| ≤ 2 ^ (k + 1) := by
    rw [two_zpow_add, zpow_one, mul_two]
    exact (abs_add_le _ _).trans (add_le_add first second)
  exact (isP.1.mul isQ.1 (lt_limit_of_le_two_zpow first (by omega))).add
    (isP.2.mul isQ.2 (lt_limit_of_le_two_zpow second (by omega)))
    (lt_limit_of_le_two_zpow (abs_roundTo_le (fits_two_pow (by omega)) sum) (by omega))

theorem roundedDot_self_nonneg (z : ℂ) : 0 ≤ roundedDot z z :=
  roundTo_nonneg (add_nonneg (roundTo_nonneg (mul_self_nonneg _))
    (roundTo_nonneg (mul_self_nonneg _)))

theorem abs_roundedSquare_sub_le (z : ℂ) :
    |roundedDot z z - ‖z‖ ^ 2| ≤ ‖z‖ ^ 2 / 2 ^ 22 + 1 / 2 ^ 147 := by
  have error := abs_roundedDot_sub_le z z
  rwa [← Complex.normSq_apply, ← Complex.sq_norm, ← pow_two] at error

noncomputable def roundedNorm (z : ℂ) : ℝ := roundTo .binary32 √(roundedDot z z)

theorem abs_sqrt_sub_le {s l : ℝ} (nonneg : 0 ≤ l)
    (near : |s - l ^ 2| ≤ l ^ 2 / 2 ^ 22 + 1 / 2 ^ 147) : |√s - l| ≤ l / 2 ^ 22 + 1 / 2 ^ 73 := by
  obtain ⟨low, high⟩ := abs_le.1 near
  refine abs_le.2 ⟨?_, ?_⟩
  · refine neg_le_sub_iff_le_add.2 ?_
    obtain short | long := le_or_gt ((1 - 1 / 2 ^ 22) * l) (1 / 2 ^ 73)
    · have := Real.sqrt_nonneg s
      linarith
    · have root : (1 - 1 / 2 ^ 22) * l - 1 / 2 ^ 73 ≤ √s := by
        refine Real.le_sqrt_of_sq_le ?_
        nlinarith
      linarith
  · have root : √s ≤ (1 + 1 / 2 ^ 22) * l + 1 / 2 ^ 73 := by
      refine (Real.sqrt_le_left (by positivity)).2 ?_
      nlinarith [sq_nonneg l]
    linarith

theorem abs_roundedNorm_sub_le (z : ℂ) : |roundedNorm z - ‖z‖| ≤ ‖z‖ / 2 ^ 21 + 1 / 2 ^ 72 := by
  have root := abs_sqrt_sub_le (norm_nonneg z) (abs_roundedSquare_sub_le z)
  have last := abs_roundTo_narrow_sub_le √(roundedDot z z)
  rw [abs_of_nonneg (Real.sqrt_nonneg _)] at last
  have parts : roundedNorm z - ‖z‖ =
      (roundTo .binary32 √(roundedDot z z) - √(roundedDot z z)) + (√(roundedDot z z) - ‖z‖) := by
    rw [roundedNorm, sub_add_sub_cancel]
  have := abs_add_le (roundTo .binary32 √(roundedDot z z) - √(roundedDot z z))
    (√(roundedDot z z) - ‖z‖)
  have := abs_le.1 root
  have := norm_nonneg z
  rw [parts]
  linarith

theorem Point.Is.length (isV : v.Is z) (small : ‖z‖ ≤ 2 ^ 62) :
    NarrowIs v.length (roundedNorm z) := by
  have square : ‖z‖ * ‖z‖ ≤ 2 ^ (124 : ℤ) := by
    calc
      ‖z‖ * ‖z‖ ≤ 2 ^ 62 * 2 ^ 62 := mul_le_mul small small (norm_nonneg z) (by positivity)
      _ = 2 ^ (124 : ℤ) := by norm_num
  have dot := isV.dot isV (by decide) (by decide) square
  refine dot.sqrt (roundedDot_self_nonneg z) ?_
  have near := (abs_le.1 (abs_roundedNorm_sub_le z)).2
  have bound : |roundTo .binary32 √(roundedDot z z)| ≤ 2 ^ (64 : ℤ) := by
    rw [abs_of_nonneg (roundTo_nonneg (Real.sqrt_nonneg _)), ← roundedNorm]
    norm_num at near small ⊢
    linarith
  exact lt_limit_of_le_two_zpow bound (by decide)

/-- Two points that are not too far apart have a distance, and it is theirs but for rounding. -/
theorem Point.Is.distance (isP : p.Is z) (isQ : q.Is w) (near : ‖w - z‖ ≤ 2 ^ 61) :
    ∃ l, NarrowIs (p.distance q) l ∧ |l - ‖w - z‖| ≤ ‖w - z‖ / 2 ^ 20 + 1 / 2 ^ 71 := by
  have isWay : (q.sub p).Is (rounded (w - z)) :=
    isQ.sub isP (k := 61) (by decide) (by decide) (near.trans_eq (zpow_natCast 2 61).symm)
  have error := norm_rounded_sub_le (w - z)
  have size := norm_rounded_le (w - z)
  have length := abs_roundedNorm_sub_le (rounded (w - z))
  have change := abs_norm_sub_norm_le (rounded (w - z)) (w - z)
  have nonneg := norm_nonneg (w - z)
  refine ⟨_, isWay.length ?_, ?_⟩
  · norm_num at near size ⊢
    linarith
  · rw [abs_le] at length change ⊢
    constructor
    · linarith [length.1, change.1]
    · linarith [length.2, change.2]

end Dot

end Pursuit
