import Mathlib.Analysis.Complex.Basic
import Mathlib.Analysis.Convex.Segment
import Mathlib.Topology.MetricSpace.HausdorffDistance
import Pursuit.Proofs.Plane.Rounded

/-! The distance of a point from a segment. It is taken at a place that is computed from one end of
the segment only, so all that is known of it is how far it is from the true one. -/
namespace Pursuit

open Metric
open Pursuit.Binary

noncomputable def clip (q : ℝ) : ℝ := max 0 (min q 1)

section Nearest

variable {A B C w g z : ℂ} {q s η ρ β γ : ℝ}

theorem clip_nonneg (q : ℝ) : 0 ≤ clip q := le_max_left 0 _

theorem clip_le_one (q : ℝ) : clip q ≤ 1 := max_le zero_le_one (min_le_right q 1)

theorem clip_sub_mul_le (q : ℝ) (low : 0 ≤ s) (high : s ≤ 1) : (clip q - s) * (clip q - q) ≤ 0 := by
  obtain below | above := le_total q 1
  · rw [clip, min_eq_left below]
    obtain negative | positive := le_total q 0
    · rw [max_eq_left negative]
      nlinarith
    · rw [max_eq_right positive, sub_self, mul_zero]
  · rw [clip, min_eq_right above, max_eq_right zero_le_one]
    nlinarith

theorem norm_part_le {t : ℝ} (low : 0 ≤ t) (high : t ≤ 1) : ‖w * t‖ ≤ ‖w‖ := by
  rw [norm_mul, Complex.norm_real, Real.norm_of_nonneg low]
  exact mul_le_of_le_one_right (norm_nonneg w) high

theorem sq_norm_mul_sub (w g : ℂ) (t : ℝ) :
    ‖w * t - g‖ ^ 2 = t ^ 2 * ‖w‖ ^ 2 - 2 * t * (g.re * w.re + g.im * w.im) + ‖g‖ ^ 2 := by
  rw [Complex.sq_norm, Complex.sq_norm, Complex.sq_norm, Complex.normSq_apply, Complex.normSq_apply,
    Complex.normSq_apply, Complex.sub_re, Complex.sub_im, Complex.re_mul_ofReal,
      Complex.im_mul_ofReal]
  ring

/-- If `q` is nearly the place where the line of `w` is nearest to `g`, then no place on `w` is
nearer than the clipped one but by the error. -/
theorem norm_clip_sub_le (nonneg : 0 ≤ η) (low : 0 ≤ s) (high : s ≤ 1)
    (near : |q * ‖w‖ ^ 2 - (g.re * w.re + g.im * w.im)| ≤ η * ‖w‖) :
    ‖w * clip q - g‖ ≤ ‖w * s - g‖ + η := by
  have clipped := sq_norm_mul_sub w g (clip q)
  have other := sq_norm_mul_sub w g s
  have side := mul_nonneg (sq_nonneg ‖w‖) (neg_nonneg.2 (clip_sub_mul_le q low high))
  generalize clip q = t at clipped side ⊢
  generalize g.re * w.re + g.im * w.im = p at near clipped other
  have error : (t - s) * (q * ‖w‖ ^ 2 - p) ≤ |t - s| * (η * ‖w‖) :=
    (le_abs_self _).trans ((abs_mul _ _).trans_le (mul_le_mul_of_nonneg_left near (abs_nonneg _)))
  -- What the error costs at most, set against the way between both places.
  have square : 0 ≤ (|t - s| * ‖w‖ - η) ^ 2 := sq_nonneg _
  have total : ‖w * t - g‖ ^ 2 ≤ ‖w * s - g‖ ^ 2 + η ^ 2 := by
    have := sq_abs (t - s)
    nlinarith
  have := norm_nonneg (w * s - g)
  refine abs_le_of_sq_le_sq' (total.trans ?_) (by linarith) |>.2
  nlinarith

theorem mem_segment_iff : z ∈ segment ℝ A B ↔ ∃ s : ℝ, (0 ≤ s ∧ s ≤ 1) ∧ A + (B - A) * s = z := by
  have same (s : ℝ) : A + s • (B - A) = A + (B - A) * s := by rw [Complex.real_smul, mul_comm]
  rw [segment_eq_image']
  simp only [Set.mem_image, Set.mem_Icc, same]

theorem infDist_segment_le (low : 0 ≤ s) (high : s ≤ 1) :
    infDist C (segment ℝ A B) ≤ ‖A + (B - A) * s - C‖ := by
  rw [← dist_eq_norm, dist_comm]
  exact infDist_le_dist_of_mem (mem_segment_iff.2 ⟨s, ⟨low, high⟩, rfl⟩)

theorem le_infDist_segment (all : ∀ s : ℝ, 0 ≤ s → s ≤ 1 → ρ ≤ ‖A + (B - A) * s - C‖) :
    ρ ≤ infDist C (segment ℝ A B) := by
  refine (le_infDist ⟨A, left_mem_segment ℝ A B⟩).2 fun y member => ?_
  obtain ⟨s, ⟨low, high⟩, rfl⟩ := mem_segment_iff.1 member
  rw [dist_comm, dist_eq_norm]
  exact all s low high

/-- The distance at a place `z` that was found with errors: `w` and `g` stand for the ways to `B`
and to `C`, and `q` says which part of `w` to go. -/
theorem abs_norm_sub_infDist_le (nonneg : 0 ≤ η) (way : ‖w - (B - A)‖ ≤ β) (aim : ‖g - (C - A)‖ ≤ γ)
    (near : |q * ‖w‖ ^ 2 - (g.re * w.re + g.im * w.im)| ≤ η * ‖w‖)
    (place : ‖z - (A + w * clip q)‖ ≤ ρ) :
    |‖z - C‖ - infDist C (segment ℝ A B)| ≤ ρ + η + β + 2 * γ := by
  have part {s : ℝ} (low : 0 ≤ s) (high : s ≤ 1) : ‖(w - (B - A)) * s‖ ≤ β :=
    (norm_part_le low high).trans way
  have γ_nonneg : 0 ≤ γ := (norm_nonneg _).trans aim
  refine abs_sub_le_iff.2 ⟨?_, ?_⟩
  · have least := le_infDist_segment (A := A) (B := B) (C := C) (ρ := ‖z - C‖ - (ρ + η + β + 2 * γ))
      fun s low high => ?_
    · linarith
    · have nearest := norm_clip_sub_le nonneg low high near
      have first : ‖z - C‖ ≤ ‖z - (A + w * clip q)‖ + ‖w * clip q - g‖ + ‖g - (C - A)‖ := by
        refine norm_add₃_le.trans_eq' ?_
        congr 1
        ring
      have second : ‖w * s - g‖ ≤ ‖(w - (B - A)) * s‖ + ‖A + (B - A) * s - C‖ + ‖g - (C - A)‖ := by
        rw [norm_sub_rev g]
        refine norm_add₃_le.trans_eq' ?_
        congr 1
        ring
      linarith [part low high]
  · have least := infDist_segment_le (A := A) (B := B) (C := C) (clip_nonneg q) (clip_le_one q)
    have turned : ‖A + (B - A) * clip q - C‖ ≤
        ‖z - C‖ + ‖z - (A + w * clip q)‖ + ‖(w - (B - A)) * clip q‖ := by
      rw [norm_sub_rev z (A + _), ← norm_neg ((w - (B - A)) * clip q)]
      refine norm_add₃_le.trans_eq' ?_
      congr 1
      ring
    linarith [part (clip_nonneg q) (clip_le_one q)]

end Nearest

/-! ## The place as it is computed -/

section Place

variable {w g : ℂ}

/-- The square as it is rounded is near the true one if it is not too small. -/
theorem abs_square_sub_le (large : 1 / 2 ^ 23 < roundedDot w w) :
    |roundedDot w w - ‖w‖ ^ 2| ≤ 5 / 2 ^ 24 * ‖w‖ ^ 2 ∧ 1 / 2 ^ 12 ≤ ‖w‖ := by
  have error := abs_roundedSquare_sub_le w
  have square : (1 / 2 ^ 12) ^ 2 ≤ ‖w‖ ^ 2 := by
    have := (abs_le.1 error).2
    norm_num at this large ⊢
    linarith
  refine ⟨error.trans ?_, abs_le_of_sq_le_sq' square (norm_nonneg w) |>.2⟩
  norm_num at square ⊢
  linarith

theorem abs_quotient_sub_le (large : 1 / 2 ^ 23 < roundedDot w w) (short : ‖w‖ ≤ 2 ^ 62) :
    |roundTo .binary32 (roundedDot g w / roundedDot w w) * ‖w‖ ^ 2 - (g.re * w.re + g.im * w.im)| ≤
      (12 / 2 ^ 24 * ‖g‖ + 1 / 2 ^ 80) * ‖w‖ := by
  obtain ⟨square, long⟩ := abs_square_sub_le large
  have product := abs_roundedDot_sub_le g w
  have whole := (abs_add_le _ _).trans (abs_mul_add_abs_mul_le g w)
  have quotient := abs_roundTo_narrow_sub_le (roundedDot g w / roundedDot w w)
  have positive : 0 < roundedDot w w := lt_trans (by norm_num) large
  generalize roundTo .binary32 (roundedDot g w / roundedDot w w) = q at quotient ⊢
  generalize roundedDot w w = S at *
  generalize roundedDot g w = N at *
  generalize g.re * w.re + g.im * w.im = p at *
  -- The error of the division, times the square.
  have divided : |q * S - N| ≤ |N| / 2 ^ 24 + S / 2 ^ 150 := by
    have scaled : q * S - N = (q - N / S) * S := by field_simp
    rw [scaled, abs_mul, abs_of_pos positive]
    calc
      |q - N / S| * S ≤ (1 / 2 ^ 24 * |N / S| + 1 / 2 ^ 150) * S :=
        mul_le_mul_of_nonneg_right quotient positive.le
      _ = |N| / 2 ^ 24 + S / 2 ^ 150 := by
        rw [abs_div, abs_of_pos positive]
        field_simp
  have taken : |q| * S ≤ |q * S - N| + |N| := by
    rw [← abs_of_pos positive, ← abs_mul, abs_of_pos positive]
    exact (abs_add_le _ _).trans_eq' (by rw [sub_add_cancel])
  have apart : |‖w‖ ^ 2 - S| ≤ 6 / 2 ^ 24 * S := by
    rw [abs_sub_comm]
    have := (abs_le.1 square).1
    norm_num at square this ⊢
    linarith
  have replaced : |q * (‖w‖ ^ 2 - S)| ≤ 6 / 2 ^ 24 * (|q| * S) := by
    rw [abs_mul]
    calc
      |q| * |‖w‖ ^ 2 - S| ≤ |q| * (6 / 2 ^ 24 * S) := mul_le_mul_of_nonneg_left apart (abs_nonneg q)
      _ = 6 / 2 ^ 24 * (|q| * S) := by ring
  have size : |N| ≤ |N - p| + |p| := (abs_add_le _ _).trans_eq' (by rw [sub_add_cancel])
  have parts : |q * ‖w‖ ^ 2 - p| ≤ |q * (‖w‖ ^ 2 - S)| + |q * S - N| + |N - p| := by
    refine (abs_add_three _ _ _).trans_eq' ?_
    congr 1
    ring
  have top : S ≤ 2 * ‖w‖ ^ 2 := by
    have := (abs_le.1 square).2
    norm_num at this ⊢
    linarith [sq_nonneg ‖w‖]
  have room : ‖w‖ ^ 2 ≤ 2 ^ 62 * ‖w‖ := by
    rw [pow_two]
    exact mul_le_mul_of_nonneg_right short (norm_nonneg w)
  have both : 0 ≤ ‖g‖ * ‖w‖ := by positivity
  rw [add_mul, mul_assoc]
  norm_num at *
  linarith

theorem abs_quotient_le (large : 1 / 2 ^ 23 < roundedDot w w) (short : ‖g‖ ≤ 2 ^ 62) :
    |roundedDot g w / roundedDot w w| ≤ 2 ^ (76 : ℤ) := by
  obtain ⟨square, long⟩ := abs_square_sub_le large
  have positive : 0 < roundedDot w w := lt_trans (by norm_num) large
  have product := abs_roundedDot_sub_le g w
  have whole := (abs_add_le _ _).trans (abs_mul_add_abs_mul_le g w)
  have size := abs_sub_abs_le_abs_sub (roundedDot g w) (g.re * w.re + g.im * w.im)
  have room : ‖g‖ * ‖w‖ ≤ 2 ^ 74 * ‖w‖ ^ 2 := by
    calc
      ‖g‖ * ‖w‖ ≤ 2 ^ 62 * ‖w‖ := mul_le_mul_of_nonneg_right short (norm_nonneg w)
      _ = 2 ^ 74 * (1 / 2 ^ 12 * ‖w‖) := by ring
      _ ≤ 2 ^ 74 * (‖w‖ * ‖w‖) := by gcongr
      _ = 2 ^ 74 * ‖w‖ ^ 2 := by ring
  have bottom := (abs_le.1 square).1
  rw [abs_div, abs_of_pos positive, div_le_iff₀ positive]
  norm_num at *
  linarith

theorem norm_place_sub_le {A : ℂ} {t : ℝ} (low : 0 ≤ t) (high : t ≤ 1) :
    ‖rounded (w * t)‖ ≤ (1 + 1 / 2 ^ 24) * ‖w‖ + 1 / 2 ^ 149 ∧
      ‖rounded (A + rounded (w * t)) - (A + w * t)‖ ≤ (‖A‖ + 3 * ‖w‖) / 2 ^ 24 + 1 / 2 ^ 147 := by
  have part := norm_part_le (w := w) low high
  have size := norm_rounded_le (w * t)
  have first := norm_rounded_sub_le (w * t)
  have second := norm_rounded_sub_le (A + rounded (w * t))
  have total := norm_add_le A (rounded (w * t))
  have parts : ‖rounded (A + rounded (w * t)) - (A + w * t)‖ ≤
      ‖rounded (A + rounded (w * t)) - (A + rounded (w * t))‖ + ‖rounded (w * t) - w * t‖ := by
    refine (norm_add_le _ _).trans_eq' ?_
    congr 1
    ring
  have := norm_nonneg w
  constructor
  · linarith
  · linarith

end Place

end Pursuit
