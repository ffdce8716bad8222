import Pursuit.Plane.Point
import Pursuit.Proofs.Binary.Values

/-! The square around the origin. A point without NaN, even one at infinity, is held inside it. -/
namespace Pursuit

open Float.Model
open Float.Model.UnpackedFloat
open Pursuit.Binary

variable {h a : Float32} {H x : ℝ} {p : Point}

def Point.IsNumber (p : Point) : Prop := p.x.isNaN = false ∧ p.y.isNaN = false

instance (p : Point) : Decidable p.IsNumber := inferInstanceAs (Decidable (_ ∧ _))

theorem abs_le_iff (side : NarrowIs h H) (value : NarrowIs a x) : a.abs ≤ h ↔ |x| ≤ H :=
  narrow_le_iff value.abs side

theorem hold?_of_side (side : NarrowIs h H) (nonneg : 0 ≤ H) (a : Float32) :
    hold? (-h) h a = some (hold (-h) h a) := by
  rw [hold?, if_pos ((narrow_le_iff side.neg side).2 (by linarith))]

theorem hold_of_between {lo hi : Float32} (low : ¬ a < lo) (high : ¬ hi < a) :
    hold lo hi a = a := by
  rw [hold, if_neg low, if_neg high]

theorem hold_of_abs_le (side : NarrowIs h H) (value : NarrowIs a x) (inside : |x| ≤ H) :
    hold (-h) h a = a := by
  obtain ⟨low, high⟩ := abs_le.1 inside
  exact hold_of_between (fun below => low.not_gt ((narrow_lt_iff value side.neg).1 below))
    fun above => high.not_gt ((narrow_lt_iff side value).1 above)

/-- What is held is beyond neither bound, even if it is NaN. -/
theorem hold_between (side : NarrowIs h H) (nonneg : 0 ≤ H) (a : Float32) :
    ¬ hold (-h) h a < -h ∧ ¬ h < hold (-h) h a := by
  have ordered : ¬ H < -H := by linarith
  rw [hold]
  split
  · rw [narrow_lt_iff side.neg side.neg, narrow_lt_iff side side.neg]
    exact ⟨lt_irrefl _, ordered⟩
  next low =>
    split
    · rw [narrow_lt_iff side side.neg, narrow_lt_iff side side]
      exact ⟨ordered, lt_irrefl _⟩
    next high => exact ⟨low, high⟩

theorem hold_hold (side : NarrowIs h H) (nonneg : 0 ≤ H) (a : Float32) :
    hold (-h) h (hold (-h) h a) = hold (-h) h a :=
  have ⟨low, high⟩ := hold_between side nonneg a
  hold_of_between low high

theorem held (side : NarrowIs h H) (nonneg : 0 ≤ H) (number : a.isNaN = false) :
    ∃ x, NarrowIs (hold (-h) h a) x ∧ |x| ≤ H := by
  have top : |H| ≤ H := (abs_of_nonneg nonneg).le
  have bottom : |-H| ≤ H := by rwa [abs_neg]
  rw [hold]
  split
  · exact ⟨-H, side.neg, bottom⟩
  next low =>
    split
    · exact ⟨H, side, top⟩
    next high =>
      -- An infinity lies beyond one of the bounds.
      obtain nan | ⟨s, infinite⟩ | ⟨x, value⟩ := narrow_cases a
      · rw [Bool.eq_false_iff, ne_eq, narrow_isNaN_iff] at number
        exact absurd nan number
      · cases s with
        | positive => exact absurd (lt_of_infinity infinite side) high
        | negative => exact absurd (lt_of_negative_infinity infinite side.neg) low
      · refine ⟨x, value, abs_le.2 ⟨?_, ?_⟩⟩
        · exact not_lt.1 fun below => low ((narrow_lt_iff value side.neg).2 below)
        · exact not_lt.1 fun above => high ((narrow_lt_iff side value).2 above)

namespace Point

theorem isWithin_iff (side : NarrowIs h H) :
    p.isWithin h ↔ ∃ x y, NarrowIs p.x x ∧ NarrowIs p.y y ∧ |x| ≤ H ∧ |y| ≤ H := by
  rw [isWithin, isFinite, Bool.and_eq_true, Bool.and_eq_true, Bool.and_eq_true, decide_eq_true_iff,
    decide_eq_true_iff, narrow_isFinite_iff, narrow_isFinite_iff]
  constructor
  · rintro ⟨⟨⟨⟨x, isX⟩, y, isY⟩, insideX⟩, insideY⟩
    exact ⟨x, y, isX, isY, (abs_le_iff side isX).1 insideX, (abs_le_iff side isY).1 insideY⟩
  · rintro ⟨x, y, isX, isY, insideX, insideY⟩
    exact ⟨⟨⟨⟨x, isX⟩, y, isY⟩, (abs_le_iff side isX).2 insideX⟩, (abs_le_iff side isY).2 insideY⟩

theorem clamp?_eq (side : NarrowIs h H) (nonneg : 0 ≤ H) (p : Point) :
    p.clamp? h = some ⟨hold (-h) h p.x, hold (-h) h p.y⟩ := by
  rw [clamp?, hold?_of_side side nonneg, hold?_of_side side nonneg]
  rfl

theorem clamp?_isWithin (side : NarrowIs h H) (nonneg : 0 ≤ H) (number : p.IsNumber) :
    ∃ q, p.clamp? h = some q ∧ q.isWithin h := by
  obtain ⟨x, isX, insideX⟩ := held side nonneg number.1
  obtain ⟨y, isY, insideY⟩ := held side nonneg number.2
  exact ⟨_, clamp?_eq side nonneg p, (isWithin_iff side).2 ⟨x, y, isX, isY, insideX, insideY⟩⟩

theorem clamp?_of_isWithin (side : NarrowIs h H) (nonneg : 0 ≤ H) (inside : p.isWithin h) :
    p.clamp? h = some p := by
  obtain ⟨x, y, isX, isY, insideX, insideY⟩ := (isWithin_iff side).1 inside
  rw [clamp?_eq side nonneg, hold_of_abs_le side isX insideX, hold_of_abs_le side isY insideY]

end Point

end Pursuit
