import Pursuit.Proofs.Arena.Orders
import Pursuit.Proofs.Binary.Endless
import Pursuit.Proofs.Plane.Square

/-! Points held inside the arena. Holding a point between the bounds and testing whether it is
within them are written differently, the one with two comparisons and the other with an absolute
value and a test for finite numbers, but they agree on the border, at infinity and on zeros of
either sign. Only NaN is held and stays outside. -/
namespace Pursuit

open Pursuit.Binary

variable {h : Float32} {H : ℝ} {p q : Point}

theorem isNumber_of_hold {lo hi a : Float32} (number : (hold lo hi a).isNaN = false) :
    a.isNaN = false := by
  rw [← Bool.not_eq_true] at number ⊢
  intro nan
  rw [hold_of_isNaN lo hi nan] at number
  exact number nan

namespace Point

theorem isNumber_of_isWithin (side : NarrowIs h H) (inside : p.isWithin h) : p.IsNumber := by
  obtain ⟨x, y, isX, isY, -⟩ := (isWithin_iff side).1 inside
  exact ⟨isX.isNaN_eq_false, isY.isNaN_eq_false⟩

theorem clamp?_eq_self_iff (side : NarrowIs h H) (nonneg : 0 ≤ H) (number : p.IsNumber) :
    p.clamp? h = some p ↔ p.isWithin h := by
  refine ⟨fun same => ?_, clamp?_of_isWithin side nonneg⟩
  obtain ⟨q, held, inside⟩ := clamp?_isWithin side nonneg number
  obtain rfl := Option.some.inj (held.symm.trans same)
  exact inside

theorem clamp?_clamp? (side : NarrowIs h H) (nonneg : 0 ≤ H) (held : p.clamp? h = some q) :
    q.clamp? h = some q := by
  rw [clamp?_eq side nonneg, Option.some_inj] at held
  rw [clamp?_eq side nonneg, ← held]
  dsimp only
  rw [hold_hold side nonneg, hold_hold side nonneg]

theorem clamp?_cross (side : NarrowIs h H) (nonneg : 0 ≤ H) {p' q' : Point}
    (held : p.clamp? h = some q) (held' : p'.clamp? h = some q') :
    clamp? ⟨p.x, p'.y⟩ h = some ⟨q.x, q'.y⟩ := by
  rw [clamp?_eq side nonneg, Option.some_inj] at held held'
  rw [clamp?_eq side nonneg, ← held, ← held']

theorem clamp?_of_not_isNumber (side : NarrowIs h H) (nonneg : 0 ≤ H) (strange : ¬ p.IsNumber) :
    ∃ q, p.clamp? h = some q ∧ ¬ q.IsNumber :=
  ⟨_, clamp?_eq side nonneg p, fun ⟨x, y⟩ => strange ⟨isNumber_of_hold x, isNumber_of_hold y⟩⟩

end Point

namespace Arena.World

variable {w : World}

/-- In an arena of any finite size every point can be held inside. One without NaN becomes a finite
point that the arena contains and that any agent accepts as its destination, and it stays as it is
just if the arena contains it. One with NaN has NaN afterwards, and is refused. To hold a point
again changes nothing, and each coordinate is held by itself. -/
theorem contains_clamp (finite : w.halfExtent.isFinite) (positive : .ofBits 0 < w.halfExtent) :
    (∀ p : Point, p.IsNumber → ∃ q, p.clamp? w.halfExtent = some q ∧ q.isFinite ∧ w.contains q ∧
      (∀ n : Navigator, n.headFor q w = .ok { n with destination := some q }) ∧
        (w.contains p ↔ q = p)) ∧
    (∀ p : Point, ¬ p.IsNumber → ∃ q, p.clamp? w.halfExtent = some q ∧
      ∀ n : Navigator, n.headFor q w = .error (.navigation q "outside world bounds")) ∧
    (∀ p : Point, (p.clamp? w.halfExtent).bind (·.clamp? w.halfExtent) = p.clamp? w.halfExtent) ∧
    (∀ p q p' q' : Point, p.clamp? w.halfExtent = some q → p'.clamp? w.halfExtent = some q' →
      Point.clamp? ⟨p.x, p'.y⟩ w.halfExtent = some ⟨q.x, q'.y⟩) := by
  obtain ⟨H, side⟩ := narrow_isFinite_iff.1 finite
  have nonneg : 0 ≤ H := ((narrow_lt_iff narrowIs_zero side).1 positive).le
  refine ⟨fun p number => ?_, fun p strange => ?_, fun p => ?_, fun p q p' q' held held' =>
    Point.clamp?_cross side nonneg held held'⟩
  · obtain ⟨q, held, inside⟩ := Point.clamp?_isWithin side nonneg number
    have whole : q.isFinite := by
      rw [Point.isWithin, Bool.and_eq_true, Bool.and_eq_true] at inside
      exact inside.1.1
    refine ⟨q, held, whole, inside, fun n => headFor_inside inside, ?_⟩
    rw [contains, ← Point.clamp?_eq_self_iff side nonneg number, held, Option.some_inj]
  · obtain ⟨q, held, still⟩ := Point.clamp?_of_not_isNumber side nonneg strange
    refine ⟨q, held, fun n => headFor_outside ?_⟩
    rw [contains, ← Bool.not_eq_true]
    exact fun inside => still (Point.isNumber_of_isWithin side inside)
  · rw [Point.clamp?_eq side nonneg, Option.bind_some]
    exact Point.clamp?_clamp? side nonneg (Point.clamp?_eq side nonneg p)

theorem contains_clamp_meadow : ∃ q : Point,
    Point.clamp? ⟨.ofBits 0x7f800000, -25.0⟩ meadow.halfExtent = some q ∧ q = ⟨20.0, -20.0⟩ ∧
    meadow.contains q ∧
      (∀ n : Navigator, n.headFor q meadow = .ok { n with destination := some q }) ∧
    ∃ q' : Point, Point.clamp? ⟨.ofBits 0x7fc00000, 0.0⟩ meadow.halfExtent = some q' ∧
      ∀ n : Navigator, n.headFor q' meadow = .error (.navigation q' "outside world bounds") := by
  have finite : meadow.halfExtent.isFinite := by decide +kernel
  have positive : .ofBits 0 < meadow.halfExtent := by decide +kernel
  obtain ⟨numbers, others, -⟩ := contains_clamp finite positive
  obtain ⟨q, held, -, inside, accepted, -⟩ :=
    numbers ⟨.ofBits 0x7f800000, -25.0⟩ (by decide +kernel)
  obtain ⟨q', held', refused⟩ := others ⟨.ofBits 0x7fc00000, 0.0⟩ (by decide +kernel)
  have corner : q = ⟨20.0, -20.0⟩ := Option.some.inj (held.symm.trans rfl)
  exact ⟨q, held, corner, inside, accepted, q', held', refused⟩

end Arena.World

end Pursuit
