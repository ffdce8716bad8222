import Pursuit.Proofs.Chase.Frames
import Pursuit.Proofs.Settings.Check

/-! Settings that pass their check give a run in which nothing breaks off: no value is held between
bounds that are out of order, no waypoint is looked up beyond the round, and nothing is drawn from
an empty range. -/
namespace Pursuit.Settings

open Pursuit.Behavior

theorem bind_eq_ok {ε α β : Type} {x : Except ε α} {f : α → Except ε β} {b : β}
    (ok : x >>= f = .ok b) : ∃ a, x = .ok a ∧ f a = .ok b := by
  cases x with
  | error e => cases ok
  | ok a => exact ⟨a, rfl, ok⟩

variable {c : RunSettings}

theorem usable_of_valid (valid : c.validate = .ok ()) : Driver.usable c.tickInterval := by
  obtain ⟨finite, notNegative⟩ := (RunSettings.validate_eq_ok_iff.1 valid).tickInterval
  simp [Driver.usable, finite, notNegative]

theorem positive_of_valid (valid : c.validate = .ok ()) : .ofBits 0 < c.world.halfExtent :=
  (RunSettings.validate_eq_ok_iff.1 valid).world.halfExtent.2

end Pursuit.Settings

namespace Pursuit.Chase

open Pursuit.Settings Pursuit.Behavior

variable {c : RunSettings}

theorem sound_of_valid (valid : c.validate = .ok ()) (events : List Event) :
    Host.Sound { scene := .ofSettings c, events } :=
  ⟨rfl, Binary.neg_le_self (positive_of_valid valid), List.length_pos_iff.2⟩

namespace Simulation

theorem ofSettings_of_valid (valid : c.validate = .ok ()) : ∃ sim, ofSettings c = .ok sim ∧
    sim.Sound ∧ sim.host.scene = .ofSettings c ∧ (∀ e ∈ sim.host.events, e.Quiet) ∧
    sim.frames = 0 ∧ sim.outcome = .ongoing := by
  have made : (Driver.create? c.tickInterval : Except ConfigFault (Driver Host)) =
      .ok { interval := c.tickInterval } := if_pos (usable_of_valid valid)
  rw [ofSettings, valid]
  simp only [made]
  refine ⟨_, rfl, ⟨sound_of_valid valid _, rfl, rfl⟩, rfl, ?_, rfl, rfl⟩
  exact List.forall_mem_cons.2 ⟨trivial, List.forall_mem_cons.2 ⟨trivial,
    List.forall_mem_singleton.2 trivial⟩⟩

theorem ofSettings_of_invalid {e : ConfigFault} (invalid : c.validate = .error e) :
    ofSettings c = .error e := by
  rw [ofSettings, invalid]
  rfl

/-- Settings are accepted if and only if they pass their check, and refused with its fault. In a run
from accepted ones every operation returns, whatever the frame times, and leaves a scene that is not
spoiled, in which every point, even one that is not finite, can be held within the world, and the
next waypoint is one of the round. The bounds and the range that are no settings are in order. -/
theorem operateAll_returns (c : RunSettings) :
    ((∃ sim, ofSettings c = .ok sim) ↔ c.validate = .ok ()) ∧
    (∀ e, ofSettings c = .error e ↔ c.validate = .error e) ∧
    (∀ sim, ofSettings c = .ok sim → ∀ ops, ∃ sim', sim.operateAll ops = (.returned (), sim') ∧
      sim'.host.spoiled = false ∧
      (∀ p : Point, (p.clamp? sim'.host.scene.world.halfExtent).isSome) ∧
      (sim'.host.scene.cat.waypoints ≠ [] →
        sim'.host.scene.cat.waypointIndex < sim'.host.scene.cat.waypoints.length)) ∧
    (∀ x, Binary.hold? (.ofBits 0) Binary.one x = some (Binary.hold (.ofBits 0) Binary.one x)) ∧
    (∀ x, Binary.hold? (-Binary.one) Binary.one x =
      some (Binary.hold (-Binary.one) Binary.one x)) ∧
    .ofBits 0 < Binary.tau ∧ Binary.tau.isFinite := by
  have accepted {sim : Simulation} (ready : ofSettings c = .ok sim) : c.validate = .ok () := by
    obtain ⟨_, valid, -⟩ := bind_eq_ok ready
    exact valid
  refine ⟨⟨fun ⟨sim, ready⟩ => accepted ready, fun valid => ?_⟩, fun e => ⟨fun refused => ?_,
    ofSettings_of_invalid⟩, fun sim ready ops => ?_, fun x => if_pos (by decide +kernel),
    fun x => if_pos (by decide +kernel), by decide +kernel, by decide +kernel⟩
  · obtain ⟨sim, ready, -⟩ := ofSettings_of_valid valid
    exact ⟨sim, ready⟩
  · cases checked : c.validate with
    | error e' =>
      rw [ofSettings_of_invalid checked] at refused
      exact congrArg Except.error (Except.error.inj refused)
    | ok =>
      obtain ⟨sim, ready, -⟩ := ofSettings_of_valid checked
      rw [ready] at refused
      cases refused
  · obtain ⟨sim₁, ready₁, sound, -⟩ := ofSettings_of_valid (accepted ready)
    obtain rfl : sim₁ = sim := Except.ok.inj (ready₁.symm.trans ready)
    obtain ⟨sim', ended, sound', -⟩ := Kept.always.run sound trivial ops
    refine ⟨sim', ended, sound'.host.unspoiled, fun p => ?_, sound'.host.placed⟩
    obtain ⟨q, held⟩ := Mouse.clamp?_eq_some sound'.host.room p
    rw [held]
    rfl

def outing : List Operation :=
  [.frame 0.5, .frame (-1.0), .frame (0.0 / 0.0), .runHeadless 6, .stop, .frame 0.5]

theorem operateAll_returns_outing : ∃ sim sim', ofSettings {} = .ok sim ∧
    sim.operateAll outing = (.returned (), sim') ∧ sim'.host.spoiled = false := by
  obtain ⟨accepts, -, returns, -⟩ := operateAll_returns {}
  obtain ⟨sim, ready⟩ := accepts.2 rfl
  obtain ⟨sim', ended, sound, -⟩ := returns sim ready outing
  exact ⟨sim, sim', ready, ended, sound⟩

end Simulation

end Pursuit.Chase
