import Pursuit.Proofs.Arena.Orders
import Pursuit.Proofs.Chase.Choice

/-! When a mouse is at its target. A step that stays near, the test of arrival and the guard before
collecting ask the same of the same distance, and the target of a run is always there. So a mouse
that has come to its target takes it, and none waits there for ever. -/
namespace Pursuit.Chase

open Pursuit.Arena Pursuit.Behavior Pursuit.Settings

namespace Mouse

variable {h : Host} {s : Scene} {id : ℕ} {c : Cheese}

/-- The guard before collecting is the test of arrival, of a piece that is still there. -/
theorem cheeseInReach_iff_hasArrived (target : s.mouse.target = some id)
    (here : s.world.cheeses[id]? = some c) (there : c.collected = false)
    (aim : s.mouse.nav.destination = some c.position) :
    (cheeseInReach s).1 ↔ s.mouse.nav.hasArrived := by
  have found : targeted s = some c := by simp [targeted, target, here]
  rw [Navigator.hasArrived_of_aim aim, cheeseInReach, found]
  simp [there, withinReach]

theorem firstOpen?_of_reach (away : (catNearby s).1 = false) (reached : (cheeseInReach s).1) :
    firstOpen? courses s =
      some ⟨some ("cheese_in_reach", cheeseInReach), "collect_cheese", collectCheese⟩ := by
  simp [firstOpen?, courses, Course.check, away, reached]

theorem tick_of_reach (sound : h.spoiled = false) (free : h.scene.mouseCaught = false)
    (away : (catNearby h.scene).1 = false) (target : h.scene.mouse.target = some id)
    (here : h.scene.world.cheeses[id]? = some c) (there : c.collected = false)
    (reached : (cheeseInReach h.scene).1) :
    Tree.executed { root := tree } h = ["collect_cheese"] ∧
      Tree.tick { root := tree } h = (.returned .success, { root := tree },
        h.after (fed h.scene id c) [.cheeseCollected id c.position]) := by
  have first := firstOpen?_of_reach away reached
  have done := collectCheese_eq target here there
  constructor
  · exact executed_of_firstOpen sound free first done
  · rw [tick_tree_of_free sound free, tryAll_of_firstOpen (courses_silent _) first done]

def aimsAtTarget (s : Scene) : Bool :=
  match s.mouse.nav.destination, targeted s with
  | some d, some c => decide (d.x = c.position.x ∧ d.y = c.position.y)
  | _, _ => false

theorem destination_of_aims (aims : aimsAtTarget s) (target : s.mouse.target = some id)
    (here : s.world.cheeses[id]? = some c) : s.mouse.nav.destination = some c.position := by
  have found : targeted s = some c := by simp [targeted, target, here]
  rw [aimsAtTarget, found] at aims
  cases aim : s.mouse.nav.destination with
  | none => simp [aim] at aims
  | some d =>
    obtain ⟨⟨x, y⟩, gone⟩ := c
    obtain ⟨x', y'⟩ := d
    simp_all

end Mouse

namespace Simulation

variable {sim : Simulation} {places : List Point}

theorem tally_frame (sound : sim.Sound) (tally : Tally places sim.host) (delta : Float) :
    Tally places (sim.catDriver.frame delta sim.host).2.2 := by
  obtain ⟨cat, h, framed, -, beat⟩ := frame_beat sound.cat (Cat.tick_turn sound.host) delta
  rw [framed]
  exact beat.keeps Tally.cat_act Tally.cat_catches (fun quiet tally => tally.noted quiet) tally

/-- In a run from valid settings, be it between two operations or after the cat has had the time of
a frame, a mouse with a target that it is heading for. A step with the brakes off ends for nearness
just if the mouse has arrived, and just then the target is in its reach. It is moved no more from
there, and if it is free and away from the cat then its next tick takes that piece and nothing else,
and leaves it without a target. -/
theorem operateAll_reached {c : RunSettings} (valid : c.validate = .ok ()) (ops : List Operation) :
    ∃ start sim, ofSettings c = .ok start ∧ start.operateAll ops = (.returned (), sim) ∧
      sim.mouseDriver.root = some { root := Mouse.tree } ∧
      ∀ h : Host, h = sim.host ∨ (∃ delta, h = (sim.catDriver.frame delta sim.host).2.2) →
        ∀ id, h.scene.mouse.target = some id → ∃ cheese,
          h.scene.world.cheeses[id]? = some cheese ∧ cheese.collected = false ∧
          (h.scene.mouse.nav.destination = some cheese.position →
            (h.scene.mouse.nav.isStopped = false → ∀ dt, .ofBits 0 < dt →
              h.scene.mouse.nav.step dt = h.scene.mouse.nav.moved dt (h.scene.mouse.nav.move dt) ∧
                (h.scene.mouse.nav.move dt = .near ↔ h.scene.mouse.nav.hasArrived)) ∧
            ((Mouse.cheeseInReach h.scene).1 ↔ h.scene.mouse.nav.hasArrived) ∧
            (h.scene.mouse.nav.hasArrived →
              (∀ dt, h.scene.mouse.nav.step dt = h.scene.mouse.nav) ∧
              (h.scene.mouseCaught = false → (Mouse.catNearby h.scene).1 = false →
                Tree.executed { root := Mouse.tree } h = ["collect_cheese"] ∧
                ∃ h', Tree.tick { root := Mouse.tree } h =
                  (.returned .success, { root := Mouse.tree }, h') ∧
                  h' = h.after (Mouse.fed h.scene id cheese) [.cheeseCollected id cheese.position] ∧
                  h'.scene.mouse.target = none))) := by
  obtain ⟨start, ready, sound, scene, quiet, -, -⟩ := ofSettings_of_valid valid
  obtain ⟨sim, ended, sound', tally⟩ := (tally_kept _).run sound (tally_ofSettings scene quiet) ops
  refine ⟨start, sim, ready, ended, sound'.mouse, fun h reached id target => ?_⟩
  obtain ⟨steady, tally⟩ : h.Sound ∧ Tally c.world.cheeses h := by
    obtain rfl | ⟨delta, rfl⟩ := reached
    · exact ⟨sound'.host, tally⟩
    · exact ⟨(grounds_frame sound' delta).1, tally_frame sound' tally delta⟩
  obtain ⟨cheese, here, there⟩ := tally.targets id target
  refine ⟨cheese, here, there, fun aim => ?_⟩
  have near := Mouse.cheeseInReach_iff_hasArrived target here there aim
  refine ⟨fun moving dt later =>
    ⟨Navigator.step_eq_moved _ dt, Navigator.move_eq_near_iff moving later aim⟩, near,
      fun arrived => ?_⟩
  refine ⟨Navigator.step_of_arrived aim arrived, fun free away => ?_⟩
  obtain ⟨executed, ticked⟩ :=
    Mouse.tick_of_reach steady.unspoiled free away target here there (near.2 arrived)
  exact ⟨executed, _, ticked, rfl, rfl⟩

def arrival (c : RunSettings) (ops : List Operation) : Option (List Bool × Option ℕ) :=
  match ofSettings c with
  | .ok start =>
    let s := (start.operateAll ops).2.host.scene
    some ([!s.mouseCaught, !(Mouse.catNearby s).1, !s.mouse.nav.isStopped, s.mouse.nav.hasArrived,
      Mouse.aimsAtTarget s], s.mouse.target)
  | .error _ => none

/-- The piece that the mouse starts on is picked in the first frame, and the next tick takes it. -/
theorem operateAll_reached_larder : larder.validate = .ok () ∧ ∃ start sim,
    ofSettings larder = .ok start ∧ start.operateAll [.frame 0.25] = (.returned (), sim) ∧
    sim.host.scene.mouse.target = some 0 ∧ sim.host.scene.mouse.nav.isStopped = false ∧
    .ofBits 0 < Binary.one ∧ sim.host.scene.mouse.nav.move Binary.one = .near ∧
    sim.host.scene.mouse.nav.hasArrived ∧ (Mouse.cheeseInReach sim.host.scene).1 ∧
    Tree.executed { root := Mouse.tree } sim.host = ["collect_cheese"] ∧
    (Tree.tick { root := Mouse.tree } sim.host).2.2.scene.mouse.target = none := by
  have valid : larder.validate = .ok () := rfl
  have ran : arrival larder [.frame 0.25] = some ([true, true, true, true, true], some 0) := by
    decide +kernel
  have later : .ofBits 0 < Binary.one := by decide +kernel
  obtain ⟨start, sim, ready, ended, -, law⟩ := operateAll_reached valid [.frame 0.25]
  rw [arrival, ready] at ran
  dsimp only at ran
  rw [ended] at ran
  simp only [Option.some.injEq, Prod.mk.injEq, List.cons.injEq, Bool.not_eq_true', and_true] at ran
  obtain ⟨⟨free, away, moving, arrived, aims⟩, target⟩ := ran
  obtain ⟨cheese, here, -, reached⟩ := law sim.host (.inl rfl) 0 target
  obtain ⟨near, inReach, next⟩ := reached (Mouse.destination_of_aims aims target here)
  obtain ⟨executed, h', ticked, -, cleared⟩ := (next arrived).2 free away
  refine ⟨valid, start, sim, ready, ended, target, moving, later,
    (near moving _ later).2.2 arrived, arrived, inReach.2 arrived, executed, ?_⟩
  rw [ticked]
  exact cleared

end Simulation

end Pursuit.Chase
