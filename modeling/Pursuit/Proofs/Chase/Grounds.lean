import Pursuit.Proofs.Chase.Stock
import Pursuit.Proofs.Random.Draws

/-! What no act changes in a scene: the size of the world, where the cheese was laid, and the places
a mouse runs to or wanders about. On grounds from valid settings every order that a mouse gives
itself leads inside the world, so none of its deeds fails. -/
namespace Pursuit.Chase

open Pursuit.Arena Pursuit.Behavior Pursuit.Binary Pursuit.Settings

structure Grounds where
  halfExtent : Float32
  places : List Point
  escapeCenter : Point
  escapeRadius : Float32
  wanderRadius : Float32

namespace Grounds

def ofSettings (c : RunSettings) : Grounds where
  halfExtent := c.world.halfExtent
  places := c.world.cheeses
  escapeCenter := c.mouse.escapeCenter
  escapeRadius := c.mouse.escapeRadius
  wanderRadius := c.mouse.wanderRadius

def IsSize (a : Float32) : Prop := ∃ x, NarrowIs a x ∧ 0 ≤ x

/-- Sizes can be used, the cheese lies inside, and the hiding place is without NaN. -/
structure Fit (g : Grounds) : Prop where
  extent : IsSize g.halfExtent
  escape : IsSize g.escapeRadius
  wander : IsSize g.wanderRadius
  center : g.escapeCenter.IsNumber
  inside : ∀ p ∈ g.places, p.isWithin g.halfExtent

end Grounds

def Scene.grounds (s : Scene) : Grounds where
  halfExtent := s.world.halfExtent
  places := s.world.cheeses.map (·.position)
  escapeCenter := s.mouse.escapeCenter
  escapeRadius := s.mouse.escapeRadius
  wanderRadius := s.mouse.wanderRadius

/-! ## From the check of the settings -/

section Check

variable {c : RunSettings}

theorem isSize_of_nonNegative {a : Float32} (checked : NonNegative a) : Grounds.IsSize a := by
  obtain ⟨x, value⟩ := narrow_isFinite_iff.1 checked.1
  exact ⟨x, value, (narrow_le_iff narrowIs_zero value).1 checked.2⟩

theorem isSize_of_positive {a : Float32} (checked : Positive a) : Grounds.IsSize a := by
  obtain ⟨x, value⟩ := narrow_isFinite_iff.1 checked.1
  exact ⟨x, value, ((narrow_lt_iff narrowIs_zero value).1 checked.2).le⟩

theorem fit_of_valid (valid : c.validate = .ok ()) (center : c.mouse.escapeCenter.IsNumber) :
    (Grounds.ofSettings c).Fit := by
  obtain ⟨-, -, world, -, mouse⟩ := RunSettings.validate_eq_ok_iff.1 valid
  exact ⟨isSize_of_positive world.halfExtent, isSize_of_nonNegative mouse.escapeRadius,
    isSize_of_nonNegative mouse.wanderRadius, center, world.cheeses⟩

theorem grounds_ofSettings (c : RunSettings) : (Scene.ofSettings c).grounds = .ofSettings c := by
  have laid : (Scene.ofSettings c).world.cheeses.map (·.position) = c.world.cheeses :=
    List.map_map.trans (List.map_id _)
  exact congrArg (fun places => { Grounds.ofSettings c with places }) laid

end Check

/-! ## Through a run -/

section Run

variable {h h' : Host}

theorem Cat.Act.grounds (act : Act h h') : h'.scene.grounds = h.scene.grounds := by
  cases act with
  | spot | fail => rfl
  | order _ ordered => obtain ⟨destination, speed, index, -, rfl⟩ := ordered; rfl

theorem Cat.Catches.grounds (catches : Catches h h') : h'.scene.grounds = h.scene.grounds := by
  obtain ⟨-, rfl⟩ := catches
  show (caught h.scene).grounds = h.scene.grounds
  rw [caught]
  split
  · rfl
  · rfl

theorem Mouse.Act.grounds (act : Act h h') : h'.scene.grounds = h.scene.grounds := by
  cases act with
  | fail => rfl
  | order _ ordered | pick _ _ _ ordered =>
    obtain ⟨destination, speed, generator, rfl⟩ := ordered
    rfl

theorem Mouse.Eats.grounds (eats : Eats h h') : h'.scene.grounds = h.scene.grounds := by
  obtain ⟨-, id, c, -, here, -, rfl⟩ := eats
  exact congrArg (fun places => { h.scene.grounds with places }) (World.places_take here)

theorem Scene.grounds_advance (s : Scene) (delta : Float) :
    (s.advance delta).grounds = s.grounds := by
  rw [advance]
  split
  · cases caught : s.mouseCaught with
    | true | false => rfl
  · rfl

theorem Cat.Beat.grounds (beat : Beat Cat.Act Cat.Catches h h') :
    h'.scene.grounds = h.scene.grounds :=
  beat.keeps (P := fun k => k.scene.grounds = h.scene.grounds)
    (fun act same => act.grounds.trans same)
    (fun catches same => catches.grounds.trans same) (fun _ same => same) rfl

theorem Mouse.Beat.grounds (beat : Beat Mouse.Act Mouse.Eats h h') :
    h'.scene.grounds = h.scene.grounds :=
  beat.keeps (P := fun k => k.scene.grounds = h.scene.grounds)
    (fun act same => act.grounds.trans same)
    (fun eats same => eats.grounds.trans same) (fun _ same => same) rfl

theorem Simulation.Acted.grounds {sim acted : Simulation} (turned : sim.Acted acted) :
    acted.host.scene.grounds = sim.host.scene.grounds := by
  obtain ⟨h, cat, mouse⟩ := turned.turns
  exact (Mouse.Beat.grounds mouse).trans (Cat.Beat.grounds cat)

theorem Simulation.grounds_kept (g : Grounds) : Kept fun sim _ => sim.host.scene.grounds = g where
  advance _ _ _ turned _ same := (Scene.grounds_advance ..).trans (turned.grounds.trans same)
  close _ _ turned _ same := turned.grounds.trans same
  stop same := same

end Run

/-! ## Deeds of the mouse -/

def Deed.Succeeds (d : Deed) : Prop :=
  ∃ s events, d = .done s events ∧ ∀ name fault, Event.actionFailed name fault ∉ events

namespace Mouse

variable {s : Scene}

theorem not_mem_change {old new : MouseMode} (name : String) (fault : ActionFault) :
    Event.actionFailed name fault ∉ old.change new :=
  fun member => MouseMode.change_quiet _ member

theorem send_succeeds {m : Mouse} {events : List Event} {p : Point}
    (inside : p.isWithin s.world.halfExtent)
    (fine : ∀ name fault, Event.actionFailed name fault ∉ events) :
    (send s m events p).Succeeds := by
  have accepted : m.nav.headFor p s.world = .ok { m.nav with destination := some p } :=
    if_pos inside
  rw [send, accepted]
  exact ⟨_, _, rfl, fine⟩

theorem sendAnywhere_succeeds {m : Mouse} {events : List Event} {center : Point} {radius : Float32}
    (extent : Grounds.IsSize s.world.halfExtent) (number : center.IsNumber)
    (reach : Grounds.IsSize radius) (fine : ∀ name fault, Event.actionFailed name fault ∉ events) :
    (sendAnywhere s m events center radius).Succeeds := by
  obtain ⟨H, side, nonneg⟩ := extent
  obtain ⟨r, value, least⟩ := reach
  obtain ⟨q, clamped, inside⟩ :=
    Point.clamp?_isWithin side nonneg (s.generator.point_isNumber number value least)
  rw [sendAnywhere]
  simp only [clamped]
  exact send_succeeds inside fine

theorem escapeFromCat_succeeds (fit : s.grounds.Fit) : (escapeFromCat s).Succeeds := by
  simp only [escapeFromCat, setMode_eq]
  split
  · exact sendAnywhere_succeeds fit.extent fit.center fit.escape not_mem_change
  · exact ⟨_, _, rfl, not_mem_change⟩

theorem collectCheese_succeeds (reached : (cheeseInReach s).1) : (collectCheese s).Succeeds := by
  obtain ⟨-, id, c, target, here, there⟩ := cheeseInReach_eq_true (Prod.ext reached rfl)
  exact ⟨_, _, collectCheese_eq target here there, nofun⟩

theorem isWithin_of_laid (fit : s.grounds.Fit) {id : Nat} {c : Cheese}
    (here : s.world.cheeses[id]? = some c) : c.position.isWithin s.world.halfExtent :=
  fit.inside _ (List.mem_map_of_mem (List.mem_of_getElem? here))

theorem approachCheese_succeeds (fit : s.grounds.Fit) (has : (hasCheeseTarget s).1) :
    (approachCheese s).Succeeds := by
  obtain ⟨-, c, found⟩ := hasCheeseTarget_eq_true (Prod.ext has rfl)
  obtain ⟨id, -, here⟩ := Option.bind_eq_some_iff.1 found
  rw [approachCheese, found]
  simp only [setMode_eq]
  exact send_succeeds (isWithin_of_laid fit here) not_mem_change

theorem pickCheeseTarget_succeeds (fit : s.grounds.Fit) (seen : (cheeseInSight s).1) :
    (pickCheeseTarget s).Succeeds := by
  obtain ⟨-, c, id, found⟩ := cheeseInSight_eq_true (Prod.ext seen rfl)
  obtain ⟨here, -⟩ := World.nearestVisible?_eq_some found
  rw [pickCheeseTarget, found]
  simp only [setMode_eq]
  refine send_succeeds (isWithin_of_laid fit here) fun name fault member => ?_
  obtain same | change := List.mem_cons.1 member
  · cases same
  · exact not_mem_change name fault change

theorem wander_succeeds (fit : s.grounds.Fit) (number : s.mouse.nav.position.IsNumber) :
    (wander s).Succeeds := by
  simp only [wander, setMode_eq]
  split
  · exact sendAnywhere_succeeds fit.extent number fit.wander not_mem_change
  · exact ⟨_, _, rfl, not_mem_change⟩

/-- Where the condition of a course holds, its action succeeds. -/
theorem courses_succeed (fit : s.grounds.Fit) (number : s.mouse.nav.position.IsNumber) :
    ∀ c ∈ courses, (c.check s).1 → (c.deed s).Succeeds := by
  intro c member passed
  simp only [courses, List.mem_cons, List.not_mem_nil, or_false] at member
  obtain rfl | rfl | rfl | rfl | rfl := member
  · exact escapeFromCat_succeeds fit
  · exact collectCheese_succeeds passed
  · exact approachCheese_succeeds fit passed
  · exact pickCheeseTarget_succeeds fit passed
  · exact wander_succeeds fit number

end Mouse

end Pursuit.Chase
