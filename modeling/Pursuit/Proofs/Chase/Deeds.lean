import Pursuit.Chase.Cat
import Pursuit.Chase.Mouse
import Pursuit.Proofs.Arena.Cheese
import Pursuit.Proofs.Arena.Orders

/-! What a deed makes of a scene. Most deeds give orders: a mode, a speed and a destination, the
last of which may be refused. Orders leave positions and headings alone, and a refusal takes back
none of the orders before it. A deed breaks off only in a scene that the settings' check rules
out. -/
namespace Pursuit

def CatMode.change (old new : CatMode) : List Event := if old = new then [] else [.catMode old new]

def MouseMode.change (old new : MouseMode) : List Event :=
  if old = new then [] else [.mouseMode old new]

def ActionFault.Refusal (fault : ActionFault) : Prop :=
  ∃ p, fault = .navigation p "outside world bounds"

def ActionFault.Expected (fault : ActionFault) : Prop :=
  fault.Refusal ∨ fault = .noTarget "cat has no waypoints"

end Pursuit

namespace Pursuit.Chase

open Pursuit.Arena

theorem Cat.setMode_eq (c : Cat) (mode : CatMode) :
    c.setMode mode = ({ c with mode }, c.mode.change mode) := by
  rw [setMode, CatMode.change]
  split
  next same => rw [← same]
  next => rfl

theorem Mouse.setMode_eq (m : Mouse) (mode : MouseMode) :
    m.setMode mode = ({ m with mode }, m.mode.change mode) := by
  rw [setMode, MouseMode.change]
  split
  next same => rw [← same]
  next => rfl

namespace Deed

/-- The deed does not break off; `done` holds of what it leaves if it succeeds, and `failed` if
not. -/
def Ends (done : Scene → List Event → Prop) (failed : Scene → List Event → ActionFault → Prop) :
    Deed → Prop
  | .done s events => done s events
  | .failed s events fault => failed s events fault
  | .broken .. => False

/-- The deed gives orders that lead to a scene in `after`, though the last of them may be
refused. -/
def Orders (after : Scene → Prop) (events : List Event) : Deed → Prop :=
  Ends (fun s evs => after s ∧ evs = events)
    fun s evs fault => after s ∧ evs = events ∧ fault.Refusal

end Deed

/-! ## The cat -/

namespace Cat

/-- The scene with the cat on its way somewhere, in some mode. On the way it may have turned to the
next waypoint. -/
def Ordered (s : Scene) (mode : CatMode) (s' : Scene) : Prop :=
  ∃ destination speed waypointIndex,
    (waypointIndex = s.cat.waypointIndex ∨ s.cat.waypoints ≠ [] ∧
      waypointIndex = (s.cat.waypointIndex + 1) % s.cat.waypoints.length) ∧
    s' = { s with cat := { s.cat with
      nav := { s.cat.nav with destination, speed, isStopped := false }, mode, waypointIndex } }

theorem send_orders {s : Scene} {c : Cat} {p : Point} {after : Scene → Prop} (events : List Event)
    (accepted : after { s with cat := { c with nav := { c.nav with destination := some p } } })
    (refused : after { s with cat := c }) : (send s c events p).Orders after events := by
  rw [send]
  obtain taken | rejected := headFor_cases c.nav p s.world
  · rw [taken]
    exact ⟨accepted, rfl⟩
  · rw [rejected]
    exact ⟨refused, rfl, p, rfl⟩

theorem mouseSpotted_eq_true {s s' : Scene} (spotted : mouseSpotted s = (true, s')) :
    s' = { s with cat.lastKnown := some s.mouse.nav.position } := by
  rw [mouseSpotted] at spotted
  split at spotted
  · exact (Prod.mk.inj spotted).2.symm
  · cases spotted

theorem mouseSpotted_eq_false {s s' : Scene} (missed : mouseSpotted s = (false, s')) : s' = s := by
  rw [mouseSpotted] at missed
  split at missed
  · cases missed
  · exact (Prod.mk.inj missed).2.symm

theorem chaseMouse_orders {s : Scene} {p : Point} (known : s.cat.lastKnown = some p) :
    (chaseMouse s).Orders (Ordered s .chasing) (s.cat.mode.change .chasing) := by
  rw [chaseMouse, known]
  simp only [setMode_eq]
  exact send_orders _ ⟨_, _, _, .inl rfl, rfl⟩ ⟨_, _, _, .inl rfl, rfl⟩

theorem patrol_orders {s : Scene} (round : s.cat.waypoints ≠ [])
    (placed : s.cat.waypointIndex < s.cat.waypoints.length) :
    (patrol s).Orders (Ordered s .patrolling) (s.cat.mode.change .patrolling) := by
  have next : (s.cat.waypointIndex + 1) % s.cat.waypoints.length < s.cat.waypoints.length :=
    Nat.mod_lt _ (List.length_pos_iff.2 round)
  rw [patrol, if_neg (by simpa using round)]
  simp only [setMode_eq, List.getElem?_eq_getElem placed]
  obtain taken | rejected :=
    headFor_cases (s.cat.nav.moveAt s.cat.patrolSpeed) s.cat.waypoints[s.cat.waypointIndex] s.world
  · rw [taken]
    dsimp only
    split
    · rw [List.getElem?_eq_getElem next]
      exact send_orders _ ⟨_, _, _, .inr ⟨round, rfl⟩, rfl⟩ ⟨_, _, _, .inr ⟨round, rfl⟩, rfl⟩
    · exact ⟨⟨_, _, _, .inl rfl, rfl⟩, rfl⟩
  · rw [rejected]
    exact ⟨⟨_, _, _, .inl rfl, rfl⟩, rfl, _, rfl⟩

end Cat

/-! ## The mouse -/

namespace Mouse

/-- The scene with the mouse on its way somewhere, in some mode. The place may have been drawn. -/
def Ordered (s : Scene) (mode : MouseMode) (s' : Scene) : Prop :=
  ∃ destination speed generator,
    s' = { s with
      mouse :=
        { s.mouse with nav := { s.mouse.nav with destination, speed, isStopped := false }, mode }
      generator }

theorem send_orders {s : Scene} {m : Mouse} {p : Point} {after : Scene → Prop} (events : List Event)
    (accepted : after { s with mouse := { m with nav := { m.nav with destination := some p } } })
    (refused : after { s with mouse := m }) : (send s m events p).Orders after events := by
  rw [send]
  obtain taken | rejected := headFor_cases m.nav p s.world
  · rw [taken]
    exact ⟨accepted, rfl⟩
  · rw [rejected]
    exact ⟨refused, rfl, p, rfl⟩

theorem clamp?_eq_some {h : Float32} (room : -h ≤ h) (p : Point) : ∃ q, p.clamp? h = some q := by
  simp [Point.clamp?, Binary.hold?, room]

theorem sendAnywhere_orders {s : Scene} (room : -s.world.halfExtent ≤ s.world.halfExtent)
    (mode : MouseMode) (speed : Float32) (events : List Event) (center : Point) (radius : Float32) :
    (sendAnywhere s { s.mouse with mode, nav := s.mouse.nav.moveAt speed } events center
      radius).Orders (Ordered s mode) events := by
  rw [sendAnywhere]
  obtain ⟨q, held⟩ := clamp?_eq_some room (s.generator.point center radius).1
  simp only [held]
  exact send_orders _ ⟨_, _, _, rfl⟩ ⟨_, _, _, rfl⟩

theorem escapeFromCat_orders {s : Scene} (room : -s.world.halfExtent ≤ s.world.halfExtent) :
    (escapeFromCat s).Orders (Ordered s .fleeing) (s.mouse.mode.change .fleeing) := by
  simp only [escapeFromCat, setMode_eq]
  split
  · exact sendAnywhere_orders room ..
  · exact ⟨⟨_, _, _, rfl⟩, rfl⟩

theorem wander_orders {s : Scene} (room : -s.world.halfExtent ≤ s.world.halfExtent) :
    (wander s).Orders (Ordered s .wandering) (s.mouse.mode.change .wandering) := by
  simp only [wander, setMode_eq]
  split
  · exact sendAnywhere_orders room ..
  · exact ⟨⟨_, _, _, rfl⟩, rfl⟩

theorem approachCheese_orders {s : Scene} {c : Cheese} (found : targeted s = some c) :
    (approachCheese s).Orders (Ordered s .seeking) (s.mouse.mode.change .seeking) := by
  rw [approachCheese, found]
  simp only [setMode_eq]
  exact send_orders _ ⟨_, _, _, rfl⟩ ⟨_, _, _, rfl⟩

theorem pickCheeseTarget_orders {s : Scene} {c : Cheese} {id : Nat}
    (found : s.world.nearestVisible? s.mouse.nav.position = some (c, id)) :
    (pickCheeseTarget s).Orders (Ordered { s with mouse.target := some id } .seeking)
      (.cheeseSpotted id :: s.mouse.mode.change .seeking) := by
  rw [pickCheeseTarget, found]
  simp only [setMode_eq]
  exact send_orders _ ⟨_, _, _, rfl⟩ ⟨_, _, _, rfl⟩

def fed (s : Scene) (id : Nat) (c : Cheese) : Scene :=
  { s with
    world := s.world.take id c
    mouse := { s.mouse with target := none, collected := s.mouse.collected + 1 } }

theorem collectCheese_eq {s : Scene} {id : Nat} {c : Cheese} (target : s.mouse.target = some id)
    (here : s.world.cheeses[id]? = some c) (there : c.collected = false) :
    collectCheese s = .done (fed s id c) [.cheeseCollected id c.position] := by
  rw [collectCheese, target]
  simp only [World.collect_eq_ok here there, fed]

/-- The guard sees that the target is there, so taking it cannot fail. -/
theorem cheeseInReach_eq_true {s s' : Scene} (reached : cheeseInReach s = (true, s')) :
    s' = s ∧ ∃ id c, s.mouse.target = some id ∧ s.world.cheeses[id]? = some c ∧
      c.collected = false := by
  rw [cheeseInReach] at reached
  split at reached
  next => cases reached
  next c found =>
    obtain ⟨id, target, here⟩ := Option.bind_eq_some_iff.1 found
    obtain ⟨near, rfl⟩ := Prod.mk.inj reached
    exact ⟨rfl, id, c, target, here, by simp_all⟩

theorem cheeseInReach_eq_false {s s' : Scene} (missed : cheeseInReach s = (false, s')) :
    s' = s := by
  rw [cheeseInReach] at missed
  split at missed
  · exact (Prod.mk.inj missed).2.symm
  · exact (Prod.mk.inj missed).2.symm

theorem hasCheeseTarget_eq_true {s s' : Scene} (has : hasCheeseTarget s = (true, s')) :
    s' = s ∧ ∃ c, targeted s = some c := by
  obtain ⟨there, rfl⟩ := Prod.mk.inj has
  cases found : targeted s with
  | none => rw [found] at there; cases there
  | some c => exact ⟨rfl, c, rfl⟩

theorem cheeseInSight_eq_true {s s' : Scene} (seen : cheeseInSight s = (true, s')) :
    s' = s ∧ ∃ c id, s.world.nearestVisible? s.mouse.nav.position = some (c, id) := by
  obtain ⟨there, rfl⟩ := Prod.mk.inj seen
  obtain ⟨⟨c, id⟩, found⟩ := Option.isSome_iff_exists.1 there
  exact ⟨rfl, c, id, found⟩

end Mouse

end Pursuit.Chase
