import Pursuit.Chase.Host

/-!
The mouse runs from the cat; otherwise it collects the cheese in its reach, approaches the one it
has picked, picks one in sight, and wanders when there is none. A caught mouse does nothing.
-/
namespace Pursuit.Chase

open Pursuit.Behavior Pursuit.Arena

namespace Mouse

def targeted (s : Scene) : Option Cheese := s.mouse.target.bind fun id => s.world.cheeses[id]?

def send (s : Scene) (m : Mouse) (events : List Event) (p : Point) : Deed :=
  match m.nav.headFor p s.world with
  | .ok nav => .done { s with mouse := { m with nav } } events
  | .error e => .failed { s with mouse := m } events e

def sendAnywhere (s : Scene) (m : Mouse) (events : List Event) (center : Point)
    (radius : Float32) : Deed :=
  let (p, generator) := s.generator.point center radius
  let s := { s with generator }
  match p.clamp? s.world.halfExtent with
  | none => .broken { s with mouse := m } events
  | some p => send s m events p

def isFree (s : Scene) : Bool × Scene := (!s.mouseCaught, s)

def catNearby (s : Scene) : Bool × Scene :=
  (withinReach s.mouse.nav.position s.cat.nav.position s.mouse.safeDistance, s)

def escapeFromCat (s : Scene) : Deed :=
  let started := s.mouse.mode ≠ .fleeing
  let (m, events) := s.mouse.setMode .fleeing
  let m := { m with nav := m.nav.moveAt m.speed }
  if started ∨ m.nav.hasArrived then sendAnywhere s m events m.escapeCenter m.escapeRadius
  else .done { s with mouse := m } events

def cheeseInReach (s : Scene) : Bool × Scene :=
  match targeted s with
  | none => (false, s)
  | some c => (!c.collected &&
      withinReach s.mouse.nav.position c.position s.mouse.nav.stoppingDistance, s)

/-- Takes the target; whether or not that succeeds, the mouse has no target afterwards. -/
def collectCheese (s : Scene) : Deed :=
  match s.mouse.target with
  | none => .failed s [] (.noTarget "mouse has no cheese target")
  | some id =>
    let m := { s.mouse with target := none }
    match s.world.collect id with
    | .error e => .failed { s with mouse := m } [] e
    | .ok (world, event) =>
      .done { s with world, mouse := { m with collected := m.collected + 1 } } [event]

def hasCheeseTarget (s : Scene) : Bool × Scene := ((targeted s).any (!·.collected), s)

def approachCheese (s : Scene) : Deed :=
  match targeted s with
  | none => .failed s [] (.noTarget "cheese target vanished")
  | some c =>
    let (m, events) := s.mouse.setMode .seeking
    send s { m with nav := m.nav.moveAt m.speed } events c.position

def cheeseInSight (s : Scene) : Bool × Scene :=
  ((s.world.nearestVisible? s.mouse.nav.position).isSome, s)

def pickCheeseTarget (s : Scene) : Deed :=
  match s.world.nearestVisible? s.mouse.nav.position with
  | none => .failed s [] (.noTarget "no cheese in sight")
  | some (c, id) =>
    let (m, events) := Mouse.setMode { s.mouse with target := some id } .seeking
    send s { m with nav := m.nav.moveAt m.speed } (.cheeseSpotted id :: events) c.position

def wander (s : Scene) : Deed :=
  let started := s.mouse.mode ≠ .wandering
  let (m, events) := s.mouse.setMode .wandering
  let m := { m with nav := m.nav.moveAt m.speed }
  if started ∨ m.nav.destination.isNone ∨ m.nav.hasArrived then
    sendAnywhere s m events m.nav.position m.wanderRadius
  else .done { s with mouse := m } events

def behaviors : Node Host :=
  .fallback [
    .sequence [condition "cat_nearby" catNearby, action "escape_from_cat" escapeFromCat],
    .sequence [condition "cheese_in_reach" cheeseInReach, action "collect_cheese" collectCheese],
    .sequence [condition "has_cheese_target" hasCheeseTarget,
      action "approach_cheese" approachCheese],
    .sequence [condition "cheese_in_sight" cheeseInSight,
      action "pick_cheese_target" pickCheeseTarget],
    action "wander" wander]

def tree : Node Host := .sequence [condition "mouse_is_free" isFree, behaviors]

end Mouse

end Pursuit.Chase
