import Pursuit.Chase.Host

/-!
The cat catches the mouse within its reach, chases it on sight, and otherwise walks its round.
-/
namespace Pursuit.Chase

open Pursuit.Behavior Pursuit.Arena

namespace Cat

/-- Sends the cat to a point; one outside the world is refused and the orders given so far stay. -/
def send (s : Scene) (c : Cat) (events : List Event) (p : Point) : Deed :=
  match c.nav.headFor p s.world with
  | .ok nav => .done { s with cat := { c with nav } } events
  | .error e => .failed { s with cat := c } events e

def mouseInAttackRange (s : Scene) : Bool × Scene :=
  (withinReach s.cat.nav.position s.mouse.nav.position s.cat.attackRange, s)

def mouseSpotted (s : Scene) : Bool × Scene :=
  let p := s.mouse.nav.position
  if s.cat.sight.sees s.cat.nav.position s.cat.nav.forward p s.world then
    (true, { s with cat := { s.cat with lastKnown := some p } })
  else (false, s)

def catchMouse (s : Scene) : Deed :=
  let (c, events) := Cat.setMode { s.cat with nav := s.cat.nav.stop } .caught
  let s := { s with cat := c }
  if s.mouseCaught then .done s events
  else
    let m := { s.mouse with nav := s.mouse.nav.stop }
    .done { s with mouseCaught := true, mouse := m } (events ++ [.mouseCaught m.nav.position])

def chaseMouse (s : Scene) : Deed :=
  match s.cat.lastKnown with
  | none => .failed s [] (.noTarget "mouse position unknown")
  | some p =>
    let (c, events) := s.cat.setMode .chasing
    send s { c with nav := c.nav.moveAt c.chaseSpeed } events p

def patrol (s : Scene) : Deed :=
  if s.cat.waypoints.isEmpty then .failed s [] (.noTarget "cat has no waypoints")
  else
    let (c, events) := s.cat.setMode .patrolling
    let c := { c with nav := c.nav.moveAt c.patrolSpeed }
    match c.waypoints[c.waypointIndex]? with
    | none => .broken { s with cat := c } events
    | some p =>
      match c.nav.headFor p s.world with
      | .error e => .failed { s with cat := c } events e
      | .ok nav =>
        let c := { c with nav }
        if nav.hasArrived then
          let c := { c with waypointIndex := (c.waypointIndex + 1) % c.waypoints.length }
          match c.waypoints[c.waypointIndex]? with
          | none => .broken { s with cat := c } events
          | some p => send s c events p
        else .done { s with cat := c } events

def tree : Node Host :=
  .fallback [
    .sequence [condition "mouse_in_attack_range" mouseInAttackRange,
      action "catch_mouse" catchMouse],
    .sequence [condition "mouse_spotted" mouseSpotted, action "chase_mouse" chaseMouse],
    action "patrol" patrol]

end Cat

end Pursuit.Chase
