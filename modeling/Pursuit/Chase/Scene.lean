import Pursuit.Arena.Sight
import Pursuit.Arena.Navigator
import Pursuit.Random.Generator
import Pursuit.Settings.Run

/-!
The scene that both agents act on. It moves by `advance`; all else that changes in it is done by
the deeds of the agents.
-/
namespace Pursuit.Chase

open Pursuit.Arena Pursuit.Random Pursuit.Settings

structure Cat where
  nav : Navigator
  sight : ViewCone
  waypoints : List Point
  waypointIndex : Nat := 0
  attackRange : Float32
  patrolSpeed : Float32
  chaseSpeed : Float32
  /-- Where the mouse was last seen. -/
  lastKnown : Option Point := none
  mode : CatMode := .patrolling

structure Mouse where
  nav : Navigator
  speed : Float32
  safeDistance : Float32
  escapeCenter : Point
  escapeRadius : Float32
  wanderRadius : Float32
  /-- The cheese the mouse is heading for. -/
  target : Option Nat := none
  collected : Nat := 0
  mode : MouseMode := .wandering

structure Scene where
  world : World
  cat : Cat
  mouse : Mouse
  generator : Generator
  mouseCaught : Bool := false
  /-- Seconds that agents were moved for. -/
  elapsed : Float := 0.0

def Cat.ofSettings (c : CatSettings) : Cat where
  nav := { position := c.spawn, stoppingDistance := c.stoppingDistance }
  sight := ⟨c.viewRange, c.viewAngle⟩
  waypoints := c.waypoints
  attackRange := c.attackRange
  patrolSpeed := c.patrolSpeed
  chaseSpeed := c.chaseSpeed

def Mouse.ofSettings (m : MouseSettings) : Mouse where
  nav := { position := m.spawn, stoppingDistance := m.stoppingDistance }
  speed := m.speed
  safeDistance := m.safeDistance
  escapeCenter := m.escapeCenter
  escapeRadius := m.escapeRadius
  wanderRadius := m.wanderRadius

def Cat.setMode (c : Cat) (mode : CatMode) : Cat × List Event :=
  if c.mode = mode then (c, []) else ({ c with mode }, [.catMode c.mode mode])

def Mouse.setMode (m : Mouse) (mode : MouseMode) : Mouse × List Event :=
  if m.mode = mode then (m, []) else ({ m with mode }, [.mouseMode m.mode mode])

namespace Scene

def ofSettings (c : RunSettings) : Scene where
  world := .ofPlaces c.world.halfExtent c.world.obstacles c.world.cheeses
  cat := .ofSettings c.cat
  mouse := .ofSettings c.mouse
  generator := .ofSeed c.seed

/-- Moves both agents along their orders; a caught mouse stays. A time that is negative or not
finite is ignored. -/
def advance (s : Scene) (dt : Float) : Scene :=
  if dt.isFinite && !(dt < 0.0) then
    let step (n : Navigator) := n.step (Binary.narrow dt)
    { s with
      cat := { s.cat with nav := step s.cat.nav }
      mouse := if s.mouseCaught then s.mouse else { s.mouse with nav := step s.mouse.nav }
      elapsed := s.elapsed + dt }
  else s

def outcome (s : Scene) : Outcome :=
  if s.mouseCaught then .mouseCaught
  else if s.world.remaining = 0 then .allCheeseCollected
  else .ongoing

end Scene

end Pursuit.Chase
