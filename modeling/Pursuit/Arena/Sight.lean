import Pursuit.Arena.World

/-!
What an agent perceives: targets in its view cone, points in its reach, and the nearest cheese. Only
the nearest piece counts, so one that is hidden hides all others.
-/
namespace Pursuit.Arena

/-- A view cone, `range` deep and `angle` degrees wide in all. -/
structure ViewCone where
  range : Float32
  angle : Float32

def ViewCone.sees (v : ViewCone) (eye forward target : Point) (w : World) : Bool :=
  let way := target.sub eye
  if v.range < way.length then false
  else if v.angle / Binary.two ≤ forward.angle way then false
  else w.lineOfSight eye target

def withinReach (a b : Point) (reach : Float32) : Bool := a.distance b ≤ reach

def World.nearestVisible? (w : World) (eye : Point) : Option (Cheese × Nat) :=
  (w.nearest? eye).filter fun c => w.lineOfSight eye c.1.position

end Pursuit.Arena
