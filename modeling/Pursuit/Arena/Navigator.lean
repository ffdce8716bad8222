import Pursuit.Arena.World

/-!
Straight-line movement. Orders set the destination, the speed and the brakes; only `step` moves,
and it never passes the destination.
-/
namespace Pursuit.Arena

structure Navigator where
  position : Point
  forward : Point := .ofInts 1 0
  destination : Option Point := none
  speed : Float32 := .ofBits 0
  stoppingDistance : Float32
  isStopped : Bool := true

namespace Navigator

/-- Sets a destination inside the world; any other is rejected and changes nothing. -/
def headFor (n : Navigator) (p : Point) (w : World) : Except ActionFault Navigator :=
  if w.contains p then .ok { n with destination := some p }
  else .error (.navigation p "outside world bounds")

def remaining (n : Navigator) : Float32 :=
  match n.destination with
  | some d => n.position.distance d
  | none => .ofBits 0

def hasArrived (n : Navigator) : Bool := n.remaining ≤ n.stoppingDistance

def moveAt (n : Navigator) (speed : Float32) : Navigator := { n with isStopped := false, speed }

def stop (n : Navigator) : Navigator := { n with isStopped := true, speed := .ofBits 0 }

def travel (n : Navigator) (d : Point) (dt : Float32) : Navigator :=
  let direction := (d.sub n.position).normalized
  let way := Binary.least (n.speed * dt) (n.position.distance d)
  { n with position := n.position.add (direction.scale way), forward := direction }

def step (n : Navigator) (dt : Float32) : Navigator :=
  if n.isStopped || dt ≤ .ofBits 0 then n
  else match n.destination with
    | none => n
    | some d => if n.position.distance d ≤ n.stoppingDistance then n else n.travel d dt

end Navigator

end Pursuit.Arena
