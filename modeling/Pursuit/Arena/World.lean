import Pursuit.Journal

/-!
The arena: a square around the origin, round obstacles that block the view, and cheese. A piece of
cheese is known by its place in the list, and can be collected once.
-/
namespace Pursuit.Arena

structure Obstacle where
  center : Point
  radius : Float32
deriving BEq

/-- Whether the segment between two points comes closer to the centre than the radius. -/
def Obstacle.blocks (o : Obstacle) (a b : Point) : Bool :=
  let d := b.sub a
  let square := d.dot d
  let t := if square ≤ Binary.epsilon then .ofBits 0
    else Binary.hold (.ofBits 0) Binary.one ((o.center.sub a).dot d / square)
  (a.add (d.scale t)).distance o.center < o.radius

structure Cheese where
  position : Point
  collected : Bool := false
deriving BEq

structure World where
  halfExtent : Float32
  obstacles : List Obstacle
  cheeses : List Cheese

namespace World

def ofPlaces (halfExtent : Float32) (obstacles : List Obstacle) (places : List Point) : World :=
  ⟨halfExtent, obstacles, places.map fun p => { position := p }⟩

def contains (w : World) (p : Point) : Bool := p.isWithin w.halfExtent

def lineOfSight (w : World) (a b : Point) : Bool := !w.obstacles.any (·.blocks a b)

def uncollected (w : World) : List (Cheese × Nat) := w.cheeses.zipIdx.filter (!·.1.collected)

/-- The nearer of two pieces; the first keeps its place if neither is nearer. -/
def nearer (eye : Point) (a b : Cheese × Nat) : Cheese × Nat :=
  if Binary.rank (eye.distance b.1.position) < Binary.rank (eye.distance a.1.position) then b else a

def nearest? (w : World) (eye : Point) : Option (Cheese × Nat) :=
  match w.uncollected with
  | [] => none
  | c :: cs => some (cs.foldl (nearer eye) c)

def remaining (w : World) : Nat := w.cheeses.countP (!·.collected)

def collect (w : World) (id : Nat) : Except ActionFault (World × Event) :=
  match w.cheeses[id]? with
  | none => .error (.noTarget ("no cheese with id " ++ Nat.repr id))
  | some c =>
    if c.collected then .error (.alreadyCollected id)
    else .ok ({ w with cheeses := w.cheeses.set id { c with collected := true } },
      .cheeseCollected id c.position)

end World

end Pursuit.Arena
