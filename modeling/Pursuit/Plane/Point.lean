import Pursuit.Binary.Trig
import Pursuit.Decimal.Layout
import Pursuit.Decimal.Fixed
import Pursuit.Text.Dump

/-!
Points and directions of the plane, with narrow float coordinates. Operations are evaluated in the
order written, each step rounded, so they obey no law of real geometry by themselves.
-/
namespace Pursuit

/-- Equality compares coordinates as floats: NaN differs from itself and the zeros are equal. -/
structure Point where
  x : Float32
  y : Float32
deriving BEq

namespace Point

def origin : Point := ⟨.ofBits 0, .ofBits 0⟩

def ofInts (x y : Int) : Point := ⟨Binary.narrowOfInt x, Binary.narrowOfInt y⟩

def add (p q : Point) : Point := ⟨p.x + q.x, p.y + q.y⟩

def sub (p q : Point) : Point := ⟨p.x - q.x, p.y - q.y⟩

def scale (p : Point) (k : Float32) : Point := ⟨p.x * k, p.y * k⟩

def dot (p q : Point) : Float32 := p.x * q.x + p.y * q.y

def length (p : Point) : Float32 := (p.dot p).sqrt

def distance (p q : Point) : Float32 := (q.sub p).length

/-- The unit vector of the same direction; a vector that is nearly zero gives the origin. -/
def normalized (p : Point) : Point :=
  let l := p.length
  if l ≤ Binary.epsilon then origin else p.scale (Binary.one / l)

/-- The angle between two directions in degrees, from 0 to 180. It is 0 if one is nearly zero. -/
def angle (p q : Point) : Float32 :=
  let d := p.length * q.length
  if d ≤ Binary.epsilon then .ofBits 0
  else Binary.toDegrees (Binary.acos (Binary.hold (-Binary.one) Binary.one (p.dot q / d)))

/-- Holds both coordinates within `h` of zero. There is no result if `h` is negative or NaN. -/
def clamp? (p : Point) (h : Float32) : Option Point := do
  let x ← Binary.hold? (-h) h p.x
  let y ← Binary.hold? (-h) h p.y
  return ⟨x, y⟩

def isFinite (p : Point) : Bool := p.x.isFinite && p.y.isFinite

def isWithin (p : Point) (h : Float32) : Bool :=
  p.isFinite && p.x.abs ≤ h && p.y.abs ≤ h

def text (p : Point) : String := "(" ++ Decimal.cents p.x ++ ", " ++ Decimal.cents p.y ++ ")"

def dump (p : Point) : Text.Dump :=
  .fields "Vec2" [("x", .atom (Decimal.Layout.dump.narrow p.x)),
    ("y", .atom (Decimal.Layout.dump.narrow p.y))]

def json (p : Point) : String :=
  "\x7b\"x\":" ++ Decimal.Layout.jsonNarrow.narrow p.x ++
    ",\"y\":" ++ Decimal.Layout.jsonNarrow.narrow p.y ++ "\x7d"

end Point

end Pursuit
