import Pursuit.Random.Block
import Pursuit.Plane.Point

/-!
A seeded source of random words, and the numbers and points drawn from it. Equal seeds give equal
sequences; every draw takes whole words in order.
-/
namespace Pursuit.Random

structure Generator where
  key : Words
  /-- The number of the next block. -/
  next : UInt64
  /-- Words of the current block that are not drawn yet. -/
  pending : List UInt32

namespace Generator

/-- The words of a key from a seed: a linear step, then an output rotated by the upper bits. -/
def keyWords : Nat → UInt64 → List UInt32
  | 0, _ => []
  | n + 1, state =>
    let state := state * 6364136223846793005 + 11634580027462260723
    let word := (((state >>> 18) ^^^ state) >>> 27).toUInt32
    rotateRight word (state >>> 59).toUInt32 :: keyWords n state

def ofSeed (seed : UInt64) : Generator := ⟨(keyWords 8 seed).toArray, 0, []⟩

def word (g : Generator) : UInt32 × Generator :=
  match g.pending with
  | w :: pending => (w, { g with pending })
  | [] =>
    let b := block g.key g.next
    (b.at 0, { g with next := g.next + 1, pending := b.toList.tail })

/-- A multiple of 2^-24 that is at least 0 and below 1. -/
def unit (g : Generator) : Float32 × Generator :=
  let (w, g) := g.word
  ((w >>> 8).toFloat32 * .ofBits 0x33800000, g)

/-- An angle that is at least 0 and below a full turn. The greatest fraction drawn is 1 - 2^-23, so
the product never rounds up to the full turn. -/
def angle (g : Generator) : Float32 × Generator :=
  let (w, g) := g.word
  ((.ofBits ((0x3f800000 : UInt32) ||| (w >>> 9)) - Binary.one) * Binary.tau + .ofBits 0, g)

/-- A point of the disc around `center`: first its angle is drawn, then its distance. -/
def point (g : Generator) (center : Point) (radius : Float32) : Point × Generator :=
  let (a, g) := g.angle
  let (u, g) := g.unit
  let distance := radius * u.sqrt
  (center.add (.scale ⟨Binary.cos a, Binary.sin a⟩ distance), g)

end Generator

end Pursuit.Random
