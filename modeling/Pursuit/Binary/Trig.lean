import Pursuit.Binary.Width
import Pursuit.Binary.Arith

/-!
Sine, cosine and arc cosine of narrow floats. Sine and cosine reduce the angle to a quarter turn
and evaluate a fixed polynomial in the wide width before one rounding; the arc cosine evaluates a
rational function in the narrow width. The coefficients decide the last bit, so they are part of
the definition. No claim is made that a result is correctly rounded.
-/
namespace Pursuit.Binary

/-! ## Sine and cosine -/

/-- Coefficients, as bit patterns: sine after the leading 1, then cosine. -/
structure Wave where
  s1 : Float := .ofBits 0xbfc555545995a603
  s2 : Float := .ofBits 0x3f81107605230bc4
  s3 : Float := .ofBits 0xbf2994eb3774cf24
  c0 : Float
  c1 : Float
  c2 : Float
  c3 : Float
  c4 : Float

def Wave.upright : Wave where
  c0 := .ofBits 0x3ff0000000000000
  c1 := .ofBits 0xbfdffffffd0c621c
  c2 := .ofBits 0x3fa55553e1068f19
  c3 := .ofBits 0xbf56c087e89a359d
  c4 := .ofBits 0x3ef99343027bf8c3

def Wave.inverted : Wave where
  c0 := .ofBits 0xbff0000000000000
  c1 := .ofBits 0x3fdffffffd0c621c
  c2 := .ofBits 0xbfa55553e1068f19
  c3 := .ofBits 0x3f56c087e89a359d
  c4 := .ofBits 0xbef99343027bf8c3

def Wave.sine (w : Wave) (x x2 : Float) : Float :=
  let x3 := x * x2
  let tail := w.s2 + x2 * w.s3
  let x7 := x3 * x2
  let head := x + x3 * w.s1
  head + x7 * tail

def Wave.cosine (w : Wave) (x2 : Float) : Float :=
  let x4 := x2 * x2
  let tail := w.c3 + x2 * w.c4
  let start := w.c0 + x2 * w.c1
  let x6 := x4 * x2
  let head := start + x4 * w.c2
  head + x6 * tail

/-- The upper bits that order narrow floats by exponent and leading mantissa bits. -/
def leading (y : Float32) : UInt32 := (y.toBits >>> 20) &&& 0x7ff

/-- An angle less its nearest multiple of a quarter turn, and that multiple. -/
def quarterReduce (x : Float) : Float × Nat :=
  let scaled := (x * .ofBits 0x41645f306dc9c883).toUInt64.toNat
  let n := (scaled + 0x800000) >>> 24
  (x - n.toUInt64.toFloat * .ofBits 0x3ff921fb54442d18, n)

def quarterSign (n : Nat) : Float := if n % 4 = 0 ∨ n % 4 = 3 then 1.0 else -1.0

def largeAngle (y : Float32) (cosine : Bool) : Float32 :=
  let (x, n) := quarterReduce (widen y)
  let w := if n / 2 % 2 = 1 then Wave.inverted else Wave.upright
  let odd := (n % 2 == 1) != cosine
  narrow (if odd then w.cosine (x * x) else w.sine (x * quarterSign n) (x * x))

/-- Sine of an angle of at least 0 and less than about a hundred radians. -/
def sin (y : Float32) : Float32 :=
  if leading y < leading (.ofBits 0x3f490fdb) then
    if leading y < leading (.ofBits 0x39800000) then y
    else let x := widen y; narrow (Wave.upright.sine x (x * x))
  else largeAngle y false

def cos (y : Float32) : Float32 :=
  if leading y < leading (.ofBits 0x3f490fdb) then
    if leading y < leading (.ofBits 0x39800000) then .ofBits 0x3f800000
    else let x := widen y; narrow (Wave.upright.cosine (x * x))
  else largeAngle y true

/-! ## Arc cosine -/

def pi : Float32 := .ofBits 0x40490fda
def halfPiHigh : Float32 := .ofBits 0x3fc90fda
def halfPiLow : Float32 := .ofBits 0x33a22168
def one : Float32 := .ofBits 0x3f800000
def two : Float32 := .ofBits 0x40000000
def half : Float32 := .ofBits 0x3f000000

def arcRatio (z : Float32) : Float32 :=
  let p := z * (.ofBits 0x3e2aaaab + z * (.ofBits 0xbea6b090 + z * (.ofBits 0x3e4e0aa8 +
    z * (.ofBits 0xbd241146 + z * (.ofBits 0x3a4f7f04 + z * .ofBits 0x3811ef08)))))
  let q := one + z * (.ofBits 0xc019d139 + z * (.ofBits 0x4001572d + z * (.ofBits 0xbf303361 +
    z * .ofBits 0x3d9dc62e)))
  p / q

/-- Arc cosine in radians; NaN outside [-1, 1]. -/
def acos (x : Float32) : Float32 :=
  let size := x.toBits &&& 0x7fffffff
  if size = 0x3f800000 then
    if signBit x then pi + two * halfPiLow else .ofBits 0
  else if size > 0x3f800000 then (x - x) / (x - x)
  else if size < 0x3f000000 then
    if size ≤ 0x32800000 then halfPiHigh + halfPiLow
    else
      let r := arcRatio (x * x)
      halfPiHigh - (x - (halfPiLow - x * r))
  else if signBit x then
    let z := (one + x) * half
    let s := z.sqrt
    let w := arcRatio z * s - halfPiLow
    pi - two * (s + w)
  else
    let z := (one - x) * half
    let s := z.sqrt
    let top := Float32.ofBits (s.toBits &&& 0xfffff000)
    let c := (z - top * top) / (s + top)
    let w := arcRatio z * s + c
    two * (top + w)

end Pursuit.Binary
