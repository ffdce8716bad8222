/-!
Small float operations that the arena needs beside the built-in arithmetic: the total order, the
smaller of two, a value held in an interval, and radians to degrees. Where an interval may be
empty or unordered the result is an `Option`.
-/
namespace Pursuit.Binary

def epsilon : Float32 := .ofBits 0x34000000

/-- The narrow float nearest to a full turn. -/
def tau : Float32 := .ofBits 0x40c90fdb

/-- The narrow float nearest to the degrees in one radian. -/
def degreesPerRadian : Float32 := .ofBits 0x42652ee1

def toDegrees (x : Float32) : Float32 := x * degreesPerRadian

/-- The smaller of two numbers; NaN gives way to the other, and of two equal ones the first
stays. -/
def least (a b : Float32) : Float32 :=
  if a.isNaN then b else if b < a then b else a

/-- Holds `x` between the bounds. A NaN stays. -/
def hold (lo hi x : Float32) : Float32 :=
  if x < lo then lo else if hi < x then hi else x

def hold? (lo hi x : Float32) : Option Float32 :=
  if lo ≤ hi then some (hold lo hi x) else none

/-- Position in the total order of all narrow floats: by value, with -0 below 0 and NaN last. -/
def rank (x : Float32) : Int :=
  let b := x.toBits.toNat
  if b < 0x80000000 then b else 0x7fffffff - b

def signBit (x : Float32) : Bool := x.toBits.toNat ≥ 0x80000000

end Pursuit.Binary
