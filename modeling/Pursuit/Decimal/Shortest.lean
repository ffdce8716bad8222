/-!
The fewest decimal digits that read back as the same binary float. A float stands for every real
number in the interval that rounds to it; the answer is a point of the coarsest decimal grid that
has a point in that interval, and the one nearest the float if two qualify. All arithmetic is on
natural numbers.
-/
namespace Pursuit.Decimal

structure Scaled where
  digits : Nat
  exponent : Int
deriving DecidableEq, Repr

inductive Tie where
  | up
  | even
deriving DecidableEq

/-- A binary number and the interval that rounds to it, in quarters of its last place. -/
structure Cell where
  low : Nat
  mid : Nat
  high : Nat
  /-- The ends belong to the interval. -/
  closed : Bool
  /-- The power of two that is one quarter of the last place. -/
  exponent : Int

/-- The cell of `m · 2 ^ e` in a format. Below a power of two the next float is half as far. -/
def Cell.ofFloat (format : Float.Model.Format) (m : Nat) (e : Int) : Cell where
  low :=
    if m = Nat.pow 2 (format.mantissaBits - 1) ∧ format.minExponent < e then 4 * m - 1
    else 4 * m - 2
  mid := 4 * m
  high := 4 * m + 2
  closed := m % 2 = 0
  exponent := e - 2

/-- A cell measured against the grid of multiples of `10 ^ j`: a grid point `g` stands for
`g · step`, an end or the middle of the cell for itself times `unit`. -/
structure Ruler where
  step : Nat
  unit : Nat

def Ruler.of (binary decimal : Int) : Ruler where
  step := Nat.pow 10 decimal.toNat * Nat.pow 2 (-binary).toNat
  unit := Nat.pow 2 binary.toNat * Nat.pow 10 (-decimal).toNat

def Cell.holds (c : Cell) (r : Ruler) (g : Nat) : Bool :=
  if c.closed then c.low * r.unit ≤ g * r.step ∧ g * r.step ≤ c.high * r.unit
  else c.low * r.unit < g * r.step ∧ g * r.step < c.high * r.unit

def Cell.choose (c : Cell) (tie : Tie) (r : Ruler) : Option Nat :=
  let middle := c.mid * r.unit
  let g := middle / r.step
  let below := middle - g * r.step
  let above := (g + 1) * r.step - middle
  match c.holds r g, c.holds r (g + 1) with
  | true, true =>
    if below < above then some g
    else if above < below then some (g + 1)
    else match tie with
      | .up => some (g + 1)
      | .even => some (g + g % 2)
  | true, false => some g
  | false, true => some (g + 1)
  | false, false => none

/-- The greatest power of ten that is not above `m · 2 ^ e`. -/
def magnitude (m : Nat) (e : Int) : Int :=
  let guess := ((m.log2 + e) * 30103).fdiv 100000
  let reaches (k : Int) : Bool := let r := Ruler.of e k; r.step ≤ m * r.unit
  if reaches (guess + 1) then guess + 1 else if reaches guess then guess else guess - 1

/-- Drops zeros at the end. The fuel is the number of digits there can be. -/
def Scaled.trim : Nat → Scaled → Scaled
  | 0, s => s
  | fuel + 1, s =>
    if s.digits ≠ 0 ∧ s.digits % 10 = 0 then trim fuel ⟨s.digits / 10, s.exponent + 1⟩ else s

def Cell.search (c : Cell) (tie : Tie) : Nat → Int → Scaled
  | 0, j => ⟨c.mid * (Ruler.of c.exponent j).unit / (Ruler.of c.exponent j).step, j⟩
  | fuel + 1, j =>
    match c.choose tie (.of c.exponent j) with
    | some g => ⟨g, j⟩
    | none => c.search tie fuel (j - 1)

/-- The shortest decimal of the positive float `m · 2 ^ e`. Seventeen digits always suffice. -/
def shortest (format : Float.Model.Format) (tie : Tie) (m : Nat) (e : Int) : Scaled :=
  ((Cell.ofFloat format m e).search tie 17 (magnitude m e)).trim 20

end Pursuit.Decimal
