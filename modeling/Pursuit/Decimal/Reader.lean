/-!
Reading numbers from text. A decimal gives the float nearest to its exact value. The grammars here
are those of environment variables and command line values: no underscores, no radix marks.
-/
namespace Pursuit.Decimal

def isDigit (c : Char) : Bool := '0' ≤ c ∧ c ≤ '9'

def digitValue (c : Char) : Nat := c.toNat - '0'.toNat

def natOfDigits (ds : List Char) : Nat := ds.foldl (fun n c => 10 * n + digitValue c) 0

def infinity : Float := .ofBits 0x7ff0000000000000

def notANumber : Float := .ofBits 0x7ff8000000000000

/-- The wide float nearest to `m · 10 ^ e`. Powers far out of its range are not computed. -/
def nearest (negative : Bool) (m : Nat) (e : Int) : Float :=
  let x :=
    if m = 0 ∨ e + m.log2 < -400 then .ofBits 0
    else if 400 < e then infinity
    else Float.ofModel (.pack (.ofScientific .binary64 m e))
  if negative then -x else x

def spanDigits (s : List Char) : List Char × List Char := (s.takeWhile isDigit, s.dropWhile isDigit)

def spanSign : List Char → Bool × List Char
  | '-' :: s => (true, s)
  | '+' :: s => (false, s)
  | s => (false, s)

/-- The letter `e` or `E`, an optional sign, and digits up to the end; nothing stands for zero. -/
def exponent? : List Char → Option Int
  | [] => some 0
  | c :: s =>
    if c = 'e' ∨ c = 'E' then
      let (negative, s) := spanSign s
      let (ds, rest) := spanDigits s
      if ds.isEmpty ∨ !rest.isEmpty then none
      else some (if negative then -natOfDigits ds else natOfDigits ds)
    else none

def unsigned? (negative : Bool) (s : List Char) : Option Float :=
  let (whole, rest) := spanDigits s
  let (places, rest) := match rest with
    | '.' :: rest => spanDigits rest
    | rest => ([], rest)
  if whole.isEmpty ∧ places.isEmpty then none
  else do
    let e ← exponent? rest
    return nearest negative (natOfDigits (whole ++ places)) (e - places.length)

def lower (c : Char) : Char := if 'A' ≤ c ∧ c ≤ 'Z' then Char.ofNat (c.toNat + 32) else c

def float? (s : List Char) : Option Float :=
  let (negative, body) := spanSign s
  let word := String.ofList (body.map lower)
  if word = "inf" ∨ word = "infinity" then some (if negative then -infinity else infinity)
  else if word = "nan" then some notANumber
  else unsigned? negative body

/-- An optional plus sign and decimal digits, below 2^64. -/
def word? (s : List Char) : Option UInt64 :=
  let ds := match s with
    | '+' :: s => s
    | s => s
  if ds.isEmpty ∨ !ds.all isDigit then none
  else
    let n := natOfDigits ds
    if n < UInt64.size then some n.toUInt64 else none

end Pursuit.Decimal
