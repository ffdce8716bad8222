import Pursuit.Decimal.Shortest

/-!
How the shortest digits of a float are laid out as text. A `Layout` is the list of decisions that
one output format makes; the formats in use are values of it.
-/
namespace Pursuit.Decimal

structure Layout where
  /-- Whether a number with its point after this many digits is written without an exponent. -/
  positional : Int → Bool
  /-- A whole number gets `.0`. -/
  fraction : Bool
  /-- A positive exponent gets a plus sign. -/
  plus : Bool
  tie : Tie
  nan : String
  infinity : String
  negativeInfinity : String

/-- Error messages: never an exponent, no superfluous fraction. -/
def Layout.plain : Layout where
  positional _ := true
  fraction := false
  plus := false
  tie := .up
  nan := "NaN"
  infinity := "inf"
  negativeInfinity := "-inf"

/-- Structure dumps: always a fraction, an exponent from 1e16 on and below 1e-4. -/
def Layout.dump : Layout :=
  { Layout.plain with positional := fun p => -3 ≤ p ∧ p ≤ 16, fraction := true }

/-- TOML values: never an exponent, always a fraction. -/
def Layout.toml : Layout :=
  { Layout.plain with fraction := true, nan := "nan" }

/-- JSON values, with the least and the greatest point position written without an exponent. -/
def Layout.json (least greatest : Int) : Layout where
  positional p := least ≤ p ∧ p ≤ greatest
  fraction := true
  plus := true
  tie := .even
  nan := "null"
  infinity := "null"
  negativeInfinity := "null"

def Layout.jsonWide : Layout := .json (-4) 16

def Layout.jsonNarrow : Layout := .json (-5) 13

def zeros (n : Nat) : List Char := List.replicate n '0'

def Layout.spread (l : Layout) (ds : List Char) (point : Int) : List Char :=
  if point ≤ 0 then '0' :: '.' :: zeros (-point).toNat ++ ds
  else
    let whole := point.toNat
    if ds.length ≤ whole then
      ds ++ zeros (whole - ds.length) ++ (if l.fraction then ['.', '0'] else [])
    else ds.take whole ++ '.' :: ds.drop whole

def Layout.scientific (l : Layout) (ds : List Char) (point : Int) : List Char :=
  let power := point - 1
  let sign := if power < 0 then ['-'] else if l.plus then ['+'] else []
  ds.take 1 ++ (if ds.length ≤ 1 then [] else '.' :: ds.drop 1) ++
    'e' :: sign ++ (Nat.repr power.natAbs).toList

def Layout.magnitude (l : Layout) (s : Scaled) : List Char :=
  let ds := (Nat.repr s.digits).toList
  let point := ds.length + s.exponent
  if l.positional point then l.spread ds point else l.scientific ds point

def Layout.text (l : Layout) (format : Float.Model.Format) : Float.Model.UnpackedFloat → String
  | .notANumber => l.nan
  | .infinity .positive => l.infinity
  | .infinity .negative => l.negativeInfinity
  | .zero s => .ofList (minus s ++ '0' :: (if l.fraction then ['.', '0'] else []))
  | .finite s m e _ => .ofList (minus s ++ l.magnitude (shortest format l.tie m e))
where
  minus : Float.Model.UnpackedFloat.Sign → List Char
    | .positive => []
    | .negative => ['-']

def Layout.wide (l : Layout) (x : Float) : String := l.text .binary64 x.toModel.unpack

def Layout.narrow (l : Layout) (x : Float32) : String := l.text .binary32 x.toModel.unpack

end Pursuit.Decimal
