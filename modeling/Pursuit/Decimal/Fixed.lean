/-!
Floats written with a fixed number of decimal places. The exact binary value is rounded; a half
goes to the even neighbour.
-/
namespace Pursuit.Decimal

/-- The quotient rounded to the nearest whole number, a half to the even one. -/
def roundQuotient (num den : Nat) : Nat :=
  let q := num / den
  let twice := 2 * (num % den)
  if twice < den then q else if den < twice then q + 1 else q + q % 2

def placed (places n : Nat) : List Char :=
  let ds := (Nat.repr n).toList
  let ds := List.replicate (places + 1 - ds.length) '0' ++ ds
  ds.take (ds.length - places) ++ '.' :: ds.drop (ds.length - places)

def fixed (places : Nat) : Float.Model.UnpackedFloat → String
  | .notANumber => "NaN"
  | .infinity .positive => "inf"
  | .infinity .negative => "-inf"
  | .zero s => .ofList (minus s ++ placed places 0)
  | .finite s m e _ => .ofList (minus s ++
      placed places
        (roundQuotient (m * Nat.pow 10 places * Nat.pow 2 e.toNat) (Nat.pow 2 (-e).toNat)))
where
  minus : Float.Model.UnpackedFloat.Sign → List Char
    | .positive => []
    | .negative => ['-']

def cents (x : Float32) : String := fixed 2 x.toModel.unpack

def centsWide (x : Float) : String := fixed 2 x.toModel.unpack

end Pursuit.Decimal
