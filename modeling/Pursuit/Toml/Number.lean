import Pursuit.Decimal.Reader
import Pursuit.Toml.Value

/-!
Numbers, dates and times of a settings document. A single underscore may stand between two digits,
and a decimal number other than zero starts with no zero. Whole numbers have 64 bits with sign.
-/
namespace Pursuit.Toml

open Decimal (isDigit natOfDigits digitValue)

abbrev Scan (α : Type) := List Char → Option (α × List Char)

namespace Number

/-- Digits from the start of a text, without the underscores between them. -/
def digits (ok : Char → Bool) : List Char → List Char × List Char
  | [] => ([], [])
  | c :: s =>
    if ok c then
      let (ds, rest) := match s with
        | '_' :: d :: s => if ok d then digits ok (d :: s) else ([], '_' :: d :: s)
        | s => digits ok s
      (c :: ds, rest)
    else ([], c :: s)
termination_by s => s.length

def digits? (ok : Char → Bool) (s : List Char) : Option (List Char × List Char) :=
  let (ds, rest) := digits ok s
  if ds.isEmpty then none else some (ds, rest)

def integer? (n : Int) : Option Value :=
  if -0x8000000000000000 ≤ n ∧ n ≤ 0x7fffffffffffffff then some (.integer n) else none

def hexDigit (c : Char) : Bool := isDigit c || ('a' ≤ c ∧ c ≤ 'f') || ('A' ≤ c ∧ c ≤ 'F')

def hexValue (c : Char) : Nat := if isDigit c then digitValue c else (c.toNat % 32) + 9

def based (base : Nat) (ok : Char → Bool) : Scan Value := fun s => do
  let (ds, rest) ← digits? ok s
  let v ← integer? (ds.foldl (fun n c => base * n + hexValue c) 0 : Nat)
  return (v, rest)

/-- Digits after a point; without a point there are none. -/
def places? : List Char → Option (List Char × List Char)
  | '.' :: s => digits? isDigit s
  | s => some ([], s)

def exponent? : List Char → Option (Option Int × List Char)
  | c :: s =>
    if c = 'e' ∨ c = 'E' then do
      let (negative, s) := Decimal.spanSign s
      let (ds, rest) ← digits? isDigit s
      let n : Int := natOfDigits ds
      return (some (if negative then -n else n), rest)
    else some (none, c :: s)
  | [] => some (none, [])

/-- A decimal number after its sign. A float may not overflow upwards. -/
def decimal (negative : Bool) : Scan Value := fun s => do
  let (whole, s) ← digits? isDigit s
  if whole.head? = some '0' ∧ whole.length ≠ 1 then none
  else
    let (places, s) ← places? s
    let (power, s) ← exponent? s
    if places.isEmpty ∧ power.isNone then
      let n : Int := natOfDigits whole
      return (← integer? (if negative then -n else n), s)
    else
      let x := Decimal.nearest negative (natOfDigits (whole ++ places))
        (power.getD 0 - places.length)
      if x == Decimal.infinity then none else return (.float x, s)

def scan : Scan Value
  | '0' :: 'x' :: s => based 16 hexDigit s
  | '0' :: 'o' :: s => based 8 (fun c => '0' ≤ c ∧ c ≤ '7') s
  | '0' :: 'b' :: s => based 2 (fun c => c = '0' ∨ c = '1') s
  | s =>
    match Decimal.spanSign s with
    | (negative, 'i' :: 'n' :: 'f' :: s) =>
      some (.float (if negative then -Decimal.infinity else Decimal.infinity), s)
    | (_, 'n' :: 'a' :: 'n' :: s) => some (.float Decimal.notANumber, s)
    | (negative, s) => decimal negative s

end Number

namespace Moment

def fixed? (n : Nat) (s : List Char) : Option (Nat × List Char) :=
  let ds := s.take n
  if ds.length = n ∧ ds.all isDigit then some (natOfDigits ds, s.drop n) else none

def two? (least greatest : Nat) (s : List Char) : Option (Nat × List Char) := do
  let (n, s) ← fixed? 2 s
  if least ≤ n ∧ n ≤ greatest then some (n, s) else none

def mark? (c : Char) : List Char → Option (List Char)
  | d :: s => if d = c then some s else none
  | [] => none

def isLeap (year : Nat) : Bool := year % 4 = 0 && (year % 100 ≠ 0 || year % 400 = 0)

def daysIn (year month : Nat) : Nat :=
  if month = 2 then if isLeap year then 29 else 28
  else if month ∈ [4, 6, 9, 11] then 30 else 31

def date? (s : List Char) : Option (List Char) := do
  let (year, s) ← fixed? 4 s
  let (month, s) ← two? 1 12 (← mark? '-' s)
  let (_, s) ← two? 1 (daysIn year month) (← mark? '-' s)
  return s

def time? (s : List Char) : Option (List Char) := do
  let (_, s) ← two? 0 23 s
  let (_, s) ← two? 0 59 (← mark? ':' s)
  let (_, s) ← two? 0 60 (← mark? ':' s)
  match s with
  | '.' :: r => if (r.head?.any isDigit) then some (r.dropWhile isDigit) else some s
  | s => some s

def offset? : List Char → Option (List Char)
  | 'Z' :: s | 'z' :: s => some s
  | '+' :: s | '-' :: s => do
    let (_, s) ← two? 0 23 s
    let (_, s) ← two? 0 59 (← mark? ':' s)
    return s
  | s => some s

def timeOfDay? : List Char → Option (List Char)
  | c :: s =>
    if c = 'T' ∨ c = 't' ∨ c = ' ' then
      match time? s with
      | some s => offset? s
      | none => some (c :: s)
    else some (c :: s)
  | [] => some []

def scan : Scan Value := fun s =>
  match date? s with
  | some s => (timeOfDay? s).map (.moment, ·)
  | none => (time? s).map (.moment, ·)

end Moment

end Pursuit.Toml
