import Pursuit.Decimal.Reader
import Pursuit.Text.Alphanumeric

/-!
Which texts are patterns that the value of a field can be compared with: alternatives of sequences
of characters, classes, groups, anchors and what repeats them. Boundaries of words, references back
and looking around are not supported. Repetitions with a count are left out too, because the text
of a field ends at the brace that would close the count.
-/
namespace Pursuit.Logging.Pattern

inductive Atom where
  | char (c : Char)
  /-- Any one of several characters. -/
  | set
  /-- No character but a place between them. -/
  | anchor

def isHexDigit (c : Char) : Bool :=
  Decimal.isDigit c || ('a' ≤ Decimal.lower c && Decimal.lower c ≤ 'f')

def hexValue (c : Char) : Nat :=
  if Decimal.isDigit c then Decimal.digitValue c else (Decimal.lower c).toNat - 'a'.toNat + 10

def codePoint? (n : Nat) (s : List Char) : Option (Atom × List Char) :=
  let digits := s.take n
  let value := digits.foldl (fun v c => 16 * v + hexValue c) 0
  if digits.length = n ∧ digits.all isHexDigit ∧ value.isValidChar then
    some (.char (.ofNat value), s.drop n)
  else none

/-- What follows a backslash. Letters and digits have a meaning or none; other ASCII characters
stand for themselves, but for the two that mark the boundaries of words. -/
def escape? : List Char → Option (Atom × List Char)
  | [] => none
  | c :: s =>
    match c with
    | 'x' => codePoint? 2 s
    | 'u' => codePoint? 4 s
    | 'U' => codePoint? 8 s
    | 'd' | 'D' | 's' | 'S' | 'w' | 'W' => some (.set, s)
    | 'p' | 'P' =>
      match s with
      | k :: s => if "clmnpsz".toList.contains (Decimal.lower k) then some (.set, s) else none
      | [] => none
    | 'a' => some (.char '\x07', s)
    | 'f' => some (.char '\x0c', s)
    | 't' => some (.char '\t', s)
    | 'n' => some (.char '\n', s)
    | 'r' => some (.char '\r', s)
    | 'v' => some (.char '\x0b', s)
    | 'A' | 'z' => some (.anchor, s)
    | '<' | '>' => none
    | c => if c.isAlphanum ∨ 0x80 ≤ c.toNat then none else some (.char c, s)

/-! ## Classes -/

def classNames : List String := [
  "alnum", "alpha", "ascii", "blank", "cntrl", "digit", "graph", "lower", "print", "punct",
  "space", "upper", "word", "xdigit"]

/-- The rest of a class that is given by its name between colons, after its first bracket. -/
def named? : List Char → Option (List Char)
  | ':' :: s =>
    let s := match s with
      | '^' :: s => s
      | s => s
    match s.dropWhile (· ≠ ':') with
    | ':' :: ']' :: rest =>
      if classNames.contains (.ofList (s.takeWhile (· ≠ ':'))) then some rest else none
    | _ => none
  | _ => none

/-- Drops what stands for itself only at the start of a class: dashes, or else one closing bracket.
Before them there may be a sign of negation. -/
def opening (s : List Char) : List Char :=
  let s := match s with
    | '^' :: s => s
    | s => s
  match s with
  | '-' :: s => s.dropWhile (· = '-')
  | ']' :: s => s
  | s => s

def member? : List Char → Option (Atom × List Char)
  | [] => none
  | '\\' :: s => escape? s
  | c :: s => some (.char c, s)

def range? (s : List Char) : Option (List Char) := do
  let (first, rest) ← member? s
  match rest with
  | '-' :: d :: after =>
    if d = ']' ∨ d = '-' then alone first rest
    else
      match first, ← member? (d :: after) with
      | .char a, (.char b, rest) => if a ≤ b then return rest else none
      | _, _ => none
  | _ => alone first rest
where
  alone : Atom → List Char → Option (List Char)
    | .anchor, _ => none
    | _, rest => some rest

/-- What follows a class of which `depth` brackets more than one are open. -/
def afterClass? : (fuel depth : Nat) → List Char → Option (List Char)
  | 0, _, _ => none
  | fuel + 1, depth, s =>
    match s with
    | [] => none
    | '[' :: s =>
      match named? s with
      | some rest => afterClass? fuel depth rest
      | none => afterClass? fuel (depth + 1) (opening s)
    | ']' :: s => if depth = 0 then some s else afterClass? fuel (depth - 1) s
    | '&' :: '&' :: s | '-' :: '-' :: s | '~' :: '~' :: s => afterClass? fuel depth s
    | s => (range? s).bind (afterClass? fuel depth)

/-! ## Groups -/

def isFlags (s : List Char) : Bool :=
  s.all "imsUuRx-".toList.contains && s.eraseDups.length = s.length && s.getLast? ≠ some '-'

/-- Letters of all scripts and an underscore; after the first also digits, points and brackets. -/
def isGroupName : List Char → Bool
  | [] => false
  | c :: s =>
    (c = '_' || (Text.isAlphanumeric c && !Decimal.isDigit c)) &&
      s.all fun c => "_.[]".toList.contains c || Text.isAlphanumeric c

structure Progress where
  /-- Groups that are open. -/
  depth : Nat := 0
  /-- There is something before this place that can be repeated. -/
  repeatable : Bool := false
  /-- Names of groups, which must differ. -/
  names : List (List Char) := []

namespace Progress

def afterAtom (p : Progress) : Progress := { p with repeatable := true }

def inGroup (p : Progress) : Progress := { p with depth := p.depth + 1, repeatable := false }

def named? (p : Progress) (s : List Char) : Option (Progress × List Char) :=
  let name := s.takeWhile (· ≠ '>')
  match s.dropWhile (· ≠ '>') with
  | _ :: rest =>
    if isGroupName name ∧ !p.names.contains name then
      some ({ p.inGroup with names := name :: p.names }, rest)
    else none
  | [] => none

/-- The start of a group after its bracket. Flags on their own open no group. -/
def group? (p : Progress) : List Char → Option (Progress × List Char)
  | '?' :: 'P' :: '<' :: s | '?' :: '<' :: s => p.named? s
  | '?' :: s =>
    let flags := s.takeWhile fun c => c ≠ ':' ∧ c ≠ ')'
    match s.drop flags.length with
    | ':' :: rest => if isFlags flags then some (p.inGroup, rest) else none
    | _ :: rest =>
      if isFlags flags ∧ flags ≠ [] then some ({ p with repeatable := false }, rest) else none
    | [] => none
  | s => some (p.inGroup, s)

def step? (p : Progress) : List Char → Option (Progress × List Char)
  | [] | '\x7b' :: _ => none
  | '(' :: s => p.group? s
  | ')' :: s => if p.depth = 0 then none else some ({ p.afterAtom with depth := p.depth - 1 }, s)
  | '|' :: s => some ({ p with repeatable := false }, s)
  | '[' :: s => (afterClass? (s.length + 1) 0 (opening s)).map (p.afterAtom, ·)
  | '\\' :: s => (escape? s).map fun (_, s) => (p.afterAtom, s)
  | c :: s =>
    if c = '*' ∨ c = '+' ∨ c = '?' then
      if p.repeatable then
        some (p, match s with
          | '?' :: s => s
          | s => s)
      else none
    else some (p.afterAtom, s)

end Progress

def readAll : (fuel : Nat) → Progress → List Char → Bool
  | _, p, [] => p.depth = 0
  | 0, _, _ :: _ => false
  | fuel + 1, p, s@(_ :: _) =>
    match p.step? s with
    | some (p, s) => readAll fuel p s
    | none => false

end Pattern

def isPattern (s : List Char) : Bool := Pattern.readAll s.length {} s

end Pursuit.Logging
