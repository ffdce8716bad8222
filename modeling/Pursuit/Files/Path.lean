import Pursuit.Text.Split

/-!
Paths as text. Slashes separate the names; doubled slashes, a slash at the end and a dot other than
at the start mean nothing.
-/
namespace Pursuit.Files

structure Path where
  text : String
deriving DecidableEq

namespace Path

/-- Drops what means nothing from the end of a path, which is given backwards. -/
def trim : List Char → List Char
  | ['/'] => ['/']
  | '/' :: s => trim s
  | '.' :: '/' :: s => trim ('/' :: s)
  | s => s
termination_by s => s.length

/-- The path without its last name; the root and the empty path have no name to lose. -/
def parent? (p : Path) : Option Path :=
  match trim p.text.toList.reverse with
  | [] | ['/'] => none
  | s => some ⟨.ofList (trim (s.dropWhile (· ≠ '/'))).reverse⟩

/-- The path and the paths it lies in, the nearest first, without the root and the empty path. -/
def withAncestors (p : Path) : List Path := go p.text.length p
where
  go : (fuel : Nat) → Path → List Path
    | 0, _ => []
    | fuel + 1, p =>
      match p.parent? with
      | none => []
      | some q => p :: go fuel q

def isAbsolute (p : Path) : Bool := p.text.toList.head? = some '/'

def join (p q : Path) : Path :=
  if q.isAbsolute || p.text.isEmpty then q
  else if p.text.toList.getLast? = some '/' then ⟨p.text ++ q.text⟩
  else ⟨p.text ++ "/" ++ q.text⟩

def names (p : Path) : List String := (Text.split '/' p.text.toList).map .ofList

end Path

end Pursuit.Files
