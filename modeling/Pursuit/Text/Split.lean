/-!
Cutting text: at every occurrence of a character, or at a position in its UTF-8 form.
-/
namespace Pursuit.Text

/-- What stands between the separators, which is one part more than there are separators. -/
def split (separator : Char) : List Char → List (List Char)
  | [] => [[]]
  | c :: s =>
    if c = separator then [] :: split separator s
    else match split separator s with
      | [] => [[c]]
      | w :: ws => (c :: w) :: ws

/-- The first `n` bytes and the rest. There is no cut inside a character or behind the end. -/
def cut? : Nat → List Char → Option (List Char × List Char)
  | 0, s => some ([], s)
  | _ + 1, [] => none
  | n + 1, c :: s =>
    if c.utf8Size ≤ n + 1 then
      (cut? (n + 1 - c.utf8Size) s).map fun (front, rest) => (c :: front, rest)
    else none
termination_by _ s => s.length

def slice? (s : List Char) (first last : Nat) : Option (List Char) := do
  let (_, s) ← cut? first s
  return (← cut? (last - first) s).1

end Pursuit.Text
