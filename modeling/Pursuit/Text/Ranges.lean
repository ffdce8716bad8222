/-!
Sets of characters as tables of inclusive ranges of code points. The ranges are in order and apart,
so a table is searched by halving.
-/
namespace Pursuit.Text

abbrev Ranges := Array (Nat × Nat)

namespace Ranges

/-- Whether a range between positions `lo` and `hi` has `n` in it. A step at least halves their
distance, so `hi - lo < 2 ^ steps` is enough. -/
def within (t : Ranges) (n : Nat) : (steps lo hi : Nat) → Bool
  | 0, _, _ => false
  | steps + 1, lo, hi =>
    if lo < hi then
      let mid := (lo + hi) / 2
      let (first, last) := t.getD mid (0, 0)
      if n < first then t.within n steps lo mid
      else if last < n then t.within n steps (mid + 1) hi
      else true
    else false

def holds (t : Ranges) (c : Char) : Bool := t.within c.toNat (t.size.log2 + 1) 0 t.size

end Ranges

end Pursuit.Text
