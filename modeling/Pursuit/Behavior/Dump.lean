import Pursuit.Behavior.Tree
import Pursuit.Text.Dump

/-!
Trees as structure dumps: the shape, the names, and for each action whether it is raised.
-/
namespace Pursuit.Behavior

open Pursuit.Text (Dump)

variable {σ : Type}

namespace Node

mutual
/-- The dump of a node whose first leaf has position `slot`. -/
def dump (raised : List Nat) : Nat → Node σ → Dump
  | slot, .sequence cs => .tuple "Sequence" [.list (dumpAll raised slot cs)]
  | slot, .fallback cs => .tuple "Fallback" [.list (dumpAll raised slot cs)]
  | _, .condition name _ => .fields "Condition" [("name", .quoted name)]
  | slot, .action name _ =>
    .fields "Action" [("name", .quoted name), ("running", .ofBool (slot ∈ raised))]

def dumpAll (raised : List Nat) : Nat → List (Node σ) → List Dump
  | _, [] => []
  | slot, c :: cs => c.dump raised slot :: dumpAll raised (slot + c.leaves) cs
end

end Node

def Tree.dump (t : Tree σ) : Dump := t.root.dump t.raised 0

end Pursuit.Behavior
