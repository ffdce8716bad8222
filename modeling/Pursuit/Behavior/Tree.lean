import Pursuit.Journal

/-!
Behavior trees. A tick of a node walks its children from left to right: a sequence stops at the
first that does not succeed, a fallback at the first that does not fail. A leaf calls a routine of
its host, which answers, is abandoned midway, or first has some node of the same tree ticked. An
action whose effect has not come back is raised; a tick that reaches it meanwhile gets `running`
and calls nothing.
-/
namespace Pursuit.Behavior

/-- What a leaf does once it is called, over host states `σ`, with answers `ρ`. -/
inductive Routine (σ ρ : Type) where
  | finish (answer : ρ) (s : σ)
  /-- Abandons the tick, and every tick around it. -/
  | unwind (s : σ)
  /-- Has the node at a path from the root ticked and goes on with what that gives, which is
  nothing if there is no such node. A tick that is abandoned abandons the leaf with it: leaves let
  it through and cannot catch it. -/
  | consult (path : List Nat) (s : σ) (next : Option Status → σ → Routine σ ρ)

inductive Node (σ : Type) where
  | sequence (children : List (Node σ))
  | fallback (children : List (Node σ))
  | condition (name : String) (predicate : σ → Routine σ Bool)
  | action (name : String) (effect : σ → Routine σ (Except ActionFault Unit))

inductive Exit (α : Type) where
  | returned (a : α)
  | unwound
  /-- Ticks were nested more deeply than allowed. -/
  | tooDeep
deriving DecidableEq

def Exit.map {α β : Type} (f : α → β) : Exit α → Exit β
  | returned a => returned (f a)
  | unwound => unwound
  | tooDeep => tooDeep

/-- A host state, and the actions that are raised, the latest first. Actions are told apart by
their position among all leaves. -/
structure Run (σ : Type) where
  state : σ
  raised : List Nat

namespace Run

variable {σ : Type}

def raise (r : Run σ) (slot : Nat) : Run σ := { r with raised := slot :: r.raised }

def lower (r : Run σ) (slot : Nat) : Run σ := { r with raised := r.raised.erase slot }

def note [Journal σ] (r : Run σ) (e : Event) : Run σ := { r with state := record e r.state }

end Run

/-- How a leaf has another node ticked. -/
abbrev Inner (σ : Type) := List Nat → Run σ → Exit (Option Status) × Run σ

def Inner.nowhere {σ : Type} : Inner σ := fun _ r => (.returned none, r)

variable {σ ρ : Type}

def Routine.perform (inner : Inner σ) : Routine σ ρ → List Nat → Exit ρ × Run σ
  | .finish a s, raised => (.returned a, ⟨s, raised⟩)
  | .unwind s, raised => (.unwound, ⟨s, raised⟩)
  | .consult path s next, raised =>
    match inner path ⟨s, raised⟩ with
    | (.returned status, r) => (next status r.state).perform inner r.raised
    | (.unwound, r) => (.unwound, r)
    | (.tooDeep, r) => (.tooDeep, r)

namespace Node

mutual
def leaves : Node σ → Nat
  | .sequence cs | .fallback cs => leavesAll cs
  | .condition .. | .action .. => 1

def leavesAll : List (Node σ) → Nat
  | [] => 0
  | c :: cs => c.leaves + leavesAll cs
end

mutual
def size : Node σ → Nat
  | .sequence cs | .fallback cs => sizeAll cs + 1
  | .condition .. | .action .. => 1

def sizeAll : List (Node σ) → Nat
  | [] => 0
  | c :: cs => c.size + sizeAll cs
end

mutual
def names : Node σ → List String
  | .sequence cs | .fallback cs => namesAll cs
  | .condition name _ | .action name _ => [name]

def namesAll : List (Node σ) → List String
  | [] => []
  | c :: cs => c.names ++ namesAll cs
end

def children : Node σ → List (Node σ)
  | .sequence cs | .fallback cs => cs
  | .condition .. | .action .. => []

/-- The node at a path of child positions, with the number of leaves to its left added to `slot`. -/
def find? (n : Node σ) (slot : Nat) : List Nat → Option (Nat × Node σ)
  | [] => some (slot, n)
  | i :: path =>
    match n.children[i]? with
    | some c => c.find? (slot + leavesAll (n.children.take i)) path
    | none => none

/-- The end of an effect: an error is noted and fails. -/
def settle [Journal σ] (name : String) :
    Exit (Except ActionFault Unit) × Run σ → Exit Status × Run σ
  | (.returned (.ok ()), r) => (.returned .success, r)
  | (.returned (.error e), r) => (.returned .failure, r.note (.actionFailed name e))
  | (.unwound, r) => (.unwound, r)
  | (.tooDeep, r) => (.tooDeep, r)

/-- Calls an effect with its action raised, unless it is raised already. However the effect ends,
the action is lowered again. -/
def act [Journal σ] (inner : Inner σ) (name : String)
    (effect : σ → Routine σ (Except ActionFault Unit)) (slot : Nat) (r : Run σ) :
    Exit Status × Run σ :=
  if slot ∈ r.raised then (.returned .running, r.note (.stillExecuting name))
  else
    let (exit, after) := (effect r.state).perform inner (r.raise slot).raised
    settle name (exit, after.lower slot)

mutual
/-- Ticks a node whose first leaf has position `slot`. -/
def tick [Journal σ] (inner : Inner σ) : Node σ → Nat → Run σ → Exit Status × Run σ
  | .sequence cs, slot, r => tickSequence inner cs slot r
  | .fallback cs, slot, r => tickFallback inner cs slot r
  | .condition _ predicate, _, r =>
    let (exit, after) := (predicate r.state).perform inner r.raised
    (exit.map Status.ofBool, after)
  | .action name effect, slot, r => act inner name effect slot r

def tickSequence [Journal σ] (inner : Inner σ) : List (Node σ) → Nat → Run σ → Exit Status × Run σ
  | [], _, r => (.returned .success, r)
  | c :: cs, slot, r =>
    match c.tick inner slot r with
    | (.returned .success, r) => tickSequence inner cs (slot + c.leaves) r
    | stop => stop

def tickFallback [Journal σ] (inner : Inner σ) : List (Node σ) → Nat → Run σ → Exit Status × Run σ
  | [], _, r => (.returned .failure, r)
  | c :: cs, slot, r =>
    match c.tick inner slot r with
    | (.returned .failure, r) => tickFallback inner cs (slot + c.leaves) r
    | stop => stop
end

/-- Ticks below the root, for leaves that may reach it. Leaves of such a tick may have further
nodes ticked, `depth` levels in all. -/
def within [Journal σ] (root : Node σ) (depth : Nat) : Inner σ := fun path r =>
  match root.find? 0 path with
  | none => (.returned none, r)
  | some (slot, n) =>
    match depth with
    | 0 => (.tooDeep, r)
    | depth + 1 =>
      let (exit, after) := n.tick (root.within depth) slot r
      (exit.map some, after)

end Node

/-- A tree as its owner holds it: the nodes, and the actions that are raised between ticks. -/
structure Tree (σ : Type) where
  root : Node σ
  raised : List Nat := []

namespace Tree

def tickWith [Journal σ] (inner : Inner σ) (t : Tree σ) (s : σ) : Exit Status × Tree σ × σ :=
  let (exit, r) := t.root.tick inner 0 ⟨s, t.raised⟩
  (exit, { t with raised := r.raised }, r.state)

def tick [Journal σ] (t : Tree σ) (s : σ) : Exit Status × Tree σ × σ := t.tickWith .nowhere s

/-- A tick of a tree whose leaves may have its nodes ticked, nested up to `depth` levels. -/
def tickNested [Journal σ] (depth : Nat) (t : Tree σ) (s : σ) : Exit Status × Tree σ × σ :=
  t.tickWith (t.root.within depth) s

def inFlight (t : Tree σ) : List String :=
  (t.root.names.zipIdx.filter fun (_, slot) => slot ∈ t.raised).map (·.1)

end Tree

end Pursuit.Behavior
