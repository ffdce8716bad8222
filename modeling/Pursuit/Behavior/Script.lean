import Pursuit.Behavior.Driver

/-!
Scripted leaves, for rehearsing a tree without a host. A leaf answers its calls from a list, one
cue a call, and keeps to the last cue when the list is used up. The stage counts the calls of every
leaf and takes down, in order, who was called, what inner ticks gave, and the events of the tree.
-/
namespace Pursuit.Behavior

inductive Cue (ρ : Type) where
  | answer (a : ρ)
  | abandon
  /-- Has a node ticked, then answers, with the leaf's default answer if none is given. -/
  | consult (path : List Nat) (next : Option ρ)

/-- A tree of scripted leaves. A busy action is raised from the start and never lowered. -/
inductive Sketch where
  | sequence (children : List Sketch)
  | fallback (children : List Sketch)
  | condition (name : String) (script : List (Cue Bool))
  | action (name : String) (script : List (Cue (Except ActionFault Unit))) (busy : Bool)

/-- The composites that a wrapping is made of, from the innermost outwards. -/
inductive Wrapping where
  | sequences
  | fallbacks
  | alternating

def Sketch.wrap (w : Wrapping) (inner : Sketch) : Nat → Sketch
  | 0 => inner
  | depth + 1 =>
    let within := wrap w inner depth
    match w with
    | .sequences => .sequence [within]
    | .fallbacks => .fallback [within]
    | .alternating => if depth % 2 = 0 then .sequence [within] else .fallback [within]

inductive Entry where
  | condition (name : String)
  | action (name : String)
  /-- What an inner tick gave, which is nothing if there was no such node. -/
  | inner (status : Option Status)
  | event (e : Event)

structure Stage where
  /-- Calls so far of the leaf at each position. -/
  calls : Array Nat := #[]
  /-- What happened, the latest first. -/
  entries : List Entry := []

namespace Stage

def take (st : Stage) (e : Entry) : Stage := { st with entries := e :: st.entries }

/-- Counts one more call of a leaf and tells how many there were before. -/
def call (st : Stage) (leaf : Nat) : Nat × Stage :=
  let calls := st.calls ++ Array.replicate (leaf + 1 - st.calls.size) 0
  (calls.getD leaf 0, { st with calls := calls.modify leaf (· + 1) })

end Stage

instance : Journal Stage := ⟨fun e st => st.take (.event e)⟩

def Cue.routine {ρ : Type} (default : ρ) (s : Stage) : Option (Cue ρ) → Routine Stage ρ
  | none => .finish default s
  | some (.answer a) => .finish a s
  | some .abandon => .unwind s
  | some (.consult path next) => .consult path s fun status s =>
    .finish (next.getD default) (s.take (.inner status))

def cueAt {ρ : Type} (script : List (Cue ρ)) (k : Nat) : Option (Cue ρ) :=
  script[k]? <|> script.getLast?

def scripted {ρ : Type} (default : ρ) (leaf : Nat) (mark : Entry) (script : List (Cue ρ))
    (s : Stage) : Routine Stage ρ :=
  let (k, s) := s.call leaf
  Cue.routine default (s.take mark) (cueAt script k)

namespace Sketch

mutual
/-- The tree of a sketch whose first leaf has position `slot`, the busy actions in it, and the
position after its last leaf. -/
def build : Nat → Sketch → Node Stage × List Nat × Nat
  | slot, .sequence cs => let (ns, busy, next) := buildAll slot cs; (.sequence ns, busy, next)
  | slot, .fallback cs => let (ns, busy, next) := buildAll slot cs; (.fallback ns, busy, next)
  | slot, .condition name script =>
    (.condition name (scripted true slot (.condition name) script), [], slot + 1)
  | slot, .action name script busy =>
    (.action name (scripted (.ok ()) slot (.action name) script),
      if busy then [slot] else [], slot + 1)

def buildAll : Nat → List Sketch → List (Node Stage) × List Nat × Nat
  | slot, [] => ([], [], slot)
  | slot, c :: cs =>
    let (n, busy, next) := build slot c
    let (ns, more, next) := buildAll next cs
    (n :: ns, busy ++ more, next)
end

def tree (sk : Sketch) : Tree Stage :=
  let (root, raised, _) := build 0 sk
  { root, raised }

mutual
def cues : Sketch → Nat
  | .sequence cs | .fallback cs => cuesAll cs
  | .condition _ script => script.length
  | .action _ script _ => script.length

def cuesAll : List Sketch → Nat
  | [] => 0
  | c :: cs => c.cues + cuesAll cs
end

/-- More levels than inner ticks can nest if they end at all. Between two calls that use up a cue
the stage decides nothing any more, so a chain of nested calls that is longer than the leaves times
the ways to raise one more action repeats itself for ever. -/
def depth (sk : Sketch) : Nat :=
  let leaves := sk.tree.root.leaves + 1
  (sk.cues + 1) * leaves * leaves

end Sketch

end Pursuit.Behavior
