import Pursuit.Behavior.Tree
import Pursuit.Chase.Scene

/-!
The scene as the leaves of the agents' trees meet it. A leaf holds the scene while it acts; a deed
that breaks off midway spoils it, and from then on every condition is false and every action fails.
-/
namespace Pursuit.Chase

open Pursuit.Behavior

structure Host where
  scene : Scene
  spoiled : Bool := false
  /-- What was reported, the latest first. -/
  events : List Event := []

instance : Journal Host := ⟨fun e h => { h with events := e :: h.events }⟩

/-- What comes of a deed: the scene it leaves, what it reports in order, and how it ends. -/
inductive Deed where
  | done (s : Scene) (events : List Event)
  | failed (s : Scene) (events : List Event) (fault : ActionFault)
  /-- Broken off midway. -/
  | broken (s : Scene) (events : List Event)

namespace Host

def spoiledFault : ActionFault := .stateUnavailable "scene lock poisoned"

def lock (h : Host) : Except ActionFault Unit := if h.spoiled then .error spoiledFault else .ok ()

def after (h : Host) (s : Scene) (events : List Event) : Host :=
  { h with scene := s, events := events.reverse ++ h.events }

end Host

def condition (name : String) (check : Scene → Bool × Scene) : Node Host :=
  .condition name fun h =>
    match h.lock with
    | .error e => .finish false (record (.conditionFailed name e) h)
    | .ok () => let (answer, s) := check h.scene; .finish answer (h.after s [])

def action (name : String) (deed : Scene → Deed) : Node Host :=
  .action name fun h =>
    match h.lock with
    | .error e => .finish (.error e) h
    | .ok () =>
      match deed h.scene with
      | .done s events => .finish (.ok ()) (h.after s events)
      | .failed s events fault => .finish (.error fault) (h.after s events)
      | .broken s events => .unwind { h.after s events with spoiled := true }

end Pursuit.Chase
