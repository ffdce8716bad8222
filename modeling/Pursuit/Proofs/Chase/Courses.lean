import Pursuit.Chase.Cat
import Pursuit.Chase.Mouse
import Pursuit.Proofs.Behavior.InFlight

/-! Both trees as lists of courses that are tried in turn until one is done. As long as the scene is
not spoiled a tick of a tree is such a trial, so what every course keeps, or brings about when it is
done, the tick does. -/
namespace Pursuit.Chase

open Pursuit.Behavior

def Deed.scene : Deed → Scene
  | .done s _ | .failed s _ _ | .broken s _ => s

/-- A deed that is tried if its guard, where it has one, lets it. -/
structure Course where
  guard : Option (String × (Scene → Bool × Scene)) := none
  name : String
  deed : Scene → Deed

namespace Course

/-- Whether the guard lets the deed be tried; it may note something in the scene. -/
def check (c : Course) (s : Scene) : Bool × Scene :=
  match c.guard with
  | none => (true, s)
  | some (_, check) => check s

def node (c : Course) : Node Host :=
  match c.guard with
  | none => action c.name c.deed
  | some (label, check) => .sequence [condition label check, action c.name c.deed]

end Course

namespace Host

def carry (h : Host) (name : String) : Deed → Exit Status × Host
  | .done s events => (.returned .success, h.after s events)
  | .failed s events fault =>
    (.returned .failure, record (.actionFailed name fault) (h.after s events))
  | .broken s events => (.unwound, { h.after s events with spoiled := true })

def attempt (h : Host) (c : Course) : Exit Status × Host :=
  match c.check h.scene with
  | (true, s) => { h with scene := s }.carry c.name (c.deed s)
  | (false, s) => (.returned .failure, { h with scene := s })

def tryAll (h : Host) : List Course → Exit Status × Host
  | [] => (.returned .failure, h)
  | c :: cs =>
    match h.attempt c with
    | (.returned .failure, h) => h.tryAll cs
    | stop => stop

theorem carry_scene (h : Host) (name : String) (d : Deed) : (h.carry name d).2.scene = d.scene := by
  cases d <;> rfl

theorem attempt_of_shut {h : Host} {c : Course} {s : Scene} (shut : c.check h.scene = (false, s)) :
    h.attempt c = (.returned .failure, { h with scene := s }) := by
  rw [attempt, shut]

theorem attempt_of_open {h : Host} {c : Course} {s : Scene} (passed : c.check h.scene = (true, s)) :
    h.attempt c = { h with scene := s }.carry c.name (c.deed s) := by
  rw [attempt, passed]

theorem tryAll_cons (h : Host) (c : Course) (cs : List Course) :
    (h.attempt c).1 = .returned .failure ∧ h.tryAll (c :: cs) = (h.attempt c).2.tryAll cs ∨
      (h.attempt c).1 ≠ .returned .failure ∧ h.tryAll (c :: cs) = h.attempt c := by
  rw [tryAll]
  split
  next tried => exact .inl ⟨congrArg Prod.fst tried, by rw [tried]⟩
  next other =>
    exact .inr ⟨fun failed => other (h.attempt c).2 (Prod.ext failed rfl), rfl⟩

theorem spoiled_attempt {h h' : Host} {c : Course} {status : Status}
    (tried : h.attempt c = (.returned status, h')) : h'.spoiled = h.spoiled := by
  rw [attempt] at tried
  split at tried
  next s _ =>
    cases ended : c.deed s with
    | done | failed => rw [ended] at tried; cases tried; rfl
    | broken => rw [ended] at tried; cases tried
  next => cases tried; rfl

/-- If every course keeps `P` when it fails and brings about `Q` when it is done, then so does
trying them in turn. -/
theorem tryAll_of {P Q : Host → Prop} {cs : List Course} {h : Host}
    (each : ∀ c ∈ cs, ∀ h, P h → (∃ h', h.attempt c = (.returned .failure, h') ∧ P h') ∨
      ∃ h', h.attempt c = (.returned .success, h') ∧ Q h') (start : P h) :
    (∃ h', h.tryAll cs = (.returned .failure, h') ∧ P h') ∨
      ∃ h', h.tryAll cs = (.returned .success, h') ∧ Q h' := by
  induction cs generalizing h with
  | nil => exact .inl ⟨h, rfl, start⟩
  | cons c cs ih =>
    obtain ⟨first, rest⟩ := List.forall_mem_cons.1 each
    rw [tryAll]
    obtain ⟨h', tried, kept⟩ | ⟨h', tried, done⟩ := first h start
    · rw [tried]
      exact ih rest kept
    · rw [tried]
      exact .inr ⟨h', rfl, done⟩

end Host

/-! ## Ticks -/

section Ticks

variable {h : Host}

theorem tick_condition_of_sound (sound : h.spoiled = false) (name : String)
    (check : Scene → Bool × Scene) (slot : Nat) :
    (condition name check).tick .nowhere slot ⟨h, []⟩ =
      (.returned (.ofBool (check h.scene).1), ⟨{ h with scene := (check h.scene).2 }, []⟩) := by
  obtain ⟨s, _, events⟩ := h
  obtain rfl := sound
  rfl

theorem tick_action_of_sound (sound : h.spoiled = false) (name : String) (deed : Scene → Deed)
    (slot : Nat) :
    (action name deed).tick .nowhere slot ⟨h, []⟩ =
      ((h.carry name (deed h.scene)).1, ⟨(h.carry name (deed h.scene)).2, []⟩) := by
  rw [action, Node.tick, Node.act, if_neg List.not_mem_nil]
  simp only [Host.lock, sound, Bool.false_eq_true, if_false]
  cases deed h.scene with
  | done s events => simp [Host.carry, Routine.perform, Node.settle, Run.lower, Run.raise]
  | failed s events fault =>
    simp [Host.carry, Routine.perform, Node.settle, Run.lower, Run.raise, Run.note]
  | broken s events => simp [Host.carry, Routine.perform, Node.settle, Run.lower, Run.raise]

theorem tick_node (sound : h.spoiled = false) (c : Course) (slot : Nat) :
    c.node.tick .nowhere slot ⟨h, []⟩ = ((h.attempt c).1, ⟨(h.attempt c).2, []⟩) := by
  obtain ⟨guard, name, deed⟩ := c
  cases guard with
  | none => exact tick_action_of_sound sound name deed slot
  | some guard =>
    obtain ⟨label, check⟩ := guard
    simp only [Course.node, Node.tick_sequence, Node.walk, tick_condition_of_sound sound,
      Host.attempt, Course.check]
    obtain ⟨isOpen, s⟩ := check h.scene
    cases isOpen with
    | false => rfl
    | true =>
      have acted := tick_action_of_sound (h := { h with scene := s }) sound name deed
        (slot + (condition label check).leaves)
      simp only [Status.ofBool, if_true, acted]
      cases deed s with
      | done | failed | broken => rfl

theorem walk_nodes (sound : h.spoiled = false) (cs : List Course) (slot : Nat) :
    Node.walk .nowhere .failure (cs.map Course.node) slot ⟨h, []⟩ =
      ((h.tryAll cs).1, ⟨(h.tryAll cs).2, []⟩) := by
  induction cs generalizing h slot with
  | nil => rfl
  | cons c cs ih =>
    rw [List.map_cons, Node.walk, Host.tryAll, tick_node sound]
    obtain ⟨exit, h', tried⟩ : ∃ exit h', h.attempt c = (exit, h') := ⟨_, _, rfl⟩
    rw [tried]
    cases exit with
    | returned status =>
      have kept : h'.spoiled = false := (Host.spoiled_attempt tried).trans sound
      cases status with
      | failure => exact ih kept _
      | success | running => rfl
    | unwound | tooDeep => rfl

end Ticks

/-! ## The two trees -/

def Cat.courses : List Course := [
  ⟨some ("mouse_in_attack_range", mouseInAttackRange), "catch_mouse", catchMouse⟩,
  ⟨some ("mouse_spotted", mouseSpotted), "chase_mouse", chaseMouse⟩,
  ⟨none, "patrol", patrol⟩]

def Mouse.courses : List Course := [
  ⟨some ("cat_nearby", catNearby), "escape_from_cat", escapeFromCat⟩,
  ⟨some ("cheese_in_reach", cheeseInReach), "collect_cheese", collectCheese⟩,
  ⟨some ("has_cheese_target", hasCheeseTarget), "approach_cheese", approachCheese⟩,
  ⟨some ("cheese_in_sight", cheeseInSight), "pick_cheese_target", pickCheeseTarget⟩,
  ⟨none, "wander", wander⟩]

section Leaves

variable {P : Node Host → Prop}

theorem leaves_nodes (conditions : ∀ name check, P (condition name check))
    (actions : ∀ name deed, P (action name deed)) (cs : List Course) :
    ∀ l ∈ Node.fringeAll (cs.map Course.node), P l := by
  induction cs with
  | nil => exact List.forall_mem_nil _
  | cons c cs ih =>
    refine List.forall_mem_append.2 ⟨?_, ih⟩
    obtain ⟨guard, name, deed⟩ := c
    cases guard with
    | none => exact List.forall_mem_singleton.2 (actions _ _)
    | some guard =>
      exact List.forall_mem_cons.2 ⟨conditions _ _, List.forall_mem_singleton.2 (actions _ _)⟩

/-- What holds of every condition on the scene and of every deed holds of the leaves. -/
theorem Cat.leaves_tree (conditions : ∀ name check, P (condition name check))
    (actions : ∀ name deed, P (action name deed)) : ∀ l ∈ Cat.tree.fringe, P l :=
  leaves_nodes conditions actions courses

theorem Mouse.fringe_tree : tree.fringe =
    condition "mouse_is_free" isFree :: Node.fringeAll (courses.map Course.node) := by
  have leaves : tree.fringe =
      [condition "mouse_is_free" isFree] ++ (Node.fringeAll (courses.map Course.node) ++ []) := rfl
  rw [leaves, List.append_nil, List.singleton_append]

theorem Mouse.leaves_tree (conditions : ∀ name check, P (condition name check))
    (actions : ∀ name deed, P (action name deed)) : ∀ l ∈ Mouse.tree.fringe, P l := by
  rw [fringe_tree]
  exact List.forall_mem_cons.2 ⟨conditions _ _, leaves_nodes conditions actions courses⟩

end Leaves

variable {h : Host}

theorem Cat.tick_tree (sound : h.spoiled = false) :
    Tree.tick { root := Cat.tree } h =
      ((h.tryAll courses).1, { root := Cat.tree }, (h.tryAll courses).2) := by
  have walked : Cat.tree.tick .nowhere 0 ⟨h, []⟩ = _ :=
    (Node.tick_fallback ..).trans (walk_nodes sound courses 0)
  rw [Tree.tick, Tree.tickWith, walked]

theorem Mouse.tick_tree_of_caught (sound : h.spoiled = false) (caught : h.scene.mouseCaught) :
    Tree.tick { root := Mouse.tree } h = (.returned .failure, { root := Mouse.tree }, h) := by
  have first := tick_condition_of_sound sound "mouse_is_free" isFree 0
  simp only [isFree, caught, Bool.not_true, Status.ofBool] at first
  rw [Tree.tick, Tree.tickWith, tree, Node.tick_sequence, Node.walk, first]
  rfl

theorem Mouse.tick_tree_of_free (sound : h.spoiled = false) (free : h.scene.mouseCaught = false) :
    Tree.tick { root := Mouse.tree } h =
      ((h.tryAll courses).1, { root := Mouse.tree }, (h.tryAll courses).2) := by
  have first := tick_condition_of_sound sound "mouse_is_free" isFree 0
  simp only [isFree, free, Bool.not_false, Status.ofBool] at first
  have walked (slot : Nat) : behaviors.tick .nowhere slot ⟨h, []⟩ = _ :=
    (Node.tick_fallback ..).trans (walk_nodes sound courses slot)
  rw [Tree.tick, Tree.tickWith, tree, Node.tick_sequence, Node.walk, first]
  simp only [if_true, Node.walk, walked]
  obtain ⟨exit, h'⟩ := h.tryAll courses
  cases exit with
  | returned status => cases status <;> rfl
  | unwound | tooDeep => rfl

end Pursuit.Chase
