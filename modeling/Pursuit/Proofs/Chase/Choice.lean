import Pursuit.Proofs.Behavior.ShortCircuit
import Pursuit.Proofs.Chase.Chain
import Pursuit.Proofs.Chase.Grounds

/-! What a free mouse does in a tick: the action of the first course whose condition holds, and no
other. In a run from valid settings it succeeds, so long as the mouse's position is without NaN. -/
namespace Pursuit.Behavior

variable {σ : Type}

def Node.actionName? : Node σ → Option String
  | .action name _ => some name
  | _ => none

/-- The names of those leaves at some positions that are actions. -/
def Node.actionsAt (root : Node σ) (slots : List Nat) : List String :=
  slots.filterMap fun slot => root.fringe[slot]?.bind Node.actionName?

def Tree.executed [Journal σ] (t : Tree σ) (s : σ) : List String := t.root.actionsAt (t.calls s)

namespace Node

variable {root : Node σ} {slot : Nat}

theorem actionsAt_append (slots slots' : List Nat) :
    root.actionsAt (slots ++ slots') = root.actionsAt slots ++ root.actionsAt slots' :=
  List.filterMap_append

theorem actionsAt_condition {name : String} {predicate : σ → Routine σ Bool}
    (here : root.Covers slot [.condition name predicate]) : root.actionsAt [slot] = [] := by
  rw [actionsAt, List.filterMap_cons, here.leaf]
  rfl

theorem actionsAt_action {name : String} {effect : σ → Routine σ (Except ActionFault Unit)}
    (here : root.Covers slot [.action name effect]) : root.actionsAt [slot] = [name] := by
  rw [actionsAt, List.filterMap_cons, here.leaf]
  rfl

end Node

end Pursuit.Behavior

namespace Pursuit.Chase

open Pursuit.Behavior Pursuit.Settings

section Courses

variable {h : Host} {root : Node Host} {slot : Nat} {c : Course} {cs : List Course}
  {s : Scene} {events : List Event}

theorem plain_condition (name : String) (check : Scene → Bool × Scene) :
    (condition name check).PlainLeaf := by
  intro h
  dsimp only
  split
  · trivial
  · trivial

theorem plain_action (name : String) (deed : Scene → Deed) : (action name deed).PlainLeaf := by
  intro h
  dsimp only
  split
  · trivial
  · split
    · trivial
    · trivial
    · trivial

def firstOpen? (cs : List Course) (s : Scene) : Option Course := cs.find? fun c => (c.check s).1

theorem mem_of_firstOpen? (first : firstOpen? cs s = some c) : c ∈ cs ∧ (c.check s).1 := by
  rw [firstOpen?] at first
  have passed := List.find?_some first
  exact ⟨List.mem_of_find?_eq_some first, passed⟩

def Silent (cs : List Course) (s : Scene) : Prop := ∀ c ∈ cs, (c.check s).2 = s

theorem attempt_of_shut (silent : (c.check h.scene).2 = h.scene) (shut : ¬ (c.check h.scene).1) :
    h.attempt c = (.returned .failure, h) := by
  have checked : c.check h.scene = (false, h.scene) := Prod.ext (eq_false_of_ne_true shut) silent
  rw [Host.attempt, checked]

theorem attempt_of_done (silent : (c.check h.scene).2 = h.scene) (passed : (c.check h.scene).1)
    (done : c.deed h.scene = .done s events) :
    h.attempt c = (.returned .success, h.after s events) := by
  have checked : c.check h.scene = (true, h.scene) := Prod.ext passed silent
  rw [Host.attempt, checked]
  dsimp only
  rw [done]
  rfl

theorem tryAll_of_firstOpen (silent : Silent cs h.scene) (first : firstOpen? cs h.scene = some c)
    (done : c.deed h.scene = .done s events) :
    h.tryAll cs = (.returned .success, h.after s events) := by
  induction cs with
  | nil => cases first
  | cons d ds ih =>
    obtain ⟨here, rest⟩ := List.forall_mem_cons.1 silent
    rw [firstOpen?, List.find?_cons] at first
    by_cases passed : (d.check h.scene).1
    · rw [passed] at first
      obtain rfl := Option.some.inj first
      rw [Host.tryAll, attempt_of_done here passed done]
    · rw [eq_false_of_ne_true passed] at first
      rw [Host.tryAll, attempt_of_shut here passed]
      exact ih rest first

theorem actionsAt_node (sound : h.spoiled = false) (c : Course)
    (covers : root.Covers slot c.node.fringe) :
    root.actionsAt (c.node.called .nowhere slot ⟨h, []⟩) =
      if (c.check h.scene).1 then [c.name] else [] := by
  obtain ⟨guard, name, deed⟩ := c
  cases guard with
  | none => exact Node.actionsAt_action covers
  | some guard =>
    obtain ⟨label, check⟩ := guard
    obtain ⟨atGuard, atDeed⟩ : root.Covers slot [condition label check] ∧
        root.Covers (slot + 1) [action name deed] := Node.Covers.append covers
    have guarded : root.actionsAt [slot] = [] := Node.actionsAt_condition atGuard
    have called (r : Run Host) : (condition label check).called .nowhere slot r = [slot] := rfl
    obtain ⟨isOpen, s, checked⟩ : ∃ isOpen s, check h.scene = (isOpen, s) := ⟨_, _, rfl⟩
    rw [Course.node, Node.called, Node.calledAll, called, tick_condition_of_sound sound,
      Node.actionsAt_append, guarded, List.nil_append, Course.check]
    simp only [checked]
    cases isOpen with
    | false => rfl
    | true =>
      simp only [Status.ofBool, if_true, Node.calledAll_singleton]
      exact Node.actionsAt_action atDeed

/-- The names of the courses whose deeds are carried out when courses are tried in turn. -/
def Host.tried (h : Host) : List Course → List String
  | [] => []
  | c :: cs =>
    (if (c.check h.scene).1 then [c.name] else []) ++
      match h.attempt c with
      | (.returned .failure, h) => h.tried cs
      | _ => []

theorem tried_of_shut (shut : c.check h.scene = (false, s)) :
    h.tried (c :: cs) = Host.tried { h with scene := s } cs := by
  rw [Host.tried, Host.attempt_of_shut shut, shut]
  rfl

theorem tried_of_done {s' : Scene} (passed : c.check h.scene = (true, s))
    (done : c.deed s = .done s' events) : h.tried (c :: cs) = [c.name] := by
  rw [Host.tried, Host.attempt_of_open passed, passed, done]
  rfl

theorem tried_of_failed {s' : Scene} {fault : ActionFault} (passed : c.check h.scene = (true, s))
    (failed : c.deed s = .failed s' events fault) :
    h.tried (c :: cs) =
      c.name :: Host.tried (record (.actionFailed c.name fault) (h.after s' events)) cs := by
  rw [Host.tried, Host.attempt_of_open passed, passed, failed]
  rfl

theorem mem_tried_of_open (passed : (c.check h.scene).1) : c.name ∈ h.tried (c :: cs) := by
  rw [Host.tried, if_pos passed]
  exact List.mem_append_left _ (List.mem_singleton_self _)

theorem tried_of_firstOpen (silent : Silent cs h.scene) (first : firstOpen? cs h.scene = some c)
    (done : c.deed h.scene = .done s events) : h.tried cs = [c.name] := by
  induction cs with
  | nil => cases first
  | cons d ds ih =>
    obtain ⟨here, rest⟩ := List.forall_mem_cons.1 silent
    rw [firstOpen?, List.find?_cons] at first
    by_cases passed : (d.check h.scene).1
    · rw [passed] at first
      obtain rfl := Option.some.inj first
      exact tried_of_done (Prod.ext passed here) done
    · rw [eq_false_of_ne_true passed] at first
      rw [tried_of_shut (Prod.ext (eq_false_of_ne_true passed) here)]
      exact ih rest first

/-- A walk over the nodes of courses executes what trying them in turn carries out. -/
theorem actionsAt_nodes (sound : h.spoiled = false)
    (covers : root.Covers slot (Node.fringeAll (cs.map Course.node))) :
    root.actionsAt (Node.calledAll .nowhere .failure (cs.map Course.node) slot ⟨h, []⟩) =
      h.tried cs := by
  induction cs generalizing h slot with
  | nil => rfl
  | cons c cs ih =>
    obtain ⟨atHead, atTail⟩ := covers.children
    rw [List.map_cons, Node.calledAll, Node.actionsAt_append, actionsAt_node sound c atHead,
      tick_node sound, Host.tried]
    obtain ⟨exit, h', tried⟩ : ∃ exit h', h.attempt c = (exit, h') := ⟨_, _, rfl⟩
    rw [tried]
    cases exit with
    | returned status =>
      cases status with
      | failure => exact congrArg _ (ih ((Host.spoiled_attempt tried).trans sound) atTail)
      | success | running => rfl
    | unwound | tooDeep => rfl

end Courses

/-! ## The tree of the mouse -/

namespace Mouse

theorem courses_silent (s : Scene) : Silent courses s := by
  intro c member
  simp only [courses, List.mem_cons, List.not_mem_nil, or_false] at member
  obtain rfl | rfl | rfl | rfl | rfl := member
  · rfl
  · exact congrArg Prod.snd (cheeseInReach_eq s)
  · rfl
  · rfl
  · rfl

theorem tree_plain : tree.Plain := leaves_tree plain_condition plain_action

/-- A tick executes what trying the courses in turn carries out, and for a caught mouse nothing. -/
theorem executed_eq {h : Host} (sound : h.spoiled = false) :
    Tree.executed { root := tree } h = if h.scene.mouseCaught then [] else h.tried courses := by
  have covers : tree.Covers 0 (Node.fringeAll [condition "mouse_is_free" isFree, behaviors]) :=
    .self tree
  obtain ⟨atGuard, rest⟩ := covers.children
  obtain ⟨below, -⟩ := rest.children
  have guarded : tree.actionsAt [0] = [] := Node.actionsAt_condition atGuard
  have called (r : Run Host) : (condition "mouse_is_free" isFree).called .nowhere 0 r = [0] := rfl
  rw [Tree.executed, Tree.calls_eq_called tree_plain]
  dsimp only
  rw [tree, Node.called, Node.calledAll, called, tick_condition_of_sound sound, ← tree,
    Node.actionsAt_append, guarded, List.nil_append, isFree]
  cases h.scene.mouseCaught with
  | true => rfl
  | false =>
    simp only [Bool.not_false, Status.ofBool, if_true, Node.calledAll_singleton]
    have tried : _ = h.tried courses := actionsAt_nodes sound below
    exact tried

theorem executed_of_firstOpen {h : Host} {c : Course} {s : Scene} {events : List Event}
    (sound : h.spoiled = false) (free : h.scene.mouseCaught = false)
    (first : firstOpen? courses h.scene = some c) (done : c.deed h.scene = .done s events) :
    Tree.executed { root := tree } h = [c.name] := by
  rw [executed_eq sound, free]
  exact tried_of_firstOpen (courses_silent _) first done

theorem firstOpen?_isSome (s : Scene) : ∃ c, firstOpen? courses s = some c := by
  refine Option.isSome_iff_exists.1 (List.find?_isSome.2 ⟨⟨none, "wander", wander⟩, ?_, rfl⟩)
  simp [courses]

theorem tick_of_fit {h : Host} (sound : h.spoiled = false) (free : h.scene.mouseCaught = false)
    (fit : h.scene.grounds.Fit) (number : h.scene.mouse.nav.position.IsNumber) :
    ∃ course s events, firstOpen? courses h.scene = some course ∧
      Tree.executed { root := tree } h = [course.name] ∧
      course.deed h.scene = .done s events ∧
      (∀ name fault, Event.actionFailed name fault ∉ events) ∧
      Tree.tick { root := tree } h = (.returned .success, { root := tree }, h.after s events) := by
  obtain ⟨course, first⟩ := firstOpen?_isSome h.scene
  obtain ⟨member, passed⟩ := mem_of_firstOpen? first
  obtain ⟨s, events, done, fine⟩ := courses_succeed fit number course member passed
  refine ⟨course, s, events, first, executed_of_firstOpen sound free first done, done, fine, ?_⟩
  rw [tick_tree_of_free sound free, tryAll_of_firstOpen (courses_silent _) first done]

end Mouse

namespace Simulation

variable {sim : Simulation}

theorem grounds_frame (sound : sim.Sound) (delta : Float) :
    (sim.catDriver.frame delta sim.host).2.2.Sound ∧
      (sim.catDriver.frame delta sim.host).2.2.scene.grounds = sim.host.scene.grounds := by
  obtain ⟨cat, h, framed, -, beat⟩ := frame_beat sound.cat (Cat.tick_turn sound.host) delta
  rw [framed]
  exact ⟨Cat.Beat.sound beat sound.host, Cat.Beat.grounds beat⟩

/-- A tick of the mouse's tree in a run from valid settings, be it in a state between two operations
or after the cat has had the time of a frame. If the mouse is free and neither its position nor its
hiding place has a NaN, then the tick executes one action, that of the first course whose condition
holds, which is done and reports no failure, and the tick succeeds. So it fails only for a caught
mouse. -/
theorem operateAll_choice {c : RunSettings} (valid : c.validate = .ok ())
    (center : c.mouse.escapeCenter.IsNumber) (ops : List Operation) :
    ∃ start sim, ofSettings c = .ok start ∧ start.operateAll ops = (.returned (), sim) ∧
      sim.mouseDriver.root = some { root := Mouse.tree } ∧
      ∀ h : Host, h = sim.host ∨ (∃ delta, h = (sim.catDriver.frame delta sim.host).2.2) →
        h.scene.mouse.nav.position.IsNumber →
        (h.scene.mouseCaught = false → ∃ course s events,
          firstOpen? Mouse.courses h.scene = some course ∧
          Tree.executed { root := Mouse.tree } h = [course.name] ∧
          course.deed h.scene = .done s events ∧
          (∀ name fault, Event.actionFailed name fault ∉ events) ∧
          Tree.tick { root := Mouse.tree } h =
            (.returned .success, { root := Mouse.tree }, h.after s events)) ∧
        ((Tree.tick { root := Mouse.tree } h).1 = .returned .failure ↔ h.scene.mouseCaught) := by
  obtain ⟨start, ready, sound, scene, -⟩ := ofSettings_of_valid valid
  have laid : start.host.scene.grounds = .ofSettings c := by rw [scene, grounds_ofSettings]
  obtain ⟨sim, ended, sound', same⟩ := (grounds_kept _).run sound laid ops
  refine ⟨start, sim, ready, ended, sound'.mouse, fun h reached number => ?_⟩
  obtain ⟨steady, grounds⟩ : h.Sound ∧ h.scene.grounds = .ofSettings c := by
    obtain rfl | ⟨delta, rfl⟩ := reached
    · exact ⟨sound'.host, same⟩
    · exact (grounds_frame sound' delta).imp_right (·.trans same)
  have fit : h.scene.grounds.Fit := grounds ▸ fit_of_valid valid center
  have active (free : h.scene.mouseCaught = false) :=
    Mouse.tick_of_fit steady.unspoiled free fit number
  refine ⟨active, fun failed => ?_, fun caught => ?_⟩
  · by_contra free
    obtain ⟨course, s, events, -, -, -, -, ticked⟩ := active (eq_false_of_ne_true free)
    rw [ticked] at failed
    cases failed
  · rw [Mouse.tick_tree_of_caught steady.unspoiled caught]

/-- Whether the mouse is caught, whether its position is without NaN, and what the next tick of its
tree executes. -/
def intent (c : RunSettings) (ops : List Operation) : Option (Bool × Bool × List String) :=
  match ofSettings c with
  | .ok start =>
    let host := (start.operateAll ops).2.host
    some (host.scene.mouseCaught, decide host.scene.mouse.nav.position.IsNumber,
      Tree.executed { root := Mouse.tree } host)
  | .error _ => none

/-- The piece that was picked in the first frame is in reach, so the next tick takes it. -/
theorem operateAll_choice_larder : larder.validate = .ok () ∧ larder.mouse.escapeCenter.IsNumber ∧
    ∃ start sim, ofSettings larder = .ok start ∧
      start.operateAll [.frame 0.25] = (.returned (), sim) ∧
      sim.host.scene.mouse.nav.position.IsNumber ∧ sim.host.scene.mouseCaught = false ∧
      Tree.executed { root := Mouse.tree } sim.host = ["collect_cheese"] ∧
      (Tree.tick { root := Mouse.tree } sim.host).1 = .returned .success := by
  have valid : larder.validate = .ok () := rfl
  have center : larder.mouse.escapeCenter.IsNumber := by decide +kernel
  have ran : intent larder [.frame 0.25] = some (false, true, ["collect_cheese"]) := by
    decide +kernel
  obtain ⟨start, sim, ready, ended, -, choice⟩ := operateAll_choice valid center [.frame 0.25]
  rw [intent, ready] at ran
  dsimp only at ran
  rw [ended] at ran
  obtain ⟨free, rest⟩ := Prod.mk.inj (Option.some.inj ran)
  obtain ⟨known, executed⟩ := Prod.mk.inj rest
  have number : sim.host.scene.mouse.nav.position.IsNumber := of_decide_eq_true known
  obtain ⟨active, fails⟩ := choice sim.host (.inl rfl) number
  obtain ⟨course, s, events, -, -, -, -, ticked⟩ := active free
  exact ⟨valid, center, start, sim, ready, ended, number, free, executed, congrArg Prod.fst ticked⟩

end Simulation

end Pursuit.Chase
