import Pursuit.Proofs.Behavior.Footprint
import Pursuit.Proofs.Chase.Turns

/-! What the agents' trees and the passing of time may change in a scene. Nothing is asked of the
scene, and a deed that fails or breaks off midway keeps to the same bounds as one that is done. -/
namespace Pursuit.Arena

/-- Other orders perhaps, but the same place and heading. -/
def Navigator.Stays (n n' : Navigator) : Prop := n'.position = n.position ∧ n'.forward = n.forward

theorem Navigator.Stays.trans {n n' n'' : Navigator} (first : n.Stays n') (second : n'.Stays n'') :
    n.Stays n'' := ⟨second.1.trans first.1, second.2.trans first.2⟩

end Pursuit.Arena

namespace Pursuit.Chase

open Pursuit.Arena Pursuit.Behavior

def OnScene (R : Scene → Scene → Prop) (h h' : Host) : Prop := R h.scene h'.scene

section Leaves

variable {R : Scene → Scene → Prop}

def Course.Within (R : Scene → Scene → Prop) (c : Course) : Prop :=
  ∀ s, R s (c.check s).2 ∧ R s (c.deed s).scene

theorem condition_within (refl : ∀ s, R s s) {check : Scene → Bool × Scene}
    (asked : ∀ s, R s (check s).2) (name : String) :
    (condition name check).LeafWithin (OnScene R) := by
  intro h
  dsimp only
  split
  · exact refl h.scene
  · exact asked h.scene

theorem action_within (refl : ∀ s, R s s) {deed : Scene → Deed} (acted : ∀ s, R s (deed s).scene)
    (name : String) : (action name deed).LeafWithin (OnScene R) := by
  intro h
  have here := acted h.scene
  dsimp only
  split
  · exact refl h.scene
  · cases ended : deed h.scene with
    | done | failed | broken => rw [ended] at here; exact here

theorem nodes_within (refl : ∀ s, R s s) {cs : List Course} (each : ∀ c ∈ cs, c.Within R) :
    ∀ l ∈ Node.fringeAll (cs.map Course.node), l.LeafWithin (OnScene R) := by
  induction cs with
  | nil => exact List.forall_mem_nil _
  | cons c cs ih =>
    obtain ⟨first, rest⟩ := List.forall_mem_cons.1 each
    have acts := action_within refl (fun s => (first s).2) c.name
    refine List.forall_mem_append.2 ⟨?_, ih rest⟩
    obtain ⟨guard, name, deed⟩ := c
    cases guard with
    | none => exact List.forall_mem_singleton.2 acts
    | some guard =>
      have asks := condition_within refl (fun s => (first s).1) guard.1
      exact List.forall_mem_cons.2 ⟨asks, List.forall_mem_singleton.2 acts⟩

end Leaves

/-! ## The cat -/

namespace Cat

/-- Only the cat is another, and only in its orders and its mind, unless it has just caught the
mouse. A mouse that is caught is stopped. -/
def Spares (s s' : Scene) : Prop :=
  ∃ cat, (s' = { s with cat } ∨ s.mouseCaught = false ∧
    s' = { s with cat, mouseCaught := true, mouse := { s.mouse with nav := s.mouse.nav.stop } }) ∧
    s.cat.nav.Stays cat.nav

theorem Spares.refl (s : Scene) : Spares s s := ⟨s.cat, .inl rfl, rfl, rfl⟩

theorem Spares.trans {s s' s'' : Scene} (first : Spares s s') (second : Spares s' s'') :
    Spares s s'' := by
  obtain ⟨cat, same, stays⟩ := first
  obtain ⟨cat', same', stays'⟩ := second
  have still : s'.cat = cat := by obtain rfl | ⟨-, rfl⟩ := same <;> rfl
  rw [still] at stays'
  refine ⟨cat', ?_, stays.trans stays'⟩
  obtain rfl | ⟨free, rfl⟩ := same
  · exact same'
  · -- A mouse is caught only once.
    obtain rfl | ⟨loose, -⟩ := same'
    · exact .inr ⟨free, rfl⟩
    · cases loose

variable {s : Scene}

theorem send_spares {c : Cat} (stays : s.cat.nav.Stays c.nav) (events : List Event) (p : Point) :
    Spares s (send s c events p).scene := by
  rw [send]
  obtain taken | refused := headFor_cases c.nav p s.world
  · rw [taken]
    exact ⟨_, .inl rfl, stays⟩
  · rw [refused]
    exact ⟨_, .inl rfl, stays⟩

theorem catchMouse_spares (s : Scene) : Spares s (catchMouse s).scene := by
  refine ⟨{ s.cat with nav := s.cat.nav.stop, mode := .caught }, ?_, rfl, rfl⟩
  rw [catchMouse_eq, Deed.scene, Cat.caught]
  cases caught : s.mouseCaught with
  | true => simp
  | false => simp

theorem chaseMouse_spares (s : Scene) : Spares s (chaseMouse s).scene := by
  rw [chaseMouse]
  split
  · exact .refl s
  · simp only [setMode_eq]
    refine send_spares ?_ ..
    exact ⟨rfl, rfl⟩

theorem patrol_spares (s : Scene) : Spares s (patrol s).scene := by
  rw [patrol]
  split
  · exact .refl s
  simp only [setMode_eq]
  split
  · exact ⟨_, .inl rfl, rfl, rfl⟩
  next p _ =>
    obtain taken | refused := headFor_cases (s.cat.nav.moveAt s.cat.patrolSpeed) p s.world
    · rw [taken]
      dsimp only
      split
      · split
        · exact ⟨_, .inl rfl, rfl, rfl⟩
        · refine send_spares ?_ ..
          exact ⟨rfl, rfl⟩
      · exact ⟨_, .inl rfl, rfl, rfl⟩
    · rw [refused]
      exact ⟨_, .inl rfl, rfl, rfl⟩

theorem mouseSpotted_spares (s : Scene) : Spares s (mouseSpotted s).2 := by
  rw [mouseSpotted]
  dsimp only
  split
  · exact ⟨_, .inl rfl, rfl, rfl⟩
  · exact .refl s

theorem courses_spare : ∀ c ∈ courses, c.Within Spares := by
  intro c member s
  simp only [courses, List.mem_cons, List.not_mem_nil, or_false] at member
  obtain rfl | rfl | rfl := member
  · exact ⟨.refl s, catchMouse_spares s⟩
  · exact ⟨mouseSpotted_spares s, chaseMouse_spares s⟩
  · exact ⟨.refl s, patrol_spares s⟩

theorem footprint : Footprint (OnScene Spares) :=
  ⟨fun h => .refl h.scene, .trans, fun h _ => .refl h.scene⟩

theorem leaves_spare : ∀ l ∈ tree.fringe, l.LeafWithin (OnScene Spares) :=
  nodes_within Spares.refl courses_spare

end Cat

/-! ## The mouse -/

namespace Mouse

/-- Only the mouse, the cheese and the random draws are others, and the mouse is where it was. -/
def Spares (s s' : Scene) : Prop :=
  ∃ mouse cheeses generator,
    s' = { s with mouse, world := { s.world with cheeses }, generator } ∧
      s.mouse.nav.Stays mouse.nav

theorem Spares.refl (s : Scene) : Spares s s := ⟨_, _, _, rfl, rfl, rfl⟩

theorem Spares.trans {s s' s'' : Scene} (first : Spares s s') (second : Spares s' s'') :
    Spares s s'' := by
  obtain ⟨mouse, cheeses, generator, rfl, stays⟩ := first
  obtain ⟨mouse', cheeses', generator', rfl, stays'⟩ := second
  exact ⟨_, _, _, rfl, stays.trans stays'⟩

variable {s : Scene} {m : Mouse}

theorem send_spares (stays : s.mouse.nav.Stays m.nav) (events : List Event) (p : Point) :
    Spares s (send s m events p).scene := by
  rw [send]
  obtain taken | refused := headFor_cases m.nav p s.world
  · rw [taken]
    exact ⟨_, _, _, rfl, stays⟩
  · rw [refused]
    exact ⟨_, _, _, rfl, stays⟩

theorem sendAnywhere_spares (stays : s.mouse.nav.Stays m.nav) (events : List Event) (center : Point)
    (radius : Float32) : Spares s (sendAnywhere s m events center radius).scene := by
  have drawn (generator) : Spares s { s with generator } := ⟨_, _, _, rfl, rfl, rfl⟩
  rw [sendAnywhere]
  dsimp only
  split
  · exact (drawn _).trans ⟨_, _, _, rfl, stays⟩
  · refine (drawn _).trans (send_spares ?_ ..)
    exact stays

theorem escapeFromCat_spares (s : Scene) : Spares s (escapeFromCat s).scene := by
  simp only [escapeFromCat, setMode_eq]
  split
  · refine sendAnywhere_spares ?_ ..
    exact ⟨rfl, rfl⟩
  · exact ⟨_, _, _, rfl, rfl, rfl⟩

theorem wander_spares (s : Scene) : Spares s (wander s).scene := by
  simp only [wander, setMode_eq]
  split
  · refine sendAnywhere_spares ?_ ..
    exact ⟨rfl, rfl⟩
  · exact ⟨_, _, _, rfl, rfl, rfl⟩

theorem collectCheese_spares (s : Scene) : Spares s (collectCheese s).scene := by
  rw [collectCheese]
  split
  · exact .refl s
  next id _ =>
    dsimp only
    split
    · exact ⟨_, _, _, rfl, rfl, rfl⟩
    next world _ collected =>
      obtain ⟨cheeses, rfl⟩ := World.world_of_collect collected
      exact ⟨_, _, _, rfl, rfl, rfl⟩

theorem approachCheese_spares (s : Scene) : Spares s (approachCheese s).scene := by
  rw [approachCheese]
  split
  · exact .refl s
  · simp only [setMode_eq]
    refine send_spares ?_ ..
    exact ⟨rfl, rfl⟩

theorem pickCheeseTarget_spares (s : Scene) : Spares s (pickCheeseTarget s).scene := by
  rw [pickCheeseTarget]
  split
  · exact .refl s
  · simp only [setMode_eq]
    refine send_spares ?_ ..
    exact ⟨rfl, rfl⟩

theorem cheeseInReach_spares (s : Scene) : Spares s (cheeseInReach s).2 := by
  rw [cheeseInReach]
  split
  · exact .refl s
  · exact .refl s

theorem courses_spare : ∀ c ∈ courses, c.Within Spares := by
  intro c member s
  simp only [courses, List.mem_cons, List.not_mem_nil, or_false] at member
  obtain rfl | rfl | rfl | rfl | rfl := member
  · exact ⟨.refl s, escapeFromCat_spares s⟩
  · exact ⟨cheeseInReach_spares s, collectCheese_spares s⟩
  · exact ⟨.refl s, approachCheese_spares s⟩
  · exact ⟨.refl s, pickCheeseTarget_spares s⟩
  · exact ⟨.refl s, wander_spares s⟩

theorem footprint : Footprint (OnScene Spares) :=
  ⟨fun h => .refl h.scene, .trans, fun h _ => .refl h.scene⟩

theorem leaves_spare : ∀ l ∈ tree.fringe, l.LeafWithin (OnScene Spares) := by
  rw [fringe_tree]
  exact List.forall_mem_cons.2
    ⟨condition_within Spares.refl Spares.refl _, nodes_within Spares.refl courses_spare⟩

end Mouse

/-! ## Time -/

/-- Only the clock, the places and the headings are others. -/
def Moves (s s' : Scene) : Prop :=
  ∃ catPosition catForward mousePosition mouseForward elapsed, s' = { s with
    cat := { s.cat with nav := { s.cat.nav with position := catPosition, forward := catForward } }
    mouse :=
      { s.mouse with nav :=
        { s.mouse.nav with position := mousePosition, forward := mouseForward } }
    elapsed }

theorem step_moves (n : Navigator) (dt : Float32) :
    ∃ position forward, n.step dt = { n with position, forward } := by
  rw [Navigator.step]
  split
  · exact ⟨_, _, rfl⟩
  · split
    · exact ⟨_, _, rfl⟩
    · split
      · exact ⟨_, _, rfl⟩
      · exact ⟨_, _, rfl⟩

theorem advance_moves (s : Scene) (delta : Float) : Moves s (s.advance delta) := by
  rw [Scene.advance]
  obtain ⟨catPosition, catForward, cat⟩ := step_moves s.cat.nav (Binary.narrow delta)
  obtain ⟨mousePosition, mouseForward, mouse⟩ := step_moves s.mouse.nav (Binary.narrow delta)
  split
  · dsimp only
    rw [cat, mouse]
    split
    · exact ⟨_, _, _, _, _, rfl⟩
    · exact ⟨_, _, _, _, _, rfl⟩
  · exact ⟨_, _, _, _, _, rfl⟩

/-- Any tick of either tree in any host, be its scene spoiled, its deeds refused or broken off, or
its actions raised, and any frame time. The cat's tick changes the cat, and catches and stops a free
mouse at most. The mouse's tick changes the mouse, the cheese and the random draws at most. Neither
changes a place or a heading, and time changes nothing but these and the clock. -/
theorem scene_footprints (h : Host) (inner : Inner Host) (raised : List Nat) (delta : Float) :
    Cat.Spares h.scene (Tree.tickWith inner { root := Cat.tree, raised } h).2.2.scene ∧
      Mouse.Spares h.scene (Tree.tickWith inner { root := Mouse.tree, raised } h).2.2.scene ∧
      Moves h.scene (h.scene.advance delta) :=
  ⟨Cat.footprint.tickWith inner Cat.leaves_spare h,
    Mouse.footprint.tickWith inner Mouse.leaves_spare h, advance_moves h.scene delta⟩

end Pursuit.Chase
