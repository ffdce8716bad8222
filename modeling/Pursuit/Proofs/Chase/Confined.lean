import Pursuit.Proofs.Arena.Travel
import Pursuit.Proofs.Chase.Chain
import Pursuit.Proofs.Chase.Grounds
import Pursuit.Proofs.Chase.Scenes

/-! Where the agents can be. Destinations are checked and places are not, so what holds of the
places comes from the legs alone: an agent may graze the border, and in a very large world it may
get lost. -/
namespace Pursuit.Chase

open Pursuit.Arena Pursuit.Behavior Pursuit.Binary Pursuit.Settings

variable {h : Float32} {H : ℝ} {s : Scene}

structure Cat.Confined (h : Float32) (H : ℝ) (c : Cat) : Prop where
  nav : c.nav.Confined h H
  patrolSpeed : Grounds.IsSize c.patrolSpeed
  chaseSpeed : Grounds.IsSize c.chaseSpeed

structure Mouse.Confined (h : Float32) (H : ℝ) (m : Mouse) : Prop where
  nav : m.nav.Confined h H
  speed : Grounds.IsSize m.speed

structure Scene.Confined (h : Float32) (H : ℝ) (s : Scene) : Prop where
  extent : s.world.halfExtent = h
  cat : s.cat.Confined h H
  mouse : s.mouse.Confined h H

/-! ## The cat -/

namespace Cat

theorem send_confined {c : Cat} (events : List Event) (p : Point) (confined : s.Confined h H)
    (sent : c.Confined h H) : (send s c events p).scene.Confined h H := by
  obtain ⟨rfl, -, mouse⟩ := confined
  rw [send]
  cases accepted : c.nav.headFor p s.world with
  | ok nav => exact ⟨rfl, ⟨sent.nav.headFor accepted, sent.patrolSpeed, sent.chaseSpeed⟩, mouse⟩
  | error e => exact ⟨rfl, sent, mouse⟩

theorem catchMouse_confined (confined : s.Confined h H) : (catchMouse s).scene.Confined h H := by
  obtain ⟨extent, ⟨nav, patrolSpeed, chaseSpeed⟩, mouse⟩ := confined
  rw [catchMouse_eq]
  refine ⟨extent, ⟨nav.stop, patrolSpeed, chaseSpeed⟩, ?_⟩
  show Mouse.Confined h H
    (if s.mouseCaught then s.mouse else { s.mouse with nav := s.mouse.nav.stop })
  split
  · exact mouse
  · exact ⟨mouse.nav.stop, mouse.speed⟩

theorem chaseMouse_confined (confined : s.Confined h H) : (chaseMouse s).scene.Confined h H := by
  rw [chaseMouse]
  split
  · exact confined
  · rw [setMode_eq]
    exact send_confined _ _ confined ⟨confined.cat.nav.moveAt confined.cat.chaseSpeed,
      confined.cat.patrolSpeed, confined.cat.chaseSpeed⟩

theorem patrol_confined (confined : s.Confined h H) : (patrol s).scene.Confined h H := by
  have ⟨extent, ⟨nav, patrolSpeed, chaseSpeed⟩, mouse⟩ := confined
  have moving := nav.moveAt patrolSpeed
  rw [patrol]
  split
  · exact confined
  · simp only [setMode_eq]
    split
    · exact ⟨extent, ⟨moving, patrolSpeed, chaseSpeed⟩, mouse⟩
    · split
      · exact ⟨extent, ⟨moving, patrolSpeed, chaseSpeed⟩, mouse⟩
      next nav' accepted =>
        have sent : nav'.Confined h H := by
          subst extent
          exact moving.headFor accepted
        split
        · split
          · exact ⟨extent, ⟨sent, patrolSpeed, chaseSpeed⟩, mouse⟩
          · exact send_confined _ _ confined ⟨sent, patrolSpeed, chaseSpeed⟩
        · exact ⟨extent, ⟨sent, patrolSpeed, chaseSpeed⟩, mouse⟩

theorem courses_preserve : ∀ c ∈ courses, c.Preserves (Scene.Confined h H) := by
  intro c member s confined
  simp only [courses, List.mem_cons, List.not_mem_nil, or_false] at member
  obtain rfl | rfl | rfl := member
  · exact ⟨confined, catchMouse_confined confined⟩
  · refine ⟨?_, chaseMouse_confined confined⟩
    show (mouseSpotted s).2.Confined h H
    rw [mouseSpotted]
    split
    · obtain ⟨extent, ⟨nav, patrolSpeed, chaseSpeed⟩, mouse⟩ := confined
      exact ⟨extent, ⟨nav, patrolSpeed, chaseSpeed⟩, mouse⟩
    · exact confined
  · exact ⟨confined, patrol_confined confined⟩

theorem noted_of_spotted (seen : (mouseSpotted s).1) :
    (mouseSpotted s).2 = { s with cat.lastKnown := some s.mouse.nav.position } :=
  mouseSpotted_eq_true (Prod.ext seen rfl)

theorem chaseMouse_done_iff (seen : (mouseSpotted s).1) :
    (∃ t events, chaseMouse (mouseSpotted s).2 = .done t events) ↔
      s.world.contains s.mouse.nav.position := by
  rw [noted_of_spotted seen, chaseMouse_eq rfl]
  split
  next inside => exact iff_of_true ⟨_, _, rfl⟩ inside
  next outside => exact iff_of_false (by rintro ⟨_, _, same⟩; cases same) outside

end Cat

/-! ## The mouse -/

namespace Mouse

theorem send_confined {m : Mouse} (events : List Event) (p : Point) (confined : s.Confined h H)
    (sent : m.Confined h H) : (send s m events p).scene.Confined h H := by
  obtain ⟨rfl, cat, -⟩ := confined
  rw [send]
  cases accepted : m.nav.headFor p s.world with
  | ok nav => exact ⟨rfl, cat, sent.nav.headFor accepted, sent.speed⟩
  | error e => exact ⟨rfl, cat, sent⟩

theorem sendAnywhere_confined {m : Mouse} (events : List Event) (center : Point) (radius : Float32)
    (confined : s.Confined h H) (sent : m.Confined h H) :
    (sendAnywhere s m events center radius).scene.Confined h H := by
  obtain ⟨extent, cat, mouse⟩ := confined
  rw [sendAnywhere]
  dsimp only
  split
  · exact ⟨extent, cat, sent⟩
  · exact send_confined _ _ ⟨extent, cat, mouse⟩ sent

theorem escapeFromCat_confined (confined : s.Confined h H) :
    (escapeFromCat s).scene.Confined h H := by
  have sent : Confined h H
      { s.mouse with mode := .fleeing, nav := s.mouse.nav.moveAt s.mouse.speed } :=
    ⟨confined.mouse.nav.moveAt confined.mouse.speed, confined.mouse.speed⟩
  simp only [escapeFromCat, setMode_eq]
  split
  · exact sendAnywhere_confined _ _ _ confined sent
  · exact ⟨confined.extent, confined.cat, sent⟩

theorem collectCheese_confined (confined : s.Confined h H) :
    (collectCheese s).scene.Confined h H := by
  obtain ⟨extent, cat, nav, speed⟩ := confined
  rw [collectCheese]
  split
  · exact ⟨extent, cat, nav, speed⟩
  next id _ =>
    dsimp only
    cases taken : s.world.collect id with
    | error e => exact ⟨extent, cat, nav, speed⟩
    | ok left => exact ⟨(World.halfExtent_of_collect taken).trans extent, cat, nav, speed⟩

theorem approachCheese_confined (confined : s.Confined h H) :
    (approachCheese s).scene.Confined h H := by
  rw [approachCheese]
  split
  · exact confined
  · rw [setMode_eq]
    exact send_confined _ _ confined
      ⟨confined.mouse.nav.moveAt confined.mouse.speed, confined.mouse.speed⟩

theorem pickCheeseTarget_confined (confined : s.Confined h H) :
    (pickCheeseTarget s).scene.Confined h H := by
  rw [pickCheeseTarget]
  split
  · exact confined
  · rw [setMode_eq]
    exact send_confined _ _ confined
      ⟨confined.mouse.nav.moveAt confined.mouse.speed, confined.mouse.speed⟩

theorem wander_confined (confined : s.Confined h H) : (wander s).scene.Confined h H := by
  have sent : Confined h H
      { s.mouse with mode := .wandering, nav := s.mouse.nav.moveAt s.mouse.speed } :=
    ⟨confined.mouse.nav.moveAt confined.mouse.speed, confined.mouse.speed⟩
  simp only [wander, setMode_eq]
  split
  · exact sendAnywhere_confined _ _ _ confined sent
  · exact ⟨confined.extent, confined.cat, sent⟩

theorem courses_preserve : ∀ c ∈ courses, c.Preserves (Scene.Confined h H) := by
  intro c member s confined
  simp only [courses, List.mem_cons, List.not_mem_nil, or_false] at member
  obtain rfl | rfl | rfl | rfl | rfl := member
  · exact ⟨confined, escapeFromCat_confined confined⟩
  · refine ⟨?_, collectCheese_confined confined⟩
    show (cheeseInReach s).2.Confined h H
    rw [cheeseInReach]
    split
    · exact confined
    · exact confined
  · exact ⟨confined, approachCheese_confined confined⟩
  · exact ⟨confined, pickCheeseTarget_confined confined⟩
  · exact ⟨confined, wander_confined confined⟩

end Mouse

/-! ## Runs -/

theorem Scene.Confined.advance (side : NarrowIs h H) (confined : s.Confined h H) (delta : Float) :
    (s.advance delta).Confined h H := by
  obtain ⟨extent, ⟨nav, patrolSpeed, chaseSpeed⟩, mouse⟩ := confined
  rw [Scene.advance]
  split
  · refine ⟨extent, ⟨nav.step side _, patrolSpeed, chaseSpeed⟩, ?_⟩
    dsimp only
    split
    · exact mouse
    · exact ⟨mouse.nav.step side _, mouse.speed⟩
  · exact ⟨extent, ⟨nav, patrolSpeed, chaseSpeed⟩, mouse⟩

theorem confined_lasting (side : NarrowIs h H) : Lasting (Scene.Confined h H) where
  cat := Cat.courses_preserve
  mouse := Mouse.courses_preserve
  advance _ delta confined := confined.advance side delta

theorem confined_ofSettings {c : RunSettings} (valid : c.validate = .ok ())
    (side : NarrowIs c.world.halfExtent H) :
    (Scene.ofSettings c).Confined c.world.halfExtent H := by
  have checked := RunSettings.validate_eq_ok_iff.1 valid
  have waiting {p : Point} {distance : Float32} (inside : p.isWithin c.world.halfExtent) :
      Navigator.Confined c.world.halfExtent H { position := p, stoppingDistance := distance } :=
    have stands := standsAt_of_within side inside
    ⟨stands.grazes, fun _ => stands, nofun, 0, narrowIs_zero, le_rfl⟩
  exact ⟨rfl, ⟨waiting checked.cat.spawn, isSize_of_positive checked.cat.patrolSpeed,
    isSize_of_positive checked.cat.chaseSpeed⟩, waiting checked.mouse.spawn,
    isSize_of_positive checked.mouse.speed⟩

namespace Simulation

/-- In a run from valid settings each coordinate of an agent is NaN or beyond the border by at most
one part in 2^20, and it is a number if the half side of the world is at most 2^61. A cat that sees
the mouse can be sent to where it saw it if and only if that is inside. -/
theorem operateAll_confined {c : RunSettings} (valid : c.validate = .ok ()) (ops : List Operation) :
    ∃ start sim H, ofSettings c = .ok start ∧ start.operateAll ops = (.returned (), sim) ∧
      NarrowIs c.world.halfExtent H ∧ sim.host.scene.world.halfExtent = c.world.halfExtent ∧
      GrazesAt H sim.host.scene.cat.nav.position ∧ GrazesAt H sim.host.scene.mouse.nav.position ∧
      (H ≤ 2 ^ 61 → StandsAt H sim.host.scene.cat.nav.position ∧
        StandsAt H sim.host.scene.mouse.nav.position) ∧
      ((Cat.mouseSpotted sim.host.scene).1 →
        ((∃ s events, Cat.chaseMouse (Cat.mouseSpotted sim.host.scene).2 = .done s events) ↔
          sim.host.scene.world.contains sim.host.scene.mouse.nav.position)) := by
  obtain ⟨start, ready, sound, begun, -⟩ := ofSettings_of_valid valid
  obtain ⟨H, side⟩ :=
    narrow_isFinite_iff.1 (RunSettings.validate_eq_ok_iff.1 valid).world.halfExtent.1
  obtain ⟨sim, ran, -⟩ := Kept.always.run sound trivial ops
  have first : start.host.scene.Confined c.world.halfExtent H :=
    begun ▸ confined_ofSettings valid side
  have confined := operateAll_lasting (confined_lasting side) sound first ops
  rw [ran] at confined
  exact ⟨start, sim, H, ready, ran, side, confined.extent, confined.cat.nav.grazes,
    confined.mouse.nav.grazes, fun large => ⟨confined.cat.nav.stands large,
      confined.mouse.nav.stands large⟩, Cat.chaseMouse_done_iff⟩

theorem operateAll_confined_default : RunSettings.validate {} = .ok () ∧ ∃ start sim,
    ofSettings {} = .ok start ∧
    start.operateAll [.frame 0.5, .runHeadless 3] = (.returned (), sim) ∧
    StandsAt 20 sim.host.scene.cat.nav.position ∧
      StandsAt 20 sim.host.scene.mouse.nav.position := by
  have valid : RunSettings.validate {} = .ok () := rfl
  obtain ⟨start, sim, H, ready, ran, side, -, -, -, stands, -⟩ :=
    operateAll_confined valid [.frame 0.5, .runHeadless 3]
  have twenty : NarrowIs 20.0 20 := by
    have value := @narrowIs_of_unpack 20.0 .positive 10485760 (-19) (by decide) rfl
    norm_num [signed] at value
    exact value
  obtain rfl : H = 20 := Denotes.unique side twenty
  exact ⟨valid, start, sim, ready, ran, stands (by norm_num)⟩

/-- A mouse that can run from the lower left corner to the upper right one in a single leg, and a
cat in the lower right one that looks for it all around. -/
def cornered : RunSettings where
  tickInterval := 0.0
  frameDelta := 1.0
  world := { obstacles := [], cheeses := [.ofInts 20 20] }
  cat := { viewAngle := 360.0, viewRange := 100.0, spawn := .ofInts 20 (-20) }
  mouse := { speed := 100.0, spawn := .ofInts (-20) (-20), safeDistance := 0.0 }

def mouseInside (c : RunSettings) (ops : List Operation) : Option (Bool × Bool) :=
  match ofSettings c with
  | .ok start =>
    let s := (start.operateAll ops).2.host.scene
    some (s.world.contains s.mouse.nav.position, (Cat.mouseSpotted s).1)
  | .error _ => none

/-- The leg ends beyond the corner, and the cat that sees the mouse there cannot be sent after
it. -/
theorem cornered_outside :
    cornered.validate = .ok () ∧ ∃ start sim, ofSettings cornered = .ok start ∧
    start.operateAll [.frame 1.0] = (.returned (), sim) ∧
    sim.host.scene.world.contains sim.host.scene.mouse.nav.position = false ∧
    (Cat.mouseSpotted sim.host.scene).1 ∧
    ∃ s events fault, Cat.chaseMouse (Cat.mouseSpotted sim.host.scene).2 =
      .failed s events fault := by
  have valid : cornered.validate = .ok () := rfl
  have strayed : mouseInside cornered [.frame 1.0] = some (false, true) := by decide +kernel
  obtain ⟨start, ready, sound, -⟩ := ofSettings_of_valid valid
  obtain ⟨sim, ran, -⟩ := Kept.always.run sound trivial [.frame 1.0]
  rw [mouseInside, ready] at strayed
  dsimp only at strayed
  rw [ran] at strayed
  obtain ⟨outside, seen⟩ := Prod.mk.inj (Option.some.inj strayed)
  refine ⟨valid, start, sim, ready, ran, outside, seen, ?_⟩
  rw [Cat.noted_of_spotted seen, Cat.chaseMouse_eq rfl, if_neg (ne_true_of_eq_false outside)]
  exact ⟨_, _, _, rfl⟩

end Simulation

end Pursuit.Chase
