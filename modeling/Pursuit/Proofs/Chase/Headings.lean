import Pursuit.Proofs.Arena.Heading
import Pursuit.Proofs.Chase.Confined
import Pursuit.Proofs.Chase.Footprints

/-! Which way the agents face in a run. No deed turns an agent, so its heading is that of its last
leg, and a leg that is hardly longer than zero leaves an agent without one. A cat without a heading
sees all around. -/
namespace Pursuit.Chase

open Pursuit.Arena Pursuit.Behavior Pursuit.Binary Pursuit.Settings

variable {s : Scene}

/-- How the agents were made: the sight of the cat, and how far from their destinations they
stop. -/
structure Build where
  sight : ViewCone
  catStop : Float32
  mouseStop : Float32

def Build.ofSettings (c : RunSettings) : Build where
  sight := ⟨c.cat.viewRange, c.cat.viewAngle⟩
  catStop := c.cat.stoppingDistance
  mouseStop := c.mouse.stoppingDistance

def Scene.build (s : Scene) : Build where
  sight := s.cat.sight
  catStop := s.cat.nav.stoppingDistance
  mouseStop := s.mouse.nav.stoppingDistance

/-! ## The cat -/

namespace Cat

theorem send_build (events : List Event) (c : Cat) (p : Point) :
    (send s c events p).scene.build = Scene.build { s with cat := c } := by
  rw [send]
  obtain taken | refused := headFor_cases c.nav p s.world
  · rw [taken]
    rfl
  · rw [refused]
    rfl

theorem catchMouse_build (s : Scene) : (catchMouse s).scene.build = s.build := by
  rw [catchMouse_eq]
  show Scene.build (caught s) = s.build
  rw [caught]
  cases s.mouseCaught <;> rfl

theorem chaseMouse_build (s : Scene) : (chaseMouse s).scene.build = s.build := by
  rw [chaseMouse]
  split
  · rfl
  · rw [setMode_eq]
    exact send_build ..

theorem patrol_build (s : Scene) : (patrol s).scene.build = s.build := by
  rw [patrol]
  split
  · rfl
  simp only [setMode_eq]
  split
  · rfl
  next p _ =>
    obtain taken | refused := headFor_cases (s.cat.nav.moveAt s.cat.patrolSpeed) p s.world
    · rw [taken]
      dsimp only
      split
      · split
        · rfl
        · exact send_build ..
      · rfl
    · rw [refused]
      rfl

theorem mouseSpotted_build (s : Scene) : (mouseSpotted s).2.build = s.build := by
  rw [mouseSpotted]
  dsimp only
  split
  · rfl
  · rfl

theorem courses_build : ∀ c ∈ courses, c.Within fun s s' => s'.build = s.build := by
  intro c member s
  simp only [courses, List.mem_cons, List.not_mem_nil, or_false] at member
  obtain rfl | rfl | rfl := member
  · exact ⟨rfl, catchMouse_build s⟩
  · exact ⟨mouseSpotted_build s, chaseMouse_build s⟩
  · exact ⟨rfl, patrol_build s⟩

end Cat

/-! ## The mouse -/

namespace Mouse

theorem send_build (events : List Event) (m : Mouse) (p : Point) :
    (send s m events p).scene.build = Scene.build { s with mouse := m } := by
  rw [send]
  obtain taken | refused := headFor_cases m.nav p s.world
  · rw [taken]
    rfl
  · rw [refused]
    rfl

theorem sendAnywhere_build (events : List Event) (m : Mouse) (center : Point) (radius : Float32) :
    (sendAnywhere s m events center radius).scene.build = Scene.build { s with mouse := m } := by
  rw [sendAnywhere]
  dsimp only
  split
  · rfl
  · exact send_build ..

theorem escapeFromCat_build (s : Scene) : (escapeFromCat s).scene.build = s.build := by
  simp only [escapeFromCat, setMode_eq]
  split
  · exact sendAnywhere_build ..
  · rfl

theorem collectCheese_build (s : Scene) : (collectCheese s).scene.build = s.build := by
  rw [collectCheese]
  split
  · rfl
  · dsimp only
    split
    · rfl
    · rfl

theorem approachCheese_build (s : Scene) : (approachCheese s).scene.build = s.build := by
  rw [approachCheese]
  split
  · rfl
  · rw [setMode_eq]
    exact send_build ..

theorem pickCheeseTarget_build (s : Scene) : (pickCheeseTarget s).scene.build = s.build := by
  rw [pickCheeseTarget]
  split
  · rfl
  · rw [setMode_eq]
    exact send_build ..

theorem wander_build (s : Scene) : (wander s).scene.build = s.build := by
  simp only [wander, setMode_eq]
  split
  · exact sendAnywhere_build ..
  · rfl

theorem cheeseInReach_build (s : Scene) : (cheeseInReach s).2.build = s.build := by
  rw [cheeseInReach]
  split
  · rfl
  · rfl

theorem courses_build : ∀ c ∈ courses, c.Within fun s s' => s'.build = s.build := by
  intro c member s
  simp only [courses, List.mem_cons, List.not_mem_nil, or_false] at member
  obtain rfl | rfl | rfl | rfl | rfl := member
  · exact ⟨rfl, escapeFromCat_build s⟩
  · exact ⟨cheeseInReach_build s, collectCheese_build s⟩
  · exact ⟨rfl, approachCheese_build s⟩
  · exact ⟨rfl, pickCheeseTarget_build s⟩
  · exact ⟨rfl, wander_build s⟩

end Mouse

/-! ## Runs -/

section Runs

variable {h : Float32} {H C M : ℝ} {b : Build}

/-- A scene of confined agents, made as `b` says, the cat and the mouse stopping at `C` and `M`. -/
structure Scene.Headed (h : Float32) (b : Build) (H C M : ℝ) (s : Scene) : Prop where
  confined : s.Confined h H
  build : s.build = b
  cat : s.cat.nav.Headed H C
  mouse : s.mouse.nav.Headed H M

def Scene.Faces (s s' : Scene) : Prop :=
  s'.cat.nav.forward = s.cat.nav.forward ∧ s'.mouse.nav.forward = s.mouse.nav.forward

theorem Cat.Spares.faces {s' : Scene} (spares : Spares s s') : s.Faces s' := by
  obtain ⟨cat, rfl | ⟨-, rfl⟩, -, same⟩ := spares
  · exact ⟨same, rfl⟩
  · exact ⟨same, rfl⟩

theorem Mouse.Spares.faces {s' : Scene} (spares : Spares s s') : s.Faces s' := by
  obtain ⟨mouse, cheeses, generator, rfl, -, same⟩ := spares
  exact ⟨rfl, same⟩

theorem Scene.Headed.of_faces {s' : Scene} (headed : s.Headed h b H C M)
    (confined : s'.Confined h H) (build : s'.build = s.build) (faces : s.Faces s') :
    s'.Headed h b H C M :=
  ⟨confined, build.trans headed.build,
    headed.cat.of_same (congrArg Build.catStop build) faces.1,
    headed.mouse.of_same (congrArg Build.mouseStop build) faces.2⟩

theorem Course.preserves_headed {c : Course} (confined : c.Preserves (Scene.Confined h H))
    (built : c.Within fun s s' => s'.build = s.build) (faces : c.Within Scene.Faces) :
    c.Preserves (Scene.Headed h b H C M) := by
  intro s headed
  obtain ⟨asked, acted⟩ := confined s headed.confined
  exact ⟨headed.of_faces asked (built s).1 (faces s).1,
    headed.of_faces acted (built s).2 (faces s).2⟩

theorem Scene.advance_build (s : Scene) (delta : Float) : (s.advance delta).build = s.build := by
  rw [Scene.advance]
  split
  · simp only [Scene.build, Navigator.step_stoppingDistance]
    split
    · rfl
    · rw [Navigator.step_stoppingDistance]
  · rfl

theorem Scene.Headed.advance (side : NarrowIs h H) (headed : s.Headed h b H C M) (delta : Float) :
    (s.advance delta).Headed h b H C M := by
  have ⟨before, build, cat, mouse⟩ := headed
  refine ⟨before.advance side delta, (s.advance_build delta).trans build, ?_, ?_⟩
  · rw [Scene.advance]
    split
    · exact cat.step side before.cat.nav _
    · exact cat
  · rw [Scene.advance]
    split
    · dsimp only
      split
      · exact mouse
      · exact mouse.step side before.mouse.nav _
    · exact mouse

theorem headed_lasting (side : NarrowIs h H) : Lasting (Scene.Headed h b H C M) where
  cat c member := Course.preserves_headed (Cat.courses_preserve c member)
    (Cat.courses_build c member)
    fun s => (Cat.courses_spare c member s).imp Cat.Spares.faces Cat.Spares.faces
  mouse c member := Course.preserves_headed (Mouse.courses_preserve c member)
    (Mouse.courses_build c member)
    fun s => (Mouse.courses_spare c member s).imp Mouse.Spares.faces Mouse.Spares.faces
  advance _ delta headed := headed.advance side delta

theorem headed_ofSettings {c : RunSettings} (valid : c.validate = .ok ())
    (side : NarrowIs c.world.halfExtent H) (cat : NarrowIs c.cat.stoppingDistance C)
    (mouse : NarrowIs c.mouse.stoppingDistance M) :
    (Scene.ofSettings c).Headed c.world.halfExtent (.ofSettings c) H C M :=
  ⟨confined_ofSettings valid side, rfl, .ahead cat rfl, .ahead mouse rfl⟩

/-- A cat without a heading asks for no angle that its cone does not have. -/
theorem Scene.Headed.mouseSpotted_iff (headed : s.Headed h b H C M) (large : H ≤ 2 ^ 61)
    (aimless : s.cat.nav.forward = .origin) : (Cat.mouseSpotted s).1 ↔
      ¬ b.sight.range < s.cat.nav.position.distance s.mouse.nav.position ∧
      ¬ b.sight.angle / two ≤ .ofBits 0 ∧
      s.world.lineOfSight s.cat.nav.position s.mouse.nav.position := by
  have sight : s.cat.sight = b.sight := congrArg Build.sight headed.build
  obtain ⟨L, length⟩ := length_of_stands large (headed.confined.cat.nav.stands large)
    (headed.confined.mouse.nav.stands large)
  have sees : (Cat.mouseSpotted s).1 = b.sight.sees s.cat.nav.position .origin
      s.mouse.nav.position s.world := by
    rw [Cat.mouseSpotted, sight, aimless]
    split
    next seen => exact seen.symm
    next hidden => exact (eq_false_of_ne_true hidden).symm
  rw [sees, ViewCone.sees, origin_angle (v := s.mouse.nav.position.sub s.cat.nav.position) length,
    ← Point.distance]
  split
  next beyond => exact iff_of_false Bool.false_ne_true fun seen => seen.1 beyond
  next near =>
    split
    next shut => exact iff_of_false Bool.false_ne_true fun seen => seen.2.1 shut
    next wide => exact ⟨fun clear => ⟨near, wide, clear⟩, fun seen => seen.2.2⟩

end Runs

namespace Simulation

/-- In a run from valid settings each heading is a direction, or it is aimless. In a world whose
half side is at most 2^61 an aimless one is the origin, and only an agent that stops closer than
2^-23 to its destinations can get it. With the origin for its heading the cat sees the mouse behind
it as well as in front. -/
theorem operateAll_headed {c : RunSettings} (valid : c.validate = .ok ()) (ops : List Operation) :
    ∃ start sim H C M, ofSettings c = .ok start ∧ start.operateAll ops = (.returned (), sim) ∧
      NarrowIs c.world.halfExtent H ∧ NarrowIs c.cat.stoppingDistance C ∧
      NarrowIs c.mouse.stoppingDistance M ∧
      sim.host.scene.cat.nav.Headed H C ∧ sim.host.scene.mouse.nav.Headed H M ∧
      (H ≤ 2 ^ 61 → sim.host.scene.cat.nav.forward = .origin →
        ((Cat.mouseSpotted sim.host.scene).1 ↔
          ¬ c.cat.viewRange <
            sim.host.scene.cat.nav.position.distance sim.host.scene.mouse.nav.position ∧
          ¬ c.cat.viewAngle / two ≤ .ofBits 0 ∧
          sim.host.scene.world.lineOfSight sim.host.scene.cat.nav.position
            sim.host.scene.mouse.nav.position)) := by
  obtain ⟨start, ready, sound, begun, -⟩ := ofSettings_of_valid valid
  have checked := RunSettings.validate_eq_ok_iff.1 valid
  obtain ⟨H, side⟩ := narrow_isFinite_iff.1 checked.world.halfExtent.1
  obtain ⟨C, cat⟩ := narrow_isFinite_iff.1 checked.cat.stoppingDistance.1
  obtain ⟨M, mouse⟩ := narrow_isFinite_iff.1 checked.mouse.stoppingDistance.1
  obtain ⟨sim, ran, -⟩ := Kept.always.run sound trivial ops
  have first : start.host.scene.Headed c.world.halfExtent (.ofSettings c) H C M :=
    begun ▸ headed_ofSettings valid side cat mouse
  have headed := operateAll_lasting (headed_lasting side) sound first ops
  rw [ran] at headed
  exact ⟨start, sim, H, C, M, ready, ran, side, cat, mouse, headed.cat, headed.mouse,
    headed.mouseSpotted_iff⟩

theorem operateAll_headed_default : RunSettings.validate {} = .ok () ∧ ∃ start sim,
    ofSettings {} = .ok start ∧
    start.operateAll [.frame 0.5, .runHeadless 3] = (.returned (), sim) ∧
    IsDirection sim.host.scene.cat.nav.forward ∧ IsDirection sim.host.scene.mouse.nav.forward := by
  have valid : RunSettings.validate {} = .ok () := rfl
  obtain ⟨start, sim, H, C, M, ready, ran, side, catStop, mouseStop, cat, mouse, -⟩ :=
    operateAll_headed valid [.frame 0.5, .runHeadless 3]
  have twenty : NarrowIs 20.0 20 := by
    have value := @narrowIs_of_unpack 20.0 .positive 10485760 (-19) (by decide) rfl
    norm_num [signed] at value
    exact value
  obtain rfl : H = 20 := Denotes.unique side twenty
  obtain rfl : C = 1 / 2 := Denotes.unique catStop narrowIs_half
  obtain rfl : M = 1 / 2 := Denotes.unique mouseStop narrowIs_half
  exact ⟨valid, start, sim, ready, ran, cat.steady (by norm_num) (by norm_num),
    mouse.steady (by norm_num) (by norm_num)⟩

/-- A cat that only stops at its waypoint, which is next to where it starts, and a mouse behind
it. -/
def hairline : RunSettings where
  tickInterval := 0.0
  world := { obstacles := [], cheeses := [.ofInts (-15) 0] }
  cat :=
    { spawn := .ofInts 1 0
      waypoints := [⟨.ofBits 0x3f800001, .ofBits 0⟩]
      stoppingDistance := 0.0 }
  mouse := { spawn := .ofInts (-5) 0, safeDistance := 0.0 }

/-- Whether the heading of the cat is the origin after some frames, whether it sees the mouse then,
and whether it would with the heading it started with. -/
def headingLost (c : RunSettings) (ops : List Operation) : Option (Bool × Bool × Bool) :=
  match ofSettings c with
  | .ok start =>
    let s := (start.operateAll ops).2.host.scene
    some (s.cat.nav.forward.x = .ofBits 0 ∧ s.cat.nav.forward.y = .ofBits 0, (Cat.mouseSpotted s).1,
      (Cat.mouseSpotted { s with cat.nav.forward := .ofInts 1 0 }).1)
  | .error _ => none

theorem hairline_aimless :
    hairline.validate = .ok () ∧ ∃ start sim, ofSettings hairline = .ok start ∧
    start.operateAll [.frame 0.5] = (.returned (), sim) ∧
    sim.host.scene.cat.nav.forward = .origin ∧ (Cat.mouseSpotted sim.host.scene).1 ∧
    (Cat.mouseSpotted { sim.host.scene with cat.nav.forward := .ofInts 1 0 }).1 = false := by
  have valid : hairline.validate = .ok () := rfl
  have lost : headingLost hairline [.frame 0.5] = some (true, true, false) := by decide +kernel
  obtain ⟨start, ready, sound, -⟩ := ofSettings_of_valid valid
  obtain ⟨sim, ran, -⟩ := Kept.always.run sound trivial [.frame 0.5]
  rw [headingLost, ready] at lost
  dsimp only at lost
  rw [ran] at lost
  obtain ⟨zero, rest⟩ := Prod.mk.inj (Option.some.inj lost)
  obtain ⟨seen, hidden⟩ := Prod.mk.inj rest
  obtain ⟨zeroX, zeroY⟩ := of_decide_eq_true zero
  exact ⟨valid, start, sim, ready, ran, congrArg₂ Point.mk zeroX zeroY, seen, hidden⟩

end Simulation

end Pursuit.Chase
