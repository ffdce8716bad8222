import Pursuit.Proofs.Chase.Safety

/-! The catch. Until then the mouse is free and the cat is in another mode. From then on the cat
stands still with the mouse in its reach, so that it can only catch it again, which changes nothing,
and the mouse neither acts nor moves. -/
namespace Pursuit.Chase

open Pursuit.Arena Pursuit.Behavior Pursuit.Settings

/-- The mouse is free, and the cat does not act as if it had caught it. -/
structure Loose (s : Scene) : Prop where
  free : s.mouseCaught = false
  mode : s.cat.mode ≠ .caught

structure Holds (s : Scene) : Prop where
  caught : s.mouseCaught
  mode : s.cat.mode = .caught
  braked : s.cat.nav.stop = s.cat.nav
  reach : withinReach s.cat.nav.position s.mouse.nav.position s.cat.attackRange

variable {h h' : Host}

/-! ## Turns -/

theorem Cat.Act.loose (act : Act h h') (loose : Loose h.scene) : Loose h'.scene := by
  cases act with
  | spot | fail => exact ⟨loose.free, loose.mode⟩
  | order other ordered =>
    obtain ⟨destination, speed, index, -, rfl⟩ := ordered
    exact ⟨loose.free, other⟩

theorem Cat.Catches.holds (catches : Catches h h') : Holds h'.scene := by
  obtain ⟨reach, rfl⟩ := catches
  refine ⟨rfl, rfl, rfl, ?_⟩
  have still : (caught h.scene).mouse.nav.position = h.scene.mouse.nav.position := by
    rw [caught]
    split <;> rfl
  exact (congrArg (withinReach _ · _) still).trans reach

theorem Cat.loose_or_holds (turn : Turn Act Catches h h') (loose : Loose h.scene) :
    Loose h'.scene ∨ Holds h'.scene := by
  obtain ⟨h₁, acts, rfl | catches⟩ := turn
  · exact .inl (acts_keep (P := fun h => Loose h.scene) Act.loose acts loose)
  · exact .inr catches.holds

theorem Mouse.Act.loose (act : Act h h') (loose : Loose h.scene) : Loose h'.scene := by
  refine ⟨act.free, ?_⟩
  cases act with
  | order _ ordered => obtain ⟨destination, speed, generator, rfl⟩ := ordered; exact loose.mode
  | pick _ _ _ ordered => obtain ⟨destination, speed, generator, rfl⟩ := ordered; exact loose.mode
  | fail => exact loose.mode

theorem Mouse.Eats.loose (eats : Eats h h') (loose : Loose h.scene) : Loose h'.scene := by
  obtain ⟨-, id, c, -, -, -, rfl⟩ := eats
  exact ⟨loose.free, loose.mode⟩

theorem Mouse.Act.was_free (act : Act h h') : h.scene.mouseCaught = false := by
  cases act with
  | order free | pick free | fail free => exact free

theorem Mouse.turn_of_caught (turn : Turn Act Eats h h') (caught : h.scene.mouseCaught) :
    h' = h := by
  obtain ⟨h₁, acts, last⟩ := turn
  have same : h₁ = h := by
    obtain rfl | ⟨_, act, -⟩ := acts.cases_head
    · rfl
    · rw [act.was_free] at caught
      cases caught
  obtain rfl | eats := last
  · exact same
  · rw [same] at eats
    rw [eats.1] at caught
    cases caught

/-! ## The cat with the mouse -/

theorem Cat.caught_of_holds {s : Scene} (holds : Holds s) : caught s = s := by
  obtain ⟨caught, mode, braked, -⟩ := holds
  simp only [Cat.caught, caught, if_true, braked, ← mode]
  rw [← caught]

theorem Cat.tick_of_holds (sound : h.spoiled = false) (holds : Holds h.scene) :
    Tree.tick { root := tree } h = (.returned .success, { root := tree }, h) := by
  -- The catch brings about what the scene already shows, so it reports nothing either.
  have again : catchMouse h.scene = .done h.scene [] := by
    rw [catchMouse_eq, caught_of_holds holds, holds.mode, holds.caught]
    rfl
  have tried : h.tryAll courses = (.returned .success, h) := by
    rw [courses, Host.tryAll, Host.attempt, Course.check]
    dsimp only [mouseInAttackRange]
    rw [holds.reach]
    dsimp only
    rw [again]
    rfl
  rw [tick_tree sound, tried]

theorem Holds.advance {s : Scene} (holds : Holds s) (delta : Float) :
    ∃ elapsed, s.advance delta = { s with elapsed } := by
  have braked : s.cat.nav.isStopped := by rw [← holds.braked]; rfl
  rw [Scene.advance]
  split
  · refine ⟨s.elapsed + delta, ?_⟩
    simp only [Navigator.step, braked, Bool.true_or, if_true, holds.caught]
  · exact ⟨s.elapsed, rfl⟩

theorem Holds.later {s : Scene} (holds : Holds s) (elapsed : Float) : Holds { s with elapsed } :=
  ⟨holds.caught, holds.mode, holds.braked, holds.reach⟩

theorem Loose.advance {s : Scene} (loose : Loose s) (delta : Float) : Loose (s.advance delta) := by
  obtain ⟨free, mode⟩ := loose
  rw [Scene.advance]
  split
  · exact ⟨free, mode⟩
  · exact ⟨free, mode⟩

/-! ## The two trees on a scene of their own, ticked in any order -/

structure Stage where
  host : Host
  cat : Behavior.Tree Host := { root := Cat.tree }
  mouse : Behavior.Tree Host := { root := Mouse.tree }

inductive Stroke where
  | cat
  | mouse
  | advance (delta : Float)

def Stroke.idle : Stroke → Option (Exit Status)
  | .cat => some (.returned .success)
  | .mouse => some (.returned .failure)
  | .advance _ => none

namespace Stage

def ofSettings (c : RunSettings) : Stage where
  host := { scene := .ofSettings c }

def play (st : Stage) : Stroke → Option (Exit Status) × Stage
  | .cat => let (exit, cat, host) := st.cat.tick st.host; (some exit, { st with cat, host })
  | .mouse => let (exit, mouse, host) := st.mouse.tick st.host; (some exit, { st with mouse, host })
  | .advance delta =>
    (none, { st with host := { st.host with scene := st.host.scene.advance delta } })

def playAll (st : Stage) : List Stroke → List (Option (Exit Status)) × Stage
  | [] => ([], st)
  | stroke :: strokes =>
    let (exit, st) := st.play stroke
    let (exits, st) := st.playAll strokes
    (exit :: exits, st)

def later (st : Stage) (elapsed : Float) : Stage :=
  { st with host := { st.host with scene := { st.host.scene with elapsed } } }

/-- A stage on which the chase goes on or is over. -/
structure Sound (st : Stage) : Prop where
  host : st.host.Sound
  cat : st.cat = { root := Cat.tree }
  mouse : st.mouse = { root := Mouse.tree }
  order : Loose st.host.scene ∨ Holds st.host.scene

variable {c : RunSettings} {st : Stage}

theorem ofSettings_sound (valid : c.validate = .ok ()) : (ofSettings c).Sound :=
  ⟨sound_of_valid valid [], rfl, rfl, .inl ⟨rfl, nofun⟩⟩

theorem play_of_holds (sound : st.Sound) (holds : Holds st.host.scene) (stroke : Stroke) :
    ∃ elapsed, st.play stroke = (stroke.idle, st.later elapsed) := by
  cases stroke with
  | cat =>
    refine ⟨st.host.scene.elapsed, ?_⟩
    rw [play, sound.cat, Cat.tick_of_holds sound.host.unspoiled holds, ← sound.cat]
    rfl
  | mouse =>
    refine ⟨st.host.scene.elapsed, ?_⟩
    rw [play, sound.mouse, Mouse.tick_tree_of_caught sound.host.unspoiled holds.caught,
      ← sound.mouse]
    rfl
  | advance delta =>
    obtain ⟨elapsed, moved⟩ := holds.advance delta
    exact ⟨elapsed, by rw [play, moved]; rfl⟩

theorem play_sound (sound : st.Sound) (stroke : Stroke) : (st.play stroke).2.Sound := by
  obtain ⟨host, cat, mouse, loose | holds⟩ := sound
  · cases stroke with
    | cat =>
      obtain ⟨status, h', ticked, turn⟩ := Cat.tick_turn host
      rw [play, cat, ticked]
      exact ⟨turn.keeps Cat.Act.sound Cat.Catches.sound host, rfl, mouse,
        Cat.loose_or_holds turn loose⟩
    | mouse =>
      obtain ⟨status, h', ticked, turn⟩ := Mouse.tick_turn host
      rw [play, mouse, ticked]
      exact ⟨turn.keeps Mouse.Act.sound Mouse.Eats.sound host, cat, rfl,
        .inl (turn.keeps (P := fun h => Loose h.scene) Mouse.Act.loose Mouse.Eats.loose loose)⟩
    | advance delta => exact ⟨host.advanced delta, cat, mouse, .inl (loose.advance delta)⟩
  · obtain ⟨elapsed, played⟩ := play_of_holds ⟨host, cat, mouse, .inr holds⟩ holds stroke
    rw [played]
    exact ⟨⟨host.unspoiled, host.room, host.placed⟩, cat, mouse, .inr (holds.later elapsed)⟩

theorem playAll_sound (sound : st.Sound) (strokes : List Stroke) :
    (st.playAll strokes).2.Sound := by
  induction strokes generalizing st with
  | nil => exact sound
  | cons stroke strokes ih => exact ih (play_sound sound stroke)

theorem playAll_of_holds (sound : st.Sound) (holds : Holds st.host.scene) (strokes : List Stroke) :
    ∃ elapsed, st.playAll strokes = (strokes.map Stroke.idle, st.later elapsed) := by
  induction strokes generalizing st with
  | nil => exact ⟨st.host.scene.elapsed, rfl⟩
  | cons stroke strokes ih =>
    obtain ⟨elapsed, played⟩ := play_of_holds sound holds stroke
    have sound' : (st.later elapsed).Sound := by
      have kept := play_sound sound stroke
      rwa [played] at kept
    obtain ⟨elapsed', rest⟩ := ih sound' (holds.later elapsed)
    refine ⟨elapsed', ?_⟩
    rw [playAll, played]
    dsimp only
    rw [rest]
    rfl

/-- Once the cat has caught the mouse, in whatever order the two trees are ticked and the scene is
advanced, the cat's ticks succeed, the mouse's fail, and nothing but the time changes. -/
theorem playAll_of_caught {c : RunSettings} (valid : c.validate = .ok ())
    (first further : List Stroke)
    (caught : ((ofSettings c).playAll first).2.host.scene.mouseCaught) :
    ((ofSettings c).playAll first).2.host.scene.cat.mode = .caught ∧
    ∃ elapsed, ((ofSettings c).playAll first).2.playAll further =
      (further.map Stroke.idle, ((ofSettings c).playAll first).2.later elapsed) := by
  have sound := playAll_sound (ofSettings_sound valid) first
  obtain loose | holds := sound.order
  · rw [loose.free] at caught
    cases caught
  · exact ⟨holds.mode, playAll_of_holds sound holds further⟩

def near : RunSettings := { cat := { spawn := .ofInts 0 0 }, mouse := { spawn := .ofInts 1 0 } }

theorem playAll_of_caught_near : near.validate = .ok () ∧
    ((ofSettings near).playAll [.mouse, .advance 0.0, .cat]).2.host.scene.mouseCaught ∧
    ∃ elapsed, (((ofSettings near).playAll [.mouse, .advance 0.0, .cat]).2.playAll
      [.mouse, .advance 0.5, .cat]) =
        ([some (.returned .failure), none, some (.returned .success)],
          ((ofSettings near).playAll [.mouse, .advance 0.0, .cat]).2.later elapsed) := by
  have valid : near.validate = .ok () := rfl
  have caught :
      ((ofSettings near).playAll [.mouse, .advance 0.0, .cat]).2.host.scene.mouseCaught := by
    decide +kernel
  exact ⟨valid, caught, (playAll_of_caught valid _ [.mouse, .advance 0.5, .cat] caught).2⟩

end Stage

end Pursuit.Chase
