import Pursuit.Proofs.Chase.Turns
import Pursuit.Proofs.Random.Stream

/-! Two hosts that differ in nothing but the generator. It is looked at only where a point is drawn,
and whether one is drawn does not hang on it: so trying the same courses leaves two such hosts
alike, or both have drawn. -/
namespace Pursuit.Chase

open Pursuit.Arena Pursuit.Behavior Pursuit.Random Pursuit.Settings

def Scene.reseed (s : Scene) (g : Generator) : Scene := { s with generator := g }

/-! ## Deeds -/

namespace Deed

def reseed (g : Generator) : Deed → Deed
  | .done s events => .done (s.reseed g) events
  | .failed s events fault => .failed (s.reseed g) events fault
  | .broken s events => .broken (s.reseed g) events

end Deed

namespace Course

def Blind (c : Course) : Prop :=
  ∀ s g, c.check (s.reseed g) = ((c.check s).1, (c.check s).2.reseed g)

def Quiet (c : Course) (s : Scene) : Prop := ∀ g, c.deed (s.reseed g) = (c.deed s).reseed g

/-- The deed draws a point, whatever the generator. -/
def Draws (c : Course) (s : Scene) : Prop :=
  ∀ g, (c.deed (s.reseed g)).scene.generator = g.after 2

end Course

namespace Cat

variable (s : Scene) (g : Generator)

theorem send_reseed (c : Cat) (events : List Event) (p : Point) :
    send (s.reseed g) c events p = (send s c events p).reseed g := by
  rw [send, send]
  dsimp only [Scene.reseed]
  cases c.nav.headFor p s.world with
  | ok nav => rfl
  | error e => rfl

theorem catchMouse_reseed : catchMouse (s.reseed g) = (catchMouse s).reseed g := by
  rw [catchMouse_eq, catchMouse_eq]
  rfl

theorem chaseMouse_reseed : chaseMouse (s.reseed g) = (chaseMouse s).reseed g := by
  rw [chaseMouse, chaseMouse]
  dsimp only [Scene.reseed]
  cases s.cat.lastKnown with
  | none => rfl
  | some p => exact send_reseed s g ..

theorem patrol_reseed : patrol (s.reseed g) = (patrol s).reseed g := by
  simp only [patrol, Scene.reseed, setMode_eq]
  by_cases idle : s.cat.waypoints.isEmpty
  · simp only [if_pos idle]
    rfl
  simp only [if_neg idle]
  cases s.cat.waypoints[s.cat.waypointIndex]? with
  | none => rfl
  | some p =>
    cases taken : (s.cat.nav.moveAt s.cat.patrolSpeed).headFor p s.world with
    | error e => simp only [taken]; rfl
    | ok nav =>
      by_cases arrived : nav.hasArrived
      · simp only [taken, if_pos arrived]
        cases s.cat.waypoints[(s.cat.waypointIndex + 1) % s.cat.waypoints.length]? with
        | none => rfl
        | some p => exact send_reseed s g ..
      · simp only [taken, if_neg arrived]
        rfl

theorem courses_blind : ∀ c ∈ courses, c.Blind := by
  intro c member
  simp only [courses, List.mem_cons, List.not_mem_nil, or_false] at member
  obtain rfl | rfl | rfl := member
  · exact fun _ _ => rfl
  · intro s g
    show mouseSpotted (s.reseed g) = ((mouseSpotted s).1, (mouseSpotted s).2.reseed g)
    by_cases seen : s.cat.sight.sees s.cat.nav.position s.cat.nav.forward
      s.mouse.nav.position s.world
    · rw [show mouseSpotted s = _ from if_pos seen]
      exact if_pos seen
    · rw [show mouseSpotted s = _ from if_neg seen]
      exact if_neg seen
  · exact fun _ _ => rfl

theorem courses_quiet : ∀ c ∈ courses, c.Quiet s := by
  intro c member g
  simp only [courses, List.mem_cons, List.not_mem_nil, or_false] at member
  obtain rfl | rfl | rfl := member
  · exact catchMouse_reseed s g
  · exact chaseMouse_reseed s g
  · exact patrol_reseed s g

end Cat

namespace Mouse

variable (s : Scene) (g : Generator)

theorem send_reseed (m : Mouse) (events : List Event) (p : Point) :
    send (s.reseed g) m events p = (send s m events p).reseed g := by
  rw [send, send]
  dsimp only [Scene.reseed]
  cases m.nav.headFor p s.world with
  | ok nav => rfl
  | error e => rfl

theorem send_generator (m : Mouse) (events : List Event) (p : Point) :
    (send s m events p).scene.generator = s.generator := by
  rw [send]
  cases m.nav.headFor p s.world with
  | ok nav => rfl
  | error e => rfl

theorem sendAnywhere_generator (m : Mouse) (events : List Event) (center : Point)
    (radius : Float32) :
    (sendAnywhere s m events center radius).scene.generator = s.generator.after 2 := by
  rw [sendAnywhere]
  dsimp only
  split
  · exact Generator.point_snd center radius
  · exact (send_generator ..).trans (Generator.point_snd center radius)

theorem collectCheese_reseed : collectCheese (s.reseed g) = (collectCheese s).reseed g := by
  rw [collectCheese, collectCheese]
  dsimp only [Scene.reseed]
  cases s.mouse.target with
  | none => rfl
  | some id =>
    dsimp only
    cases s.world.collect id with
    | error e => rfl
    | ok taken => rfl

theorem approachCheese_reseed : approachCheese (s.reseed g) = (approachCheese s).reseed g := by
  have same : targeted (s.reseed g) = targeted s := rfl
  rw [approachCheese, approachCheese, same]
  cases targeted s with
  | none => rfl
  | some c => exact send_reseed s g ..

theorem pickCheeseTarget_reseed :
    pickCheeseTarget (s.reseed g) = (pickCheeseTarget s).reseed g := by
  rw [pickCheeseTarget, pickCheeseTarget]
  dsimp only [Scene.reseed]
  cases s.world.nearestVisible? s.mouse.nav.position with
  | none => rfl
  | some c => exact send_reseed s g ..

theorem courses_blind : ∀ c ∈ courses, c.Blind := by
  intro c member
  simp only [courses, List.mem_cons, List.not_mem_nil, or_false] at member
  obtain rfl | rfl | rfl | rfl | rfl := member
  · exact fun _ _ => rfl
  · intro s g
    have same : targeted (s.reseed g) = targeted s := rfl
    dsimp only [Course.check]
    rw [cheeseInReach, cheeseInReach, same]
    cases targeted s with
    | none => rfl
    | some c => rfl
  · exact fun _ _ => rfl
  · exact fun _ _ => rfl
  · exact fun _ _ => rfl

/-- Whether a point is drawn does not hang on the generator. -/
theorem courses_quiet_or_draw : ∀ c ∈ courses, c.Quiet s ∨ c.Draws s := by
  intro c member
  simp only [courses, List.mem_cons, List.not_mem_nil, or_false] at member
  obtain rfl | rfl | rfl | rfl | rfl := member
  · by_cases fresh : s.mouse.mode ≠ .fleeing ∨ (s.mouse.nav.moveAt s.mouse.speed).hasArrived
    · refine .inr fun g => ?_
      simp only [escapeFromCat, Scene.reseed, setMode_eq, if_pos fresh]
      exact sendAnywhere_generator ..
    · refine .inl fun g => ?_
      simp only [escapeFromCat, Scene.reseed, setMode_eq, if_neg fresh]
      rfl
  · exact .inl (collectCheese_reseed s)
  · exact .inl (approachCheese_reseed s)
  · exact .inl (pickCheeseTarget_reseed s)
  · by_cases fresh : s.mouse.mode ≠ .wandering ∨
        (s.mouse.nav.moveAt s.mouse.speed).destination.isNone ∨
        (s.mouse.nav.moveAt s.mouse.speed).hasArrived
    · refine .inr fun g => ?_
      show (wander (s.reseed g)).scene.generator = g.after 2
      rw [wander, setMode_eq]
      exact (congrArg (fun d : Deed => d.scene.generator) (if_pos fresh)).trans
        (sendAnywhere_generator ..)
    · refine .inl fun g => ?_
      show wander (s.reseed g) = (wander s).reseed g
      simp only [wander, setMode_eq, if_neg fresh]
      exact if_neg fresh

end Mouse

/-! ## Two hosts -/

theorem Deed.scene_reseed (d : Deed) (g : Generator) : (d.reseed g).scene = d.scene.reseed g := by
  cases d <;> rfl

theorem Course.Blind.keeps {c : Course} (blind : c.Blind) (s : Scene) :
    (c.check s).2.generator = s.generator :=
  congrArg (·.2.generator) (blind s s.generator)

theorem Course.Quiet.keeps {c : Course} {s : Scene} (quiet : c.Quiet s) :
    (c.deed s).scene.generator = s.generator := by
  have same : c.deed s = (c.deed s).reseed s.generator := quiet s.generator
  rw [same, Deed.scene_reseed]
  rfl

theorem Course.Quiet.not_draws {c : Course} {s : Scene} (quiet : c.Quiet s) : ¬ c.Draws s :=
  fun draws => Generator.after_ne (n := 2) (by decide) (by decide)
    ((draws s.generator).symm.trans quiet.keeps)

namespace Host

/-- Hosts whose scenes agree but for the generator, and to which the same was reported since they
had the reports `log` and `log'`. -/
structure Twin (log log' : List Event) (h h' : Host) : Prop where
  scene : h'.scene = h.scene.reseed h'.scene.generator
  spoiled : h'.spoiled = h.spoiled
  events : ∃ added, h.events = added ++ log ∧ h'.events = added ++ log'

def Spends (most : ℕ) (h k : Host) : Prop :=
  ∃ n ≤ most, k.scene.generator = h.scene.generator.after (2 * n)

/-- Between `h` and `k` some points were drawn, but at most so many. -/
def Draws (most : ℕ) (h k : Host) : Prop :=
  ∃ n ≤ most, 0 < n ∧ k.scene.generator = h.scene.generator.after (2 * n)

/-- One step, taken by both hosts, has had the same result, and no point was drawn in it. -/
structure Alike {α : Type} (log log' : List Event) (h h' : Host) (r r' : α × Host) : Prop where
  result : r'.1 = r.1
  twin : Twin log log' r.2 r'.2
  kept : r.2.scene.generator = h.scene.generator
  kept' : r'.2.scene.generator = h'.scene.generator

variable {log log' : List Event} {h h' k k' : Host} {c : Course} {s : Scene}

theorem Draws.ne {most : ℕ} (draws : Draws most h k) (few : 2 * most < UInt64.size) :
    k.scene.generator ≠ h.scene.generator := by
  obtain ⟨n, le, some, drawn⟩ := draws
  rw [drawn]
  exact Generator.after_ne (by omega) (by omega)

theorem Draws.spend {a b : ℕ} {l : Host} (draws : Draws a h k) (spends : Spends b k l) :
    Draws (b + a) h l := by
  obtain ⟨m, lem, some, drawn⟩ := draws
  obtain ⟨n, len, spent⟩ := spends
  exact ⟨n + m, by omega, by omega,
    by rw [spent, drawn, ← Generator.after_add, Nat.mul_add, Nat.add_comm]⟩

theorem Draws.of_kept {most : ℕ} (kept : k.scene.generator = h.scene.generator)
    (draws : Draws most k k') : Draws (most + 1) h k' := by
  obtain ⟨n, le, some, drawn⟩ := draws
  exact ⟨n, by omega, some, kept ▸ drawn⟩

namespace Twin

theorem noted (twin : Twin log log' h h') (e : Event) :
    Twin log log' (record e h) (record e h') := by
  obtain ⟨scene, spoiled, added, events, events'⟩ := twin
  exact ⟨scene, spoiled, e :: added, congrArg (e :: ·) events, congrArg (e :: ·) events'⟩

theorem left (twin : Twin log log' h h') (s : Scene) (events : List Event) :
    Twin log log' (h.after s events) (h'.after (s.reseed h'.scene.generator) events) := by
  obtain ⟨-, spoiled, added, reported, reported'⟩ := twin
  refine ⟨rfl, spoiled, events.reverse ++ added, ?_, ?_⟩
  · rw [after, reported, List.append_assoc]
  · rw [after, reported', List.append_assoc]

theorem carry (twin : Twin log log' h h') (name : String) (d : Deed) :
    (h'.carry name (d.reseed h'.scene.generator)).1 = (h.carry name d).1 ∧
      Twin log log' (h.carry name d).2 (h'.carry name (d.reseed h'.scene.generator)).2 := by
  cases d with
  | done s events => exact ⟨rfl, twin.left s events⟩
  | failed s events fault => exact ⟨rfl, (twin.left s events).noted _⟩
  | broken s events =>
    obtain ⟨scene, -, events⟩ := twin.left s events
    exact ⟨rfl, scene, rfl, events⟩

theorem sound (twin : Twin log log' h h') (sound : h.Sound) : h'.Sound := by
  refine ⟨twin.spoiled.trans sound.unspoiled, ?_, ?_⟩
  · rw [twin.scene]
    exact sound.room
  · rw [twin.scene]
    exact sound.placed

end Twin

/-! ### Trials -/

theorem attempt_spends (blind : c.Blind) (either : ∀ s, c.Quiet s ∨ c.Draws s) :
    Spends 1 h (h.attempt c).2 := by
  have kept := blind.keeps h.scene
  obtain ⟨isOpen, s, checked⟩ : ∃ isOpen s, c.check h.scene = (isOpen, s) := ⟨_, _, rfl⟩
  rw [checked] at kept
  cases isOpen with
  | false => exact ⟨0, by decide, by rw [attempt_of_shut checked]; exact kept⟩
  | true =>
    rw [Spends, attempt_of_open checked, carry_scene]
    obtain quiet | draws := either s
    · exact ⟨0, by decide, quiet.keeps.trans kept⟩
    · exact ⟨1, by decide, (draws s.generator).trans (congrArg (Generator.after · 2) kept)⟩

theorem tryAll_spends {cs : List Course} (blind : ∀ c ∈ cs, c.Blind)
    (either : ∀ c ∈ cs, ∀ s, c.Quiet s ∨ c.Draws s) :
    Spends cs.length h (h.tryAll cs).2 := by
  induction cs generalizing h with
  | nil => exact ⟨0, Nat.le_refl 0, rfl⟩
  | cons c cs ih =>
    obtain ⟨blind, blinds⟩ := List.forall_mem_cons.1 blind
    obtain ⟨first, rest⟩ := List.forall_mem_cons.1 either
    obtain ⟨m, le, spent⟩ : Spends 1 h (h.attempt c).2 := attempt_spends blind first
    obtain ⟨-, tried⟩ | ⟨-, tried⟩ := tryAll_cons h c cs
    · obtain ⟨n, len, more⟩ : Spends cs.length (h.attempt c).2 _ := ih blinds rest
      rw [tried, List.length_cons]
      exact ⟨m + n, by omega, by rw [more, spent, Nat.mul_add, Generator.after_add]⟩
    · rw [tried, List.length_cons]
      exact ⟨m, by omega, spent⟩

/-- Whoever has drawn in the first trial has drawn in the end. -/
theorem tryAll_draws {cs : List Course} (blind : ∀ c ∈ cs, c.Blind)
    (either : ∀ c ∈ cs, ∀ s, c.Quiet s ∨ c.Draws s) (draws : Draws 1 h (h.attempt c).2) :
    Draws (cs.length + 1) h (h.tryAll (c :: cs)).2 := by
  obtain ⟨-, tried⟩ | ⟨-, tried⟩ := tryAll_cons h c cs
  · rw [tried]
    exact draws.spend (tryAll_spends blind either)
  · obtain ⟨n, le, some, drawn⟩ := draws
    rw [tried]
    exact ⟨n, by omega, some, drawn⟩

theorem attempt_fork (blind : c.Blind) (either : ∀ s, c.Quiet s ∨ c.Draws s)
    (twin : Twin log log' h h') :
    Alike log log' h h' (h.attempt c) (h'.attempt c) ∨
      (Draws 1 h (h.attempt c).2 ∧ Draws 1 h' (h'.attempt c).2 ∧ ∃ s, c.Draws s) := by
  have kept := blind.keeps h.scene
  have follows := blind h.scene h'.scene.generator
  rw [← twin.scene] at follows
  obtain ⟨isOpen, s, checked⟩ : ∃ isOpen s, c.check h.scene = (isOpen, s) := ⟨_, _, rfl⟩
  rw [checked] at kept follows
  have seen : Twin log log' { h with scene := s }
      { h' with scene := s.reseed h'.scene.generator } := ⟨rfl, twin.spoiled, twin.events⟩
  cases isOpen with
  | false =>
    rw [attempt_of_shut checked, attempt_of_shut follows]
    exact .inl ⟨rfl, seen, kept, rfl⟩
  | true =>
    rw [attempt_of_open checked, attempt_of_open follows]
    obtain quiet | draws := either s
    · left
      rw [quiet h'.scene.generator]
      obtain ⟨result, twin⟩ := seen.carry c.name (c.deed s)
      refine ⟨result, twin, ?_, ?_⟩
      · rw [carry_scene]
        exact quiet.keeps.trans kept
      · rw [carry_scene, Deed.scene_reseed]
        rfl
    · right
      refine ⟨⟨1, by decide, by decide, ?_⟩, ⟨1, by decide, by decide, ?_⟩, s, draws⟩
      · rw [carry_scene]
        exact (draws s.generator).trans (congrArg (Generator.after · 2) kept)
      · rw [carry_scene]
        exact draws h'.scene.generator

theorem tryAll_fork {cs : List Course} (blind : ∀ c ∈ cs, c.Blind)
    (either : ∀ c ∈ cs, ∀ s, c.Quiet s ∨ c.Draws s) (twin : Twin log log' h h') :
    Alike log log' h h' (h.tryAll cs) (h'.tryAll cs) ∨
      (Draws cs.length h (h.tryAll cs).2 ∧ Draws cs.length h' (h'.tryAll cs).2 ∧
        ∃ c ∈ cs, ∃ s, c.Draws s) := by
  induction cs generalizing h h' with
  | nil => exact .inl ⟨rfl, twin, rfl, rfl⟩
  | cons c cs ih =>
    obtain ⟨blind, blinds⟩ := List.forall_mem_cons.1 blind
    obtain ⟨first, rest⟩ := List.forall_mem_cons.1 either
    obtain alike | ⟨draws, draws', drawing⟩ := attempt_fork blind first twin
    · -- The trials went alike, so either both were the last or none was.
      obtain ⟨failed, tried⟩ | ⟨ended, tried⟩ := tryAll_cons h c cs
      · obtain ⟨-, tried'⟩ | ⟨ended', -⟩ := tryAll_cons h' c cs
        · rw [tried, tried']
          obtain next | ⟨draws, draws', c', member, drawing⟩ := ih blinds rest alike.twin
          · exact .inl ⟨next.result, next.twin, next.kept.trans alike.kept,
              next.kept'.trans alike.kept'⟩
          · exact .inr ⟨draws.of_kept alike.kept, draws'.of_kept alike.kept', c',
              List.mem_cons_of_mem c member, drawing⟩
        · exact absurd (alike.result.trans failed) ended'
      · obtain ⟨failed', -⟩ | ⟨-, tried'⟩ := tryAll_cons h' c cs
        · exact absurd (alike.result.symm.trans failed') ended
        · rw [tried, tried']
          exact .inl alike
    · exact .inr ⟨tryAll_draws blinds rest draws, tryAll_draws blinds rest draws', c,
        List.mem_cons_self, drawing⟩

end Host

end Pursuit.Chase
