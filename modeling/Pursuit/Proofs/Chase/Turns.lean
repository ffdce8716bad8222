import Mathlib.Logic.Relation
import Pursuit.Proofs.Chase.Courses
import Pursuit.Proofs.Chase.Deeds

/-! What one tick of a tree can do. It is a run of small acts, which for the cat may end in the
catch and for the mouse in the taking of a cheese; a caught mouse does not act. An invariant of the
chase is one that the acts and these two ends keep, so none looks into a deed again. -/
namespace Pursuit.Chase

open Pursuit.Arena Pursuit.Behavior
open Relation (ReflTransGen)

structure Host.Sound (h : Host) : Prop where
  unspoiled : h.spoiled = false
  room : -h.scene.world.halfExtent ≤ h.scene.world.halfExtent
  placed : h.scene.cat.waypoints ≠ [] → h.scene.cat.waypointIndex < h.scene.cat.waypoints.length

/-- Some acts, and then perhaps a last one of another kind. -/
def Turn (Act Last : Host → Host → Prop) (h h' : Host) : Prop :=
  ∃ h₁, ReflTransGen Act h h₁ ∧ (h' = h₁ ∨ Last h₁ h')

section Turn

variable {Act Last : Host → Host → Prop} {P : Host → Prop} {h h' : Host}

theorem acts_keep (each : ∀ {h h'}, Act h h' → P h → P h') (acts : ReflTransGen Act h h')
    (start : P h) : P h' := by
  induction acts with
  | refl => exact start
  | tail _ act ih => exact each act ih

theorem Turn.of_acts (acts : ReflTransGen Act h h') : Turn Act Last h h' := ⟨h', acts, .inl rfl⟩

theorem Turn.of_last (last : Last h h') : Turn Act Last h h' := ⟨h, .refl, .inr last⟩

theorem Turn.keeps (each : ∀ {h h'}, Act h h' → P h → P h')
    (finish : ∀ {h h'}, Last h h' → P h → P h') (turn : Turn Act Last h h')
    (start : P h) : P h' := by
  obtain ⟨h₁, acts, rfl | last⟩ := turn
  · exact acts_keep each acts start
  · exact finish last (acts_keep each acts start)

/-- Whether the course fails or not, trying it comes to acts and at most one last act. -/
def Course.Takes (Fit : Host → Prop) (Act Last : Host → Host → Prop) (c : Course) : Prop :=
  ∀ h, Fit h → (∃ h', h.attempt c = (.returned .failure, h') ∧ ReflTransGen Act h h') ∨
    ∃ h', h.attempt c = (.returned .success, h') ∧ Turn Act Last h h'

theorem Course.takes_of {Fit : Host → Prop} {c : Course}
    (shut : ∀ h s, Fit h → c.check h.scene = (false, s) → s = h.scene)
    (passed : ∀ h s, Fit h → c.check h.scene = (true, s) → (c.deed s).Ends
      (fun s' events => Turn Act Last h (h.after s' events))
      fun s' events fault =>
        ReflTransGen Act h (record (.actionFailed c.name fault) (h.after s' events))) :
    c.Takes Fit Act Last := by
  intro h fit
  rw [Host.attempt]
  obtain ⟨isOpen, s, checked⟩ : ∃ isOpen s, c.check h.scene = (isOpen, s) := ⟨_, _, rfl⟩
  rw [checked]
  cases isOpen with
  | false =>
    obtain rfl := shut h s fit checked
    exact .inl ⟨h, rfl, .refl⟩
  | true =>
    have ends := passed h s fit checked
    dsimp only
    cases deed : c.deed s with
    | done s' events => rw [deed] at ends; exact .inr ⟨_, rfl, ends⟩
    | failed s' events fault => rw [deed] at ends; exact .inl ⟨_, rfl, ends⟩
    | broken s' events => rw [deed] at ends; exact ends.elim

theorem tryAll_turn {Fit : Host → Prop} {cs : List Course}
    (takes : ∀ c ∈ cs, c.Takes Fit Act Last) (kept : ∀ {h h'}, Act h h' → Fit h → Fit h')
    (fit : Fit h) : ∃ status h', h.tryAll cs = (.returned status, h') ∧ Turn Act Last h h' := by
  -- A course that failed has only acted, and so leaves a host that still fits.
  have each : ∀ c ∈ cs, ∀ k, ReflTransGen Act h k →
      (∃ k', k.attempt c = (.returned .failure, k') ∧ ReflTransGen Act h k') ∨
        ∃ k', k.attempt c = (.returned .success, k') ∧ Turn Act Last h k' := by
    intro c member k acts
    obtain ⟨k', tried, more⟩ | ⟨k', tried, k₁, more, last⟩ :=
      takes c member k (acts_keep kept acts fit)
    · exact .inl ⟨k', tried, acts.trans more⟩
    · exact .inr ⟨k', tried, k₁, acts.trans more, last⟩
  obtain ⟨h', tried, acts⟩ | ⟨h', tried, turn⟩ := Host.tryAll_of each .refl
  · exact ⟨_, h', tried, .of_acts acts⟩
  · exact ⟨_, h', tried, turn⟩

end Turn

/-! ## The cat -/

namespace Cat

inductive Act : Host → Host → Prop
  | spot (h : Host) : Act h { h with
      scene := { h.scene with cat.lastKnown := some h.scene.mouse.nav.position } }
  | order {h : Host} {mode : CatMode} {s : Scene} (loose : mode ≠ .caught)
      (ordered : Ordered h.scene mode s) : Act h (h.after s (h.scene.cat.mode.change mode))
  | fail (h : Host) (name : String) {fault : ActionFault} (expected : fault.Expected) :
      Act h (record (.actionFailed name fault) h)

def caught (s : Scene) : Scene :=
  { s with
    cat := { s.cat with nav := s.cat.nav.stop, mode := .caught }
    mouse := if s.mouseCaught then s.mouse else { s.mouse with nav := s.mouse.nav.stop }
    mouseCaught := true }

def Catches (h h' : Host) : Prop :=
  withinReach h.scene.cat.nav.position h.scene.mouse.nav.position h.scene.cat.attackRange ∧
    h' = h.after (caught h.scene) (h.scene.cat.mode.change .caught ++
      if h.scene.mouseCaught then [] else [.mouseCaught h.scene.mouse.nav.position])

theorem catchMouse_eq (s : Scene) : catchMouse s = .done (caught s) (s.cat.mode.change .caught ++
    if s.mouseCaught then [] else [.mouseCaught s.mouse.nav.position]) := by
  simp only [catchMouse, setMode_eq, caught]
  cases free : s.mouseCaught with
  | true => simp
  | false => simp [Navigator.stop]

theorem Act.sound {h h' : Host} (act : Act h h') (sound : h.Sound) : h'.Sound := by
  cases act with
  | spot => exact ⟨sound.unspoiled, sound.room, sound.placed⟩
  | fail => exact ⟨sound.unspoiled, sound.room, sound.placed⟩
  | order _ ordered =>
    obtain ⟨destination, speed, index, turned, rfl⟩ := ordered
    refine ⟨sound.unspoiled, sound.room, fun round => ?_⟩
    obtain rfl | ⟨-, rfl⟩ := turned
    · exact sound.placed round
    · exact Nat.mod_lt _ (List.length_pos_iff.2 round)

theorem ends_of_orders {h : Host} {s : Scene} {mode : CatMode} {d : Deed} (name : String)
    (start : ReflTransGen Act h { h with scene := s })
    (orders : d.Orders (Ordered s mode) (s.cat.mode.change mode)) (loose : mode ≠ .caught) :
    d.Ends (fun s' events => Turn Act Catches h (h.after s' events))
      fun s' events fault =>
        ReflTransGen Act h (record (.actionFailed name fault) (h.after s' events)) := by
  cases d with
  | done s' events =>
    obtain ⟨ordered, rfl⟩ := orders
    exact .of_acts (start.tail (.order loose ordered))
  | failed s' events fault =>
    obtain ⟨ordered, rfl, refused⟩ := orders
    exact (start.tail (.order loose ordered)).tail (.fail _ _ (.inl refused))
  | broken s' events => exact orders

theorem courses_take : ∀ c ∈ courses, c.Takes Host.Sound Act Catches := by
  have catching : (⟨some ("mouse_in_attack_range", mouseInAttackRange), "catch_mouse",
      catchMouse⟩ : Course).Takes Host.Sound Act Catches := by
    refine Course.takes_of (fun h s _ checked => ?_) fun h s _ checked => ?_
    · exact (congrArg Prod.snd checked).symm
    · obtain ⟨reach, rfl⟩ := Prod.mk.inj checked
      show (catchMouse h.scene).Ends _ _
      rw [catchMouse_eq]
      exact Turn.of_last ⟨reach, rfl⟩
  have chasing : (⟨some ("mouse_spotted", mouseSpotted), "chase_mouse",
      chaseMouse⟩ : Course).Takes Host.Sound Act Catches := by
    refine Course.takes_of (fun h s _ checked => ?_) fun h s _ checked => ?_
    · exact mouseSpotted_eq_false checked
    · obtain rfl := mouseSpotted_eq_true checked
      exact ends_of_orders _ (.single (.spot h)) (chaseMouse_orders rfl) nofun
  have patrolling : (⟨none, "patrol", patrol⟩ : Course).Takes Host.Sound Act Catches := by
    refine Course.takes_of (fun h s _ checked => ?_) fun h s sound checked => ?_
    · cases checked
    · -- A cat without waypoints fails here; otherwise the index is one of the round.
      obtain rfl := (Prod.mk.inj checked).2
      by_cases round : h.scene.cat.waypoints = []
      · have idle : patrol h.scene = .failed h.scene [] (.noTarget "cat has no waypoints") :=
          if_pos (List.isEmpty_iff.2 round)
        show (patrol h.scene).Ends _ _
        rw [idle]
        exact .single (.fail h _ (.inr rfl))
      · exact ends_of_orders _ .refl (patrol_orders round (sound.placed round)) nofun
  intro c member
  simp only [courses, List.mem_cons, List.not_mem_nil, or_false] at member
  obtain rfl | rfl | rfl := member
  · exact catching
  · exact chasing
  · exact patrolling

theorem Catches.sound {h h' : Host} (catches : Catches h h') (sound : h.Sound) : h'.Sound := by
  obtain ⟨-, rfl⟩ := catches
  exact ⟨sound.unspoiled, sound.room, sound.placed⟩

theorem tick_turn {h : Host} (sound : h.Sound) : ∃ status h',
    Tree.tick { root := tree } h = (.returned status, { root := tree }, h') ∧
      Turn Act Catches h h' := by
  obtain ⟨status, h', tried, turn⟩ := tryAll_turn courses_take Act.sound sound
  exact ⟨status, h', by rw [tick_tree sound.unspoiled, tried], turn⟩

end Cat

/-! ## The mouse -/

namespace Mouse

inductive Act : Host → Host → Prop
  | order {h : Host} {mode : MouseMode} {s : Scene} (free : h.scene.mouseCaught = false)
      (ordered : Ordered h.scene mode s) : Act h (h.after s (h.scene.mouse.mode.change mode))
  | pick {h : Host} {s : Scene} {id : Nat} {c : Cheese} (free : h.scene.mouseCaught = false)
      (here : h.scene.world.cheeses[id]? = some c) (there : c.collected = false)
      (ordered : Ordered { h.scene with mouse.target := some id } .seeking s) :
      Act h (h.after s (.cheeseSpotted id :: h.scene.mouse.mode.change .seeking))
  | fail {h : Host} (free : h.scene.mouseCaught = false) (name : String) {fault : ActionFault}
      (refused : fault.Refusal) : Act h (record (.actionFailed name fault) h)

def Eats (h h' : Host) : Prop :=
  h.scene.mouseCaught = false ∧ ∃ id c, h.scene.mouse.target = some id ∧
    h.scene.world.cheeses[id]? = some c ∧ c.collected = false ∧
    h' = record (.cheeseCollected id c.position) { h with scene := fed h.scene id c }

structure Fit (h : Host) : Prop where
  sound : h.Sound
  free : h.scene.mouseCaught = false

theorem Act.sound {h h' : Host} (act : Act h h') (sound : h.Sound) : h'.Sound := by
  cases act with
  | order _ ordered =>
    obtain ⟨destination, speed, generator, rfl⟩ := ordered
    exact ⟨sound.unspoiled, sound.room, sound.placed⟩
  | pick _ _ _ ordered =>
    obtain ⟨destination, speed, generator, rfl⟩ := ordered
    exact ⟨sound.unspoiled, sound.room, sound.placed⟩
  | fail => exact ⟨sound.unspoiled, sound.room, sound.placed⟩

theorem Act.free {h h' : Host} (act : Act h h') : h'.scene.mouseCaught = false := by
  cases act with
  | order free ordered => obtain ⟨destination, speed, generator, rfl⟩ := ordered; exact free
  | pick free _ _ ordered => obtain ⟨destination, speed, generator, rfl⟩ := ordered; exact free
  | fail free => exact free

theorem Eats.sound {h h' : Host} (eats : Eats h h') (sound : h.Sound) : h'.Sound := by
  obtain ⟨-, id, c, -, -, -, rfl⟩ := eats
  exact ⟨sound.unspoiled, sound.room, sound.placed⟩

/-- A deed that gives orders ends in the order and, if it was refused, the failure. -/
theorem ends_of_orders {h : Host} {after : Scene → Prop} {events : List Event} {d : Deed}
    (name : String)
    (act : ∀ s', after s' → Act h (h.after s' events)) (orders : d.Orders after events) :
    d.Ends (fun s' events => Turn Act Eats h (h.after s' events))
      fun s' events fault =>
        ReflTransGen Act h (record (.actionFailed name fault) (h.after s' events)) := by
  cases d with
  | done s' events =>
    obtain ⟨ordered, rfl⟩ := orders
    exact .of_acts (.single (act s' ordered))
  | failed s' events fault =>
    obtain ⟨ordered, rfl, refused⟩ := orders
    exact (ReflTransGen.single (act s' ordered)).tail (.fail (act s' ordered).free name refused)
  | broken s' events => exact orders

theorem courses_take : ∀ c ∈ courses, c.Takes Fit Act Eats := by
  have escaping : (⟨some ("cat_nearby", catNearby), "escape_from_cat",
      escapeFromCat⟩ : Course).Takes Fit Act Eats := by
    refine Course.takes_of (fun h s _ checked => ?_) fun h s fit checked => ?_
    · exact (congrArg Prod.snd checked).symm
    · obtain rfl : h.scene = s := congrArg Prod.snd checked
      exact ends_of_orders _ (fun _ => .order fit.free) (escapeFromCat_orders fit.sound.room)
  have collecting : (⟨some ("cheese_in_reach", cheeseInReach), "collect_cheese",
      collectCheese⟩ : Course).Takes Fit Act Eats := by
    refine Course.takes_of (fun h s _ checked => ?_) fun h s fit checked => ?_
    · exact cheeseInReach_eq_false checked
    · -- The guard has seen the target lie there, so taking it cannot fail.
      obtain ⟨rfl, id, c, target, here, there⟩ := cheeseInReach_eq_true checked
      show (collectCheese h.scene).Ends _ _
      rw [collectCheese_eq target here there]
      exact Turn.of_last ⟨fit.free, id, c, target, here, there, rfl⟩
  have approaching : (⟨some ("has_cheese_target", hasCheeseTarget), "approach_cheese",
      approachCheese⟩ : Course).Takes Fit Act Eats := by
    refine Course.takes_of (fun h s _ checked => ?_) fun h s fit checked => ?_
    · exact (congrArg Prod.snd checked).symm
    · obtain ⟨rfl, c, found⟩ := hasCheeseTarget_eq_true checked
      exact ends_of_orders _ (fun _ => .order fit.free) (approachCheese_orders found)
  have picking : (⟨some ("cheese_in_sight", cheeseInSight), "pick_cheese_target",
      pickCheeseTarget⟩ : Course).Takes Fit Act Eats := by
    refine Course.takes_of (fun h s _ checked => ?_) fun h s fit checked => ?_
    · exact (congrArg Prod.snd checked).symm
    · obtain ⟨rfl, c, id, found⟩ := cheeseInSight_eq_true checked
      obtain ⟨here, there⟩ := World.nearestVisible?_eq_some found
      exact ends_of_orders _ (fun _ => .pick fit.free here there)
        (pickCheeseTarget_orders found)
  have wandering : (⟨none, "wander", wander⟩ : Course).Takes Fit Act Eats := by
    refine Course.takes_of (fun h s _ checked => ?_) fun h s fit checked => ?_
    · cases checked
    · obtain rfl := (Prod.mk.inj checked).2
      exact ends_of_orders _ (fun _ => .order fit.free) (wander_orders fit.sound.room)
  intro c member
  simp only [courses, List.mem_cons, List.not_mem_nil, or_false] at member
  obtain rfl | rfl | rfl | rfl | rfl := member
  · exact escaping
  · exact collecting
  · exact approaching
  · exact picking
  · exact wandering

theorem tick_turn {h : Host} (sound : h.Sound) : ∃ status h',
    Tree.tick { root := tree } h = (.returned status, { root := tree }, h') ∧
      Turn Act Eats h h' := by
  cases free : h.scene.mouseCaught with
  | true => exact ⟨.failure, h, tick_tree_of_caught sound.unspoiled free, .of_acts .refl⟩
  | false =>
    obtain ⟨status, h', tried, turn⟩ :=
      tryAll_turn courses_take (fun act fit => ⟨act.sound fit.sound, act.free⟩) ⟨sound, free⟩
    exact ⟨status, h', by rw [tick_tree_of_free sound.unspoiled free, tried], turn⟩

end Mouse

end Pursuit.Chase
