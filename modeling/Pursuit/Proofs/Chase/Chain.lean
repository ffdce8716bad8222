import Pursuit.Proofs.Chase.Turns

/-! The trees as plain chains of decisions, without nodes. Each decision looks at the scene that the
ones before it have left: a deed that fails takes nothing back and the next decision follows, one
that is done ends the chain. -/
namespace Pursuit.Chase

open Pursuit.Arena Pursuit.Behavior

/-- Carries out a deed and ends there, or, if it fails, says so and goes on. -/
def Host.doElse (h : Host) (name : String) (d : Deed) (next : Host → Exit Status × Host) :
    Exit Status × Host :=
  match d with
  | .done s events => (.returned .success, h.after s events)
  | .failed s events fault => next (record (.actionFailed name fault) (h.after s events))
  | .broken s events => (.unwound, { h.after s events with spoiled := true })

/-- The end of a chain on which nothing was done. -/
def Host.giveUp (h : Host) : Exit Status × Host := (.returned .failure, h)

namespace Cat

def walkRound (h : Host) : Exit Status × Host := h.doElse "patrol" (patrol h.scene) Host.giveUp

def hunting (s : Scene) : Scene :=
  { s with cat := { s.cat with
      lastKnown := some s.mouse.nav.position
      nav := s.cat.nav.moveAt s.cat.chaseSpeed
      mode := .chasing } }

def chain (h : Host) : Exit Status × Host :=
  let s := h.scene
  let mouse := s.mouse.nav.position
  if withinReach s.cat.nav.position mouse s.cat.attackRange then
    (.returned .success, h.after (caught s)
      (s.cat.mode.change .caught ++ if s.mouseCaught then [] else [.mouseCaught mouse]))
  else if s.cat.sight.sees s.cat.nav.position s.cat.nav.forward mouse s.world then
    let told := s.cat.mode.change .chasing
    if s.world.contains mouse then
      (.returned .success, h.after { hunting s with cat.nav.destination := some mouse } told)
    else
      let refusal : ActionFault := .navigation mouse "outside world bounds"
      walkRound (record (.actionFailed "chase_mouse" refusal) (h.after (hunting s) told))
  else walkRound h

end Cat

namespace Mouse

def stroll (h : Host) : Exit Status × Host := h.doElse "wander" (wander h.scene) Host.giveUp

def pick (h : Host) : Exit Status × Host :=
  if (h.scene.world.nearestVisible? h.scene.mouse.nav.position).isSome then
    h.doElse "pick_cheese_target" (pickCheeseTarget h.scene) stroll
  else stroll h

def approach (h : Host) : Exit Status × Host :=
  if (targeted h.scene).any (!·.collected) then
    h.doElse "approach_cheese" (approachCheese h.scene) pick
  else pick h

def collect (h : Host) : Exit Status × Host :=
  let m := h.scene.mouse
  if (targeted h.scene).any fun c =>
      !c.collected && withinReach m.nav.position c.position m.nav.stoppingDistance then
    h.doElse "collect_cheese" (collectCheese h.scene) approach
  else approach h

def escape (h : Host) : Exit Status × Host :=
  let m := h.scene.mouse
  if withinReach m.nav.position h.scene.cat.nav.position m.safeDistance then
    h.doElse "escape_from_cat" (escapeFromCat h.scene) collect
  else collect h

def chain (h : Host) : Exit Status × Host := if h.scene.mouseCaught then h.giveUp else escape h

end Mouse

/-! ## Trials of courses -/

section Trials

variable {h : Host} {name : String} {deed : Scene → Deed} {cs : List Course}

theorem tryAll_of_carry (d : Deed) (next : Host → Exit Status × Host)
    (rest : ∀ h : Host, h.tryAll cs = next h) :
    (match h.carry name d with
      | (.returned .failure, h) => h.tryAll cs
      | stop => stop) = h.doElse name d next := by
  cases d with
  | done s events => rfl
  | failed s events fault => exact rest _
  | broken s events => rfl

theorem tryAll_unguarded (next : Host → Exit Status × Host)
    (rest : ∀ h : Host, h.tryAll cs = next h) :
    h.tryAll (⟨none, name, deed⟩ :: cs) = h.doElse name (deed h.scene) next :=
  tryAll_of_carry _ next rest

/-- A guard that notes nothing is the condition of an `if`. -/
theorem tryAll_guarded {label : String} {check : Scene → Bool × Scene}
    (next : Host → Exit Status × Host) (rest : ∀ h : Host, h.tryAll cs = next h)
    (silent : (check h.scene).2 = h.scene) :
    h.tryAll (⟨some (label, check), name, deed⟩ :: cs) =
      if (check h.scene).1 then h.doElse name (deed h.scene) next else next h := by
  obtain ⟨isOpen, s, checked⟩ : ∃ isOpen s, check h.scene = (isOpen, s) := ⟨_, _, rfl⟩
  rw [checked] at silent
  obtain rfl : s = h.scene := silent
  rw [Host.tryAll, Host.attempt, Course.check]
  dsimp only
  rw [checked]
  cases isOpen with
  | false => exact rest h
  | true => exact tryAll_of_carry _ next rest

end Trials

/-! ## The trees -/

theorem Host.tryAll_nil (h : Host) : h.tryAll [] = h.giveUp := rfl

namespace Cat

theorem tryAll_patrol (h : Host) : h.tryAll [⟨none, "patrol", patrol⟩] = walkRound h :=
  tryAll_unguarded _ Host.tryAll_nil

theorem chaseMouse_eq {s : Scene} (told : s.cat.lastKnown = some s.mouse.nav.position) :
    chaseMouse s =
      if s.world.contains s.mouse.nav.position then
        .done { hunting s with cat.nav.destination := some s.mouse.nav.position }
          (s.cat.mode.change .chasing)
      else
        .failed (hunting s) (s.cat.mode.change .chasing)
          (.navigation s.mouse.nav.position "outside world bounds") := by
  rw [chaseMouse, told]
  simp only [setMode_eq, send, Navigator.headFor]
  by_cases inside : s.world.contains s.mouse.nav.position
  · simp only [inside, if_true, hunting, ← told]
  · simp only [inside, hunting, ← told]
    rfl

/-- The second course notes where the mouse is before it tries its deed. -/
theorem tryAll_chase (h : Host) :
    h.tryAll [⟨some ("mouse_spotted", mouseSpotted), "chase_mouse", chaseMouse⟩,
      ⟨none, "patrol", patrol⟩] =
    (if h.scene.cat.sight.sees h.scene.cat.nav.position h.scene.cat.nav.forward
        h.scene.mouse.nav.position h.scene.world then
      if h.scene.world.contains h.scene.mouse.nav.position then
        (.returned .success, h.after
          { hunting h.scene with cat.nav.destination := some h.scene.mouse.nav.position }
          (h.scene.cat.mode.change .chasing))
      else
        walkRound (record (.actionFailed "chase_mouse"
            (.navigation h.scene.mouse.nav.position "outside world bounds"))
          (h.after (hunting h.scene) (h.scene.cat.mode.change .chasing)))
    else walkRound h) := by
  rw [Host.tryAll, Host.attempt, Course.check]
  dsimp only
  rw [mouseSpotted]
  by_cases seen : h.scene.cat.sight.sees h.scene.cat.nav.position h.scene.cat.nav.forward
    h.scene.mouse.nav.position h.scene.world
  · simp only [seen, if_true]
    refine Eq.trans (tryAll_of_carry _ walkRound tryAll_patrol) ?_
    rw [chaseMouse_eq rfl]
    by_cases inside : h.scene.world.contains h.scene.mouse.nav.position
    · simp only [inside, if_true]
      rfl
    · simp only [inside]
      rfl
  · simp only [seen, Bool.false_eq_true, if_false]
    exact tryAll_patrol h

theorem tryAll_courses (h : Host) : h.tryAll courses = chain h := by
  have first : h.tryAll courses =
      if withinReach h.scene.cat.nav.position h.scene.mouse.nav.position h.scene.cat.attackRange
      then h.doElse "catch_mouse" (catchMouse h.scene) _ else _ :=
    tryAll_guarded _ tryAll_chase rfl
  rw [first, catchMouse_eq]
  rfl

end Cat

namespace Mouse

theorem tryAll_wander (h : Host) : h.tryAll [⟨none, "wander", wander⟩] = stroll h :=
  tryAll_unguarded _ Host.tryAll_nil

theorem tryAll_pick (h : Host) :
    h.tryAll [⟨some ("cheese_in_sight", cheeseInSight), "pick_cheese_target", pickCheeseTarget⟩,
      ⟨none, "wander", wander⟩] = pick h :=
  tryAll_guarded _ tryAll_wander rfl

theorem tryAll_approach (h : Host) :
    h.tryAll [⟨some ("has_cheese_target", hasCheeseTarget), "approach_cheese", approachCheese⟩,
      ⟨some ("cheese_in_sight", cheeseInSight), "pick_cheese_target", pickCheeseTarget⟩,
      ⟨none, "wander", wander⟩] = approach h :=
  tryAll_guarded _ tryAll_pick rfl

theorem cheeseInReach_eq (s : Scene) :
    cheeseInReach s = ((targeted s).any fun c => !c.collected &&
      withinReach s.mouse.nav.position c.position s.mouse.nav.stoppingDistance, s) := by
  rw [cheeseInReach]
  cases targeted s <;> rfl

theorem tryAll_collect (h : Host) :
    h.tryAll [⟨some ("cheese_in_reach", cheeseInReach), "collect_cheese", collectCheese⟩,
      ⟨some ("has_cheese_target", hasCheeseTarget), "approach_cheese", approachCheese⟩,
      ⟨some ("cheese_in_sight", cheeseInSight), "pick_cheese_target", pickCheeseTarget⟩,
      ⟨none, "wander", wander⟩] = collect h := by
  refine (tryAll_guarded _ tryAll_approach ?_).trans ?_
  · rw [cheeseInReach_eq]
  · rw [cheeseInReach_eq]
    rfl

theorem tryAll_courses (h : Host) : h.tryAll courses = escape h :=
  tryAll_guarded _ tryAll_collect rfl

end Mouse

theorem Cat.tick_chain {h : Host} (sound : h.spoiled = false) :
    Tree.tick { root := tree } h = ((chain h).1, { root := tree }, (chain h).2) := by
  rw [tick_tree sound, tryAll_courses]

theorem Mouse.tick_chain {h : Host} (sound : h.spoiled = false) :
    Tree.tick { root := tree } h = ((chain h).1, { root := tree }, (chain h).2) := by
  rw [chain]
  cases free : h.scene.mouseCaught with
  | true => exact tick_tree_of_caught sound free
  | false => rw [tick_tree_of_free sound free, tryAll_courses]; rfl

/-- From any scene, whether a run can lead to it or not, a tick of either tree is its chain: the
same end, the same scene and the same events, and no flag stays raised. -/
theorem tick_eq_chain (h : Host) (sound : h.spoiled = false) :
    (∀ t : Behavior.Tree Host, t.root = Cat.tree → t.raised = [] →
      t.tick h = ((Cat.chain h).1, t, (Cat.chain h).2)) ∧
    (∀ t : Behavior.Tree Host, t.root = Mouse.tree → t.raised = [] →
      t.tick h = ((Mouse.chain h).1, t, (Mouse.chain h).2)) := by
  refine ⟨fun t root fresh => ?_, fun t root fresh => ?_⟩
  · obtain ⟨_, _⟩ := t
    subst root fresh
    exact Cat.tick_chain sound
  · obtain ⟨_, _⟩ := t
    subst root fresh
    exact Mouse.tick_chain sound

def astray : Host :=
  { scene := { Scene.ofSettings {} with mouse.nav.position := .ofInts 25 10 } }

/-- The chase is refused, yet its note of where the mouse is stays; the cat succeeds with its round,
while the mouse, with neither the cat nor a cheese in reach, picks one. -/
theorem tick_eq_chain_astray : astray.spoiled = false ∧
    Tree.tick { root := Cat.tree } astray =
      ((Cat.chain astray).1, { root := Cat.tree }, (Cat.chain astray).2) ∧
    (Cat.chain astray).1 = .returned .success ∧
    (Cat.chain astray).2.scene.cat.mode = .patrolling ∧
    (Cat.chain astray).2.scene.cat.lastKnown.isSome ∧
    Tree.tick { root := Mouse.tree } astray =
      ((Mouse.chain astray).1, { root := Mouse.tree }, (Mouse.chain astray).2) ∧
    (Mouse.chain astray).2.scene.mouse.target = some 1 := by
  obtain ⟨cat, mouse⟩ := tick_eq_chain astray rfl
  have hunt : (Cat.chain astray).1 = .returned .success ∧
      (Cat.chain astray).2.scene.cat.mode = .patrolling ∧
      (Cat.chain astray).2.scene.cat.lastKnown.isSome := by decide +kernel
  have picked : (Mouse.chain astray).2.scene.mouse.target = some 1 := by decide +kernel
  exact ⟨rfl, cat _ rfl rfl, hunt.1, hunt.2.1, hunt.2.2, mouse _ rfl rfl, picked⟩

end Pursuit.Chase
