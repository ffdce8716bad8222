import Pursuit.Proofs.Chase.Choice
import Pursuit.Proofs.Chase.Spoiled
import Pursuit.Proofs.Chase.Twins

/-! When the mouse draws another place to go to. Two of its deeds draw, and only where they find it
in another mode or at its destination, or wandering without one. So a mouse that keeps its mode and
has not arrived keeps its destination too, and leaves the generator alone. -/
namespace Pursuit.Chase

open Pursuit.Arena Pursuit.Behavior Pursuit.Random Pursuit.Settings

/-! ## What a tick carries out -/

namespace Host

/-- The deeds that are carried out when courses are tried in turn, each with the scene that it
finds. -/
def carried (h : Host) : List Course → List (String × Scene)
  | [] => []
  | c :: cs =>
    (if (c.check h.scene).1 then [(c.name, (c.check h.scene).2)] else []) ++
      match h.attempt c with
      | (.returned .failure, h) => h.carried cs
      | _ => []

theorem names_carried (h : Host) (cs : List Course) : (h.carried cs).map Prod.fst = h.tried cs := by
  induction cs generalizing h with
  | nil => rfl
  | cons c cs ih =>
    rw [carried, tried, List.map_append]
    congr 1
    · split <;> rfl
    · obtain ⟨exit, k⟩ := h.attempt c
      cases exit with
      | returned status =>
        cases status with
        | failure => exact ih k
        | success | running => rfl
      | unwound | tooDeep => rfl

variable {h : Host} {c : Course} {cs : List Course}

/-- The first of some courses, whose guard notes nothing: it is shut, or its deed ends the trials,
or fails and the rest is tried. -/
theorem trial_cases (silent : (c.check h.scene).2 = h.scene) :
    (h.tryAll (c :: cs) = h.tryAll cs ∧ h.carried (c :: cs) = h.carried cs) ∨
    ((h.tryAll (c :: cs)).2.scene = (c.deed h.scene).scene ∧
      h.carried (c :: cs) = [(c.name, h.scene)]) ∨
    ∃ k : Host, k.scene = (c.deed h.scene).scene ∧ h.tryAll (c :: cs) = k.tryAll cs ∧
      h.carried (c :: cs) = (c.name, h.scene) :: k.carried cs := by
  by_cases passed : (c.check h.scene).1
  · have tried := attempt_of_open (Prod.ext passed silent)
    rw [tryAll, carried, if_pos passed, silent, tried]
    cases c.deed h.scene with
    | done s events | broken s events => exact .inr (.inl ⟨rfl, rfl⟩)
    | failed s events fault => exact .inr (.inr ⟨record _ (h.after s events), rfl, rfl, rfl⟩)
  · have tried := attempt_of_shut (Prod.ext (eq_false_of_ne_true passed) silent)
    rw [tryAll, carried, if_neg passed, tried]
    exact .inl ⟨rfl, rfl⟩

theorem length_carried_le {cs : List Course} (silent : ∀ c ∈ cs, ∀ s, (c.check s).2 = s) :
    (h.carried cs).length ≤ cs.length := by
  induction cs generalizing h with
  | nil => simp [carried]
  | cons c cs ih =>
    obtain ⟨first, rest⟩ := List.forall_mem_cons.1 silent
    rw [List.length_cons]
    obtain ⟨-, shut⟩ | ⟨-, ended⟩ | ⟨k, -, -, failed⟩ := trial_cases (first h.scene)
    · rw [shut]
      exact (ih rest).trans (Nat.le_succ _)
    · simp [ended]
    · have fewer := ih (h := k) rest
      simpa [failed] using fewer

end Host

namespace Mouse

def deeds (h : Host) : List (String × Scene) :=
  if h.spoiled || h.scene.mouseCaught then [] else h.carried courses

/-- A deed that finds the mouse with no place to go to in the mode it takes up: in another mode, at
its destination, or, to wander, without one. -/
def Redraws (d : String × Scene) : Prop :=
  d.1 = "escape_from_cat" ∧ (d.2.mouse.mode ≠ .fleeing ∨ d.2.mouse.nav.hasArrived) ∨
    d.1 = "wander" ∧
      (d.2.mouse.mode ≠ .wandering ∨ d.2.mouse.nav.destination.isNone ∨ d.2.mouse.nav.hasArrived)

instance : DecidablePred Redraws := fun _ => inferInstanceAs (Decidable (_ ∧ _ ∨ _ ∧ _))

variable {h : Host} {c : Course} {cs : List Course} {s : Scene}

theorem names_deeds (sound : h.spoiled = false) :
    (deeds h).map Prod.fst = Tree.executed { root := tree } h := by
  rw [deeds, executed_eq sound, sound]
  cases h.scene.mouseCaught with
  | true => rfl
  | false => exact Host.names_carried h courses

/-! ## Draws -/

theorem mode_send (s : Scene) (m : Mouse) (events : List Event) (p : Point) :
    (send s m events p).scene.mouse.mode = m.mode := by
  rw [send]
  obtain taken | refused := headFor_cases m.nav p s.world
  · rw [taken]; rfl
  · rw [refused]; rfl

theorem mode_sendAnywhere (s : Scene) (m : Mouse) (events : List Event) (center : Point)
    (radius : Float32) :
    (sendAnywhere s m events center radius).scene.mouse.mode = m.mode := by
  rw [sendAnywhere]
  dsimp only
  split
  · rfl
  · exact mode_send ..

theorem generator_deed (member : c ∈ courses) (s : Scene) :
    (c.deed s).scene.generator = s.generator.after (if Redraws (c.name, s) then 2 else 0) := by
  have other {name : String} (quiet : (c.deed s).scene.generator = s.generator)
      (same : c.name = name) (escape : name ≠ "escape_from_cat") (wander : name ≠ "wander") :
      (c.deed s).scene.generator = s.generator.after (if Redraws (c.name, s) then 2 else 0) := by
    rw [if_neg (by simp [Redraws, same, escape, wander]), quiet]
    rfl
  simp only [courses, List.mem_cons, List.not_mem_nil, or_false] at member
  obtain rfl | rfl | rfl | rfl | rfl := member
  · have same : Redraws ("escape_from_cat", s) ↔
        s.mouse.mode ≠ .fleeing ∨ (s.mouse.nav.moveAt s.mouse.speed).hasArrived := by
          simp [Redraws]; rfl
    simp only [escapeFromCat, setMode_eq, same]
    split
    · exact sendAnywhere_generator ..
    · rfl
  · exact other (Course.Quiet.keeps (collectCheese_reseed s)) rfl (by decide) (by decide)
  · exact other (Course.Quiet.keeps (approachCheese_reseed s)) rfl (by decide) (by decide)
  · exact other (Course.Quiet.keeps (pickCheeseTarget_reseed s)) rfl (by decide) (by decide)
  · have same : Redraws ("wander", s) ↔ s.mouse.mode ≠ .wandering ∨
        (s.mouse.nav.moveAt s.mouse.speed).destination.isNone ∨
        (s.mouse.nav.moveAt s.mouse.speed).hasArrived := by simp [Redraws]; rfl
    simp only [wander, setMode_eq, same]
    split
    · exact sendAnywhere_generator ..
    · rfl

theorem generator_tryAll {cs : List Course} (members : ∀ c ∈ cs, c ∈ courses) :
    (h.tryAll cs).2.scene.generator =
      h.scene.generator.after (2 * (h.carried cs).countP (Redraws ·)) := by
  induction cs generalizing h with
  | nil => rfl
  | cons c cs ih =>
    obtain ⟨member, members⟩ := List.forall_mem_cons.1 members
    have drawn := generator_deed member h.scene
    obtain ⟨same, shut⟩ | ⟨left, ended⟩ | ⟨k, left, next, failed⟩ :=
      Host.trial_cases (courses_silent h.scene c member)
    · rw [same, shut]
      exact ih members
    · rw [left, ended, drawn]
      simp
    · rw [next, failed, ih members, left, drawn, ← Generator.after_add, List.countP_cons]
      congr 1
      by_cases draws : Redraws (c.name, h.scene)
      · simp only [draws, if_true, decide_true]
        omega
      · simp [draws]

/-- A tick draws once for each deed that finds no place to go to. -/
theorem generator_tick (h : Host) : (Tree.tick { root := tree } h).2.2.scene.generator =
    h.scene.generator.after (2 * (deeds h).countP (Redraws ·)) := by
  rw [deeds]
  cases spoiled : h.spoiled with
  | true =>
    rw [tick_tree_of_spoiled spoiled]
    rfl
  | false =>
    cases caught : h.scene.mouseCaught with
    | true =>
      rw [tick_tree_of_caught spoiled caught]
      rfl
    | false =>
      rw [tick_tree_of_free spoiled caught]
      exact generator_tryAll fun c member => member

theorem generator_tick_ne_iff (h : Host) :
    (Tree.tick { root := tree } h).2.2.scene.generator ≠ h.scene.generator ↔
      ∃ d ∈ deeds h, Redraws d := by
  have few : (deeds h).length ≤ 5 := by
    rw [deeds]
    split
    · simp
    · exact Host.length_carried_le fun c member s => courses_silent s c member
  have count := List.countP_le_length (p := (Redraws ·)) (l := deeds h)
  have some : 0 < (deeds h).countP (Redraws ·) ↔ ∃ d ∈ deeds h, Redraws d := by
    simp [List.countP_pos_iff]
  rw [generator_tick, ← some]
  constructor
  · intro other
    by_contra none
    rw [Nat.eq_zero_of_not_pos none] at other
    exact other rfl
  · intro some
    have size : 10 < UInt64.size := by decide
    exact Generator.after_ne (by omega) (by omega)

end Mouse

/-! ## A mouse that keeps its mode -/

structure Keeps (s s' : Scene) : Prop where
  destination : s'.mouse.nav.destination = s.mouse.nav.destination
  stoppingDistance : s'.mouse.nav.stoppingDistance = s.mouse.nav.stoppingDistance
  generator : s'.generator = s.generator

theorem Keeps.refl (s : Scene) : Keeps s s := ⟨rfl, rfl, rfl⟩

theorem Keeps.trans {s s' s'' : Scene} (first : Keeps s s') (second : Keeps s' s'') : Keeps s s'' :=
  ⟨second.1.trans first.1, second.2.trans first.2, second.3.trans first.3⟩

/-- The mouse does not wander without a destination, or would count as arrived if it did. -/
def Aimed (mode : MouseMode) (s : Scene) : Prop :=
  mode = .wandering → s.mouse.nav.destination.isSome ∨ .ofBits 0 ≤ s.mouse.nav.stoppingDistance

theorem Keeps.aimed {mode : MouseMode} {s s' : Scene} (keeps : Keeps s s') (aimed : Aimed mode s) :
    Aimed mode s' := by
  rw [Aimed, keeps.destination, keeps.stoppingDistance]
  exact aimed

namespace Mouse

variable {mode : MouseMode} {h : Host} {c : Course} {s : Scene}

structure UnderWay (mode : MouseMode) (s : Scene) : Prop where
  other : mode ≠ .seeking
  away : s.mouse.nav.hasArrived = false
  aimed : Aimed mode s

theorem UnderWay.isSome (under : UnderWay .wandering s) : s.mouse.nav.destination.isSome := by
  obtain some | least := under.aimed rfl
  · exact some
  · have away := under.away
    cases aim : s.mouse.nav.destination with
    | none => simp [Navigator.hasArrived, Navigator.remaining, aim, least] at away
    | some d => rfl

theorem UnderWay.keeps {s' : Scene} (under : UnderWay mode s) (keeps : Keeps s s')
    (stays : s.mouse.nav.Stays s'.mouse.nav) : UnderWay mode s' := by
  have same : s'.mouse.nav.hasArrived = s.mouse.nav.hasArrived := by
    rw [Navigator.hasArrived, Navigator.remaining, keeps.destination,
      keeps.stoppingDistance, stays.1]
    rfl
  exact ⟨under.other, same.trans under.away, keeps.aimed under.aimed⟩

theorem escapeFromCat_keeps (under : UnderWay mode s) (before : s.mouse.mode = mode)
    (after : (escapeFromCat s).scene.mouse.mode = mode) : Keeps s (escapeFromCat s).scene := by
  have fleeing : (escapeFromCat s).scene.mouse.mode = .fleeing := by
    simp only [escapeFromCat, setMode_eq]
    split
    · exact mode_sendAnywhere ..
    · rfl
  obtain rfl : mode = .fleeing := after.symm.trans fleeing
  have away : ¬ (s.mouse.nav.moveAt s.mouse.speed).hasArrived := Bool.eq_false_iff.1 under.away
  simp only [escapeFromCat, setMode_eq, before, away, ne_eq, not_true_eq_false]
  exact ⟨rfl, rfl, rfl⟩

theorem collectCheese_keeps (s : Scene) : Keeps s (collectCheese s).scene := by
  rw [collectCheese]
  split
  · exact .refl s
  · dsimp only
    split <;> exact ⟨rfl, rfl, rfl⟩

theorem approachCheese_keeps (under : UnderWay mode s)
    (after : (approachCheese s).scene.mouse.mode = mode) :
    Keeps s (approachCheese s).scene := by
  rw [approachCheese] at after ⊢
  split at after
  · exact .refl s
  · rw [setMode_eq, mode_send] at after
    exact absurd after.symm under.other

theorem pickCheeseTarget_keeps (under : UnderWay mode s)
    (after : (pickCheeseTarget s).scene.mouse.mode = mode) :
    Keeps s (pickCheeseTarget s).scene := by
  rw [pickCheeseTarget] at after ⊢
  split at after
  · exact .refl s
  · rw [setMode_eq, mode_send] at after
    exact absurd after.symm under.other

theorem wander_keeps (under : UnderWay mode s) (before : s.mouse.mode = mode)
    (after : (wander s).scene.mouse.mode = mode) : Keeps s (wander s).scene := by
  have wandering : (wander s).scene.mouse.mode = .wandering := by
    simp only [wander, setMode_eq]
    split
    · exact mode_sendAnywhere ..
    · rfl
  obtain rfl : mode = .wandering := after.symm.trans wandering
  have aim : (s.mouse.nav.moveAt s.mouse.speed).destination.isNone = false := by
    simpa [Navigator.moveAt] using under.isSome
  have away : ¬ (s.mouse.nav.moveAt s.mouse.speed).hasArrived := Bool.eq_false_iff.1 under.away
  simp only [wander, setMode_eq, before, aim, away, ne_eq, not_true_eq_false, Bool.false_eq_true,
    or_self, if_false]
  exact ⟨rfl, rfl, rfl⟩

theorem deed_keeps (member : c ∈ courses) (under : UnderWay mode s) (before : s.mouse.mode = mode)
    (after : (c.deed s).scene.mouse.mode = mode) : Keeps s (c.deed s).scene := by
  simp only [courses, List.mem_cons, List.not_mem_nil, or_false] at member
  obtain rfl | rfl | rfl | rfl | rfl := member
  · exact escapeFromCat_keeps under before after
  · exact collectCheese_keeps s
  · exact approachCheese_keeps under after
  · exact pickCheeseTarget_keeps under after
  · exact wander_keeps under before after

/-- The mode in which trials find the mouse, if each of their deeds and the end find it in that
mode. -/
theorem mode_of_carried {cs : List Course} (silent : ∀ c ∈ cs, (c.check h.scene).2 = h.scene)
    (during : ∀ d ∈ h.carried cs, d.2.mouse.mode = mode)
    (after : (h.tryAll cs).2.scene.mouse.mode = mode) :
    h.scene.mouse.mode = mode := by
  induction cs with
  | nil => exact after
  | cons c cs ih =>
    obtain ⟨first, rest⟩ := List.forall_mem_cons.1 silent
    obtain ⟨same, shut⟩ | ⟨-, ended⟩ | ⟨k, -, -, failed⟩ := Host.trial_cases first
    · rw [shut] at during
      rw [same] at after
      exact ih rest during after
    · exact during (c.name, h.scene) (by simp [ended])
    · exact during (c.name, h.scene) (by simp [failed])

theorem tryAll_keeps {cs : List Course} (members : ∀ c ∈ cs, c ∈ courses)
    (under : UnderWay mode h.scene) (during : ∀ d ∈ h.carried cs, d.2.mouse.mode = mode)
    (after : (h.tryAll cs).2.scene.mouse.mode = mode) :
    Keeps h.scene (h.tryAll cs).2.scene := by
  induction cs generalizing h with
  | nil => exact .refl h.scene
  | cons c cs ih =>
    have silent (h : Host) : ∀ c ∈ cs, (c.check h.scene).2 = h.scene :=
      fun d later => courses_silent h.scene d (members d (List.mem_cons_of_mem c later))
    obtain ⟨member, members⟩ := List.forall_mem_cons.1 members
    obtain ⟨same, shut⟩ | ⟨left, ended⟩ | ⟨k, left, next, failed⟩ :=
      Host.trial_cases (courses_silent h.scene c member)
    · rw [shut] at during
      rw [same] at after ⊢
      exact ih members under during after
    · rw [left] at after ⊢
      exact deed_keeps member under (during (c.name, h.scene) (by simp [ended])) after
    · rw [failed] at during
      rw [next] at after ⊢
      obtain ⟨before, during⟩ := List.forall_mem_cons.1 during
      -- The rest begins in the mode, so the failed deed has left it.
      have between : (c.deed h.scene).scene.mouse.mode = mode :=
        left ▸ mode_of_carried (silent k) during after
      have keeps : Keeps h.scene k.scene := left ▸ deed_keeps member under before between
      have stays : h.scene.mouse.nav.Stays k.scene.mouse.nav := by
        obtain ⟨mouse, cheeses, generator, same, stays⟩ := (courses_spare c member h.scene).2
        rw [left, same]
        exact stays
      exact keeps.trans (ih members (under.keeps keeps stays) during after)

/-- What a tick shows of the scene: at its start, to each of its deeds, and at its end. -/
def moments (h : Host) : List Scene :=
  h.scene :: (deeds h).map Prod.snd ++ [(Tree.tick { root := tree } h).2.2.scene]

theorem tick_keeps (under : UnderWay mode h.scene) (steady : ∀ s ∈ moments h, s.mouse.mode = mode) :
    Keeps h.scene (Tree.tick { root := tree } h).2.2.scene := by
  have during (d) (member : d ∈ deeds h) : d.2.mouse.mode = mode :=
    steady d.2 (List.mem_append_left _ (List.mem_cons_of_mem _ (List.mem_map_of_mem member)))
  have after : (Tree.tick { root := tree } h).2.2.scene.mouse.mode = mode :=
    steady _ (by simp [moments])
  rw [deeds] at during
  cases spoiled : h.spoiled with
  | true =>
    rw [tick_tree_of_spoiled spoiled]
    exact .refl h.scene
  | false =>
    cases caught : h.scene.mouseCaught with
    | true =>
      rw [tick_tree_of_caught spoiled caught]
      exact .refl h.scene
    | false =>
      rw [tick_tree_of_free spoiled caught] at after ⊢
      simp only [spoiled, caught, Bool.or_self, Bool.false_eq_true, if_false] at during
      exact tryAll_keeps (fun c member => member) under during after

end Mouse

/-! ## Runs -/

theorem Moves.keeps {s s' : Scene} (moves : Moves s s') : Keeps s s' := by
  obtain ⟨_, _, _, _, _, rfl⟩ := moves
  exact ⟨rfl, rfl, rfl⟩

theorem Cat.Spares.keeps {s s' : Scene} (spares : Cat.Spares s s') : Keeps s s' := by
  obtain ⟨cat, rfl | ⟨-, rfl⟩, -⟩ := spares
  · exact ⟨rfl, rfl, rfl⟩
  · exact ⟨rfl, rfl, rfl⟩

namespace Stage

variable {mode : MouseMode} {st : Stage}

/-- If it is the mouse's turn, then it is in the mode throughout, and has not arrived. -/
def Calm (mode : MouseMode) (st : Stage) : Stroke → Prop
  | .mouse =>
    (∀ s ∈ Mouse.moments st.host, s.mouse.mode = mode) ∧ st.host.scene.mouse.nav.hasArrived = false
  | .cat | .advance _ => True

def Steady (mode : MouseMode) (st : Stage) : List Stroke → Prop
  | [] => True
  | stroke :: strokes => st.Calm mode stroke ∧ (st.play stroke).2.Steady mode strokes

instance decidableCalm (mode : MouseMode) (st : Stage) :
    (stroke : Stroke) → Decidable (st.Calm mode stroke)
  | .mouse => inferInstanceAs (Decidable (_ ∧ _))
  | .cat | .advance _ => inferInstanceAs (Decidable True)

instance decidableSteady (mode : MouseMode) (st : Stage) :
    (strokes : List Stroke) → Decidable (st.Steady mode strokes)
  | [] => inferInstanceAs (Decidable True)
  | stroke :: strokes =>
    have := decidableSteady mode (st.play stroke).2 strokes
    inferInstanceAs (Decidable (_ ∧ _))

theorem play_keeps (rest : st.AtRest) (other : mode ≠ .seeking) (aimed : Aimed mode st.host.scene)
    {stroke : Stroke} (calm : st.Calm mode stroke) :
    Keeps st.host.scene (st.play stroke).2.host.scene := by
  cases stroke with
  | cat =>
    rw [play, rest.cat]
    exact (scene_footprints st.host _ [] 0.0).1.keeps
  | mouse =>
    rw [play, rest.mouse]
    exact Mouse.tick_keeps ⟨other, calm.2, aimed⟩ calm.1
  | advance delta => exact (advance_moves _ delta).keeps

theorem playAll_keeps (rest : st.AtRest) (other : mode ≠ .seeking)
    (aimed : Aimed mode st.host.scene) {strokes : List Stroke} (steady : st.Steady mode strokes) :
    Keeps st.host.scene (st.playAll strokes).2.host.scene := by
  induction strokes generalizing st with
  | nil => exact .refl st.host.scene
  | cons stroke strokes ih =>
    have first := play_keeps rest other aimed steady.1
    exact first.trans (ih (rest.play stroke) (first.aimed aimed) steady.2)

theorem Steady.of_append {earlier later : List Stroke}
    (steady : st.Steady mode (earlier ++ later)) :
    st.Steady mode earlier := by
  induction earlier generalizing st with
  | nil => trivial
  | cons stroke earlier ih => exact ⟨steady.1, ih steady.2⟩

/-- In any scene a tick of the mouse's tree draws one point for each of its deeds that finds no
place to go to in the mode it takes up, and else leaves the generator as it is. So while a mouse
that is wandering or fleeing stays so and does not arrive, through ticks of either tree and time, it
keeps its destination and nothing is drawn, whatever it does: if it wanders, it must have a
destination to begin with, or count as arrived without one. -/
theorem draws_of_mouse :
    (∀ h : Host,
      (h.spoiled = false → (Mouse.deeds h).map Prod.fst = Tree.executed { root := Mouse.tree } h) ∧
      (Tree.tick { root := Mouse.tree } h).2.2.scene.generator =
        h.scene.generator.after (2 * (Mouse.deeds h).countP (Mouse.Redraws ·)) ∧
      ((Tree.tick { root := Mouse.tree } h).2.2.scene.generator ≠ h.scene.generator ↔
        ∃ d ∈ Mouse.deeds h, Mouse.Redraws d)) ∧
    ∀ (st : Stage) (mode : MouseMode) (strokes : List Stroke), st.AtRest → mode ≠ .seeking →
      (mode = .wandering → st.host.scene.mouse.nav.destination.isSome ∨
        .ofBits 0 ≤ st.host.scene.mouse.nav.stoppingDistance) →
      st.Steady mode strokes → ∀ earlier, earlier <+: strokes →
        (st.playAll earlier).2.host.scene.mouse.nav.destination =
          st.host.scene.mouse.nav.destination ∧
          (st.playAll earlier).2.host.scene.generator = st.host.scene.generator := by
  refine ⟨fun h => ⟨Mouse.names_deeds, Mouse.generator_tick h, Mouse.generator_tick_ne_iff h⟩, ?_⟩
  intro st mode strokes rest other aimed steady earlier early
  obtain ⟨later, rfl⟩ := early
  have keeps := playAll_keeps rest other aimed steady.of_append
  exact ⟨keeps.destination, keeps.generator⟩

def strolling : Stage :=
  ((ofSettings { world := { cheeses := [], obstacles := [] } }).playAll [.mouse]).2

theorem draws_of_mouse_strolling : strolling.AtRest ∧
    strolling.host.scene.mouse.nav.destination.isSome ∧
    strolling.Steady .wandering [.mouse, .advance 0.125, .mouse] ∧
    (strolling.playAll [.mouse, .advance 0.125, .mouse]).2.host.scene.mouse.nav.destination =
      strolling.host.scene.mouse.nav.destination ∧
    (strolling.playAll [.mouse, .advance 0.125, .mouse]).2.host.scene.generator =
      strolling.host.scene.generator := by
  have rest : strolling.AtRest := AtRest.playAll ⟨rfl, rfl⟩ [.mouse]
  have aimed : strolling.host.scene.mouse.nav.destination.isSome := by decide +kernel
  have steady : strolling.Steady .wandering [.mouse, .advance 0.125, .mouse] := by decide +kernel
  exact ⟨rest, aimed, steady,
    draws_of_mouse.2 strolling .wandering _ rest (by decide) (fun _ => .inl aimed) steady _
      List.prefix_rfl⟩

def drifting : Stage :=
  ofSettings
    { world := { cheeses := [], obstacles := [] }, mouse := { stoppingDistance := -Binary.one } }

/-- A mouse without a destination draws one where it wanders, though it keeps its mode and has not
arrived. -/
theorem drifting_draws : drifting.AtRest ∧ drifting.Steady .wandering [.mouse] ∧
    Tree.executed { root := Mouse.tree } drifting.host = ["wander"] ∧
    drifting.host.scene.mouse.nav.destination.isNone ∧
    (drifting.playAll [.mouse]).2.host.scene.mouse.nav.destination.isSome ∧
    (drifting.playAll [.mouse]).2.host.scene.generator ≠ drifting.host.scene.generator := by
  have drawn : ∃ d ∈ Mouse.deeds drifting.host, Mouse.Redraws d := by decide +kernel
  exact ⟨⟨rfl, rfl⟩, by decide +kernel, by decide +kernel, by decide +kernel, by decide +kernel,
    (Mouse.generator_tick_ne_iff drifting.host).2 drawn⟩

end Stage

end Pursuit.Chase
