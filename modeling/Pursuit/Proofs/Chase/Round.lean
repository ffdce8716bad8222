import Pursuit.Proofs.Chase.Catch
import Pursuit.Proofs.Chase.Choice
import Pursuit.Proofs.Chase.Footprints

/-! The cat's round. A chase takes the cat off its way but leaves its place in the round alone, and
a patrol heads for the waypoint that is due before it looks whether the cat is there. So the
waypoints are reached one after the other, whatever comes in between. -/
namespace Pursuit.Chase

open Pursuit.Arena Pursuit.Behavior Pursuit.Settings

/-! ## The cat's tick -/

namespace Cat

variable {h : Host} {s : Scene}

theorem tree_plain : tree.Plain := leaves_tree plain_condition plain_action

theorem executed_eq (sound : h.spoiled = false) :
    Tree.executed { root := tree } h = h.tried courses := by
  rw [Tree.executed, Tree.calls_eq_called tree_plain]
  have covers : tree.Covers 0 (Node.fringeAll (courses.map Course.node)) := .self tree
  exact actionsAt_nodes sound covers

def catching : Course :=
  ⟨some ("mouse_in_attack_range", mouseInAttackRange), "catch_mouse", catchMouse⟩

def chasing : Course := ⟨some ("mouse_spotted", mouseSpotted), "chase_mouse", chaseMouse⟩

def walking : Course := ⟨none, "patrol", patrol⟩

theorem courses_eq : courses = [catching, chasing, walking] := rfl

/-- Neither catches the mouse nor takes up a chase. -/
def patrols (s : Scene) : Bool :=
  let mouse := s.mouse.nav.position
  !withinReach s.cat.nav.position mouse s.cat.attackRange &&
    !(s.cat.sight.sees s.cat.nav.position s.cat.nav.forward mouse s.world && s.world.contains mouse)

theorem executes_patrol (sound : h.spoiled = false) :
    "patrol" ∈ Tree.executed { root := tree } h ↔ patrols h.scene := by
  have walks (k : Host) : "patrol" ∈ k.tried [walking] := mem_tried_of_open (c := walking) rfl
  rw [executed_eq sound, courses_eq, patrols]
  cases reach : withinReach h.scene.cat.nav.position h.scene.mouse.nav.position
    h.scene.cat.attackRange with
  | true =>
    have passed : catching.check h.scene = (true, h.scene) := Prod.ext reach rfl
    rw [tried_of_done passed (catchMouse_eq h.scene)]
    simp [catching]
  | false =>
    have shut : catching.check h.scene = (false, h.scene) := Prod.ext reach rfl
    rw [tried_of_shut shut]
    cases seen : h.scene.cat.sight.sees h.scene.cat.nav.position h.scene.cat.nav.forward
      h.scene.mouse.nav.position h.scene.world with
    | false =>
      have shut : chasing.check h.scene = (false, h.scene) := by
        simp [chasing, Course.check, mouseSpotted, seen]
      rw [tried_of_shut shut]
      simp [walks]
    | true =>
      have passed : chasing.check h.scene =
          (true, { h.scene with cat.lastKnown := some h.scene.mouse.nav.position }) := by
        simp [chasing, Course.check, mouseSpotted, seen]
      have chased := chaseMouse_eq
        (s := { h.scene with cat.lastKnown := some h.scene.mouse.nav.position }) rfl
      cases inside : h.scene.world.contains h.scene.mouse.nav.position with
      | true =>
        rw [if_pos inside] at chased
        rw [tried_of_done passed chased]
        simp [chasing]
      | false =>
        rw [if_neg (by simp [inside])] at chased
        rw [tried_of_failed passed chased]
        simp [walks]

def arrived (s : Scene) : Bool :=
  (s.cat.waypoints[s.cat.waypointIndex]?).any fun p =>
    s.cat.nav.position.distance p ≤ s.cat.nav.stoppingDistance

/-- The place in the round that a patrol heads for. -/
def due (s : Scene) : Nat :=
  if arrived s then (s.cat.waypointIndex + 1) % s.cat.waypoints.length else s.cat.waypointIndex

theorem due_eq {p : Point} (here : s.cat.waypoints[s.cat.waypointIndex]? = some p) :
    due s = if s.cat.nav.position.distance p ≤ s.cat.nav.stoppingDistance then
      (s.cat.waypointIndex + 1) % s.cat.waypoints.length else s.cat.waypointIndex := by
  rw [due, arrived, here]
  simp

def walked (s : Scene) (p : Point) : Scene :=
  { s with cat := { s.cat with
      nav :=
        { s.cat.nav with destination := some p, speed := s.cat.patrolSpeed, isStopped := false }
      mode := .patrolling
      waypointIndex := due s } }

structure OnRound (s : Scene) : Prop where
  inside : ∀ p ∈ s.cat.waypoints, s.world.contains p
  placed : s.cat.waypointIndex < s.cat.waypoints.length

theorem OnRound.due_lt (here : OnRound s) : due s < s.cat.waypoints.length := by
  rw [due]
  split
  · exact Nat.mod_lt _ (Nat.zero_lt_of_lt here.placed)
  · exact here.placed

theorem patrol_eq (here : OnRound s) : ∃ p, s.cat.waypoints[due s]? = some p ∧
    patrol s = .done (walked s p) (s.cat.mode.change .patrolling) := by
  have round : ¬ s.cat.waypoints.isEmpty := fun empty => by
    have placed := here.placed
    rw [List.isEmpty_iff.1 empty] at placed
    exact absurd placed (Nat.not_lt_zero _)
  obtain ⟨first, atFirst⟩ : ∃ p, s.cat.waypoints[s.cat.waypointIndex]? = some p :=
    ⟨_, List.getElem?_eq_getElem here.placed⟩
  obtain ⟨next, atNext⟩ : ∃ p, s.cat.waypoints[due s]? = some p :=
    ⟨_, List.getElem?_eq_getElem here.due_lt⟩
  have insideFirst := here.inside first (List.mem_of_getElem? atFirst)
  have insideNext := here.inside next (List.mem_of_getElem? atNext)
  refine ⟨next, atNext, ?_⟩
  rw [patrol, if_neg round]
  simp only [setMode_eq, atFirst, headFor_inside insideFirst]
  have same : Navigator.hasArrived
      { s.cat.nav.moveAt s.cat.patrolSpeed with destination := some first } = arrived s := by
    rw [arrived, atFirst]
    rfl
  rw [same]
  cases arrives : arrived s with
  | true =>
    have turned : due s = (s.cat.waypointIndex + 1) % s.cat.waypoints.length := if_pos arrives
    rw [turned] at atNext
    rw [if_pos rfl, atNext, walked, turned]
    dsimp only
    rw [send, headFor_inside insideNext]
    rfl
  | false =>
    have still : due s = s.cat.waypointIndex := if_neg (by simp [arrives])
    rw [still, atFirst] at atNext
    obtain rfl := Option.some.inj atNext
    rw [if_neg Bool.false_ne_true, walked, still]
    rfl

theorem walkRound_eq (here : OnRound h.scene) : ∃ p events,
    h.scene.cat.waypoints[due h.scene]? = some p ∧
      walkRound h = (.returned .success, h.after (walked h.scene p) events) := by
  obtain ⟨p, next, walks⟩ := patrol_eq here
  rw [walkRound, walks]
  exact ⟨p, _, next, rfl⟩

/-- The cat catches the mouse, takes up a chase, or goes on with its round; a chase that was refused
has changed the cat before. -/
theorem tick_onRound (sound : h.spoiled = false) (here : OnRound h.scene) :
    ∃ h', Tree.tick { root := tree } h = (.returned .success, { root := tree }, h') ∧
      h'.spoiled = false ∧
      (patrols h.scene = false ∧ (h'.scene = caught h.scene ∨ h'.scene =
          { hunting h.scene with cat.nav.destination := some h.scene.mouse.nav.position }) ∨
        patrols h.scene = true ∧ ∃ p, h.scene.cat.waypoints[due h.scene]? = some p ∧
          (h'.scene = walked h.scene p ∨ h'.scene = walked (hunting h.scene) p)) := by
  rw [tick_chain sound, chain, patrols]
  dsimp only
  cases withinReach h.scene.cat.nav.position h.scene.mouse.nav.position h.scene.cat.attackRange with
  | true => exact ⟨_, rfl, sound, .inl ⟨rfl, .inl rfl⟩⟩
  | false =>
    cases h.scene.cat.sight.sees h.scene.cat.nav.position h.scene.cat.nav.forward
      h.scene.mouse.nav.position h.scene.world with
    | false =>
      obtain ⟨p, events, next, walks⟩ := walkRound_eq here
      simp only [Bool.false_eq_true, if_false]
      rw [walks]
      exact ⟨_, rfl, sound, .inr ⟨rfl, p, next, .inl rfl⟩⟩
    | true =>
      cases h.scene.world.contains h.scene.mouse.nav.position with
      | true => exact ⟨_, rfl, sound, .inl ⟨rfl, .inr rfl⟩⟩
      | false =>
        have here' : OnRound (hunting h.scene) := ⟨here.inside, here.placed⟩
        simp only [Bool.false_eq_true, if_false, if_true]
        obtain ⟨p, events, next, walks⟩ := walkRound_eq
          (h := record (.actionFailed "chase_mouse" _) (h.after (hunting h.scene) _)) here'
        rw [walks]
        exact ⟨_, rfl, sound, .inr ⟨rfl, p, next, .inr rfl⟩⟩

end Cat

/-! ## Runs -/

structure Round where
  waypoints : List Point
  speed : Float32
  stoppingDistance : Float32
  halfExtent : Float32

def Round.ofSettings (c : RunSettings) : Round :=
  ⟨c.cat.waypoints, c.cat.patrolSpeed, c.cat.stoppingDistance, c.world.halfExtent⟩

def Scene.round (s : Scene) : Round :=
  ⟨s.cat.waypoints, s.cat.patrolSpeed, s.cat.nav.stoppingDistance, s.world.halfExtent⟩

/-- Something that happens on a stage: a stroke, or the mouse is put elsewhere and perhaps under
other orders. -/
inductive Move where
  | stroke (stroke : Stroke)
  | place (nav : Navigator)

namespace Stage

def move (st : Stage) : Move → Stage
  | .stroke stroke => (st.play stroke).2
  | .place nav =>
    { st with host := { st.host with scene := { st.host.scene with mouse.nav := nav } } }

def moveAll (st : Stage) : List Move → Stage
  | [] => st
  | m :: ms => (st.move m).moveAll ms

/-- The place in the round that the cat is found to have reached in a move, if there is one. -/
def arrival (st : Stage) : Move → List Nat
  | .stroke .cat =>
    if Cat.patrols st.host.scene && Cat.arrived st.host.scene then [st.host.scene.cat.waypointIndex]
    else []
  | _ => []

def arrivals (st : Stage) : List Move → List Nat
  | [] => []
  | m :: ms => st.arrival m ++ (st.move m).arrivals ms

structure Patrolled (c : RunSettings) (st : Stage) : Prop where
  host : st.host.Sound
  cat : st.cat = { root := Cat.tree }
  mouse : st.mouse = { root := Mouse.tree }
  round : st.host.scene.round = .ofSettings c
  placed : st.host.scene.cat.waypointIndex < c.cat.waypoints.length

variable {c : RunSettings} {st : Stage}

theorem Patrolled.waypoints (patrolled : st.Patrolled c) :
    st.host.scene.cat.waypoints = c.cat.waypoints := congrArg Round.waypoints patrolled.round

theorem Patrolled.onRound (patrolled : st.Patrolled c) (valid : c.validate = .ok ()) :
    Cat.OnRound st.host.scene := by
  have checked := (RunSettings.validate_eq_ok_iff.1 valid).cat.waypoints
  have extent : st.host.scene.world.halfExtent = c.world.halfExtent :=
    congrArg Round.halfExtent patrolled.round
  refine ⟨fun p member => ?_, patrolled.waypoints ▸ patrolled.placed⟩
  rw [World.contains, extent]
  exact checked p (patrolled.waypoints ▸ member)

theorem ofSettings_patrolled (valid : c.validate = .ok ()) (round : c.cat.waypoints ≠ []) :
    (ofSettings c).Patrolled c :=
  ⟨sound_of_valid valid [], rfl, rfl, rfl, List.length_pos_iff.2 round⟩

theorem Patrolled.other (patrolled : st.Patrolled c) {m : Move} (other : m ≠ .stroke .cat) :
    (st.move m).Patrolled c ∧
      (st.move m).host.scene.cat.waypointIndex = st.host.scene.cat.waypointIndex := by
  obtain ⟨host, cat, mouse, round, placed⟩ := patrolled
  cases m with
  | place nav => exact ⟨⟨⟨host.unspoiled, host.room, host.placed⟩, cat, mouse, round, placed⟩, rfl⟩
  | stroke stroke =>
    cases stroke with
    | cat => exact absurd rfl other
    | mouse =>
      obtain ⟨status, h', ticked, turn⟩ := Mouse.tick_turn host
      have spared : Mouse.Spares st.host.scene
          (Tree.tick { root := Mouse.tree } st.host).2.2.scene :=
        Mouse.footprint.tickWith .nowhere Mouse.leaves_spare st.host
      rw [ticked] at spared
      obtain ⟨_, _, _, same, -⟩ := spared
      dsimp only at same
      rw [move, play, mouse, ticked]
      refine ⟨⟨turn.keeps Mouse.Act.sound Mouse.Eats.sound host, cat, rfl, ?_, ?_⟩, ?_⟩
      · rw [← round, same]; rfl
      · rw [same]; exact placed
      · rw [same]
    | advance delta =>
      obtain ⟨_, _, _, _, _, same⟩ := advance_moves st.host.scene delta
      rw [move, play]
      refine ⟨⟨host.advanced delta, cat, mouse, ?_, ?_⟩, ?_⟩
      · rw [← round, same]; rfl
      · rw [same]; exact placed
      · rw [same]

structure Heads (c : RunSettings) (next : Nat) (s : Scene) : Prop where
  index : s.cat.waypointIndex = next
  destination : ∃ p, c.cat.waypoints[next]? = some p ∧ s.cat.nav.destination = some p
  speed : s.cat.nav.speed = c.cat.patrolSpeed
  going : s.cat.nav.isStopped = false
  mode : s.cat.mode = .patrolling

theorem heads_walked {s : Scene} {p : Point} (round : s.round = .ofSettings c)
    (next : s.cat.waypoints[Cat.due s]? = some p) : Heads c (Cat.due s) (Cat.walked s p) := by
  have waypoints : s.cat.waypoints = c.cat.waypoints := congrArg Round.waypoints round
  have speed : s.cat.patrolSpeed = c.cat.patrolSpeed := congrArg Round.speed round
  exact ⟨rfl, ⟨p, waypoints ▸ next, rfl⟩, speed, rfl, rfl⟩

theorem Patrolled.tick (patrolled : st.Patrolled c) (valid : c.validate = .ok ()) :
    ∃ h', st.cat.tick st.host = (.returned .success, st.cat, h') ∧ h'.Sound ∧
      h'.scene.round = .ofSettings c ∧
      (Cat.patrols st.host.scene = false ∧
          h'.scene.cat.waypointIndex = st.host.scene.cat.waypointIndex ∨
        Cat.patrols st.host.scene = true ∧ Heads c (Cat.due st.host.scene) h'.scene) := by
  obtain ⟨h', ticked, -, ends⟩ :=
    Cat.tick_onRound patrolled.host.unspoiled (patrolled.onRound valid)
  obtain ⟨status, h₁, ticked₁, turn⟩ := Cat.tick_turn patrolled.host
  obtain rfl : h₁ = h' := congrArg (·.2.2) (ticked₁.symm.trans ticked)
  have sound : h₁.Sound := turn.keeps Cat.Act.sound Cat.Catches.sound patrolled.host
  rw [patrolled.cat]
  refine ⟨h₁, ticked, sound, ?_⟩
  obtain ⟨idle, same | same⟩ | ⟨walks, p, next, same | same⟩ := ends
  · rw [same]
    exact ⟨patrolled.round, .inl ⟨idle, rfl⟩⟩
  · rw [same]
    exact ⟨patrolled.round, .inl ⟨idle, rfl⟩⟩
  · rw [same]
    exact ⟨patrolled.round, .inr ⟨walks, heads_walked patrolled.round next⟩⟩
  · rw [same]
    exact ⟨patrolled.round, .inr ⟨walks, heads_walked (s := Cat.hunting _) patrolled.round next⟩⟩

/-- A move leads one place on, where the cat was found at the place before, or none. -/
theorem Patrolled.step (patrolled : st.Patrolled c) (valid : c.validate = .ok ()) {k : Nat}
    (gone : st.host.scene.cat.waypointIndex = k % c.cat.waypoints.length) (m : Move) :
    (st.move m).Patrolled c ∧ ∃ more,
      st.arrival m = (List.range' k more).map (· % c.cat.waypoints.length) ∧
      (st.move m).host.scene.cat.waypointIndex = (k + more) % c.cat.waypoints.length := by
  by_cases cat : m = .stroke .cat
  · subst cat
    obtain ⟨h', ticked, sound, round, ends⟩ := patrolled.tick valid
    have below := (patrolled.onRound valid).due_lt
    rw [patrolled.waypoints] at below
    rw [move, play, ticked, arrival]
    obtain ⟨idle, same⟩ | ⟨walks, heads⟩ := ends
    · exact ⟨⟨sound, patrolled.cat, patrolled.mouse, round, same ▸ patrolled.placed⟩, 0,
        by simp [idle], same.trans gone⟩
    · refine ⟨⟨sound, patrolled.cat, patrolled.mouse, round, heads.index ▸ below⟩, ?_⟩
      cases arrives : Cat.arrived st.host.scene with
      | true =>
        refine ⟨1, by simp [walks, gone], ?_⟩
        rw [heads.index, Cat.due, if_pos arrives, patrolled.waypoints, gone, Nat.mod_add_mod]
      | false =>
        refine ⟨0, by simp [walks], ?_⟩
        rw [heads.index, Cat.due, if_neg (by simp [arrives]), gone, Nat.add_zero]
  · obtain ⟨kept, same⟩ := patrolled.other cat
    exact ⟨kept, 0, by rw [arrival]; exacts [rfl, cat], same.trans gone⟩

theorem Patrolled.run (patrolled : st.Patrolled c) (valid : c.validate = .ok ()) {k : Nat}
    (gone : st.host.scene.cat.waypointIndex = k % c.cat.waypoints.length) (moves : List Move) :
    (st.moveAll moves).Patrolled c ∧ ∃ more,
      st.arrivals moves = (List.range' k more).map (· % c.cat.waypoints.length) ∧
      (st.moveAll moves).host.scene.cat.waypointIndex = (k + more) % c.cat.waypoints.length := by
  induction moves generalizing st k with
  | nil => exact ⟨patrolled, 0, rfl, gone⟩
  | cons m ms ih =>
    obtain ⟨patrolled', first, here, gone'⟩ := patrolled.step valid gone m
    obtain ⟨kept, rest, later, gone''⟩ := ih patrolled' gone'
    refine ⟨kept, first + rest, ?_, ?_⟩
    · rw [arrivals, here, later, ← List.map_append, List.range'_append_1]
    · rw [moveAll, gone'', Nat.add_assoc]

/-- Any moves in a row on a stage from valid settings with a waypoint. The places that the cat was
found to have reached go round in order, and the one that is due follows them. No move changes that
place but the cat's tick, and that only in a patrol, which is a tick that neither catches the mouse
nor takes up a chase: if the cat is where it was to go, the next place is due. After a patrol the
cat is on its way there at its patrol speed. -/
theorem moveAll_round (valid : c.validate = .ok ()) (round : c.cat.waypoints ≠ [])
    (moves : List Move) :
    ∃ st count here, (ofSettings c).moveAll moves = st ∧
      (ofSettings c).arrivals moves = (List.range count).map (· % c.cat.waypoints.length) ∧
      st.host.scene.cat.waypointIndex = count % c.cat.waypoints.length ∧
      st.host.scene.cat.waypointIndex < c.cat.waypoints.length ∧
      c.cat.waypoints[st.host.scene.cat.waypointIndex]? = some here ∧
      (∀ m, m ≠ .stroke .cat → (st.move m).host.scene.cat.waypointIndex =
        st.host.scene.cat.waypointIndex) ∧
      ("patrol" ∈ Tree.executed st.cat st.host ↔ Cat.patrols st.host.scene) ∧
      ∃ h, st.cat.tick st.host = (.returned .success, st.cat, h) ∧
        (Cat.patrols st.host.scene = false →
          h.scene.cat.waypointIndex = st.host.scene.cat.waypointIndex) ∧
        (Cat.patrols st.host.scene = true → Heads c
          (if st.host.scene.cat.nav.position.distance here ≤ c.cat.stoppingDistance then
            (st.host.scene.cat.waypointIndex + 1) % c.cat.waypoints.length
          else st.host.scene.cat.waypointIndex) h.scene) := by
  obtain ⟨patrolled, count, reached, gone⟩ :=
    (ofSettings_patrolled valid round).run valid (Nat.zero_mod _).symm moves
  obtain ⟨st, ran⟩ : ∃ st, (ofSettings c).moveAll moves = st := ⟨_, rfl⟩
  rw [ran] at patrolled gone
  rw [← List.range_eq_range'] at reached
  rw [Nat.zero_add] at gone
  obtain ⟨p, here⟩ : ∃ p, c.cat.waypoints[st.host.scene.cat.waypointIndex]? = some p :=
    ⟨_, List.getElem?_eq_getElem patrolled.placed⟩
  have executes := Cat.executes_patrol patrolled.host.unspoiled
  rw [← patrolled.cat] at executes
  have stopping : st.host.scene.cat.nav.stoppingDistance = c.cat.stoppingDistance :=
    congrArg Round.stoppingDistance patrolled.round
  have due := Cat.due_eq (p := p) (by rw [patrolled.waypoints]; exact here)
  rw [stopping, patrolled.waypoints] at due
  obtain ⟨h, ticked, -, -, ends⟩ := patrolled.tick valid
  refine ⟨st, count, p, ran, reached, gone, patrolled.placed, here,
    fun m other => (patrolled.other other).2, executes, h, ticked, fun idle => ?_, fun walks => ?_⟩
  · obtain ⟨-, same⟩ | ⟨walks, -⟩ := ends
    · exact same
    · rw [idle] at walks
      cases walks
  · obtain ⟨idle, -⟩ | ⟨-, heads⟩ := ends
    · rw [idle] at walks
      cases walks
    · rwa [due] at heads

def distraction : List Move :=
  [.stroke .cat, .place { position := .ofInts 14 10, stoppingDistance := 0.5 }, .stroke .cat,
    .place { position := .ofInts (-12) (-2), stoppingDistance := 0.5 }]

/-- After the chase it heads for the second one, as before. -/
theorem moveAll_round_distraction : RunSettings.validate {} = .ok () ∧
    (RunSettings.cat {}).waypoints ≠ [] ∧ ∃ st h, (ofSettings {}).moveAll distraction = st ∧
      (ofSettings {}).arrivals distraction = [0] ∧ st.host.scene.cat.mode = .chasing ∧
      st.cat.tick st.host = (.returned .success, st.cat, h) ∧ Heads {} 1 h.scene := by
  have valid : RunSettings.validate {} = .ok () := rfl
  have round : (RunSettings.cat {}).waypoints ≠ [] := nofun
  have reached : (ofSettings {}).arrivals distraction = [0] := by decide +kernel
  have chases : ((ofSettings {}).moveAll distraction).host.scene.cat.mode = .chasing := by
    decide +kernel
  have walks : Cat.patrols ((ofSettings {}).moveAll distraction).host.scene = true := by
    decide +kernel
  have away : ¬ ((ofSettings {}).moveAll distraction).host.scene.cat.nav.position.distance
      (.ofInts (-10) 10) ≤ CatSettings.stoppingDistance {} := by decide +kernel
  obtain ⟨st, count, here, ran, arrivals, gone, -, atHere, -, -, h, ticked, -, heads⟩ :=
    moveAll_round valid round distraction
  rw [ran] at chases walks away
  have once : count = 1 := by simpa using congrArg List.length (arrivals.symm.trans reached)
  subst once
  have second : st.host.scene.cat.waypointIndex = 1 := gone
  rw [second] at atHere heads
  obtain rfl : Point.ofInts (-10) 10 = here := Option.some.inj atHere
  rw [if_neg away] at heads
  exact ⟨valid, round, st, h, ran, reached, chases, ticked, heads walks⟩

end Stage

end Pursuit.Chase
