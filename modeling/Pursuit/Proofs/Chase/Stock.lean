import Pursuit.Proofs.Chase.Outcome

/-! The cheese of a run is kept in three places: the pieces of the world, the count and the target
of the mouse, and the events. They agree after every act of either agent, so they do after every
operation. What carries this is that the target always lies there: it is picked from what does, only
the mouse takes cheese, and it then has no target. -/
namespace Pursuit

def Event.cheese? : Event → Option Nat
  | .cheeseCollected id _ => some id
  | _ => none

def taken (events : List Event) : List Nat := events.filterMap Event.cheese?

theorem taken_of_quiet {events : List Event} (quiet : ∀ e ∈ events, e.Quiet) :
    taken events = [] := by
  refine List.filterMap_eq_nil_iff.2 fun e member => ?_
  have calm := quiet e member
  cases e <;> first | rfl | exact calm.elim

theorem CatMode.change_quiet {old new : CatMode} : ∀ e ∈ old.change new, e.Quiet := by
  rw [change]
  split
  · exact List.forall_mem_nil _
  · exact List.forall_mem_singleton.2 trivial

theorem MouseMode.change_quiet {old new : MouseMode} : ∀ e ∈ old.change new, e.Quiet := by
  rw [change]
  split
  · exact List.forall_mem_nil _
  · exact List.forall_mem_singleton.2 trivial

theorem ActionFault.Expected.ordinary {fault : ActionFault} (expected : fault.Expected) :
    (∀ id, fault ≠ .alreadyCollected id) ∧
    (∀ id, fault ≠ .noTarget ("no cheese with id " ++ Nat.repr id)) ∧
    fault ≠ .noTarget "cheese target vanished" := by
  obtain ⟨p, rfl⟩ | rfl := expected
  · exact ⟨nofun, nofun, nofun⟩
  · refine ⟨nofun, fun id same => ?_, fun same => ?_⟩
    · have text := congrArg String.toList (ActionFault.noTarget.inj same)
      rw [String.toList_append] at text
      exact absurd (congrArg List.head? text) (by simp)
    · exact absurd (ActionFault.noTarget.inj same) (by decide)

end Pursuit

namespace Pursuit.Chase

open Pursuit.Arena Pursuit.Behavior Pursuit.Settings

/-- The mouse's target, if it has one, is a cheese that is still there. -/
def Scene.Targets (s : Scene) : Prop :=
  ∀ id, s.mouse.target = some id → ∃ c, s.world.cheeses[id]? = some c ∧ c.collected = false

/-- The pieces of the world, which began as `places`, agree with the mouse and the events. -/
structure Tally (places : List Point) (h : Host) : Prop where
  laid : h.scene.world.cheeses.map (·.position) = places
  total : h.scene.mouse.collected + h.scene.world.remaining = places.length
  targets : h.scene.Targets
  once : (taken h.events).Nodup
  counted : (taken h.events).length = h.scene.mouse.collected
  gone : ∀ id ∈ taken h.events, ∃ c, h.scene.world.cheeses[id]? = some c ∧ c.collected
  expected : ∀ name fault, .actionFailed name fault ∈ h.events → fault.Expected

namespace Tally

variable {places : List Point} {h h' : Host}

theorem after (tally : Tally places h) {s : Scene} {said : List Event}
    (quiet : ∀ e ∈ said, e.Quiet) (world : s.world = h.scene.world)
    (collected : s.mouse.collected = h.scene.mouse.collected) (targets : s.Targets) :
    Tally places (h.after s said) := by
  have quiet' : ∀ e ∈ said.reverse, e.Quiet := fun e member => quiet e (List.mem_reverse.1 member)
  have same : taken (said.reverse ++ h.events) = taken h.events := by
    rw [taken, List.filterMap_append]
    exact congrArg (· ++ taken h.events) (taken_of_quiet quiet')
  constructor
  case laid => exact (congrArg (fun w => w.cheeses.map (·.position)) world).trans tally.laid
  case total =>
    show s.mouse.collected + s.world.remaining = places.length
    rw [world, collected, tally.total]
  case targets => exact targets
  case once => exact same ▸ tally.once
  case counted => exact (congrArg List.length same).trans (tally.counted.trans collected.symm)
  case gone =>
    show ∀ id ∈ taken (said.reverse ++ h.events), ∃ c, s.world.cheeses[id]? = some c ∧ c.collected
    rw [same, world]
    exact tally.gone
  case expected =>
    intro name fault member
    obtain new | old := List.mem_append.1 member
    · exact (quiet' _ new).elim
    · exact tally.expected name fault old

theorem noted (tally : Tally places h) {e : Event} (quiet : e.Quiet) : Tally places (record e h) :=
  tally.after (List.forall_mem_singleton.2 quiet) rfl rfl tally.targets

theorem failed (tally : Tally places h) (name : String) {fault : ActionFault}
    (expected : fault.Expected) : Tally places (record (.actionFailed name fault) h) := by
  refine ⟨tally.laid, tally.total, tally.targets, tally.once, tally.counted, tally.gone, ?_⟩
  intro name' fault' member
  obtain new | old := List.mem_cons.1 member
  · obtain ⟨-, rfl⟩ := Event.actionFailed.inj new
    exact expected
  · exact tally.expected name' fault' old

theorem cat_act (act : Cat.Act h h') (tally : Tally places h) : Tally places h' := by
  cases act with
  | spot =>
    show Tally places (h.after { h.scene with cat.lastKnown := _ } [])
    exact tally.after nofun rfl rfl tally.targets
  | fail name known => exact tally.failed name known
  | order _ ordered =>
    obtain ⟨destination, speed, index, -, rfl⟩ := ordered
    exact tally.after CatMode.change_quiet rfl rfl tally.targets

theorem cat_catches (catches : Cat.Catches h h') (tally : Tally places h) : Tally places h' := by
  obtain ⟨-, rfl⟩ := catches
  have same : (Cat.caught h.scene).mouse.collected = h.scene.mouse.collected ∧
      (Cat.caught h.scene).mouse.target = h.scene.mouse.target := by
    rw [Cat.caught]
    split <;> exact ⟨rfl, rfl⟩
  refine tally.after (List.forall_mem_append.2 ⟨CatMode.change_quiet, ?_⟩) rfl same.1 ?_
  · split
    · exact List.forall_mem_nil _
    · exact List.forall_mem_singleton.2 trivial
  · intro id target
    exact tally.targets id (same.2.symm.trans target)

theorem mouse_act (act : Mouse.Act h h') (tally : Tally places h) : Tally places h' := by
  cases act with
  | fail _ name refused => exact tally.failed name (.inl refused)
  | order _ ordered =>
    obtain ⟨destination, speed, generator, rfl⟩ := ordered
    exact tally.after MouseMode.change_quiet rfl rfl tally.targets
  | pick _ here there ordered =>
    obtain ⟨destination, speed, generator, rfl⟩ := ordered
    refine tally.after (List.forall_mem_cons.2 ⟨trivial, MouseMode.change_quiet⟩) rfl rfl ?_
    rintro id target
    obtain rfl := Option.some.inj target
    exact ⟨_, here, there⟩

theorem mouse_eats (eats : Mouse.Eats h h') (tally : Tally places h) : Tally places h' := by
  obtain ⟨-, id, c, -, here, there, rfl⟩ := eats
  have inside : id < h.scene.world.cheeses.length := (List.getElem?_eq_some_iff.1 here).1
  -- What was collected before is marked so, which the target is not.
  have fresh : id ∉ taken h.events := by
    intro member
    obtain ⟨c', here', gone⟩ := tally.gone id member
    obtain rfl : c = c' := Option.some.inj (here.symm.trans here')
    cases there.symm.trans gone
  have less := World.remaining_take here there
  have total := tally.total
  constructor
  case laid => exact (World.places_take here).trans tally.laid
  case total =>
    show h.scene.mouse.collected + 1 + (h.scene.world.take id c).remaining = places.length
    omega
  case targets => exact nofun
  case once => exact List.nodup_cons.2 ⟨fresh, tally.once⟩
  case counted => exact congrArg (· + 1) tally.counted
  case gone =>
    refine List.forall_mem_cons.2 ⟨⟨_, List.getElem?_set_self inside, rfl⟩, fun old member => ?_⟩
    have other : id ≠ old := fun same => fresh (same ▸ member)
    obtain ⟨c', here', gone⟩ := tally.gone old member
    exact ⟨c', (List.getElem?_set_ne other).trans here', gone⟩
  case expected =>
    intro name fault member
    obtain new | old := List.mem_cons.1 member
    · cases new
    · exact tally.expected name fault old

theorem advanced (tally : Tally places h) (delta : Float) :
    Tally places { h with scene := h.scene.advance delta } := by
  obtain ⟨laid, total, targets, once, counted, gone, expected⟩ := tally
  rw [Scene.advance]
  split
  · cases caught : h.scene.mouseCaught with
    | true => exact ⟨laid, total, targets, once, counted, gone, expected⟩
    | false => exact ⟨laid, total, targets, once, counted, gone, expected⟩
  · exact ⟨laid, total, targets, once, counted, gone, expected⟩

end Tally

namespace Simulation

variable {sim acted : Simulation} {places : List Point}

theorem Acted.tally (turned : sim.Acted acted) (tally : Tally places sim.host) :
    Tally places acted.host := by
  obtain ⟨h, cat, mouse⟩ := turned.turns
  have between : Tally places h :=
    cat.keeps Tally.cat_act Tally.cat_catches (fun quiet tally => tally.noted quiet) tally
  exact mouse.keeps Tally.mouse_act Tally.mouse_eats (fun quiet tally => tally.noted quiet) between

theorem tally_kept (places : List Point) : Kept fun sim _ => Tally places sim.host where
  advance delta _ _ turned _ tally := (turned.tally tally).advanced delta
  close _ _ turned _ tally :=
    (((turned.tally tally).noted (e := .stopped _) trivial).noted (e := .stopped _) trivial).noted
      (e := .finished ..) trivial
  stop tally := (tally.noted (e := .stopped _) trivial).noted (e := .stopped _) trivial

/-- From `sim` to `later` no cheese came back, and each counted frame took one piece at most. -/
structure Declines (sim later : Simulation) : Prop where
  fewer : later.host.scene.world.remaining ≤ sim.host.scene.world.remaining
  slow : sim.host.scene.world.remaining + sim.frames ≤
    later.host.scene.world.remaining + later.frames

theorem Acted.remaining (turned : sim.Acted acted) :
    acted.host.scene.world.remaining ≤ sim.host.scene.world.remaining ∧
      sim.host.scene.world.remaining ≤ acted.host.scene.world.remaining + 1 := by
  obtain ⟨h, cat, h', ⟨h₁, acts, last⟩, said⟩ := turned.turns
  have after_cat : h.scene.world = sim.host.scene.world := Cat.Beat.world cat
  have after_acts : h₁.scene.world = h.scene.world :=
    acts_keep (P := fun k => k.scene.world = h.scene.world) (fun act same => act.world.trans same)
      acts rfl
  have after_turn : acted.host.scene.world = h'.scene.world := by
    obtain same | ⟨e, -, same⟩ := said
    · rw [same]
    · rw [same]
      rfl
  rw [after_turn, ← after_cat, ← after_acts]
  obtain rfl | ⟨-, id, c, -, here, there, rfl⟩ := last
  · exact ⟨Nat.le_refl _, Nat.le_succ _⟩
  · have less := World.remaining_take here there
    show (h₁.scene.world.take id c).remaining ≤ _ ∧ _ ≤ (h₁.scene.world.take id c).remaining + 1
    omega

theorem declines_kept (first : Simulation) : Kept fun sim _ => first.Declines sim where
  advance {sim acted log} delta _ _ turned _ declines := by
    obtain ⟨fewer, slow⟩ := declines
    obtain ⟨less, most⟩ := turned.remaining
    have world : (acted.host.scene.advance delta).world = acted.host.scene.world :=
      Scene.world_advance ..
    have frames := turned.frames
    constructor
    case fewer =>
      show (acted.host.scene.advance delta).world.remaining ≤ _
      rw [world]
      exact Nat.le_trans less fewer
    case slow =>
      show _ ≤ (acted.host.scene.advance delta).world.remaining + (acted.frames + 1)
      rw [world]
      omega
  close {sim acted log} _ _ turned _ declines := by
    obtain ⟨fewer, slow⟩ := declines
    obtain ⟨less, most⟩ := turned.remaining
    have frames := turned.frames
    constructor
    case fewer => exact Nat.le_trans less fewer
    case slow =>
      show _ ≤ acted.host.scene.world.remaining + (acted.frames + 1)
      omega
  stop declines := ⟨declines.fewer, declines.slow⟩

theorem play_declines (sound : sim.Sound) (delta : Float) : ∃ outcome sim',
    sim.play delta = (.returned outcome, sim') ∧
      sim'.host.scene.world.remaining ≤ sim.host.scene.world.remaining ∧
      sim.host.scene.world.remaining ≤ sim'.host.scene.world.remaining + 1 := by
  by_cases on : sim.outcome = .ongoing
  · obtain ⟨acted, turned, played⟩ := play_of_ongoing sound on delta
    have world : (acted.settle delta).2.host.scene.world = acted.host.scene.world := by
      by_cases still : acted.host.scene.outcome = .ongoing
      · rw [settle_of_ongoing still]
        exact Scene.world_advance ..
      · rw [settle_of_decided still]
        rfl
    refine ⟨_, _, played, ?_⟩
    rw [world]
    exact turned.remaining
  · exact ⟨_, _, play_of_decided on delta, Nat.le_refl _, Nat.le_succ _⟩

theorem tally_ofSettings {c : RunSettings} (scene : sim.host.scene = .ofSettings c)
    (quiet : ∀ e ∈ sim.host.events, e.Quiet) : Tally c.world.cheeses sim.host := by
  have none : taken sim.host.events = [] := taken_of_quiet quiet
  constructor
  case laid =>
    rw [scene]
    exact List.map_map.trans (List.map_id _)
  case total =>
    rw [scene]
    exact (Nat.zero_add _).trans (World.remaining_ofPlaces ..)
  case targets =>
    rw [scene]
    exact nofun
  case once => exact none ▸ List.nodup_nil
  case counted => rw [none, scene]; rfl
  case gone => exact none ▸ nofun
  case expected => exact fun name fault member => (quiet _ member).elim

/-- A run from valid settings. What was collected and what remains make up the cheese of the
settings, whose places stay as they were. What remains never grows and shrinks by one piece in a
counted frame at most. No cheese is reported collected twice, and as many are as the mouse has
counted. Its target is always a piece that is still there, so that no failure of a deed tells of a
piece that was collected before, does not exist or has vanished. -/
theorem operateAll_stock {c : RunSettings} (valid : c.validate = .ok ()) (ops : List Operation) :
    ∃ start sim, ofSettings c = .ok start ∧ start.operateAll ops = (.returned (), sim) ∧
      sim.report.collected + sim.report.remaining = c.world.cheeses.length ∧
      (∀ further, ∃ sim', sim.operateAll further = (.returned (), sim') ∧
        sim'.report.remaining ≤ sim.report.remaining ∧
        sim.report.remaining + sim.frames ≤ sim'.report.remaining + sim'.frames) ∧
      (∀ delta, ∃ outcome sim', sim.play delta = (.returned outcome, sim') ∧
        sim'.report.remaining ≤ sim.report.remaining ∧
        sim.report.remaining ≤ sim'.report.remaining + 1) ∧
      (taken sim.host.events).Nodup ∧
      (taken sim.host.events).length = sim.report.collected ∧
      sim.host.scene.world.cheeses.map (·.position) = c.world.cheeses ∧
      (∀ id, sim.host.scene.mouse.target = some id → ∃ cheese,
        sim.host.scene.world.cheeses[id]? = some cheese ∧ cheese.collected = false) ∧
      ∀ name fault, .actionFailed name fault ∈ sim.host.events →
        (∀ id, fault ≠ .alreadyCollected id) ∧
        (∀ id, fault ≠ .noTarget ("no cheese with id " ++ Nat.repr id)) ∧
        fault ≠ .noTarget "cheese target vanished" := by
  obtain ⟨start, ready, sound, scene, quiet, -, -⟩ := ofSettings_of_valid valid
  obtain ⟨sim, ended, sound', tally⟩ := (tally_kept _).run sound (tally_ofSettings scene quiet) ops
  refine ⟨start, sim, ready, ended, tally.total, fun further => ?_, play_declines sound',
    tally.once, tally.counted, tally.laid, tally.targets,
    fun name fault member => (tally.expected name fault member).ordinary⟩
  obtain ⟨sim', ended', -, fewer, slow⟩ :=
    (declines_kept sim).run sound' ⟨Nat.le_refl _, Nat.le_refl _⟩ further
  exact ⟨sim', ended', fewer, slow⟩

def larder : RunSettings where
  tickInterval := 0.0
  world := { cheeses := [.ofInts 0 0, .ofInts 5 0] }
  mouse := { spawn := .ofInts 0 0 }

def inventory (c : RunSettings) (ops : List Operation) : Option (List Nat × Nat) :=
  match ofSettings c with
  | .ok start => some (taken (start.operateAll ops).2.host.events,
      (start.operateAll ops).2.report.remaining)
  | .error _ => none

/-- The piece is picked in the first frame and taken in the second. -/
theorem operateAll_stock_larder : larder.validate = .ok () ∧ ∃ start sim,
    ofSettings larder = .ok start ∧
    start.operateAll [.frame 0.25, .frame 0.25, .frame 0.25] = (.returned (), sim) ∧
    taken sim.host.events = [0] ∧ sim.report.collected = 1 ∧ sim.report.remaining = 1 ∧
    sim.report.collected + sim.report.remaining = larder.world.cheeses.length := by
  have valid : larder.validate = .ok () := rfl
  have ran : inventory larder [.frame 0.25, .frame 0.25, .frame 0.25] = some ([0], 1) := by
    decide +kernel
  obtain ⟨start, sim, ready, ended, total, -, -, -, counted, -⟩ :=
    operateAll_stock valid [.frame 0.25, .frame 0.25, .frame 0.25]
  rw [inventory, ready] at ran
  dsimp only at ran
  rw [ended] at ran
  obtain ⟨took, left⟩ := Prod.mk.inj (Option.some.inj ran)
  have one : sim.report.collected = 1 := counted.symm.trans (congrArg List.length took)
  exact ⟨valid, start, sim, ready, ended, took, one, left, total⟩

end Simulation

end Pursuit.Chase
