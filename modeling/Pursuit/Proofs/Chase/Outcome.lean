import Pursuit.Proofs.Chase.Catch

/-! How a run ends. The outcome is judged once per frame, after both turns, and kept beside the
scene. It is final, it is what the last counted frame gave back, and the scene agrees with it. In
one frame the mouse is never caught and the last cheese taken: the cat acts first, and a caught
mouse does not act. -/
namespace Pursuit.Chase

open Pursuit.Arena Pursuit.Behavior Pursuit.Settings

namespace Scene

variable {s : Scene}

theorem outcome_eq_mouseCaught : s.outcome = .mouseCaught ↔ s.mouseCaught := by
  rw [outcome]
  split
  next caught => simp [caught]
  next free => split <;> simp [free]

theorem outcome_eq_allCheeseCollected :
    s.outcome = .allCheeseCollected ↔ s.world.remaining = 0 ∧ s.mouseCaught = false := by
  rw [outcome]
  split
  next caught => simp [caught]
  next free => split <;> simp_all

theorem outcome_eq_ongoing :
    s.outcome = .ongoing ↔ s.world.remaining ≠ 0 ∧ s.mouseCaught = false := by
  rw [outcome]
  split
  next caught => simp [caught]
  next free => split <;> simp_all

theorem outcome_advance (s : Scene) (delta : Float) : (s.advance delta).outcome = s.outcome := by
  rw [advance]
  split
  · rfl
  · rfl

theorem world_advance (s : Scene) (delta : Float) : (s.advance delta).world = s.world := by
  rw [advance]
  split
  · rfl
  · rfl

end Scene

section Frame

variable {h h' : Host}

theorem Cat.Beat.world (beat : Beat Cat.Act Cat.Catches h h') :
    h'.scene.world = h.scene.world := by
  refine beat.keeps (P := fun k => k.scene.world = h.scene.world) (fun act same => ?_)
    (fun catches same => ?_) (fun _ same => same) rfl
  · cases act with
    | spot | fail => exact same
    | order _ ordered =>
      obtain ⟨destination, speed, index, -, rfl⟩ := ordered
      exact same
  · obtain ⟨-, rfl⟩ := catches
    exact same

theorem Cat.Beat.loose_or_holds (beat : Beat Cat.Act Cat.Catches h h') (loose : Loose h.scene) :
    Loose h'.scene ∨ Holds h'.scene := by
  obtain ⟨h₁, turn, said⟩ := beat
  have ended : Loose h₁.scene ∨ Holds h₁.scene := Cat.loose_or_holds turn loose
  obtain rfl | ⟨e, -, rfl⟩ := said
  · exact ended
  · exact ended

theorem Mouse.Act.world (act : Act h h') : h'.scene.world = h.scene.world := by
  cases act with
  | order _ ordered | pick _ _ _ ordered =>
    obtain ⟨destination, speed, generator, rfl⟩ := ordered
    rfl
  | fail => rfl

theorem Mouse.Beat.loose (beat : Beat Mouse.Act Mouse.Eats h h') (loose : Loose h.scene) :
    Loose h'.scene :=
  beat.keeps (P := fun h => Loose h.scene) Mouse.Act.loose Mouse.Eats.loose (fun _ loose => loose)
    loose

theorem Mouse.Beat.scene_of_caught (beat : Beat Mouse.Act Mouse.Eats h h')
    (caught : h.scene.mouseCaught) : h'.scene = h.scene := by
  obtain ⟨h₁, turn, said⟩ := beat
  obtain rfl : h₁ = h := Mouse.turn_of_caught turn caught
  obtain rfl | ⟨e, -, rfl⟩ := said
  · rfl
  · rfl

end Frame

namespace Simulation

variable {sim acted : Simulation}

/-- In the frame of the catch no cheese is taken. -/
theorem Acted.loose_or_holds (turned : sim.Acted acted) (loose : Loose sim.host.scene) :
    Loose acted.host.scene ∨
      Holds acted.host.scene ∧ acted.host.scene.world = sim.host.scene.world := by
  obtain ⟨h, cat, mouse⟩ := turned.turns
  obtain loose₁ | holds := Cat.Beat.loose_or_holds cat loose
  · exact .inl (Mouse.Beat.loose mouse loose₁)
  · have same : acted.host.scene = h.scene := Mouse.Beat.scene_of_caught mouse holds.caught
    rw [same]
    exact .inr ⟨holds, Cat.Beat.world cat⟩

/-- How a run stands that began in a world with cheese, if `stocked`, and has given back the
outcomes of `log` since. -/
structure Judged (stocked : Prop) (sim : Simulation) (log : List Outcome) : Prop where
  order : Loose sim.host.scene ∨ Holds sim.host.scene
  going : sim.outcome = .ongoing →
    Loose sim.host.scene ∧ (stocked → sim.host.scene.world.remaining ≠ 0)
  apart : stocked → sim.host.scene.mouseCaught → sim.host.scene.world.remaining ≠ 0
  stored : 0 < sim.frames → sim.outcome = sim.host.scene.outcome
  counted : log.length = sim.frames
  last : 0 < sim.frames → log.getLast? = some sim.outcome

theorem judged_kept (stocked : Prop) : Kept (Judged stocked) where
  advance {sim acted log} delta sound on turned still judged := by
    obtain ⟨left, free⟩ := Scene.outcome_eq_ongoing.1 still
    have loose : Loose acted.host.scene := by
      obtain loose | ⟨holds, -⟩ := turned.loose_or_holds (judged.going on).1
      · exact loose
      · cases free.symm.trans holds.caught
    have world : (acted.host.scene.advance delta).world = acted.host.scene.world :=
      Scene.world_advance ..
    have ongoing : acted.outcome = .ongoing := turned.outcome.trans on
    constructor
    case order => exact .inl (loose.advance delta)
    case going => exact fun _ => ⟨loose.advance delta, fun _ => world ▸ left⟩
    case apart => exact fun _ _ => world ▸ left
    case stored =>
      exact fun _ => ongoing.trans ((Scene.outcome_advance _ delta).trans still).symm
    case counted => simp [advance, turned.frames, judged.counted]
    case last => simp [advance, ongoing]
  close {sim acted log} sound on turned decided judged := by
    obtain ⟨loose, left⟩ := judged.going on
    have ended := turned.loose_or_holds loose
    constructor
    case order => exact ended.imp_right And.left
    case going => exact fun on => absurd on decided
    case apart =>
      -- In the frame of the catch the cheese is still what it was when the run went on.
      intro stocked caught
      obtain loose | ⟨-, world⟩ := ended
      · have free : acted.host.scene.mouseCaught = false := loose.free
        cases free.symm.trans caught
      · exact world ▸ left stocked
    case stored => exact fun _ => rfl
    case counted => simp [close, stop, Driver.stop, turned.frames, judged.counted]
    case last => simp [close]
  stop judged :=
    ⟨judged.order, judged.going, judged.apart, judged.stored, judged.counted, judged.last⟩

theorem judged_ofSettings {c : RunSettings} (scene : sim.host.scene = .ofSettings c)
    (frames : sim.frames = 0) : Judged (c.world.cheeses ≠ []) sim [] := by
  have loose : Loose sim.host.scene := scene ▸ ⟨rfl, nofun⟩
  have stock : c.world.cheeses ≠ [] → sim.host.scene.world.remaining ≠ 0 := by
    intro stocked
    have count : sim.host.scene.world.remaining = c.world.cheeses.length := by
      rw [scene]
      exact World.remaining_ofPlaces ..
    have some : 0 < c.world.cheeses.length := List.length_pos_iff.2 stocked
    omega
  refine ⟨.inl loose, fun _ => ⟨loose, stock⟩, fun stocked _ => stock stocked, ?_, frames.symm, ?_⟩
  · exact fun counted => absurd counted (by omega)
  · exact fun counted => absurd counted (by omega)

/-! ## After the end -/

theorem operate_of_decided (decided : sim.outcome ≠ .ongoing) (op : Operation) :
    ∃ sim', sim.operate op = (.returned (), sim') ∧ sim'.host.scene = sim.host.scene ∧
      sim'.report = sim.report := by
  have played (delta : Float) : sim.play delta = (.returned sim.outcome, sim) :=
    play_of_decided decided delta
  cases op with
  | frame delta => exact ⟨sim, by rw [operate, frame, played]; rfl, rfl, rfl⟩
  | stop => exact ⟨sim.stop, rfl, rfl, rfl⟩
  | runHeadless total =>
    exact ⟨sim, by rw [operate, runHeadless, frames?_of_decided decided], rfl, rfl⟩

theorem operateAll_of_decided (decided : sim.outcome ≠ .ongoing) (ops : List Operation) :
    ∃ sim', sim.operateAll ops = (.returned (), sim') ∧ sim'.host.scene = sim.host.scene ∧
      sim'.report = sim.report := by
  induction ops generalizing sim with
  | nil => exact ⟨sim, rfl, rfl, rfl⟩
  | cons op ops ih =>
    obtain ⟨sim₁, moved, scene, report⟩ := operate_of_decided decided op
    have same : sim₁.outcome = sim.outcome := congrArg Report.outcome report
    obtain ⟨sim', ended, scene', report'⟩ := ih (same ▸ decided)
    exact ⟨sim', by rw [operateAll, moved]; exact ended, scene'.trans scene, report'.trans report⟩

/-- A run from valid settings. Once its outcome is not ongoing nothing that the host does changes
the scene, the report or the outcome, which every further frame gives back. As soon as a frame was
counted the outcome is that of the scene and the one the last counted frame gave back; it says that
the mouse is caught exactly if it is, and then the cat's mode says so too, and that all cheese is
taken exactly if none is left and the mouse is free. If there was cheese, the mouse is not caught
with none left. -/
theorem operateAll_outcome {c : RunSettings} (valid : c.validate = .ok ()) (ops : List Operation) :
    ∃ start sim, ofSettings c = .ok start ∧ start.operateAll ops = (.returned (), sim) ∧
      (sim.outcome ≠ .ongoing →
        (∀ delta, sim.play delta = (.returned sim.outcome, sim)) ∧
        ∀ further, ∃ sim', sim.operateAll further = (.returned (), sim') ∧
          sim'.host.scene = sim.host.scene ∧ sim'.report = sim.report ∧
          sim'.outcome = sim.outcome) ∧
      (0 < sim.frames →
        sim.outcome = sim.host.scene.outcome ∧
        (start.answersToAll ops).length = sim.frames ∧
        (start.answersToAll ops).getLast? = some sim.outcome ∧
        (sim.outcome = .mouseCaught ↔ sim.host.scene.mouseCaught) ∧
        (sim.host.scene.mouseCaught ↔ sim.report.catMode = .caught) ∧
        (sim.outcome = .allCheeseCollected ↔
          sim.report.remaining = 0 ∧ sim.host.scene.mouseCaught = false)) ∧
      (c.world.cheeses ≠ [] → ¬(sim.host.scene.mouseCaught ∧ sim.report.remaining = 0)) := by
  obtain ⟨start, ready, sound, scene, -, frames, -⟩ := ofSettings_of_valid valid
  obtain ⟨sim, ended, -, judged⟩ :=
    (judged_kept _).run sound (judged_ofSettings scene frames) ops
  refine ⟨start, sim, ready, ended, fun decided => ⟨play_of_decided decided, fun further => ?_⟩,
    fun counted => ?_, fun stocked ⟨caught, empty⟩ => judged.apart stocked caught empty⟩
  · obtain ⟨sim', ended', scene', report'⟩ := operateAll_of_decided decided further
    exact ⟨sim', ended', scene', report', congrArg Report.outcome report'⟩
  · have stored := judged.stored counted
    have mode : sim.host.scene.mouseCaught ↔ sim.host.scene.cat.mode = .caught := by
      obtain loose | holds := judged.order
      · simp [loose.free, loose.mode]
      · simp [holds.caught, holds.mode]
    exact ⟨stored, judged.counted, judged.last counted, stored ▸ Scene.outcome_eq_mouseCaught, mode,
      stored ▸ Scene.outcome_eq_allCheeseCollected⟩

def summary (c : RunSettings) (ops : List Operation) : Option (Outcome × Nat) :=
  match ofSettings c with
  | .ok start => some ((start.operateAll ops).2.outcome, (start.operateAll ops).2.frames)
  | .error _ => none

/-- A time that cannot be used is counted, but the first tick of the cat ends the run. -/
theorem operateAll_outcome_near : Stage.near.validate = .ok () ∧ ∃ start sim,
    ofSettings Stage.near = .ok start ∧
    start.operateAll [.frame (-1.0), .frame 0.5, .stop, .runHeadless 7] = (.returned (), sim) ∧
    sim.frames = 2 ∧ sim.outcome = .mouseCaught ∧ sim.play 0.5 = (.returned .mouseCaught, sim) ∧
    sim.host.scene.mouseCaught ∧ sim.report.catMode = .caught ∧ sim.report.remaining ≠ 0 := by
  have valid : Stage.near.validate = .ok () := rfl
  have ran : summary Stage.near [.frame (-1.0), .frame 0.5, .stop, .runHeadless 7] =
      some (.mouseCaught, 2) := by decide +kernel
  obtain ⟨start, sim, ready, ended, final, agrees, apart⟩ :=
    operateAll_outcome valid [.frame (-1.0), .frame 0.5, .stop, .runHeadless 7]
  rw [summary, ready] at ran
  dsimp only at ran
  rw [ended] at ran
  obtain ⟨outcome, frames⟩ := Prod.mk.inj (Option.some.inj ran)
  have played := (final (outcome ▸ nofun)).1 0.5
  rw [outcome] at played
  obtain ⟨-, -, -, caught, mode, -⟩ := agrees (frames ▸ Nat.two_pos)
  have held := caught.1 outcome
  exact ⟨valid, start, sim, ready, ended, frames, outcome, played, held, mode.1 held,
    fun empty => apart nofun ⟨held, empty⟩⟩

end Simulation

end Pursuit.Chase
