import Pursuit.Proofs.Chase.Footprints
import Pursuit.Proofs.Chase.Stutter

/-! What a run counts and how much time passes in it. A frame is counted if the run was still going
on when it came, and moves the agents only if the run still goes on after the two trees have had
their time. So the frame in which a run ends is counted, but neither its time nor any movement. -/
namespace Pursuit.Chase

open Pursuit.Behavior Pursuit.Settings

structure Scene.Rests (s s' : Scene) : Prop where
  elapsed : s'.elapsed = s.elapsed
  cat : s'.cat.nav.position = s.cat.nav.position
  mouse : s'.mouse.nav.position = s.mouse.nav.position

variable {s s' : Scene}

theorem Cat.Spares.rests (spared : Cat.Spares s s') : s.Rests s' := by
  obtain ⟨cat, rfl | ⟨-, rfl⟩, place, -⟩ := spared
  · exact ⟨rfl, place, rfl⟩
  · exact ⟨rfl, place, rfl⟩

theorem Mouse.Spares.rests (spared : Mouse.Spares s s') : s.Rests s' := by
  obtain ⟨mouse, cheeses, generator, rfl, place, -⟩ := spared
  exact ⟨rfl, rfl, place⟩

theorem Scene.Rests.trans {s'' : Scene} (first : s.Rests s') (second : s'.Rests s'') :
    s.Rests s'' :=
  ⟨second.elapsed.trans first.elapsed, second.cat.trans first.cat, second.mouse.trans first.mouse⟩

theorem Scene.elapsed_advance (s : Scene) (delta : Float) :
    (s.advance delta).elapsed = if Driver.usable delta then s.elapsed + delta else s.elapsed := by
  rw [advance, Driver.usable]
  split
  · rfl
  · rfl

namespace Simulation

variable {sim : Simulation}

/-! ## One frame -/

theorem play_rests (sound : sim.Sound) (on : sim.outcome = .ongoing) (delta : Float) :
    ∃ acted : Simulation, acted.Sound ∧ acted.frames = sim.frames ∧
      sim.host.scene.Rests acted.host.scene ∧
      sim.play delta = (.returned (acted.settle delta).1, (acted.settle delta).2) := by
  obtain ⟨cat, h₁, catFrame, catRoot, catBeat⟩ :=
    frame_beat sound.cat (Cat.tick_turn sound.host) delta
  have sound₁ := Cat.Beat.sound catBeat sound.host
  obtain ⟨mouse, h₂, mouseFrame, mouseRoot, mouseBeat⟩ :=
    frame_beat sound.mouse (Mouse.tick_turn sound₁) delta
  have catSpared : OnScene Cat.Spares sim.host (sim.catDriver.frame delta sim.host).2.2 :=
    Cat.footprint.frame sound.cat Cat.leaves_spare delta sim.host
  have mouseSpared : OnScene Mouse.Spares h₁ (sim.mouseDriver.frame delta h₁).2.2 :=
    Mouse.footprint.frame sound.mouse Mouse.leaves_spare delta h₁
  rw [catFrame] at catSpared
  rw [mouseFrame] at mouseSpared
  exact ⟨{ sim with catDriver := cat, mouseDriver := mouse, host := h₂ },
    ⟨Mouse.Beat.sound mouseBeat sound₁, catRoot, mouseRoot⟩, rfl,
    (Cat.Spares.rests catSpared).trans (Mouse.Spares.rests mouseSpared),
    play_of_frames sim on catFrame mouseFrame⟩

/-- What one frame adds to the count and to the time, and that it moves no agent unless it gives
back that the run goes on. -/
theorem play_clock (sound : sim.Sound) (delta : Float) :
    ∃ outcome sim', sim.play delta = (.returned outcome, sim') ∧ sim'.Sound ∧
      sim'.frames = (if sim.outcome = .ongoing then sim.frames + 1 else sim.frames) ∧
      (outcome = .ongoing → sim'.host.scene.elapsed =
        if Driver.usable delta then sim.host.scene.elapsed + delta else sim.host.scene.elapsed) ∧
      (outcome ≠ .ongoing → sim.host.scene.Rests sim'.host.scene) := by
  by_cases on : sim.outcome = .ongoing
  · obtain ⟨acted, sound', frames, rests, played⟩ := play_rests sound on delta
    by_cases still : acted.host.scene.outcome = .ongoing
    · rw [settle_of_ongoing still] at played
      refine ⟨_, _, played, advance_sound sound' delta, ?_, fun _ => ?_,
        fun other => absurd rfl other⟩
      · rw [if_pos on, ← frames]
        rfl
      · rw [← rests.elapsed]
        exact Scene.elapsed_advance acted.host.scene delta
    · rw [settle_of_decided still] at played
      refine ⟨_, _, played, close_sound sound', ?_, fun same => absurd same still, fun _ => rests⟩
      rw [if_pos on, ← frames]
      rfl
  · exact ⟨_, sim, play_of_decided on delta, sound, (if_neg on).symm, fun same => absurd same on,
      fun _ => ⟨rfl, rfl, rfl⟩⟩

/-! ## Runs -/

/-- The times of the frames that give back that the run goes on. -/
def moved (sim : Simulation) : List Float → List Float
  | [] => []
  | delta :: deltas =>
    let rest := (sim.play delta).2.moved deltas
    if (sim.play delta).1 = .returned .ongoing then delta :: rest else rest

theorem operateAll_frames (sound : sim.Sound) (deltas : List Float) :
    ∃ sim', sim.operateAll (deltas.map .frame) = (.returned (), sim') ∧ sim'.Sound ∧
      sim'.frames = sim.frames + (sim.heard deltas).length ∧
      sim'.host.scene.elapsed =
        ((sim.moved deltas).filter Driver.usable).foldl (· + ·) sim.host.scene.elapsed := by
  induction deltas generalizing sim with
  | nil => exact ⟨sim, rfl, sound, rfl, rfl⟩
  | cons delta deltas ih =>
    obtain ⟨outcome, sim₁, played, sound₁, counted, passed, rests⟩ := play_clock sound delta
    obtain ⟨sim', ended, sound', frames, elapsed⟩ := ih sound₁
    refine ⟨sim', (operateAll_frame played).trans ended, sound', ?_, ?_⟩
    · rw [frames, counted, heard, played]
      split
      · rw [List.length_cons, Nat.add_assoc, Nat.add_comm 1]
      · rfl
    · rw [elapsed, moved, played]
      by_cases on : outcome = .ongoing
      · subst on
        rw [passed rfl, if_pos rfl, List.filter_cons]
        split
        · rfl
        · rfl
      · have other : Exit.returned outcome ≠ .returned .ongoing := fun same =>
          on (Exit.returned.inj same)
        rw [if_neg other, (rests on).elapsed]

/-- Any frames in a row in a run from valid settings. The run counts those that come while it goes
on, the one that ends it among them. Its seconds are the sum, in order from zero, of the times of
those that give back that it goes on and whose time can be used. A frame that gives back anything
else moves no agent. -/
theorem operateAll_clock {c : RunSettings} (valid : c.validate = .ok ()) (deltas : List Float) :
    ∃ start sim, ofSettings c = .ok start ∧
      start.operateAll (deltas.map .frame) = (.returned (), sim) ∧
      sim.report.frames = (start.heard deltas).length ∧
      sim.report.seconds = ((start.moved deltas).filter Driver.usable).foldl (· + ·) 0.0 ∧
      ∀ delta, (sim.play delta).1 ≠ .returned .ongoing →
        (sim.play delta).2.report.catPosition = sim.report.catPosition ∧
        (sim.play delta).2.report.mousePosition = sim.report.mousePosition := by
  obtain ⟨start, ready, sound, scene, -, frames, -⟩ := ofSettings_of_valid valid
  obtain ⟨sim, ended, sound', counted, elapsed⟩ := operateAll_frames sound deltas
  rw [frames, Nat.zero_add] at counted
  rw [scene] at elapsed
  refine ⟨start, sim, ready, ended, counted, elapsed, fun delta stopped => ?_⟩
  obtain ⟨outcome, sim₁, played, -, -, -, rests⟩ := play_clock sound' delta
  rw [played] at stopped ⊢
  have still := rests fun on => stopped (congrArg Exit.returned on)
  exact ⟨still.cat, still.mouse⟩

def timing (c : RunSettings) (deltas : List Float) : Option (List Float × List Float) :=
  match ofSettings c with
  | .ok start => some (start.heard deltas, start.moved deltas)
  | .error _ => none

/-- One time cannot be used, one is followed by no tick, one brings the tick that ends the run, and
one comes too late. -/
theorem operateAll_clock_near : Stage.near.validate = .ok () ∧ ∃ start sim,
    ofSettings Stage.near = .ok start ∧
    start.operateAll [.frame (-1.0), .frame 0.25, .frame 0.5, .frame 0.125] = (.returned (), sim) ∧
    sim.report.frames = 3 ∧ sim.report.seconds = 0.25 := by
  have valid : Stage.near.validate = .ok () := rfl
  have times : timing Stage.near [-1.0, 0.25, 0.5, 0.125] =
      some ([-1.0, 0.25, 0.5], [-1.0, 0.25]) := by
    decide +kernel
  have sum : ([-1.0, 0.25].filter Driver.usable).foldl (· + ·) 0.0 = 0.25 := by decide +kernel
  obtain ⟨start, sim, ready, ended, frames, seconds, -⟩ :=
    operateAll_clock valid [-1.0, 0.25, 0.5, 0.125]
  rw [timing, ready] at times
  obtain ⟨counted, passed⟩ := Prod.mk.inj (Option.some.inj times)
  rw [counted] at frames
  rw [passed, sum] at seconds
  exact ⟨valid, start, sim, ready, ended, frames, seconds⟩

end Simulation

end Pursuit.Chase
