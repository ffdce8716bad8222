import Pursuit.Proofs.Chase.Safety

/-! The two drivers of a run. They begin alike and every frame and every stop reaches both, so they
gather the same times and tick in the same frames, whatever their trees do. -/
namespace Pursuit.Chase.Simulation

open Pursuit.Behavior Pursuit.Settings

variable {sim acted : Simulation}

/-- The drivers show the same clock, which has ticked in no frame twice. -/
structure Lockstep (sim : Simulation) : Prop where
  interval : sim.catDriver.interval = sim.mouseDriver.interval
  running : sim.catDriver.isRunning = sim.mouseDriver.isRunning
  scanned : sim.catDriver.scanned = sim.mouseDriver.scanned
  ticks : sim.mouseDriver.ticks ≤ sim.frames

theorem ticks_gatherAll (interval delta : Float) (c : Scan) (p : Prop) [Decidable p] :
    (c.gatherAll interval (if p then [delta] else [])).ticks = c.ticks ∨
      (c.gatherAll interval (if p then [delta] else [])).ticks = c.ticks + 1 := by
  by_cases passed : p
  · simp only [passed, if_true, Scan.gatherAll, List.foldl_cons, List.foldl_nil, Scan.gather]
    by_cases due : interval ≤ c.timer + delta
    · exact .inr (by rw [if_pos due])
    · exact .inl (by rw [if_neg due])
  · exact .inl (by rw [if_neg passed]; rfl)

theorem Acted.ticks (turned : sim.Acted acted) (same : sim.Lockstep) :
    (acted.catDriver.ticks = sim.catDriver.ticks ∧
        acted.mouseDriver.ticks = sim.mouseDriver.ticks) ∨
      (acted.catDriver.ticks = sim.catDriver.ticks + 1 ∧
        acted.mouseDriver.ticks = sim.mouseDriver.ticks + 1) := by
  obtain ⟨delta, cat, mouse⟩ := turned.clocks
  have catTicks := congrArg Scan.ticks cat.scanned
  have mouseTicks := congrArg Scan.ticks mouse.scanned
  rw [same.interval, same.running, same.scanned] at catTicks
  have together : sim.catDriver.ticks = sim.mouseDriver.ticks := congrArg Scan.ticks same.scanned
  have moved := ticks_gatherAll sim.mouseDriver.interval delta sim.mouseDriver.scanned
    (sim.mouseDriver.isRunning ∧ delta.isFinite ∧ ¬ delta < 0.0)
  rw [← mouseTicks] at moved catTicks
  have catMoved : acted.catDriver.ticks = acted.mouseDriver.ticks := catTicks
  obtain stayed | ticked := moved
  · exact .inl ⟨catMoved.trans (Eq.trans stayed together.symm), stayed⟩
  · refine .inr ⟨?_, ticked⟩
    rw [catMoved, together]
    exact ticked

theorem Acted.lockstep (turned : sim.Acted acted) (same : sim.Lockstep) :
    acted.catDriver.interval = acted.mouseDriver.interval ∧
      acted.catDriver.isRunning = acted.mouseDriver.isRunning ∧
      acted.catDriver.scanned = acted.mouseDriver.scanned ∧
      acted.mouseDriver.ticks ≤ acted.frames + 1 := by
  have ticks : acted.mouseDriver.ticks ≤ sim.mouseDriver.ticks + 1 := by
    obtain ⟨-, stayed⟩ | ⟨-, ticked⟩ := turned.ticks same
    · omega
    · omega
  have counted := same.ticks
  have frames := turned.frames
  obtain ⟨delta, cat, mouse⟩ := turned.clocks
  refine ⟨?_, ?_, ?_, by omega⟩
  · rw [cat.interval, mouse.interval, same.interval]
  · rw [cat.running, mouse.running, same.running]
  · rw [cat.scanned, mouse.scanned, same.interval, same.running, same.scanned]

theorem lockstep_kept : Kept fun sim _ => Lockstep sim where
  advance _ _ _ turned _ same :=
    have ⟨interval, running, scanned, ticks⟩ := turned.lockstep same
    ⟨interval, running, scanned, ticks⟩
  close _ _ turned _ same :=
    have ⟨interval, _, scanned, ticks⟩ := turned.lockstep same
    ⟨interval, rfl, scanned, ticks⟩
  stop same := ⟨same.interval, rfl, same.scanned, same.ticks⟩

theorem play_ticks (sound : sim.Sound) (same : sim.Lockstep) (delta : Float) : ∃ outcome sim',
    sim.play delta = (.returned outcome, sim') ∧
      ((sim'.catDriver.ticks = sim.catDriver.ticks ∧
          sim'.mouseDriver.ticks = sim.mouseDriver.ticks) ∨
        (sim'.catDriver.ticks = sim.catDriver.ticks + 1 ∧
          sim'.mouseDriver.ticks = sim.mouseDriver.ticks + 1)) := by
  by_cases on : sim.outcome = .ongoing
  · obtain ⟨acted, turned, played⟩ := play_of_ongoing sound on delta
    refine ⟨_, _, played, ?_⟩
    by_cases still : acted.host.scene.outcome = .ongoing
    · rw [settle_of_ongoing still]
      exact turned.ticks same
    · rw [settle_of_decided still]
      exact turned.ticks same
  · exact ⟨_, _, play_of_decided on delta, .inl ⟨rfl, rfl⟩⟩

theorem lockstep_ofSettings {c : RunSettings} (ready : ofSettings c = .ok sim) : sim.Lockstep := by
  obtain ⟨_, -, made⟩ := bind_eq_ok ready
  obtain ⟨cat, catMade, made⟩ := bind_eq_ok made
  obtain ⟨mouse, mouseMade, made⟩ := bind_eq_ok made
  obtain rfl := Driver.create?_eq_ok catMade
  obtain rfl := Driver.create?_eq_ok mouseMade
  obtain rfl := Except.ok.inj made
  exact ⟨rfl, rfl, rfl, Nat.le_refl 0⟩

/-- A run from valid settings. Wherever it stands both drivers have gathered the same time, ticked
equally often and are running or stopped alike; the next frame, whatever its time, ticks both or
neither; and there were no more ticks of either than frames. -/
theorem operateAll_lockstep {c : RunSettings} (valid : c.validate = .ok ()) (ops : List Operation) :
    ∃ start sim, ofSettings c = .ok start ∧ start.operateAll ops = (.returned (), sim) ∧
      sim.catDriver.timer = sim.mouseDriver.timer ∧
      sim.catDriver.ticks = sim.mouseDriver.ticks ∧
      sim.catDriver.isRunning = sim.mouseDriver.isRunning ∧
      (∀ delta, ∃ outcome sim', sim.play delta = (.returned outcome, sim') ∧
        ((sim'.catDriver.ticks = sim.catDriver.ticks ∧
            sim'.mouseDriver.ticks = sim.mouseDriver.ticks) ∨
          (sim'.catDriver.ticks = sim.catDriver.ticks + 1 ∧
            sim'.mouseDriver.ticks = sim.mouseDriver.ticks + 1))) ∧
      sim.report.catTicks = sim.report.mouseTicks ∧
      sim.report.mouseTicks ≤ sim.report.frames := by
  obtain ⟨start, ready, sound, -⟩ := ofSettings_of_valid valid
  obtain ⟨sim, ended, sound', same⟩ := lockstep_kept.run sound (lockstep_ofSettings ready) ops
  have together : sim.catDriver.ticks = sim.mouseDriver.ticks := congrArg Scan.ticks same.scanned
  exact ⟨start, sim, ready, ended, congrArg Scan.timer same.scanned, together, same.running,
    play_ticks sound' same, together, same.ticks⟩

def paces (c : RunSettings) (ops : List Operation) : Option (Nat × Nat × Nat) :=
  match ofSettings c with
  | .ok start =>
    let sim := (start.operateAll ops).2
    some (sim.catDriver.ticks, sim.mouseDriver.ticks, sim.frames)
  | .error _ => none

/-- Two of the frames fill the interval, one cannot be used, and one comes after the stop. -/
theorem operateAll_lockstep_outing : RunSettings.validate {} = .ok () ∧ ∃ start sim,
    ofSettings {} = .ok start ∧
    start.operateAll [.frame 0.5, .frame (-1.0), .frame 0.75, .stop, .frame 0.5] =
      (.returned (), sim) ∧
    sim.catDriver.ticks = 2 ∧ sim.mouseDriver.ticks = 2 ∧ sim.frames = 4 ∧
    sim.catDriver.timer = sim.mouseDriver.timer ∧
    sim.catDriver.isRunning = sim.mouseDriver.isRunning := by
  have valid : RunSettings.validate {} = .ok () := rfl
  have ran : paces {} [.frame 0.5, .frame (-1.0), .frame 0.75, .stop, .frame 0.5] =
      some (2, 2, 4) := by decide +kernel
  obtain ⟨start, sim, ready, ended, timer, -, running, -⟩ :=
    operateAll_lockstep valid [.frame 0.5, .frame (-1.0), .frame 0.75, .stop, .frame 0.5]
  rw [paces, ready] at ran
  dsimp only at ran
  rw [ended] at ran
  obtain ⟨cat, rest⟩ := Prod.mk.inj (Option.some.inj ran)
  obtain ⟨mouse, frames⟩ := Prod.mk.inj rest
  exact ⟨valid, start, sim, ready, ended, cat, mouse, frames, timer, running⟩

end Pursuit.Chase.Simulation
