import Pursuit.Proofs.Chase.Outcome

/-! Headless runs. The budget of one counts frames from the start of the simulation, so a run that
is told again to go on up to some total adds nothing to what it has had. The loop is written out
round by round beside the definition, as a relation that says how often a frame is asked for. -/
namespace Pursuit.Chase.Simulation

open Pursuit.Behavior Pursuit.Settings

variable {sim sim₁ sim' : Simulation} {delta : Float} {outcome : Outcome} {total calls : ℕ}

/-! ## What a frame that returns leaves -/

theorem settle_eq (sim : Simulation) (delta : Float) :
    (sim.settle delta).1 = sim.host.scene.outcome ∧
      (sim.settle delta).2.frames = sim.frames + 1 ∧
      (sim.settle delta).2.frameDelta = sim.frameDelta ∧
      (sim.outcome = .ongoing → (sim.settle delta).2.outcome = sim.host.scene.outcome) := by
  by_cases on : sim.host.scene.outcome = .ongoing
  · rw [settle_of_ongoing on, on]
    exact ⟨rfl, rfl, rfl, id⟩
  · rw [settle_of_decided on]
    exact ⟨rfl, rfl, rfl, fun _ => rfl⟩

/-- A frame is counted if the outcome was open, and gives back the outcome that it leaves. -/
theorem play_returned (played : sim.play delta = (.returned outcome, sim')) :
    sim'.outcome = outcome ∧ sim'.frameDelta = sim.frameDelta ∧
      sim'.frames = if sim.outcome = .ongoing then sim.frames + 1 else sim.frames := by
  by_cases on : sim.outcome = .ongoing
  · rw [play, if_pos on] at played
    rw [if_pos on]
    split at played
    next cat h _ =>
      split at played
      next mouse h _ =>
        obtain ⟨ended, frames, length, stored⟩ :=
          settle_eq { sim with catDriver := cat, mouseDriver := mouse, host := h } delta
        obtain ⟨given, rfl⟩ := Prod.mk.inj played
        exact ⟨(stored on).trans (ended.symm.trans (Exit.returned.inj given)), length, frames⟩
      next => cases played
      next => cases played
    next => cases played
    next => cases played
  · rw [play_of_decided on] at played
    obtain ⟨given, rfl⟩ := Prod.mk.inj played
    exact ⟨Exit.returned.inj given, rfl, (if_neg on).symm⟩

theorem play_eq_ongoing (played : sim.play delta = (.returned .ongoing, sim')) :
    sim'.frames = sim.frames + 1 ∧ sim'.frameDelta = sim.frameDelta := by
  obtain ⟨-, length, frames⟩ := play_returned played
  refine ⟨?_, length⟩
  by_cases on : sim.outcome = .ongoing
  · rw [frames, if_pos on]
  · rw [play_of_decided on] at played
    exact absurd (Exit.returned.inj (congrArg Prod.fst played)) on

/-! ## The loop -/

/-- Asks for frames of the configured length for as long as fewer than `total` have been counted and
the last one left the outcome open. How often it asks is counted. -/
inductive Loops (total : ℕ) : Simulation → ℕ → Simulation → Prop
  | spent {s : Simulation} (full : total ≤ s.frames) : Loops total s 0 s
  | stopped {s s' : Simulation} {o : Outcome} (room : s.frames < total)
      (played : s.play s.frameDelta = (.returned o, s')) (decided : o ≠ .ongoing) :
      Loops total s 1 s'
  | going {s s₁ s' : Simulation} {n : ℕ} (room : s.frames < total)
      (played : s.play s.frameDelta = (.returned .ongoing, s₁)) (rest : Loops total s₁ n s') :
      Loops total s (n + 1) s'

theorem exists_loops (sound : sim.Sound) (total : ℕ) :
    ∃ calls sim', Loops total sim calls sim' ∧ sim'.Sound := by
  induction rounds : total - sim.frames generalizing sim with
  | zero => exact ⟨0, sim, .spent (by omega), sound⟩
  | succ rounds ih =>
    have room : sim.frames < total := by omega
    obtain ⟨outcome, sim₁, played, sound₁⟩ := play_returns sound sim.frameDelta
    by_cases on : outcome = .ongoing
    · rw [on] at played
      have counted := (play_eq_ongoing played).1
      obtain ⟨calls, sim', rest, sound'⟩ := ih sound₁ (by omega)
      exact ⟨calls + 1, sim', .going room played rest, sound'⟩
    · exact ⟨1, sim₁, .stopped room played on, sound₁⟩

namespace Loops

theorem runHeadless_eq (loops : Loops total sim calls sim') :
    sim.runHeadless total = (.returned (), sim') := by
  induction loops with
  | spent full => rw [runHeadless, Nat.sub_eq_zero_of_le full, frames?]
  | @stopped sim sim' outcome room played decided =>
    have more : total - sim.frames = (total - sim.frames - 1) + 1 := by omega
    rw [runHeadless, more, frames?, played]
    cases outcome with
    | ongoing => exact absurd rfl decided
    | mouseCaught | allCheeseCollected => rfl
  | @going sim sim₁ sim' calls room played rest ih =>
    obtain ⟨counted, length⟩ := play_eq_ongoing played
    have more : total - sim.frames = (total - sim₁.frames) + 1 := by omega
    rw [runHeadless, more, frames?, played, ← length]
    exact ih

/-- Nothing but frames of the configured length, one a round. -/
theorem operateAll_eq (loops : Loops total sim calls sim') :
    sim.operateAll (List.replicate calls (.frame sim.frameDelta)) = (.returned (), sim') := by
  induction loops with
  | spent => rfl
  | stopped room played decided =>
    rw [List.replicate_one, operateAll, operate, frame, played]
    rfl
  | going room played rest ih =>
    rw [List.replicate_succ, operateAll, operate, frame, played, ← (play_eq_ongoing played).2]
    exact ih

theorem full_or_decided (loops : Loops total sim calls sim') :
    total ≤ sim'.frames ∨ sim'.outcome ≠ .ongoing := by
  induction loops with
  | spent full => exact .inl full
  | stopped room played decided => exact .inr ((play_returned played).1 ▸ decided)
  | going room played rest ih => exact ih

theorem frames_le (loops : Loops total sim calls sim') (fits : sim.frames ≤ total) :
    sim'.frames ≤ total := by
  induction loops with
  | spent => exact fits
  | stopped room played decided =>
    rw [(play_returned played).2.2]
    split <;> omega
  | going room played rest ih =>
    have counted := (play_eq_ongoing played).1
    exact ih (by omega)

theorem eq_of_decided (loops : Loops total sim calls sim') (decided : sim.outcome ≠ .ongoing) :
    sim' = sim := by
  have same := loops.runHeadless_eq
  rw [runHeadless, frames?_of_decided decided] at same
  exact (Prod.mk.inj same).2.symm

theorem max_of_le {first : ℕ} (loops : Loops total sim calls sim') (spent : first ≤ sim.frames) :
    Loops (max first total) sim calls sim' := by
  induction loops with
  | spent full => exact .spent (max_le spent full)
  | stopped room played decided => exact .stopped (lt_max_of_lt_right room) played decided
  | going room played rest ih =>
    have counted := (play_eq_ongoing played).1
    exact .going (lt_max_of_lt_right room) played (ih (by omega))

theorem trans {first more : ℕ} (loops : Loops first sim calls sim₁)
    (next : Loops total sim₁ more sim') :
    ∃ all, Loops (max first total) sim all sim' := by
  induction loops with
  | spent full => exact ⟨more, next.max_of_le full⟩
  | stopped room played decided =>
    obtain rfl := next.eq_of_decided ((play_returned played).1 ▸ decided)
    exact ⟨1, .stopped (lt_max_of_lt_left room) played decided⟩
  | going room played rest ih =>
    obtain ⟨all, rest⟩ := ih next
    exact ⟨all + 1, .going (lt_max_of_lt_left room) played rest⟩

end Loops

/-- A headless run in any state of a run from valid settings. To go on up to `a` frames in all and
then up to `b` leaves the simulation, and so its report, as going on up to the greater of the two
does. The loop ends after some number of calls; it leaves what as many single frames of the
configured length leave; it stops only when the budget is reached or the run is over; and it goes
beyond the budget only if the run had been beyond it before. -/
theorem operateAll_runHeadless {c : RunSettings} (valid : c.validate = .ok ())
    (ops : List Operation) (a b : ℕ) :
    ∃ start sim, ofSettings c = .ok start ∧ start.operateAll ops = (.returned (), sim) ∧
      (∃ first last, sim.runHeadless a = (.returned (), first) ∧
        first.runHeadless b = (.returned (), last) ∧
        sim.runHeadless (max a b) = (.returned (), last)) ∧
      ∃ calls last, Loops b sim calls last ∧ sim.runHeadless b = (.returned (), last) ∧
        sim.operateAll (List.replicate calls (.frame sim.frameDelta)) = (.returned (), last) ∧
        (b ≤ last.report.frames ∨ last.report.outcome ≠ .ongoing) ∧
        (sim.frames ≤ b → last.report.frames ≤ b) := by
  obtain ⟨start, ready, sound, -⟩ := ofSettings_of_valid valid
  obtain ⟨sim, ended, sound, -⟩ := Kept.always.run sound trivial ops
  refine ⟨start, sim, ready, ended, ?_, ?_⟩
  · obtain ⟨calls, first, loops, sound'⟩ := exists_loops sound a
    obtain ⟨more, last, next, -⟩ := exists_loops sound' b
    obtain ⟨all, whole⟩ := loops.trans next
    exact ⟨first, last, loops.runHeadless_eq, next.runHeadless_eq, whole.runHeadless_eq⟩
  · obtain ⟨calls, last, loops, -⟩ := exists_loops sound b
    exact ⟨calls, last, loops, loops.runHeadless_eq, loops.operateAll_eq, loops.full_or_decided,
      loops.frames_le⟩

/-- The first budget falls short of the second, and a stopped run is counted on. -/
theorem operateAll_runHeadless_stopped : RunSettings.validate {} = .ok () ∧ ∃ start sim first last,
    ofSettings {} = .ok start ∧ start.operateAll [.frame 0.5, .stop] = (.returned (), sim) ∧
    sim.runHeadless 2 = (.returned (), first) ∧ first.runHeadless 4 = (.returned (), last) ∧
    sim.runHeadless 4 = (.returned (), last) ∧
    last.report.frames = 4 ∧ last.report.outcome = .ongoing := by
  have valid : RunSettings.validate {} = .ok () := rfl
  have ran : summary {} [.frame 0.5, .stop, .runHeadless 4] = some (.ongoing, 4) := by
    decide +kernel
  obtain ⟨start, sim, ready, ended, ⟨first, last, one, two, whole⟩, -⟩ :=
    operateAll_runHeadless valid [.frame 0.5, .stop] 2 4
  have whole : sim.runHeadless 4 = (.returned (), last) := whole
  have all : start.operateAll [.frame 0.5, .stop, .runHeadless 4] = (.returned (), last) := by
    rw [show [.frame 0.5, .stop, .runHeadless 4] = [.frame 0.5, .stop] ++ [Operation.runHeadless 4]
      from rfl, operateAll_append ended, operateAll, operate, whole]
    rfl
  rw [summary, ready] at ran
  dsimp only at ran
  rw [all] at ran
  obtain ⟨outcome, frames⟩ := Prod.mk.inj (Option.some.inj ran)
  exact ⟨valid, start, sim, first, last, ready, ended, one, two, whole, frames, outcome⟩

end Pursuit.Chase.Simulation
