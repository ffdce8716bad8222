import Pursuit.Proofs.Behavior.Likeness
import Pursuit.Proofs.Chase.Outcome

/-! Frames whose time cannot be used. Both drivers and the scene pass over the same times, so such a
frame of a run that goes on is counted and logged and changes nothing else. What the leaves of the
trees do does not hang on the log or the count, so the rest of the run is as it were without it. -/
namespace Pursuit.Chase

open Pursuit.Behavior Pursuit.Settings

def Host.shown (h : Host) : Scene × Bool := (h.scene, h.spoiled)

theorem Host.shown_record (e : Event) (h : Host) : (record e h).shown = h.shown := rfl

theorem heeds_condition (name : String) (check : Scene → Bool × Scene) :
    (condition name check).HeedsLeaf Host.shown := by
  rintro ⟨s, spoiled, events⟩ ⟨s', spoiled', events'⟩ same
  obtain ⟨rfl, rfl⟩ : s' = s ∧ spoiled' = spoiled := Prod.mk.inj same
  cases spoiled' with
  | false | true => exact .finish rfl rfl

theorem heeds_action (name : String) (deed : Scene → Deed) :
    (action name deed).HeedsLeaf Host.shown := by
  rintro ⟨s, spoiled, events⟩ ⟨s', spoiled', events'⟩ same
  obtain ⟨rfl, rfl⟩ : s' = s ∧ spoiled' = spoiled := Prod.mk.inj same
  cases spoiled' with
  | true => exact .finish rfl rfl
  | false =>
    simp only [Host.lock, Bool.false_eq_true, if_false]
    cases deed s' with
    | done | failed => exact .finish rfl rfl
    | broken => exact .unwind rfl

theorem Cat.heeds_tree : Cat.tree.Heeds Host.shown := leaves_tree heeds_condition heeds_action

theorem Mouse.heeds_tree : Mouse.tree.Heeds Host.shown := leaves_tree heeds_condition heeds_action

/-- Negative, infinite or no number. -/
def unusable (delta : Float) : Bool := delta < 0.0 || delta.isInf || delta.isNaN

variable {delta : Float}

theorem usable_eq (delta : Float) : Driver.usable delta = !unusable delta := by
  have finite : delta.isFinite = !(delta.isInf || delta.isNaN) := by
    change delta.toModel.unpack.isFinite =
      !(delta.toModel.unpack.isInf || delta.toModel.unpack.isNaN)
    cases delta.toModel.unpack <;> rfl
  rw [Driver.usable, unusable, finite]
  cases delta.isInf <;> cases delta.isNaN <;> simp

theorem frame_of_unusable (bad : unusable delta) (d : Driver Host) (h : Host) :
    ∃ events, d.frame delta h = (.returned (), d, { h with events }) := by
  have idle : d.standing.effective? (.frame delta) = none := by
    refine Option.eq_none_iff_forall_ne_some.2 fun pair effective => ?_
    obtain ⟨frame, -, -, fine⟩ := Driver.effective?_eq_some effective
    obtain rfl : delta = pair.2 := Operation.frame.inj frame
    simp [usable_eq, bad] at fine
  obtain same | ignored := Driver.frame_of_ineffective (s := h) idle
  · exact ⟨h.events, same⟩
  · exact ⟨_, ignored⟩

theorem Scene.advance_of_unusable (bad : unusable delta) (s : Scene) : s.advance delta = s := by
  have still : (delta.isFinite && !(delta < 0.0)) = false := by
    have fine := usable_eq delta
    rwa [bad] at fine
  rw [advance, still]
  rfl

namespace Simulation

/-- The simulation with `n` more frames counted, and with another log. -/
def recounted (sim : Simulation) (n : Nat) (events : List Event) : Simulation :=
  { sim with frames := sim.frames + n, host := { sim.host with events } }

variable {sim : Simulation}

theorem settle_recounted (sim : Simulation) (n : Nat) (events : List Event) (delta : Float) :
    ∃ events', (sim.recounted n events).settle delta =
      ((sim.settle delta).1, (sim.settle delta).2.recounted n events') := by
  have count : sim.frames + n + 1 = sim.frames + 1 + n := Nat.add_right_comm ..
  by_cases on : sim.host.scene.outcome = .ongoing
  · have on' : (sim.recounted n events).host.scene.outcome = .ongoing := on
    rw [settle_of_ongoing on, settle_of_ongoing on']
    exact ⟨events, by simp [advance, recounted, count]⟩
  · have decided : (sim.recounted n events).host.scene.outcome ≠ .ongoing := on
    rw [settle_of_decided on, settle_of_decided decided]
    refine ⟨(sim.recounted n events).close.host.events, ?_⟩
    simp only [close, stop, recounted, Driver.stop, count]
    rfl

/-- A frame does not hang on the log or on how many frames there were. -/
theorem play_recounted (sound : sim.Sound) (n : Nat) (events : List Event) (delta : Float) :
    ∃ outcome sim' events', sim.play delta = (.returned outcome, sim') ∧
      (sim.recounted n events).play delta = (.returned outcome, sim'.recounted n events') := by
  by_cases on : sim.outcome = .ongoing
  · have on' : (sim.recounted n events).outcome = .ongoing := on
    obtain ⟨cat, h₁, catFrame, -, catBeat⟩ := frame_beat sound.cat (Cat.tick_turn sound.host) delta
    obtain ⟨mouse, h₂, mouseFrame, -⟩ :=
      frame_beat sound.mouse (Mouse.tick_turn (Cat.Beat.sound catBeat sound.host)) delta
    have same : (sim.recounted n events).host.shown = sim.host.shown := rfl
    obtain ⟨k₁, catFrame', same₁⟩ :=
      Driver.frame_heeds Host.shown_record sound.cat Cat.heeds_tree catFrame same
    obtain ⟨k₂, mouseFrame', same₂⟩ :=
      Driver.frame_heeds Host.shown_record sound.mouse Mouse.heeds_tree mouseFrame same₁
    obtain ⟨events₂, rfl⟩ : ∃ events, k₂ = { h₂ with events } := by
      obtain ⟨scene, spoiled, events⟩ := k₂
      obtain ⟨rfl, rfl⟩ := Prod.mk.inj same₂
      exact ⟨events, rfl⟩
    obtain ⟨events', settled⟩ := settle_recounted
      { sim with catDriver := cat, mouseDriver := mouse, host := h₂ } n events₂ delta
    refine ⟨_, _, events', play_of_frames sim on catFrame mouseFrame, ?_⟩
    rw [play_of_frames (sim.recounted n events) on' catFrame' mouseFrame']
    exact congrArg (fun x => (Exit.returned x.1, x.2)) settled
  · have decided : (sim.recounted n events).outcome ≠ .ongoing := on
    exact ⟨_, sim, events, play_of_decided on delta, play_of_decided decided delta⟩

theorem play_unusable (bad : unusable delta) (on : sim.outcome = .ongoing)
    (going : sim.host.scene.outcome = .ongoing) :
    ∃ events, sim.play delta = (.returned .ongoing, sim.recounted 1 events) := by
  obtain ⟨events₁, catFrame⟩ := frame_of_unusable bad sim.catDriver sim.host
  obtain ⟨events₂, mouseFrame⟩ :=
    frame_of_unusable bad sim.mouseDriver { sim.host with events := events₁ }
  have played : sim.play delta = (.returned ((sim.recounted 0 events₂).settle delta).1,
      ((sim.recounted 0 events₂).settle delta).2) := play_of_frames sim on catFrame mouseFrame
  have still : (sim.recounted 0 events₂).host.scene.outcome = .ongoing := going
  rw [played, settle_of_ongoing still]
  exact ⟨events₂, by simp [advance, recounted, Scene.advance_of_unusable bad]⟩

/-- The frame times that arrive while the run goes on. -/
def heard (sim : Simulation) : List Float → List Float
  | [] => []
  | delta :: deltas =>
    let rest := (sim.play delta).2.heard deltas
    if sim.outcome = .ongoing then delta :: rest else rest

theorem operateAll_frame {deltas : List Float} {outcome : Outcome} {sim' : Simulation}
    (played : sim.play delta = (.returned outcome, sim')) :
    sim.operateAll ((delta :: deltas).map .frame) = sim'.operateAll (deltas.map .frame) := by
  rw [List.map_cons, operateAll, operate, frame, played]
  rfl

/-- The run without the frames whose time cannot be used stands at `sim`, and the run with them `n`
frames further on. So they go on. -/
theorem operateAll_recounted {stocked : Prop} (stock : stocked) {log : List Outcome}
    (sound : sim.Sound) (judged : Judged stocked sim log) (n : Nat) (events : List Event)
    (deltas : List Float) : ∃ sim' events',
      sim.operateAll ((deltas.filter (!unusable ·)).map .frame) = (.returned (), sim') ∧
      (sim.recounted n events).operateAll (deltas.map .frame) = (.returned (),
        sim'.recounted (n + ((sim.recounted n events).heard deltas).countP unusable) events') := by
  induction deltas generalizing sim log n events with
  | nil => exact ⟨sim, events, rfl, rfl⟩
  | cons delta deltas ih =>
    by_cases bad : unusable delta
    · have dropped : (delta :: deltas).filter (!unusable ·) = deltas.filter (!unusable ·) := by
        simp [bad]
      rw [dropped]
      by_cases on : sim.outcome = .ongoing
      · -- The shorter run waits. With cheese left and the mouse free the scene does not end the
        -- longer.
        have on' : (sim.recounted n events).outcome = .ongoing := on
        obtain ⟨loose, left⟩ := judged.going on
        have going : (sim.recounted n events).host.scene.outcome = .ongoing :=
          Scene.outcome_eq_ongoing.2 ⟨left stock, loose.free⟩
        obtain ⟨events₁, played⟩ := play_unusable bad on' going
        have counted : (sim.recounted n events).recounted 1 events₁ =
            sim.recounted (n + 1) events₁ :=
          rfl
        rw [counted] at played
        obtain ⟨sim', events', ended, ended'⟩ := ih sound judged (n + 1) events₁
        refine ⟨sim', events', ended, ?_⟩
        rw [operateAll_frame played, ended', heard, played]
        simp only [on', if_true, List.countP_cons_of_pos bad]
        rw [Nat.add_assoc, Nat.add_comm 1]
      · have decided : (sim.recounted n events).outcome ≠ .ongoing := on
        have played := play_of_decided decided delta
        obtain ⟨sim', events', ended, ended'⟩ := ih sound judged n events
        refine ⟨sim', events', ended, ?_⟩
        rw [operateAll_frame played, ended', heard, played]
        simp [decided]
    · have kept : (delta :: deltas).filter (!unusable ·) =
          delta :: deltas.filter (!unusable ·) := by simp [bad]
      obtain ⟨outcome, sim₁, played, sound₁, judged₁⟩ :=
        play_kept (judged_kept stocked) sound judged delta
      obtain ⟨outcome', sim₂, events₁, played₂, played'⟩ := play_recounted sound n events delta
      obtain ⟨rfl, rfl⟩ : outcome = outcome' ∧ sim₁ = sim₂ := by
        simpa [played] using played₂
      obtain ⟨sim', events', ended, ended'⟩ := ih sound₁ judged₁ n events₁
      refine ⟨sim', events', ?_, ?_⟩
      · rw [kept, operateAll_frame played, ended]
      · rw [operateAll_frame played', ended', heard, played']
        split
        · simp [bad]
        · rfl

/-- A run from valid settings with some cheese, and the run without those of its frames whose time
is negative, infinite or no number. Both end alike. The longer one has counted those frames too that
came before its end, and its log is another; nothing else differs, be it in the scene, in a driver
or in the outcome. -/
theorem operateAll_usable {c : RunSettings} (valid : c.validate = .ok ())
    (stocked : c.world.cheeses ≠ []) (deltas : List Float) :
    ∃ start full pruned, ofSettings c = .ok start ∧
      start.operateAll (deltas.map .frame) = (.returned (), full) ∧
      start.operateAll ((deltas.filter (!unusable ·)).map .frame) = (.returned (), pruned) ∧
      full = { pruned with
        frames := pruned.frames + (start.heard deltas).countP unusable
        host := { pruned.host with events := full.host.events } } := by
  obtain ⟨start, ready, sound, scene, -, frames, -⟩ := ofSettings_of_valid valid
  obtain ⟨pruned, events, ended, ended'⟩ := operateAll_recounted stocked sound
    (judged_ofSettings scene frames) 0 start.host.events deltas
  have same : start.recounted 0 start.host.events = start := rfl
  rw [same, Nat.zero_add] at ended'
  exact ⟨start, _, pruned, ready, ended', ended, rfl⟩

/-- Two times that cannot be used, of which one comes after the first tick of the cat has ended the
run. -/
theorem operateAll_usable_near : Stage.near.validate = .ok () ∧ Stage.near.world.cheeses ≠ [] ∧
    ∃ start full pruned, ofSettings Stage.near = .ok start ∧
      start.operateAll [.frame (-1.0), .frame 0.5, .frame (0.0 / 0.0)] = (.returned (), full) ∧
      start.operateAll [.frame 0.5] = (.returned (), pruned) ∧
      full.outcome = .mouseCaught ∧ full.frames = 2 ∧ pruned.frames = 1 ∧
      full.host.scene = pruned.host.scene ∧ full.catDriver.timer = pruned.catDriver.timer := by
  have valid : Stage.near.validate = .ok () := rfl
  have stocked : Stage.near.world.cheeses ≠ [] := nofun
  have left : [-1.0, 0.5, 0.0 / 0.0].filter (!unusable ·) = [0.5] := by decide +kernel
  have ran : summary Stage.near [.frame (-1.0), .frame 0.5, .frame (0.0 / 0.0)] =
      some (.mouseCaught, 2) := by decide +kernel
  have ran' : summary Stage.near [.frame 0.5] = some (.mouseCaught, 1) := by decide +kernel
  obtain ⟨start, full, pruned, ready, ended, ended', same⟩ :=
    operateAll_usable valid stocked [-1.0, 0.5, 0.0 / 0.0]
  rw [left] at ended'
  simp only [List.map_cons, List.map_nil] at ended ended'
  rw [summary, ready] at ran ran'
  dsimp only at ran ran'
  rw [ended] at ran
  rw [ended'] at ran'
  obtain ⟨outcome, frames⟩ := Prod.mk.inj (Option.some.inj ran)
  obtain ⟨-, frames'⟩ := Prod.mk.inj (Option.some.inj ran')
  have scene : full.host.scene = pruned.host.scene := by rw [same]
  have timer : full.catDriver.timer = pruned.catDriver.timer := by rw [same]
  exact ⟨valid, stocked, start, full, pruned, ready, ended, ended', outcome, frames, frames', scene,
    timer⟩

end Simulation

end Pursuit.Chase
