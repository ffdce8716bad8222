import Pursuit.Proofs.Chase.Safety
import Pursuit.Proofs.Chase.Twins

/-! Two runs that differ in nothing but the seed. They go through the same states up to the frame in
which the mouse draws its first point, and come to that in the same frame. -/
namespace Pursuit.Chase

open Pursuit.Behavior Pursuit.Settings

/-! ## Drivers -/

section Drivers

open Host

variable {log log' : List Event} {h h' : Host}

/-- A tick of the tree goes alike in both runs, or in both some points are drawn, but at most so
many. -/
def TickFork (most : ℕ) (log log' : List Event) (t : Behavior.Tree Host) (h h' : Host) : Prop :=
  ∃ status status' k k', t.tick h = (.returned status, t, k) ∧
    t.tick h' = (.returned status', t, k') ∧
      (Alike log log' h h' (status, k) (status', k') ∨ Draws most h k ∧ Draws most h' k')

theorem Cat.tick_fork (sound : h.Sound) (twin : Twin log log' h h') :
    TickFork 0 log log' { root := tree } h h' := by
  have sound' := twin.sound sound
  obtain ⟨status, k, tried, -⟩ := tryAll_turn courses_take Act.sound sound
  obtain ⟨status', k', tried', -⟩ := tryAll_turn courses_take Act.sound sound'
  have fork := tryAll_fork courses_blind (fun c member s => .inl (courses_quiet s c member)) twin
  rw [tried, tried'] at fork
  refine ⟨status, status', k, k', by rw [tick_tree sound.unspoiled, tried],
    by rw [tick_tree sound'.unspoiled, tried'], ?_⟩
  obtain alike | ⟨-, -, c, member, s, draws⟩ := fork
  · exact .inl ⟨Exit.returned.inj alike.result, alike.twin, alike.kept, alike.kept'⟩
  · exact absurd draws (courses_quiet s c member).not_draws

theorem Mouse.tick_fork (sound : h.Sound) (twin : Twin log log' h h') :
    TickFork 5 log log' { root := tree } h h' := by
  have sound' := twin.sound sound
  have same : h'.scene.mouseCaught = h.scene.mouseCaught := by
    rw [twin.scene]
    rfl
  cases free : h.scene.mouseCaught with
  | true =>
    exact ⟨_, _, h, h', tick_tree_of_caught sound.unspoiled free,
      tick_tree_of_caught sound'.unspoiled (same.trans free), .inl ⟨rfl, twin, rfl, rfl⟩⟩
  | false =>
    have fit {h : Host} (sound : h.Sound) (free : h.scene.mouseCaught = false) :=
      tryAll_turn courses_take (fun act fit => ⟨act.sound fit.sound, act.free⟩) (Fit.mk sound free)
    obtain ⟨status, k, tried, -⟩ := fit sound free
    obtain ⟨status', k', tried', -⟩ := fit sound' (same.trans free)
    have fork := tryAll_fork courses_blind (fun c member s => courses_quiet_or_draw s c member) twin
    rw [tried, tried'] at fork
    refine ⟨status, status', k, k', by rw [tick_tree_of_free sound.unspoiled free, tried],
      by rw [tick_tree_of_free sound'.unspoiled (same.trans free), tried'], ?_⟩
    obtain alike | ⟨draws, draws', -⟩ := fork
    · exact .inl ⟨Exit.returned.inj alike.result, alike.twin, alike.kept, alike.kept'⟩
    · exact .inr ⟨draws, draws'⟩

/-- Drivers that are alike part only where both tick. -/
theorem frame_fork {d : Driver Host} {t : Behavior.Tree Host} {most : ℕ} (held : d.root = some t)
    (ticks : TickFork most log log' t h h') (twin : Twin log log' h h') (delta : Float) :
    ∃ d₁ d₁' k k',
      d.frame delta h = (.returned (), d₁, k) ∧ d.frame delta h' = (.returned (), d₁', k') ∧
        (Alike log log' h h' (d₁, k) (d₁', k') ∨
          (Draws most h k ∧ Draws most h' k' ∧ d₁.ticks = d.ticks + 1 ∧
            d₁'.ticks = d.ticks + 1)) := by
  obtain ⟨status, status', k, k', ticked, ticked', fork⟩ := ticks
  cases running : d.isRunning with
  | false =>
    refine ⟨d, d, h, h', ?_, ?_, .inl ⟨rfl, twin, rfl, rfl⟩⟩
    · rw [Driver.frame, running]
    · rw [Driver.frame, running]
  | true =>
    by_cases usable : Driver.usable delta
    · by_cases due : d.interval ≤ d.timer + delta
      · -- The one case in which there is a tick.
        let d₁ (status : Status) : Driver Host :=
          { d with root := some t, timer := 0.0, ticks := d.ticks + 1, last := some status }
        refine ⟨d₁ status, d₁ status', record (.ticked (d.ticks + 1) status) k,
          record (.ticked (d.ticks + 1) status') k', ?_, ?_, ?_⟩
        · simp only [Driver.frame, running, held, usable, due, if_true, Driver.fire, ticked, d₁]
        · simp only [Driver.frame, running, held, usable, due, if_true, Driver.fire, ticked', d₁]
        · obtain ⟨rfl, twin, kept, kept'⟩ | ⟨draws, draws'⟩ := fork
          · exact .inl ⟨rfl, twin.noted _, kept, kept'⟩
          · exact .inr ⟨draws, draws', rfl, rfl⟩
      · let d₁ : Driver Host := { d with timer := d.timer + delta }
        refine ⟨d₁, d₁, h, h', ?_, ?_, .inl ⟨rfl, twin, rfl, rfl⟩⟩
        · simp only [Driver.frame, running, held, usable, due, if_true, if_false, d₁]
        · simp only [Driver.frame, running, held, usable, due, if_true, if_false, d₁]
    · refine ⟨d, d, record (.frameIgnored delta) h, record (.frameIgnored delta) h', ?_, ?_,
        .inl ⟨rfl, twin.noted _, rfl, rfl⟩⟩
      · simp only [Driver.frame, running, held, usable]
        rfl
      · simp only [Driver.frame, running, held, usable]
        rfl

end Drivers

namespace Scene

variable (s : Scene)

theorem reseed_advance (g : Random.Generator) (delta : Float) :
    (s.reseed g).advance delta = (s.advance delta).reseed g := by
  rw [advance, advance]
  split
  · rfl
  · rfl

theorem advance_generator (delta : Float) : (s.advance delta).generator = s.generator := by
  rw [advance]
  split
  · rfl
  · rfl

end Scene

namespace Simulation

/-- Runs that agree on all but the generator and the reports before `log` and `log'`. -/
structure Twin (log log' : List Event) (sim sim' : Simulation) : Prop where
  host : Host.Twin log log' sim.host sim'.host
  rest : sim' = { sim with host := sim'.host }

/-- A point is drawn in the next frame: nothing else takes words from the generator, and whoever
takes some leaves another generator behind. -/
def DrawsAt (sim : Simulation) (delta : Float) : Prop :=
  (sim.play delta).2.host.scene.generator ≠ sim.host.scene.generator

def DrawsIn (sim : Simulation) : List Float → Prop
  | [] => False
  | delta :: deltas => sim.DrawsAt delta ∨ (sim.play delta).2.DrawsIn deltas

variable {log log' : List Event} {sim sim' : Simulation}

theorem Twin.report (twin : Twin log log' sim sim') : sim'.report = sim.report := by
  rw [twin.rest, Simulation.report, Simulation.report, twin.host.scene]
  rfl

/-! ## Frames of a run -/

theorem settle_generator (sim : Simulation) (delta : Float) :
    (sim.settle delta).2.host.scene.generator = sim.host.scene.generator := by
  by_cases still : sim.host.scene.outcome = .ongoing
  · rw [settle_of_ongoing still]
    exact Scene.advance_generator ..
  · rw [settle_of_decided still]
    rfl

theorem settle_mouseTicks (sim : Simulation) (delta : Float) :
    (sim.settle delta).2.mouseDriver.ticks = sim.mouseDriver.ticks := by
  by_cases still : sim.host.scene.outcome = .ongoing
  · rw [settle_of_ongoing still]
    rfl
  · rw [settle_of_decided still]
    rfl

theorem settle_twin {h' : Host} (twin : Host.Twin log log' sim.host h') (delta : Float) :
    Twin log log' (sim.settle delta).2 (settle { sim with host := h' } delta).2 := by
  obtain ⟨scene, spoiled, events⟩ := twin
  have same : h'.scene.outcome = sim.host.scene.outcome := by
    rw [scene]
    rfl
  by_cases still : sim.host.scene.outcome = .ongoing
  · rw [settle_of_ongoing still, settle_of_ongoing (same.trans still)]
    refine ⟨⟨?_, spoiled, events⟩, rfl⟩
    show h'.scene.advance delta =
      (sim.host.scene.advance delta).reseed (h'.scene.advance delta).generator
    rw [Scene.advance_generator, ← Scene.reseed_advance, ← scene]
  · rw [settle_of_decided still, settle_of_decided fun ended => still (same.symm.trans ended)]
    have stopped := (Host.Twin.noted ⟨scene, spoiled, events⟩ (.stopped sim.catDriver.ticks)).noted
      (.stopped sim.mouseDriver.ticks)
    simp only [close, stop, Driver.stop, same]
    exact ⟨stopped.noted _, rfl⟩

/-- Up to the first draw a frame leaves twins, and if a point is drawn then it is drawn in both,
by a tick of the mouse. -/
theorem play_fork (sound : sim.Sound) (twin : Twin log log' sim sim') (delta : Float) :
    (Twin log log' (sim.play delta).2 (sim'.play delta).2 ∧
      ¬ sim.DrawsAt delta ∧ ¬ sim'.DrawsAt delta) ∨
    (sim.DrawsAt delta ∧ sim'.DrawsAt delta ∧
      (sim.play delta).2.mouseDriver.ticks = sim.mouseDriver.ticks + 1 ∧
      (sim'.play delta).2.mouseDriver.ticks = sim'.mouseDriver.ticks + 1) := by
  obtain ⟨hosts, rest⟩ := twin
  generalize sim'.host = h' at hosts rest
  subst rest
  by_cases on : sim.outcome = .ongoing
  · obtain ⟨cat, cat', h₁, h₁', catFrame, catFrame', alike | ⟨⟨n, le, some, -⟩, -⟩⟩ :=
      frame_fork sound.cat (Cat.tick_fork sound.host hosts) hosts delta
    · obtain ⟨rfl, hosts₁, kept₁, kept₁'⟩ := alike
      obtain ⟨mouse, mouse', h₂, h₂', mouseFrame, mouseFrame', fork⟩ := frame_fork sound.mouse
        (Mouse.tick_fork (sound_of_catFrame sound catFrame) hosts₁) hosts₁ delta
      have played := play_of_frames sim on catFrame mouseFrame
      have played' := play_of_frames { sim with host := h' } on catFrame' mouseFrame'
      rw [DrawsAt, DrawsAt, played, played']
      simp only [settle_generator, settle_mouseTicks]
      obtain ⟨rfl, hosts₂, kept₂, kept₂'⟩ | ⟨draws, draws', ticks, ticks'⟩ := fork
      · exact .inl ⟨settle_twin hosts₂ delta, not_not.2 (kept₂.trans kept₁),
          not_not.2 (kept₂'.trans kept₁')⟩
      · exact .inr ⟨kept₁ ▸ draws.ne (by decide), kept₁' ▸ draws'.ne (by decide), ticks, ticks'⟩
    · omega
  · have idle : play { sim with host := h' } delta = (_, { sim with host := h' }) := if_neg on
    rw [DrawsAt, DrawsAt, play_of_decided on, idle]
    exact .inl ⟨⟨hosts, rfl⟩, not_not.2 rfl, not_not.2 rfl⟩

/-! ## Whole runs -/

theorem operateAll_fork (sound : sim.Sound) (sound' : sim'.Sound) (twin : Twin log log' sim sim')
    (deltas : List Float) :
    (sim.DrawsIn deltas ∧ sim'.DrawsIn deltas) ∨
      (¬ sim.DrawsIn deltas ∧ ¬ sim'.DrawsIn deltas ∧
        Twin log log' (sim.operateAll (deltas.map .frame)).2
          (sim'.operateAll (deltas.map .frame)).2) := by
  induction deltas generalizing sim sim' with
  | nil => exact .inr ⟨id, id, twin⟩
  | cons delta deltas ih =>
    obtain ⟨outcome, next, played, soundNext⟩ := play_returns sound delta
    obtain ⟨outcome', next', played', soundNext'⟩ := play_returns sound' delta
    obtain ⟨nextTwin, still, still'⟩ | ⟨draws, draws', -⟩ := play_fork sound twin delta
    · rw [played, played'] at nextTwin
      have moved : sim.operate (.frame delta) = (.returned (), next) := by
        rw [operate, frame, played]
        rfl
      have moved' : sim'.operate (.frame delta) = (.returned (), next') := by
        rw [operate, frame, played']
        rfl
      rw [DrawsIn, DrawsIn, played, played', List.map_cons, operateAll, operateAll, moved, moved']
      simpa only [still, still', false_or] using ih soundNext soundNext' nextTwin
    · exact .inl ⟨.inl draws, .inl draws'⟩

theorem ofSettings_twin {c : RunSettings} (valid : c.validate = .ok ()) (seed : UInt64) :
    ∃ start start', ofSettings c = .ok start ∧ ofSettings { c with seed } = .ok start' ∧
      start.Sound ∧ start'.Sound ∧ Twin start.host.events start'.host.events start start' := by
  have valid' : RunSettings.validate { c with seed } = .ok () := valid
  have made : (Driver.create? c.tickInterval : Except ConfigFault (Driver Host)) =
      .ok { interval := c.tickInterval } := if_pos (usable_of_valid valid)
  obtain ⟨start, ready, sound, -⟩ := ofSettings_of_valid valid
  obtain ⟨start', ready', sound', -⟩ := ofSettings_of_valid valid'
  refine ⟨start, start', ready, ready', sound, sound', ?_⟩
  rw [ofSettings, valid] at ready
  rw [ofSettings, valid'] at ready'
  simp only [made] at ready ready'
  obtain rfl := Except.ok.inj ready
  obtain rfl := Except.ok.inj ready'
  exact ⟨⟨rfl, sound'.host.unspoiled.trans sound.host.unspoiled.symm, [], rfl, rfl⟩, rfl⟩

/-- Runs from valid settings that differ in nothing but the seed, over the same frame times, draw
their first point in the same frame, and as long as none is drawn they agree on all but the
generator and the seed that was reported at the start. A frame that parts such runs is one in which,
in both, the mouse ticks and draws a point. -/
theorem operateAll_seeds {c : RunSettings} (valid : c.validate = .ok ()) (seed : UInt64)
    (deltas : List Float) : ∃ start start' last last',
      ofSettings c = .ok start ∧ ofSettings { c with seed } = .ok start' ∧
      start.operateAll (deltas.map .frame) = (.returned (), last) ∧
      start'.operateAll (deltas.map .frame) = (.returned (), last') ∧
      (start.DrawsIn deltas ↔ start'.DrawsIn deltas) ∧
      (¬ start.DrawsIn deltas →
        Twin start.host.events start'.host.events last last' ∧ last'.report = last.report) ∧
      ∀ delta, Twin start.host.events start'.host.events last last' →
        ¬ Twin start.host.events start'.host.events (last.play delta).2 (last'.play delta).2 →
        last.DrawsAt delta ∧ last'.DrawsAt delta ∧
          (last.play delta).2.mouseDriver.ticks = last.mouseDriver.ticks + 1 ∧
          (last'.play delta).2.mouseDriver.ticks = last'.mouseDriver.ticks + 1 := by
  obtain ⟨start, start', ready, ready', sound, sound', twin⟩ := ofSettings_twin valid seed
  obtain ⟨last, ran, soundLast, -⟩ := Kept.always.run sound trivial (deltas.map .frame)
  obtain ⟨last', ran', -⟩ := Kept.always.run sound' trivial (deltas.map .frame)
  have fork := operateAll_fork sound sound' twin deltas
  rw [ran, ran'] at fork
  refine ⟨start, start', last, last', ready, ready', ran, ran', ?_, fun none => ?_,
    fun delta same parted => ?_⟩
  · obtain ⟨draws, draws'⟩ | ⟨none, none', -⟩ := fork
    · exact iff_of_true draws draws'
    · exact iff_of_false none none'
  · obtain ⟨draws, -⟩ | ⟨-, -, same⟩ := fork
    · exact absurd draws none
    · exact ⟨same, same.report⟩
  · obtain ⟨still, -⟩ | drawn := play_fork soundLast same delta
    · exact absurd still parted
    · exact drawn

def skittish : RunSettings := { mouse := { safeDistance := 100.0 } }

def mouseAfter (c : RunSettings) (deltas : List Float) : Option UInt32 :=
  match ofSettings c with
  | .ok start => some (start.operateAll (deltas.map .frame)).2.report.mousePosition.x.toBits
  | .error _ => none

/-- The second frame fills the interval, and after it the mouse runs to a place that the seed
decides on. -/
theorem operateAll_seeds_skittish : skittish.validate = .ok () ∧ ∃ start start' last last',
    ofSettings skittish = .ok start ∧ ofSettings { skittish with seed := 8 } = .ok start' ∧
    start.operateAll [.frame 0.25, .frame 0.25] = (.returned (), last) ∧
    start'.operateAll [.frame 0.25, .frame 0.25] = (.returned (), last') ∧
    last'.report ≠ last.report ∧
    start.DrawsIn [0.25, 0.25] ∧ start'.DrawsIn [0.25, 0.25] := by
  have valid : skittish.validate = .ok () := rfl
  have parted : mouseAfter { skittish with seed := 8 } [0.25, 0.25] ≠
      mouseAfter skittish [0.25, 0.25] := by decide +kernel
  obtain ⟨start, start', last, last', ready, ready', ran, ran', together, alike, -⟩ :=
    operateAll_seeds valid 8 [0.25, 0.25]
  have differ : last'.report ≠ last.report := by
    intro same
    rw [mouseAfter, mouseAfter, ready, ready'] at parted
    dsimp only at parted
    rw [ran, ran', same] at parted
    exact parted rfl
  have drawn : start.DrawsIn [0.25, 0.25] := by
    by_contra quiet
    exact differ (alike quiet).2
  exact ⟨valid, start, start', last, last', ready, ready', ran, ran', differ, drawn,
    together.1 drawn⟩

end Simulation

end Pursuit.Chase
