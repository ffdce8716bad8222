import Pursuit.Chase.Simulation
import Pursuit.Proofs.Behavior.Cadence
import Pursuit.Proofs.Chase.Turns

/-! A run as its host sees it. Every operation comes to frames and stops, and in a frame that is
counted first the cat's tree and then the mouse's has its turn, or none. What holds of a run is
shown once for such a frame and once for a stop. -/
namespace Pursuit

def Event.Quiet : Event → Prop
  | .cheeseCollected .. | .actionFailed .. | .conditionFailed .. => False
  | _ => True

end Pursuit

namespace Pursuit.Chase

open Pursuit.Arena Pursuit.Behavior Pursuit.Settings

namespace Host.Sound

variable {h : Host}

theorem noted (sound : h.Sound) (e : Event) : (record e h).Sound :=
  ⟨sound.unspoiled, sound.room, sound.placed⟩

theorem advanced (sound : h.Sound) (delta : Float) :
    Sound { h with scene := h.scene.advance delta } := by
  obtain ⟨unspoiled, room, placed⟩ := sound
  rw [Scene.advance]
  split
  · exact ⟨unspoiled, room, placed⟩
  · exact ⟨unspoiled, room, placed⟩

end Host.Sound

/-- What a driver's frame does to the host: it has a turn taken, or none, and may report that. -/
def Beat (Act Last : Host → Host → Prop) (h h' : Host) : Prop :=
  ∃ h₁, Turn Act Last h h₁ ∧ (h' = h₁ ∨ ∃ e : Event, e.Quiet ∧ h' = record e h₁)

section Beat

variable {Act Last : Host → Host → Prop} {P : Host → Prop} {h h' : Host}

theorem Beat.keeps (each : ∀ {h h'}, Act h h' → P h → P h')
    (finish : ∀ {h h'}, Last h h' → P h → P h')
    (quiet : ∀ {h} {e : Event}, e.Quiet → P h → P (record e h)) (beat : Beat Act Last h h')
    (start : P h) : P h' := by
  obtain ⟨h₁, turn, rfl | ⟨e, calm, rfl⟩⟩ := beat
  · exact turn.keeps each finish start
  · exact quiet calm (turn.keeps each finish start)

theorem frame_beat {d : Driver Host} {t : Behavior.Tree Host} (held : d.root = some t)
    (ticks : ∃ status h', t.tick h = (.returned status, t, h') ∧ Turn Act Last h h')
    (delta : Float) : ∃ d' h', d.frame delta h = (.returned (), d', h') ∧ d'.root = some t ∧
      Beat Act Last h h' := by
  have still : Turn Act Last h h := .of_acts .refl
  obtain ⟨status, h₁, ticked, turn⟩ := ticks
  cases running : d.isRunning with
  | false => exact ⟨d, h, by rw [Driver.frame, running], held, h, still, .inl rfl⟩
  | true =>
    rw [Driver.frame, running, held]
    dsimp only
    split
    · split
      · rw [Driver.fire, ticked]
        exact ⟨_, _, rfl, rfl, h₁, turn, .inr ⟨.ticked (d.ticks + 1) status, trivial, rfl⟩⟩
      · exact ⟨_, h, rfl, rfl, h, still, .inl rfl⟩
    · exact ⟨d, _, rfl, held, h, still, .inr ⟨.frameIgnored delta, trivial, rfl⟩⟩

/-- What a frame makes of a driver that has a root and whose tick returns: its time is gathered if
the driver is running and the time can be used. -/
structure Clocked (delta : Float) (d d' : Driver Host) : Prop where
  interval : d'.interval = d.interval
  running : d'.isRunning = d.isRunning
  scanned : d'.scanned = d.scanned.gatherAll d.interval
    (if d.isRunning ∧ delta.isFinite ∧ ¬ delta < 0.0 then [delta] else [])

theorem frame_clocked {d d' : Driver Host} {t : Behavior.Tree Host} {delta : Float}
    (held : d.root = some t) (framed : d.frame delta h = (.returned (), d', h')) :
    Clocked delta d d' := by
  have operated : d.operate h (.frame delta) = (.returned (), d', h') := framed
  have calm : (d.operate h (.frame delta)).1 ≠ .unwound := by rw [operated]; nofun
  obtain ⟨d₁, h₁, same, interval, standing, scanned⟩ := Driver.operate_scanned calm
  obtain ⟨rfl, rfl⟩ : d₁ = d' ∧ h₁ = h' := by simpa [operated] using same.symm
  refine ⟨interval, congrArg Behavior.Standing.isRunning standing, scanned.trans ?_⟩
  rw [Behavior.Standing.effective?]
  simp only [Driver.standing, held, Option.map_some]
  split
  · rfl
  · rfl

theorem Cat.Beat.sound (beat : Beat Cat.Act Cat.Catches h h') (sound : h.Sound) : h'.Sound :=
  beat.keeps Cat.Act.sound Cat.Catches.sound (fun _ sound => sound.noted _) sound

theorem Mouse.Beat.sound (beat : Beat Mouse.Act Mouse.Eats h h') (sound : h.Sound) : h'.Sound :=
  beat.keeps Mouse.Act.sound Mouse.Eats.sound (fun _ sound => sound.noted _) sound

end Beat

namespace Simulation

inductive Operation where
  | frame (delta : Float)
  | runHeadless (total : Nat)
  | stop

def operate (sim : Simulation) : Operation → Exit Unit × Simulation
  | .frame delta => sim.frame delta
  | .runHeadless total => sim.runHeadless total
  | .stop => (.returned (), sim.stop)

def operateAll (sim : Simulation) : List Operation → Exit Unit × Simulation
  | [] => (.returned (), sim)
  | op :: ops =>
    match sim.operate op with
    | (.returned (), sim) => sim.operateAll ops
    | stop => stop

theorem operateAll_append {sim sim' : Simulation} {ops : List Operation}
    (ended : sim.operateAll ops = (.returned (), sim')) (more : List Operation) :
    sim.operateAll (ops ++ more) = sim'.operateAll more := by
  induction ops generalizing sim with
  | nil =>
    obtain rfl := (Prod.mk.inj ended).2
    rfl
  | cons op ops ih =>
    obtain ⟨exit, sim₁, moved⟩ : ∃ exit sim₁, sim.operate op = (exit, sim₁) := ⟨_, _, rfl⟩
    rw [operateAll, moved] at ended
    rw [List.cons_append, operateAll, moved]
    cases exit with
    | returned => exact ih ended
    | unwound | tooDeep => cases ended

/-! ## The outcomes that counted frames give back, the latest last -/

def answer (sim : Simulation) (delta : Float) : List Outcome :=
  match sim.outcome, sim.play delta with
  | .ongoing, (.returned outcome, _) => [outcome]
  | _, _ => []

def answers (delta : Float) : (budget : Nat) → Simulation → List Outcome
  | 0, _ => []
  | budget + 1, sim =>
    sim.answer delta ++
      match sim.play delta with
      | (.returned .ongoing, sim) => answers delta budget sim
      | _ => []

def answersTo (sim : Simulation) : Operation → List Outcome
  | .frame delta => sim.answer delta
  | .runHeadless total => answers sim.frameDelta (total - sim.frames) sim
  | .stop => []

def answersToAll (sim : Simulation) : List Operation → List Outcome
  | [] => []
  | op :: ops =>
    sim.answersTo op ++
      match sim.operate op with
      | (.returned (), sim) => sim.answersToAll ops
      | _ => []

/-! ## One frame -/

structure Sound (sim : Simulation) : Prop where
  host : sim.host.Sound
  cat : sim.catDriver.root = some { root := Cat.tree }
  mouse : sim.mouseDriver.root = some { root := Mouse.tree }

structure Acted (sim acted : Simulation) : Prop where
  turns : ∃ h, Beat Cat.Act Cat.Catches sim.host h ∧ Beat Mouse.Act Mouse.Eats h acted.host
  cat : acted.catDriver.root = some { root := Cat.tree }
  mouse : acted.mouseDriver.root = some { root := Mouse.tree }
  frames : acted.frames = sim.frames
  outcome : acted.outcome = sim.outcome
  clocks : ∃ delta, Clocked delta sim.catDriver acted.catDriver ∧
    Clocked delta sim.mouseDriver acted.mouseDriver

variable {sim acted : Simulation} {delta : Float}

theorem Acted.sound (turned : sim.Acted acted) (sound : sim.Sound) : acted.Sound := by
  obtain ⟨h, cat, mouse⟩ := turned.turns
  exact ⟨Mouse.Beat.sound mouse (Cat.Beat.sound cat sound.host), turned.cat, turned.mouse⟩

theorem play_of_frames (sim : Simulation) {cat mouse : Driver Host} {h₁ h₂ : Host} {delta : Float}
    (on : sim.outcome = .ongoing)
    (catFrame : sim.catDriver.frame delta sim.host = (.returned (), cat, h₁))
    (mouseFrame : sim.mouseDriver.frame delta h₁ = (.returned (), mouse, h₂)) :
    sim.play delta =
      (.returned (settle { sim with catDriver := cat, mouseDriver := mouse, host := h₂ } delta).1,
        (settle { sim with catDriver := cat, mouseDriver := mouse, host := h₂ } delta).2) := by
  rw [play, if_pos on, catFrame]
  dsimp only
  rw [mouseFrame]

theorem sound_of_catFrame {cat : Driver Host} {h₁ : Host} (sound : sim.Sound)
    (catFrame : sim.catDriver.frame delta sim.host = (.returned (), cat, h₁)) : h₁.Sound := by
  obtain ⟨_, h, framed, -, beat⟩ := frame_beat sound.cat (Cat.tick_turn sound.host) delta
  obtain rfl : h = h₁ := congrArg (·.2.2) (framed.symm.trans catFrame)
  exact Cat.Beat.sound beat sound.host

theorem play_of_ongoing (sound : sim.Sound) (on : sim.outcome = .ongoing) (delta : Float) :
    ∃ acted, sim.Acted acted ∧
      sim.play delta = (.returned (acted.settle delta).1, (acted.settle delta).2) := by
  obtain ⟨cat, h₁, catFrame, catRoot, catBeat⟩ :=
    frame_beat sound.cat (Cat.tick_turn sound.host) delta
  obtain ⟨mouse, h₂, mouseFrame, mouseRoot, mouseBeat⟩ :=
    frame_beat sound.mouse (Mouse.tick_turn (Cat.Beat.sound catBeat sound.host)) delta
  refine ⟨{ sim with catDriver := cat, mouseDriver := mouse, host := h₂ },
    ⟨⟨h₁, catBeat, mouseBeat⟩, catRoot, mouseRoot, rfl, rfl, delta,
      frame_clocked sound.cat catFrame, frame_clocked sound.mouse mouseFrame⟩, ?_⟩
  exact play_of_frames sim on catFrame mouseFrame

theorem play_of_decided (decided : sim.outcome ≠ .ongoing) (delta : Float) :
    sim.play delta = (.returned sim.outcome, sim) := if_neg decided

theorem frames?_of_decided (decided : sim.outcome ≠ .ongoing) (delta : Float) (budget : Nat) :
    sim.frames? delta budget = (.returned (), sim) := by
  cases budget with
  | zero => rfl
  | succ budget =>
    rw [frames?, play_of_decided decided]
    cases ended : sim.outcome with
    | ongoing => exact absurd ended decided
    | mouseCaught | allCheeseCollected => rfl

def close (sim : Simulation) : Simulation :=
  let closed := stop { sim with frames := sim.frames + 1 }
  { closed with
    outcome := sim.host.scene.outcome
    host := record (.finished sim.host.scene.outcome (sim.frames + 1)) closed.host }

def advance (sim : Simulation) (delta : Float) : Simulation :=
  { sim with
    frames := sim.frames + 1
    host := { sim.host with scene := sim.host.scene.advance delta } }

theorem settle_of_ongoing (on : sim.host.scene.outcome = .ongoing) (delta : Float) :
    sim.settle delta = (.ongoing, sim.advance delta) := by
  rw [settle, on]
  rfl

theorem settle_of_decided (decided : sim.host.scene.outcome ≠ .ongoing) (delta : Float) :
    sim.settle delta = (sim.host.scene.outcome, sim.close) := by
  rw [settle]
  split
  next on => exact absurd on decided
  next => rfl

theorem advance_sound (sound : sim.Sound) (delta : Float) : (sim.advance delta).Sound :=
  ⟨sound.host.advanced delta, sound.cat, sound.mouse⟩

theorem stop_sound (sound : sim.Sound) : sim.stop.Sound :=
  ⟨(sound.host.noted _).noted _, sound.cat, sound.mouse⟩

theorem close_sound (sound : sim.Sound) : sim.close.Sound :=
  ⟨((sound.host.noted _).noted _).noted _, sound.cat, sound.mouse⟩

/-! ## Whole runs -/

section Run

variable {P : Simulation → List Outcome → Prop} {log : List Outcome}

/-- `P` holds of a run and the outcomes it has given back if a counted frame and a stop keep it. -/
structure Kept (P : Simulation → List Outcome → Prop) : Prop where
  advance : ∀ {sim acted log} (delta : Float), sim.Sound → sim.outcome = .ongoing →
    sim.Acted acted → acted.host.scene.outcome = .ongoing → P sim log →
    P (acted.advance delta) (log ++ [.ongoing])
  close : ∀ {sim acted log}, sim.Sound → sim.outcome = .ongoing →
    sim.Acted acted → acted.host.scene.outcome ≠ .ongoing → P sim log →
    P acted.close (log ++ [acted.host.scene.outcome])
  stop : ∀ {sim log}, P sim log → P sim.stop log

theorem Kept.always : Kept fun _ _ => True :=
  ⟨fun _ _ _ _ _ _ => trivial, fun _ _ _ _ _ => trivial, fun _ => trivial⟩

theorem play_kept (kept : Kept P) (sound : sim.Sound) (start : P sim log) (delta : Float) :
    ∃ outcome sim', sim.play delta = (.returned outcome, sim') ∧ sim'.Sound ∧
      P sim' (log ++ sim.answer delta) := by
  by_cases on : sim.outcome = .ongoing
  · obtain ⟨acted, turned, played⟩ := play_of_ongoing sound on delta
    rw [answer, on, played]
    by_cases still : acted.host.scene.outcome = .ongoing
    · rw [settle_of_ongoing still]
      exact ⟨_, _, rfl, advance_sound (turned.sound sound) delta,
        kept.advance delta sound on turned still start⟩
    · rw [settle_of_decided still]
      exact ⟨_, _, rfl, close_sound (turned.sound sound), kept.close sound on turned still start⟩
  · -- After the end a frame is not counted.
    have silent : sim.answer delta = [] := by
      rw [answer]
      split
      next ongoing _ => exact absurd ongoing on
      next => rfl
    rw [silent, List.append_nil]
    exact ⟨_, _, play_of_decided on delta, sound, start⟩

theorem play_returns (sound : sim.Sound) (delta : Float) :
    ∃ outcome sim', sim.play delta = (.returned outcome, sim') ∧ sim'.Sound := by
  obtain ⟨outcome, sim', played, sound', -⟩ := @play_kept sim _ [] Kept.always sound trivial delta
  exact ⟨outcome, sim', played, sound'⟩

theorem frames?_kept (kept : Kept P) (sound : sim.Sound) (start : P sim log) (delta : Float)
    (budget : Nat) : ∃ sim', sim.frames? delta budget = (.returned (), sim') ∧ sim'.Sound ∧
      P sim' (log ++ answers delta budget sim) := by
  -- Over any log, as the first frame has added to it when the rest begin.
  induction budget generalizing sim log with
  | zero => exact ⟨sim, rfl, sound, by rwa [answers, List.append_nil]⟩
  | succ budget ih =>
    obtain ⟨outcome, sim₁, played, sound₁, after⟩ := play_kept kept sound start delta
    rw [frames?, answers, played]
    cases outcome with
    | ongoing =>
      rw [← List.append_assoc]
      exact ih sound₁ after
    | mouseCaught | allCheeseCollected => exact ⟨sim₁, rfl, sound₁, by rwa [List.append_nil]⟩

theorem operate_kept (kept : Kept P) (sound : sim.Sound) (start : P sim log) (op : Operation) :
    ∃ sim', sim.operate op = (.returned (), sim') ∧ sim'.Sound ∧
      P sim' (log ++ sim.answersTo op) := by
  cases op with
  | frame delta =>
    obtain ⟨outcome, sim', played, after⟩ := play_kept kept sound start delta
    exact ⟨sim', by rw [operate, frame, played]; rfl, after⟩
  | runHeadless total => exact frames?_kept kept sound start ..
  | stop =>
    refine ⟨sim.stop, rfl, stop_sound sound, ?_⟩
    rw [answersTo, List.append_nil]
    exact kept.stop start

theorem operateAll_kept (kept : Kept P) (sound : sim.Sound) (start : P sim log)
    (ops : List Operation) : ∃ sim', sim.operateAll ops = (.returned (), sim') ∧ sim'.Sound ∧
      P sim' (log ++ sim.answersToAll ops) := by
  induction ops generalizing sim log with
  | nil => exact ⟨sim, rfl, sound, by rwa [answersToAll, List.append_nil]⟩
  | cons op ops ih =>
    obtain ⟨sim₁, moved, sound₁, after⟩ := operate_kept kept sound start op
    rw [operateAll, answersToAll, moved, ← List.append_assoc]
    exact ih sound₁ after

theorem Kept.run (kept : Kept P) (sound : sim.Sound) (start : P sim []) (ops : List Operation) :
    ∃ sim', sim.operateAll ops = (.returned (), sim') ∧ sim'.Sound ∧
      P sim' (sim.answersToAll ops) :=
  operateAll_kept kept sound start ops

end Run

end Simulation

end Pursuit.Chase
