import Pursuit.Proofs.Chase.Frames

/-! What holds of the scene throughout a run. A property that every deed and the passing of time
keep, in any scene that has it, lasts: neither the order of the deeds nor their ends matter to
it. -/
namespace Pursuit.Chase

open Pursuit.Behavior
open Relation (ReflTransGen)

variable {P : Scene → Prop}

def Course.Preserves (P : Scene → Prop) (c : Course) : Prop :=
  ∀ s, P s → P (c.check s).2 ∧ P (c.deed s).scene

structure Lasting (P : Scene → Prop) : Prop where
  cat : ∀ c ∈ Cat.courses, c.Preserves P
  mouse : ∀ c ∈ Mouse.courses, c.Preserves P
  advance : ∀ s delta, P s → P (s.advance delta)

/-! ## Ticks -/

section Ticks

variable {h : Host} {c : Course} {cs : List Course}

theorem Course.Preserves.attempt (keeps : c.Preserves P) (start : P h.scene) :
    P (h.attempt c).2.scene := by
  obtain ⟨asked, -⟩ := keeps h.scene start
  obtain ⟨isOpen, s, checked⟩ : ∃ isOpen s, c.check h.scene = (isOpen, s) := ⟨_, _, rfl⟩
  rw [checked] at asked
  cases isOpen with
  | false =>
    rw [Host.attempt_of_shut checked]
    exact asked
  | true =>
    rw [Host.attempt_of_open checked, Host.carry_scene]
    exact (keeps s asked).2

theorem tryAll_preserves (each : ∀ c ∈ cs, c.Preserves P) (start : P h.scene) :
    P (h.tryAll cs).2.scene := by
  induction cs generalizing h with
  | nil => exact start
  | cons c cs ih =>
    obtain ⟨first, rest⟩ := List.forall_mem_cons.1 each
    obtain ⟨-, tried⟩ | ⟨-, tried⟩ := Host.tryAll_cons h c cs
    · rw [tried]
      exact ih rest (first.attempt start)
    · rw [tried]
      exact first.attempt start

def Passes (P : Scene → Prop) (h h' : Host) : Prop := P h.scene → P h'.scene

def Never (_ _ : Host) : Prop := False

theorem Passes.beat {h' : Host} (beat : Beat (Passes P) Never h h') : Passes P h h' :=
  beat.keeps (P := fun k => P k.scene) (fun passes => passes) (fun never => never.elim)
    fun _ same => same

theorem Cat.tick_passes (each : ∀ c ∈ courses, c.Preserves P) (sound : h.Sound) : ∃ status h',
    Tree.tick { root := tree } h = (.returned status, { root := tree }, h') ∧
      Turn (Passes P) Never h h' := by
  obtain ⟨status, h', tried, -⟩ := tryAll_turn courses_take Act.sound sound
  refine ⟨status, h', by rw [tick_tree sound.unspoiled, tried], .of_acts (.single fun start => ?_)⟩
  have kept := tryAll_preserves each start
  rwa [tried] at kept

theorem Mouse.tick_passes (each : ∀ c ∈ courses, c.Preserves P) (sound : h.Sound) : ∃ status h',
    Tree.tick { root := tree } h = (.returned status, { root := tree }, h') ∧
      Turn (Passes P) Never h h' := by
  cases free : h.scene.mouseCaught with
  | true => exact ⟨.failure, h, tick_tree_of_caught sound.unspoiled free, .of_acts .refl⟩
  | false =>
    obtain ⟨status, h', tried, -⟩ :=
      tryAll_turn courses_take (fun act fit => ⟨act.sound fit.sound, act.free⟩) (Fit.mk sound free)
    refine ⟨status, h', by rw [tick_tree_of_free sound.unspoiled free, tried],
      .of_acts (.single fun start => ?_)⟩
    have kept := tryAll_preserves each start
    rwa [tried] at kept

end Ticks

/-! ## Runs -/

namespace Simulation

variable {sim : Simulation}

theorem play_lasting (lasting : Lasting P) (sound : sim.Sound) (start : P sim.host.scene)
    (delta : Float) : P (sim.play delta).2.host.scene := by
  by_cases on : sim.outcome = .ongoing
  · obtain ⟨cat, h₁, catFrame, -, catBeat⟩ :=
      frame_beat sound.cat (Cat.tick_passes lasting.cat sound.host) delta
    obtain ⟨mouse, h₂, mouseFrame, -, mouseBeat⟩ := frame_beat sound.mouse
      (Mouse.tick_passes lasting.mouse (sound_of_catFrame sound catFrame)) delta
    have acted : P h₂.scene := Passes.beat mouseBeat (Passes.beat catBeat start)
    rw [play_of_frames sim on catFrame mouseFrame]
    by_cases still : h₂.scene.outcome = .ongoing
    · rw [settle_of_ongoing still]
      exact lasting.advance _ delta acted
    · rw [settle_of_decided still]
      exact acted
  · rw [play_of_decided on]
    exact start

theorem frames?_lasting (lasting : Lasting P) (sound : sim.Sound) (start : P sim.host.scene)
    (delta : Float) (budget : Nat) : P (sim.frames? delta budget).2.host.scene := by
  induction budget generalizing sim with
  | zero => exact start
  | succ budget ih =>
    obtain ⟨outcome, sim', played, sound'⟩ := play_returns sound delta
    have kept := play_lasting lasting sound start delta
    rw [played] at kept
    rw [frames?, played]
    cases outcome with
    | ongoing => exact ih sound' kept
    | mouseCaught | allCheeseCollected => exact kept

theorem operate_lasting (lasting : Lasting P) (sound : sim.Sound) (start : P sim.host.scene)
    (op : Operation) : P (sim.operate op).2.host.scene := by
  cases op with
  | frame delta => exact play_lasting lasting sound start delta
  | runHeadless total => exact frames?_lasting lasting sound start ..
  | stop => exact start

theorem operateAll_lasting (lasting : Lasting P) (sound : sim.Sound) (start : P sim.host.scene)
    (ops : List Operation) : P (sim.operateAll ops).2.host.scene := by
  induction ops generalizing sim with
  | nil => exact start
  | cons op ops ih =>
    obtain ⟨sim', moved, sound', -⟩ :=
      @operate_kept sim _ [] Kept.always sound trivial op
    have kept := operate_lasting lasting sound start op
    rw [moved] at kept
    rw [operateAll, moved]
    exact ih sound' kept

end Simulation

end Pursuit.Chase
