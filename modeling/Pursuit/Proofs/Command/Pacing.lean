import Pursuit.Proofs.Binary.Amounts
import Pursuit.Proofs.Chase.Safety
import Pursuit.Proofs.Settings.Precedence

/-! Runs that wait for a clock. The check of the settings asks for a length of frames that is
positive and finite, while a clock counts only so many seconds, so of the lengths that pass some
cannot be waited for. With such a length a run breaks off before its first frame; with any other it
gets to its frames and ends well, whatever the clock says. How long a clock really waits is not told
here. -/
namespace Pursuit.Chase.Simulation

open Pursuit.Behavior Pursuit.Settings

variable {sim : Simulation} {c : RunSettings}

theorem frameDelta_of_ofSettings (ready : ofSettings c = .ok sim) :
    sim.frameDelta = c.frameDelta := by
  rw [ofSettings] at ready
  obtain ⟨-, -, ready⟩ := bind_eq_ok ready
  obtain ⟨cat, -, ready⟩ := bind_eq_ok ready
  obtain ⟨mouse, -, ready⟩ := bind_eq_ok ready
  cases ready
  rfl

/-- A clock that lets every frame last equally long is no clock at all. -/
theorem paced_eq_frames? (delta : Float) (budget : ℕ) (sim : Simulation) :
    Id.run (sim.paced (pure (some delta)) budget) =
      ((sim.frames? delta budget).1.map fun _ => false, (sim.frames? delta budget).2) := by
  induction budget generalizing sim with
  | zero => rfl
  | succ budget ih =>
    simp only [paced, frames?, pure_bind]
    obtain ⟨exit, sim', played⟩ : ∃ exit sim', sim.play delta = (exit, sim') := ⟨_, _, rfl⟩
    rw [played]
    cases exit with
    | returned outcome =>
      cases outcome with
      | ongoing => exact ih sim'
      | mouseCaught | allCheeseCollected => rfl
    | unwound | tooDeep => rfl

end Pursuit.Chase.Simulation

namespace Pursuit.Command

open Pursuit.Behavior Pursuit.Binary Pursuit.Chase Pursuit.Settings Pursuit.Logging
open Files (Disk Path)

variable {env : Environment} {d : Disk} {p : Path} {o : RunOptions} {s : Session} {c : Profile}

/-! ## Lengths of frames -/

theorem wideIs_two_pow : WideIs 18446744073709551616.0 (2 ^ 64) := by
  have value := @wideIs_of_unpack 18446744073709551616.0 .positive (2 ^ 52) 12 (by decide) rfl
  norm_num [signed] at value ⊢
  exact value

theorem isCountable_iff {a : Float} {x : ℝ} (value : WideIs a x) :
    isCountable a ↔ 0 ≤ x ∧ x < 2 ^ 64 := by
  rw [isCountable, Bool.and_eq_true, decide_eq_true_iff, decide_eq_true_iff,
    wideIs_zero.le_iff value, value.lt_iff wideIs_two_pow]

theorem length_of_valid (valid : c.run.validate = .ok ()) :
    ∃ x, WideIs c.run.frameDelta x ∧ 0 < x := by
  obtain ⟨finite, positive⟩ := (RunSettings.validate_eq_ok_iff.1 valid).frameDelta
  obtain ⟨x, value⟩ := wideIs_of_isFinite finite
  exact ⟨x, value, not_le.1 fun below => positive ((value.le_iff wideIs_zero).2 below)⟩

theorem isCountable_of_valid (valid : c.run.validate = .ok ()) :
    isCountable c.run.frameDelta ↔ ∃ x, WideIs c.run.frameDelta x ∧ x < 2 ^ 64 := by
  obtain ⟨x, value, positive⟩ := length_of_valid valid
  rw [isCountable_iff value, and_iff_right positive.le]
  exact ⟨fun small => ⟨x, value, small⟩,
    fun ⟨y, value', small⟩ => Denotes.unique value value' ▸ small⟩

/-! ## Sessions -/

theorem run_of_unread (loaded : load env d p = .ok c) (o : RunOptions)
    (unread : Filter.choose env c.telemetry.filter = none) : run env d p o = brokenSetup d := by
  rw [run, Session.prepare_eq o loaded, Session.ofProfile]
  dsimp only
  rw [unread]
  rfl

namespace Session

theorem prepare_of_valid (loaded : load env d p = .ok c) (valid : c.run.validate = .ok ())
    (o : RunOptions) {chosen : Filter × List String}
    (read : Filter.choose env c.telemetry.filter = some chosen) :
    ∃ s, prepare env d p o = .ok s ∧ s.options = o ∧ s.sim.Sound ∧ s.sim.frames = 0 ∧
      s.sim.frameDelta = c.run.frameDelta := by
  obtain ⟨sim, ready, sound, -, -, fresh, -⟩ :=
    Simulation.ofSettings_of_valid (c := { c.run with seed := o.seed.getD c.run.seed }) valid
  have length := Simulation.frameDelta_of_ofSettings ready
  rw [prepare_eq o loaded, ofProfile]
  dsimp only
  rw [read]
  dsimp only
  rw [ready]
  exact ⟨_, rfl, rfl, sound, fresh, length⟩

theorem prepare_with (prepared : prepare env d p o = .ok s) (o' : RunOptions)
    (same : o'.seed = o.seed) :
    prepare env d p o' = .ok { s with options := o' } := by
  rw [prepare] at prepared ⊢
  obtain ⟨c, loaded, prepared⟩ := bind_eq_ok prepared
  rw [loaded, same]
  simp only [bind, Except.bind]
  cases chosen : Filter.choose env c.telemetry.filter with
  | none =>
    rw [chosen] at prepared
    cases prepared
  | some chosen' =>
    rw [chosen] at prepared
    obtain ⟨sim, ready, prepared⟩ := bind_eq_ok prepared
    dsimp only at ready ⊢
    rw [ready]
    cases prepared
    rfl

/-! ## Runs -/

theorem exit_conclude_paced {m : Type → Type} [Monad m] [LawfulMonad m] (beat : m (Option Float))
    {sim : Simulation} (sound : sim.Sound) (budget : ℕ) :
    (fun ending => (s.conclude d ending).exit) <$> sim.paced beat budget =
      (fun _ => Transcript.succeeded) <$> sim.paced beat budget := by
  induction budget generalizing sim with
  | zero => simp only [Simulation.paced, map_pure]; rfl
  | succ budget ih =>
    simp only [Simulation.paced, map_bind]
    congr 1
    funext answer
    cases answer with
    | none => simp only [map_pure]; rfl
    | some delta =>
      obtain ⟨outcome, sim', played, sound'⟩ := Simulation.play_returns sound delta
      simp only [played]
      cases outcome with
      | ongoing => exact ih sound'
      | mouseCaught | allCheeseCollected => simp only [map_pure]; rfl

theorem conclude_of_returned (s : Session) (d : Disk) (sim : Simulation) :
    s.conclude d (.returned false, sim) = s.close sim d := by
  simp [conclude, close]

theorem exit_play (sound : s.sim.Sound) (headless : s.options.realtime = false) :
    (s.play d).exit = Transcript.succeeded := by
  obtain ⟨sim, ended, -⟩ :=
    @Simulation.frames?_kept s.sim _ [] .always sound trivial s.sim.frameDelta
    (s.options.frames.toNat - s.sim.frames)
  rw [play, headless, Simulation.runHeadless, ended]
  rfl

theorem play_of_spent (headless : s.options.realtime = false) (spent : s.options.frames.toNat = 0) :
    s.play d = s.close s.sim d := by
  rw [play, headless, Simulation.runHeadless, spent, Nat.zero_sub]
  rfl

/-- Without a clock a run in real time is one in which every frame is as long as the settings
say. -/
theorem play_of_realtime (paced : s.options.realtime) :
    s.play d = Id.run (s.playPaced (fun length => pure (some length)) d) := by
  rw [play, playPaced, paced, Bool.true_and]
  cases s.canPace with
  | false => rfl
  | true =>
    have same := Simulation.paced_eq_frames? s.sim.frameDelta
      (s.options.frames.toNat - s.sim.frames) s.sim
    rw [Bool.not_true, if_neg Bool.false_ne_true, if_pos rfl, Id.run_map, same,
      Simulation.runHeadless]
    obtain ⟨exit, sim⟩ := s.sim.frames? s.sim.frameDelta (s.options.frames.toNat - s.sim.frames)
    cases exit with
    | returned => exact (s.conclude_of_returned d sim).symm
    | unwound | tooDeep => rfl

end Session

/-- A run with settings that pass their check, at the pace of a clock. Either the log cannot be set
up, and the run breaks off with or without a clock, or there is a session, and the run without a
clock ends well. If a clock can count the length of a frame, which is to say that it is less than
2^64 seconds, the run at its pace comes to its frames and ends as they do, and well; with no frames
to come it ends as the run without a clock does. If a clock cannot, the run breaks off before its
first frame. -/
theorem playPaced_of_valid {m : Type → Type} [Monad m] [LawfulMonad m]
    (clock : Float → m (Option Float)) (loaded : load env d p = .ok c)
    (valid : c.run.validate = .ok ()) (o : RunOptions) :
    (isCountable c.run.frameDelta ↔ ∃ x, WideIs c.run.frameDelta x ∧ x < 2 ^ 64) ∧
    (Filter.choose env c.telemetry.filter = none ∧ run env d p o = brokenSetup d ∨
      ∃ s, Session.prepare env d p o = .ok s ∧
        (run env d p { o with realtime := false }).exit = Transcript.succeeded ∧
        run env d p { o with realtime := true } =
          Id.run (s.playPaced (fun length => pure (some length)) d) ∧
        (isCountable c.run.frameDelta →
          s.playPaced clock d =
            s.conclude d <$> s.sim.paced (clock c.run.frameDelta) o.frames.toNat ∧
          Transcript.exit <$> s.playPaced clock d =
            (fun _ => Transcript.succeeded) <$>
              s.sim.paced (clock c.run.frameDelta) o.frames.toNat ∧
          (o.frames = 0 → s.playPaced clock d = pure (run env d p { o with realtime := false }))) ∧
        (¬ isCountable c.run.frameDelta → s.playPaced clock d = pure (s.breakOff s.sim d))) := by
  refine ⟨isCountable_of_valid valid, ?_⟩
  cases read : Filter.choose env c.telemetry.filter with
  | none => exact .inl ⟨rfl, run_of_unread loaded o read⟩
  | some chosen =>
    obtain ⟨s, prepared, rfl, sound, fresh, length⟩ := Session.prepare_of_valid loaded valid o read
    have asked (realtime : Bool) : run env d p { s.options with realtime } =
        Session.play { s with options := { s.options with realtime } } d := by
      rw [run, Session.prepare_with prepared { s.options with realtime } rfl]
    refine .inr ⟨s, prepared, asked false ▸ Session.exit_play sound rfl,
      (asked true).trans (Session.play_of_realtime rfl), fun countable => ?_, fun endless => ?_⟩
    · have reached : s.playPaced clock d =
          s.conclude d <$> s.sim.paced (clock c.run.frameDelta) s.options.frames.toNat := by
        rw [Session.playPaced, Session.canPace, length, if_pos countable, fresh, Nat.sub_zero]
      refine ⟨reached, ?_, fun none => ?_⟩
      · rw [reached, Functor.map_map]
        exact Session.exit_conclude_paced _ sound _
      · have spent : s.options.frames.toNat = 0 := congrArg UInt64.toNat none
        rw [reached, spent, Simulation.paced, map_pure, Session.conclude_of_returned, asked,
          Session.play_of_spent
            (s := { s with options := { s.options with realtime := false } }) rfl spent]
        rfl
    · rw [Session.playPaced, Session.canPace, length, if_neg endless]

def tardy : Float → Id (Option Float) := fun length => pure (some (length + 0.001))

/-- By default frames can be waited for: with such a clock a run of one frame ends well, and a run
of none ends as it does without a clock. -/
theorem playPaced_of_valid_default : ∃ s s',
    Session.prepare ⟨[]⟩ ⟨[], []⟩ ⟨"c.toml"⟩ { frames := 1 } = .ok s ∧
    (Id.run (s.playPaced tardy ⟨[], []⟩)).exit = Transcript.succeeded ∧
    Session.prepare ⟨[]⟩ ⟨[], []⟩ ⟨"c.toml"⟩ { frames := 0 } = .ok s' ∧
    Id.run (s'.playPaced tardy ⟨[], []⟩) = run ⟨[]⟩ ⟨[], []⟩ ⟨"c.toml"⟩ { frames := 0 } := by
  have loaded : load ⟨[]⟩ ⟨[], []⟩ ⟨"c.toml"⟩ = .ok {} := rfl
  have valid : RunSettings.validate {} = .ok () := rfl
  have countable : isCountable ({} : RunSettings).frameDelta := by decide +kernel
  have read : (Filter.choose ⟨[]⟩ ({} : TelemetrySettings).filter).isSome := by decide +kernel
  have sessions (o : RunOptions) :=
    (playPaced_of_valid tardy loaded valid o).2.resolve_left fun ⟨unread, _⟩ => by
      rw [unread] at read
      cases read
  obtain ⟨s, prepared, -, -, one, -⟩ := sessions { frames := 1 }
  obtain ⟨s', prepared', -, -, none, -⟩ := sessions { frames := 0 }
  exact ⟨s, s', prepared, (one countable).2.1, prepared', (none countable).2.2 rfl⟩

def lingering : Profile := { run := { frameDelta := 100000000000000000000.0 } }

def patient : Environment := ⟨[("MOUSETRAP_FRAME_DELTA", "1e20")]⟩

/-- Settings that pass their check and make a run without a clock, but none with one, even for no
frames. -/
theorem run_lingering :
    load patient ⟨[], []⟩ ⟨"c.toml"⟩ = .ok lingering ∧ lingering.run.validate = .ok () ∧
    (run patient ⟨[], []⟩ ⟨"c.toml"⟩ { frames := 0 }).exit = Transcript.succeeded ∧
    (run patient ⟨[], []⟩ ⟨"c.toml"⟩ { frames := 0, realtime := true }).exit =
      Transcript.broken := by
  have loaded : load patient ⟨[], []⟩ ⟨"c.toml"⟩ = .ok lingering := rfl
  have valid : lingering.run.validate = .ok () := rfl
  have read : (Filter.choose patient lingering.telemetry.filter).isSome := by decide +kernel
  obtain ⟨chosen, read⟩ := Option.isSome_iff_exists.1 read
  refine ⟨loaded, valid, ?_, ?_⟩
  · obtain ⟨s, prepared, given, sound, -⟩ :=
      Session.prepare_of_valid loaded valid { frames := 0 } read
    rw [run, prepared]
    exact Session.exit_play sound (given ▸ rfl)
  · obtain ⟨s, prepared, given, -, -, length⟩ :=
      Session.prepare_of_valid loaded valid { frames := 0, realtime := true } read
    have endless : s.canPace = false := by
      rw [Session.canPace, length]
      decide +kernel
    rw [run, prepared]
    dsimp only
    rw [Session.play, given, endless]
    rfl

end Pursuit.Command
