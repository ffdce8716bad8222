import Pursuit.Proofs.Chase.Safety
import Pursuit.Proofs.Settings.Precedence
import Pursuit.Proofs.Settings.Saving
import Pursuit.Proofs.Toml.Range

/-! Which profiles have a text, and so can be shown and saved. A run takes any seed, but there is no
text for a seed of 2^63 or more. No file gives such a seed, and only the environment puts one into a
profile. -/
namespace Pursuit.Settings

open Files (Disk Path)
open Toml (Value)

/-! ## Seeds that are read -/

section Reading

variable {σ : Type} {good : σ → Prop} {fields : List (Field σ)} {s s' start : σ} {v : Value}

def Field.Keeps (good : σ → Prop) (f : Field σ) : Prop :=
  ∀ v s s', v.Fits → good s → f.read v s = some s' → good s'

theorem Field.keeps_overlay {es : List (String × Value)} (keeps : ∀ f ∈ fields, f.Keeps good)
    (fits : ∀ e ∈ es, e.2.Fits) (before : good s) (read : Field.overlay fields es s = some s') :
    good s' := by
  induction fields generalizing s with
  | nil =>
    cases read
    exact before
  | cons f fields ih =>
    obtain ⟨first, rest⟩ := List.forall_mem_cons.1 keeps
    rw [overlay, List.foldlM_cons] at read
    obtain ⟨s₁, one, read⟩ := Option.bind_eq_some_iff.1 read
    refine ih rest ?_ read
    split at one
    next v found =>
      obtain ⟨e, got, rfl⟩ := Option.map_eq_some_iff.1 found
      exact first _ _ _ (fits e (List.mem_of_find?_eq_some got)) before one
    next =>
      cases one
      exact before

theorem Field.keeps_inOrder {items : List Value} (keeps : ∀ f ∈ fields, f.Keeps good)
    (fits : ∀ v ∈ items, v.Fits) (before : good s) (read : Field.inOrder fields items s = some s') :
    good s' := by
  induction fields generalizing s items with
  | nil =>
    cases read
    exact before
  | cons f fields ih =>
    cases items with
    | nil =>
      cases read
      exact before
    | cons v items =>
      obtain ⟨first, rest⟩ := List.forall_mem_cons.1 keeps
      obtain ⟨here, others⟩ := List.forall_mem_cons.1 fits
      rw [inOrder, List.zip_cons_cons, List.foldlM_cons] at read
      obtain ⟨s₁, one, read⟩ := Option.bind_eq_some_iff.1 read
      exact ih rest others (first _ _ _ here before one) read

theorem Codec.good_of_record (keeps : ∀ f ∈ fields, f.Keeps good) (before : good start)
    (fits : v.Fits) (read : (Codec.record fields start).read v = some s) : good s := by
  cases fits with
  | table each => exact Field.keeps_overlay keeps each before read
  | list each => exact Field.keeps_inOrder keeps each before read
  | moment =>
    cases read
    exact before
  | flag => cases read
  | integer => cases read
  | float => cases read
  | text => cases read

variable {α : Type} {key : String} {c : Codec α} {get : σ → α} {set : σ → α → σ}

theorem Field.keeps_of (keeps : ∀ v x s, v.Fits → c.read v = some x → good s → good (set s x)) :
    (Field.of key c get set).Keeps good := by
  intro v s s' fits before read
  obtain ⟨x, some, rfl⟩ := Option.map_eq_some_iff.1 read
  exact keeps v x s fits some before

end Reading

def RunSettings.HasText (r : RunSettings) : Prop := r.seed.toNat ≤ 2 ^ 63 - 1

def Profile.HasText (c : Profile) : Prop := c.run.HasText

theorem RunSettings.hasText_default : RunSettings.HasText {} := show 7 ≤ 2 ^ 63 - 1 by decide

theorem word_of_fits {v : Value} {n : UInt64} (fits : v.Fits) (read : Codec.word.read v = some n) :
    n.toNat ≤ 2 ^ 63 - 1 := by
  cases fits with
  | integer range =>
    rw [Codec.word] at read
    dsimp only at read
    split_ifs at read
    cases read
    rw [Nat.toUInt64_eq, UInt64.toNat_ofNat']
    omega
  | flag => cases read
  | float => cases read
  | text => cases read
  | moment => cases read
  | list => cases read
  | table => cases read

theorem hasText_of_run {v : Value} {r : RunSettings} (fits : v.Fits)
    (read : Codec.run.read v = some r) :
    r.HasText := by
  refine Codec.good_of_record ?_ RunSettings.hasText_default fits read
  simp only [List.forall_mem_cons]
  refine ⟨?_, ?_, Field.keeps_of fun _ _ _ fits read _ => word_of_fits fits read, ?_, ?_, ?_,
    List.forall_mem_nil _⟩
  -- No other field is the seed.
  all_goals exact Field.keeps_of fun _ _ _ _ _ before => before

theorem hasText_of_parse {s : String} {c : Profile} (parsed : Profile.parse s = .ok c) :
    c.HasText := by
  rw [Profile.parse] at parsed
  split at parsed
  next found =>
    cases parsed
    obtain ⟨es, table, read⟩ := Option.bind_eq_some_iff.1 found
    have start : Profile.HasText {} := RunSettings.hasText_default
    refine Codec.good_of_record ?_ start (.table (Toml.fits_of_read table)) read
    simp only [Codec.profileFields, List.forall_mem_cons]
    exact ⟨Field.keeps_of fun _ _ _ fits read _ => hasText_of_run fits read,
      Field.keeps_of fun _ _ _ _ _ before => before, List.forall_mem_nil _⟩
  next => cases parsed

/-! ## Profiles without a text -/

variable {c : Profile} {env : Environment} {d d' : Disk} {p : Path}

theorem hasText_of_loadFile (loaded : loadFile d p = .ok (some c)) : c.HasText := by
  by_cases there : d.pathExists p
  · cases text : d.read p with
    | error e =>
      rw [loadFile, if_pos there, text] at loaded
      cases loaded
    | ok s =>
      rw [loadFile_of_read there text] at loaded
      cases parsed : Profile.parse s with
      | error e =>
        rw [parsed] at loaded
        cases loaded
      | ok c =>
        rw [parsed] at loaded
        cases loaded
        exact hasText_of_parse parsed
  · rw [loadFile, if_neg there] at loaded
    cases loaded

/-- Only the environment puts a seed into a profile for which there is no text. -/
theorem seed_of_load (loaded : load env d p = .ok c) (large : 2 ^ 63 - 1 < c.run.seed.toNat) :
    ∃ raw, env.get? "MOUSETRAP_SEED" = some raw ∧
      Decimal.word? (Text.trim raw.toList) = some c.run.seed := by
  cases found : loadFile d p with
  | error e =>
    rw [load_of_fault found] at loaded
    cases loaded
  | ok file =>
    rw [load_of_loadFile found] at loaded
    split at loaded
    next => cases loaded
    next =>
      cases loaded
      cases given : env.value? "MOUSETRAP_SEED" Decimal.word? with
      | some seed =>
        obtain ⟨raw, set, read⟩ := Option.bind_eq_some_iff.1 given
        exact ⟨raw, set, by rw [read, Environment.amend, given]; rfl⟩
      | none =>
        have small : (file.getD {}).HasText := by
          cases file with
          | none => exact RunSettings.hasText_default
          | some c => exact hasText_of_loadFile found
        rw [Environment.amend, given] at large
        exact absurd small (Nat.not_le.2 large)

theorem print_of_save_error {m : String} (failed : save c p d = (d', .error (.serialize m))) :
    c.print = .error (.serialize m) := by
  obtain ⟨_, _, -, ⟨⟩⟩ | ⟨_, -, print, ⟨⟩⟩ | ⟨_, _, -, -, -, ⟨⟩⟩ | ⟨_, _, -, -, -, ⟨⟩⟩ :=
    save_cases failed
  exact print

/-- What can be run can be run with any seed, but it can be shown and saved only with one below
2^63. Such a profile has a text, so that saving it never fails for want of one. With any other seed
it has none: it is not shown, and it is saved nowhere. That seed was put into the profile by the
environment, as no file gives it. -/
theorem print_of_valid (valid : c.run.validate = .ok ()) :
    (∀ seed, ∃ sim, Chase.Simulation.ofSettings { c.run with seed } = .ok sim) ∧
    (c.run.seed.toNat ≤ 2 ^ 63 - 1 → (∃ s, c.print = .ok s) ∧
      ∀ p d m, (save c p d).2 ≠ .error (.serialize m)) ∧
    (2 ^ 63 - 1 < c.run.seed.toNat →
      c.print = .error (.serialize "out-of-range value for u64 type") ∧
      ∀ p d d₁, prepare d p = (d₁, .ok ()) →
        save c p d = (d₁, .error (.serialize "out-of-range value for u64 type"))) ∧
    ∀ env d p, load env d p = .ok c →
      (∀ s, c.print = .ok s → Command.showConfig env d p =
        { exit := Command.Transcript.succeeded
          output := "# " ++ p.text ++ "\n" ++ s
          disk := d }) ∧
      (∀ e, c.print = .error e → Command.showConfig env d p = Command.fault env d [] e) ∧
      (2 ^ 63 - 1 < c.run.seed.toNat → ∃ raw, env.get? "MOUSETRAP_SEED" = some raw ∧
        Decimal.word? (Text.trim raw.toList) = some c.run.seed) := by
  refine ⟨fun seed => ?_, fun small => ?_, fun large => ?_, fun env d p loaded => ?_⟩
  · obtain ⟨sim, made, -⟩ := Chase.Simulation.ofSettings_of_valid (c := { c.run with seed }) valid
    exact ⟨sim, made⟩
  · obtain ⟨s, print, -⟩ := exists_print small
    refine ⟨⟨s, print⟩, fun p d m failed => ?_⟩
    have saved : save c p d = ((save c p d).1, .error (.serialize m)) := Prod.ext rfl failed
    have none := print_of_save_error saved
    rw [print] at none
    cases none
  · have none := print_of_large large
    exact ⟨none, fun p d d₁ ready => save_of_unprinted ready none⟩
  · have shown : Command.document env d p = c.print := by
      rw [Command.document, loaded]
      simp only [bind, Except.bind]
      rw [valid]
    refine ⟨fun s print => ?_, fun e print => ?_, seed_of_load loaded⟩
    · rw [Command.showConfig, shown, print]
    · rw [Command.showConfig, shown, print]

def huge : Profile := { run := { seed := 0x8000000000000000 } }

theorem load_huge :
    load ⟨[("MOUSETRAP_SEED", "9223372036854775808")]⟩ ⟨[], []⟩ ⟨"c.toml"⟩ = .ok huge := rfl

/-- A profile that can be run and has no text. -/
theorem print_huge : huge.run.validate = .ok () ∧
    (∃ sim, Chase.Simulation.ofSettings huge.run = .ok sim) ∧
    huge.print = .error (.serialize "out-of-range value for u64 type") := by
  obtain ⟨sim, made, -⟩ := Chase.Simulation.ofSettings_of_valid (c := huge.run) rfl
  exact ⟨rfl, ⟨sim, made⟩, print_of_large (by decide)⟩

/-- With that seed in the environment the settings are not shown. -/
theorem print_of_valid_huge : huge.run.validate = .ok () ∧
    huge.print = .error (.serialize "out-of-range value for u64 type") ∧
    Command.showConfig ⟨[("MOUSETRAP_SEED", "9223372036854775808")]⟩ ⟨[], []⟩ ⟨"c.toml"⟩ =
      Command.fault ⟨[("MOUSETRAP_SEED", "9223372036854775808")]⟩ ⟨[], []⟩ []
        (.serialize "out-of-range value for u64 type") ∧
    ∃ d, save huge ⟨"/c.toml"⟩ ⟨[], []⟩ =
      (d, .error (.serialize "out-of-range value for u64 type")) := by
  obtain ⟨-, -, none, shown⟩ := print_of_valid (c := huge) rfl
  obtain ⟨print, unsaved⟩ := none (by decide)
  have ready : prepare ⟨[], []⟩ ⟨"/c.toml"⟩ =
      (⟨[([], .directory { mode := 0o700 })], []⟩, .ok ()) := by cbv
  obtain ⟨-, failed, -⟩ := shown _ _ _ load_huge
  exact ⟨rfl, print, failed _ print, _, unsaved _ _ _ ready⟩

end Pursuit.Settings
