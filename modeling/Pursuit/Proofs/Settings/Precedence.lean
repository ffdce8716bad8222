import Pursuit.Command.Session

/-! Which source a setting comes from. The variables of the environment go over the file, and the
file over the defaults; the seed of the command line goes over all of them. A number that cannot be
read is a fault, and the first such fault is the one that is reported. Any text but the names of the
log formats is passed over. -/
namespace Pursuit.Command

open Settings (Environment Profile)
open Logging (Filter)
open Chase (Simulation)

def Session.ofProfile (env : Environment) (o : RunOptions) (c : Profile) :
    Except Setback Session := do
  match Filter.choose env c.telemetry.filter with
  | none => throw .broken
  | some (filter, ignored) =>
    let notices := ignoredSettings env c.telemetry ignored
    let sim ← (Simulation.ofSettings c.run).mapError (Setback.fault · notices)
    return {
      paint := colours env, options := o, filter, format := c.telemetry.logFormat, notices, sim }

theorem Session.prepare_eq {env : Environment} {d : Files.Disk} {p : Files.Path} {c : Profile}
    (o : RunOptions) (loaded : Settings.load env d p = .ok c) : Session.prepare env d p o =
      Session.ofProfile env o { c with run := { c.run with seed := o.seed.getD c.run.seed } } := by
  rw [Session.prepare, loaded]
  rfl

end Pursuit.Command

namespace Pursuit.Settings

open Command (RunOptions Session)
open Files (Disk Path)

namespace Environment

variable {α : Type} {env : Environment} {name raw : String} {read : List Char → Option α}

/-! ## Variables -/

/-- What a variable says, if it is set and can be read. -/
def value? (env : Environment) (name : String) (read : List Char → Option α) : Option α :=
  (env.get? name).bind fun raw => read (Text.trim raw.toList)

/-- The text of a variable that is set and cannot be read. -/
def misread? (env : Environment) (name : String) (read : List Char → Option α) : Option String :=
  (env.get? name).filter fun raw => (read (Text.trim raw.toList)).isNone

/-- The variables that hold numbers, in the order in which they are looked at, each with its text if
that cannot be read. -/
def numbers (env : Environment) : List (String × Option String) := [
  ("MOUSETRAP_TICK_INTERVAL", env.misread? "MOUSETRAP_TICK_INTERVAL" Decimal.float?),
  ("MOUSETRAP_FRAME_DELTA", env.misread? "MOUSETRAP_FRAME_DELTA" Decimal.float?),
  ("MOUSETRAP_SEED", env.misread? "MOUSETRAP_SEED" Decimal.word?)]

def unreadable (name raw : String) : ConfigFault :=
  .invalid name ("cannot parse " ++ Text.quote raw)

/-- A profile with what the variables say in place of what it held. -/
def amend (env : Environment) (c : Profile) : Profile where
  run := { c.run with
    tickInterval := (env.value? "MOUSETRAP_TICK_INTERVAL" Decimal.float?).getD c.run.tickInterval
    frameDelta := (env.value? "MOUSETRAP_FRAME_DELTA" Decimal.float?).getD c.run.frameDelta
    seed := (env.value? "MOUSETRAP_SEED" Decimal.word?).getD c.run.seed }
  telemetry := { c.telemetry with
    logFormat := match env.get? "MOUSETRAP_LOG_FORMAT" with
      | some "json" => .json
      | some "compact" => .compact
      | _ => c.telemetry.logFormat }

theorem misread?_eq_some : env.misread? name read = some raw ↔
    env.get? name = some raw ∧ read (Text.trim raw.toList) = none := by
  rw [misread?, Option.filter_eq_some_iff, Option.isNone_iff_eq_none]

theorem misread?_eq_none : env.misread? name read = none ↔
    ∀ raw, env.get? name = some raw → ∃ x, read (Text.trim raw.toList) = some x ∧
      env.value? name read = some x := by
  cases got : env.get? name with
  | none => simp [misread?, got]
  | some raw => simp [misread?, value?, got, Option.ne_none_iff_exists']

theorem override_of_misread (set : Profile → α → Profile) (c : Profile)
    (bad : env.misread? name read = some raw) :
    env.override name read set c = .error (unreadable name raw) := by
  obtain ⟨given, unread⟩ := misread?_eq_some.1 bad
  simp only [override, parsed?, given, unread]
  rfl

theorem override_of_readable (set : Profile → α → Profile) (get : Profile → α) {c : Profile}
    (same : set c (get c) = c) (fine : env.misread? name read = none) :
    env.override name read set c = .ok (set c ((env.value? name read).getD (get c))) := by
  cases given : env.get? name with
  | none =>
    simp only [override, parsed?, value?, given, Option.bind_none, Option.getD_none, same]
    rfl
  | some raw =>
    obtain ⟨x, read, value⟩ := misread?_eq_none.1 fine raw given
    simp only [override, parsed?, given, read, value]
    rfl

def fault? (env : Environment) : Option ConfigFault :=
  env.numbers.findSome? fun (name, text) => text.map (unreadable name)

theorem fault?_eq_some {before after : List (String × Option String)}
    (place : env.numbers = before ++ (name, some raw) :: after) (fine : ∀ e ∈ before, e.2 = none) :
    env.fault? = some (unreadable name raw) := by
  rw [fault?, List.findSome?_eq_some_iff]
  exact ⟨before, (name, some raw), after, place, rfl, fun e mem => by simp [fine e mem]⟩

theorem fault?_eq_none : env.fault? = none ↔ ∀ e ∈ env.numbers, e.2 = none := by
  simp [fault?]

theorem amend_eq (env : Environment) (c : Profile) : env.amend c = { env.amend c with
    telemetry := { c.telemetry with logFormat := env.logFormat?.getD c.telemetry.logFormat } } := by
  have format : (env.amend c).telemetry.logFormat = env.logFormat?.getD c.telemetry.logFormat := by
    simp only [amend, logFormat?]
    split <;> simp [*]
  rw [← format]
  rfl

/-- Only the first fault is found, and without one every variable is taken over. -/
theorem apply_eq (env : Environment) (c : Profile) : match env.fault? with
    | some e => (env.apply c).2 = .error e
    | none => env.apply c = (env.amend c, .ok ()) := by
  rw [fault?, numbers, apply, overrides]
  cases tick : env.misread? "MOUSETRAP_TICK_INTERVAL" Decimal.float? with
  | some raw => simp [applyAll, override_of_misread _ _ tick]
  | none =>
    have first (c : Profile) := override_of_readable
      (fun c tickInterval => { c with run := { c.run with tickInterval } }) (·.run.tickInterval)
        (c := c) rfl tick
    cases frame : env.misread? "MOUSETRAP_FRAME_DELTA" Decimal.float? with
    | some raw => simp [applyAll, first, override_of_misread _ _ frame]
    | none =>
      have second (c : Profile) := override_of_readable
        (fun c frameDelta => { c with run := { c.run with frameDelta } }) (·.run.frameDelta)
          (c := c) rfl frame
      cases seed : env.misread? "MOUSETRAP_SEED" Decimal.word? with
      | some raw => simp [applyAll, first, second, override_of_misread _ _ seed]
      | none =>
        have third (c : Profile) := override_of_readable
          (fun c seed => { c with run := { c.run with seed } }) (·.run.seed) (c := c) rfl seed
        simp only [applyAll, first, second, third]
        rw [amend_eq]
        cases env.logFormat? <;> rfl

/-! ## An environment without a variable -/

def unset (env : Environment) (name : String) : Environment := ⟨env.entries.filter (·.1 != name)⟩

theorem get?_unset_self (env : Environment) (name : String) :
    (env.unset name).get? name = none := by
  simp [get?, unset]

theorem get?_unset_of_ne {other : String} (ne : other ≠ name) :
    (env.unset name).get? other = env.get? other := by
  have agree (e : String × String) : ((e.1 != name) && (e.1 == other)) = (e.1 == other) := by
    cases same : e.1 == other with
    | false => rw [Bool.and_false]
    | true => simpa [eq_of_beq same] using ne
  rw [get?, unset, List.find?_filter]
  simp only [Bool.decide_and, Bool.decide_eq_true, agree, get?]

theorem value?_unset_of_ne {other : String} (ne : other ≠ name) (read : List Char → Option α) :
    (env.unset name).value? other read = env.value? other read := by
  rw [value?, get?_unset_of_ne ne, value?]

theorem misread?_unset_of_ne {other : String} (ne : other ≠ name) (read : List Char → Option α) :
    (env.unset name).misread? other read = env.misread? other read := by
  rw [misread?, get?_unset_of_ne ne, misread?]

theorem fault?_unset_logFormat (env : Environment) :
    (env.unset "MOUSETRAP_LOG_FORMAT").fault? = env.fault? := by
  simp only [fault?, numbers]
  rw [misread?_unset_of_ne (by decide), misread?_unset_of_ne (by decide),
    misread?_unset_of_ne (by decide)]

theorem amend_unset_logFormat (given : env.get? "MOUSETRAP_LOG_FORMAT" = some raw)
    (strange : ∀ f : LogFormat, f.text ≠ raw) (c : Profile) :
    (env.unset "MOUSETRAP_LOG_FORMAT").amend c = env.amend c := by
  have format : (match some raw with
      | some "json" => LogFormat.json
      | some "compact" => LogFormat.compact
      | _ => c.telemetry.logFormat) = c.telemetry.logFormat := by
    split
    next same => exact absurd (Option.some.inj same).symm (strange .json)
    next same => exact absurd (Option.some.inj same).symm (strange .compact)
    next => rfl
  rw [amend, amend, get?_unset_self, given, format, value?_unset_of_ne (by decide),
    value?_unset_of_ne (by decide), value?_unset_of_ne (by decide)]

end Environment

/-! ## Loading -/

variable {env : Environment} {d : Disk} {p : Path} {file : Option Profile}

theorem load_of_fault {e : ConfigFault} (failed : loadFile d p = .error e) (env : Environment) :
    load env d p = .error e := by
  rw [load, failed]
  rfl

theorem load_of_loadFile (loaded : loadFile d p = .ok file) : load env d p = match env.fault? with
    | some e => .error e
    | none => .ok (env.amend (file.getD {})) := by
  have applied := env.apply_eq (file.getD {})
  rw [load, loaded]
  simp only [bind, Except.bind]
  cases found : env.fault? with
  | some e =>
    rw [found] at applied
    generalize env.apply (file.getD {}) = outcome at applied
    obtain ⟨c, verdict⟩ := outcome
    obtain rfl : verdict = .error e := applied
    rfl
  | none =>
    rw [found] at applied
    rw [applied]
    rfl

/-- A file that cannot be used is a fault in any environment. With a file that can be used, or none,
the first variable whose text is not the number that it must be is a fault, which shows that text as
it was given. Without such a variable each one that is set goes over its own field of the file or of
the defaults and over no other, and a run with a seed on its command line has that seed in place of
all others. -/
theorem load_precedence (d : Disk) (p : Path) :
    (∀ e, loadFile d p = .error e → ∀ env, load env d p = .error e) ∧
    ∀ file, loadFile d p = .ok file → ∀ env : Environment,
      (∀ before name raw after, env.numbers = before ++ (name, some raw) :: after →
        (∀ v ∈ before, v.2 = none) →
        load env d p = .error (.invalid name ("cannot parse " ++ Text.quote raw))) ∧
      ((∀ v ∈ env.numbers, v.2 = none) → load env d p = .ok (env.amend (file.getD {})) ∧
        ∀ (o : RunOptions) (seed : UInt64), o.seed = some seed →
          Session.prepare env d p o = Session.ofProfile env o { env.amend (file.getD {}) with
            run := { (env.amend (file.getD {})).run with seed } }) := by
  refine ⟨fun e failed env => load_of_fault failed env, fun file loaded env => ⟨?_, fun fine => ?_⟩⟩
  · intro before name raw after place fine
    rw [load_of_loadFile loaded, Environment.fault?_eq_some place fine]
    rfl
  · have taken : load env d p = .ok (env.amend (file.getD {})) := by
      rw [load_of_loadFile loaded, Environment.fault?_eq_none.2 fine]
    refine ⟨taken, fun o seed given => ?_⟩
    rw [Session.prepare_eq o taken, given]
    rfl

/-- What is loaded where there is no file: with a frame that cannot be read before a seed that
cannot be read, with a seed between spaces and a log format, and with another seed on the command
line. -/
theorem load_precedence_absent :
    load ⟨[("MOUSETRAP_SEED", "-1"), ("MOUSETRAP_FRAME_DELTA", " a\"b ")]⟩ ⟨[], []⟩
      ⟨"settings.toml"⟩ =
      .error (.invalid "MOUSETRAP_FRAME_DELTA" "cannot parse \" a\\\"b \"") ∧
    load ⟨[("MOUSETRAP_SEED", " 42 "), ("MOUSETRAP_LOG_FORMAT", "json")]⟩ ⟨[], []⟩
      ⟨"settings.toml"⟩ =
      .ok { run := { seed := 42 }, telemetry := { logFormat := .json } } ∧
    Session.prepare ⟨[("MOUSETRAP_SEED", " 42 "), ("MOUSETRAP_LOG_FORMAT", "json")]⟩ ⟨[], []⟩
      ⟨"settings.toml"⟩ { seed := some 9 } =
        Session.ofProfile ⟨[("MOUSETRAP_SEED", " 42 "), ("MOUSETRAP_LOG_FORMAT", "json")]⟩
        { seed := some 9 } { run := { seed := 9 }, telemetry := { logFormat := .json } } := by
  obtain ⟨-, present⟩ := load_precedence ⟨[], []⟩ ⟨"settings.toml"⟩
  have absent := present none (if_neg (by decide))
  have shown : Text.quote " a\"b " = "\" a\\\"b \"" := by decide +kernel
  have fault := (absent ⟨[("MOUSETRAP_SEED", "-1"), ("MOUSETRAP_FRAME_DELTA", " a\"b ")]⟩).1
    [("MOUSETRAP_TICK_INTERVAL", none)] "MOUSETRAP_FRAME_DELTA" " a\"b "
      [("MOUSETRAP_SEED", some "-1")]
    rfl (by simp)
  rw [shown] at fault
  have read : Decimal.word? (Text.trim [' ', '4', '2', ' ']) = some 42 := rfl
  obtain ⟨taken, seeded⟩ :=
    (absent ⟨[("MOUSETRAP_SEED", " 42 "), ("MOUSETRAP_LOG_FORMAT", "json")]⟩).2
    (by simp [Environment.numbers, Environment.misread?, Environment.get?, read])
  have amended : Environment.amend
    ⟨[("MOUSETRAP_SEED", " 42 "), ("MOUSETRAP_LOG_FORMAT", "json")]⟩ {} =
      { run := { seed := 42 }, telemetry := { logFormat := .json } } := by
    simp [Environment.amend, Environment.value?, Environment.get?, read]
  rw [Option.getD_none, amended] at taken seeded
  exact ⟨fault, taken, seeded { seed := some 9 } 9 rfl⟩

/-- Every variable that holds a number is heeded: it is the field that it sets, or loading fails at
a variable that cannot be read. The log format is heeded if its text is the name of a format. Any
other text of it is passed over: what is loaded, or the fault, is what it would be if the variable
were not set at all. -/
theorem load_heeds (loaded : loadFile d p = .ok file) (env : Environment) :
    ((∃ v ∈ env.numbers, v.2 ≠ none) → ∃ name raw, (name, some raw) ∈ env.numbers ∧
      load env d p = .error (.invalid name ("cannot parse " ++ Text.quote raw))) ∧
    (∀ c, load env d p = .ok c →
      (∀ raw, env.get? "MOUSETRAP_TICK_INTERVAL" = some raw →
        Decimal.float? (Text.trim raw.toList) = some c.run.tickInterval) ∧
      (∀ raw, env.get? "MOUSETRAP_FRAME_DELTA" = some raw →
        Decimal.float? (Text.trim raw.toList) = some c.run.frameDelta) ∧
      (∀ raw, env.get? "MOUSETRAP_SEED" = some raw →
        Decimal.word? (Text.trim raw.toList) = some c.run.seed) ∧
      ∀ f : LogFormat, env.get? "MOUSETRAP_LOG_FORMAT" = some f.text → c.telemetry.logFormat = f) ∧
    ∀ raw, env.get? "MOUSETRAP_LOG_FORMAT" = some raw → (∀ f : LogFormat, f.text ≠ raw) →
      load env d p = load (env.unset "MOUSETRAP_LOG_FORMAT") d p := by
  refine ⟨fun bad => ?_, fun c taken => ?_, fun raw given strange => ?_⟩
  · have some : env.fault? ≠ none := fun none => by
      obtain ⟨v, mem, unread⟩ := bad
      exact unread (Environment.fault?_eq_none.1 none v mem)
    obtain ⟨e, found⟩ := Option.ne_none_iff_exists'.1 some
    obtain ⟨⟨name, text⟩, mem, fault⟩ := List.exists_of_findSome?_eq_some found
    obtain ⟨raw, rfl, rfl⟩ := Option.map_eq_some_iff.1 fault
    exact ⟨name, raw, mem, by rw [load_of_loadFile loaded, found]; rfl⟩
  · rw [load_of_loadFile loaded] at taken
    cases found : env.fault? with
    | some e =>
      rw [found] at taken
      cases taken
    | none =>
      rw [found] at taken
      obtain rfl := Except.ok.inj taken
      have fine := Environment.fault?_eq_none.1 found
      have heeded {α : Type} {name raw : String} {read : List Char → Option α}
          (mem : (name, env.misread? name read) ∈ env.numbers)
          (given : env.get? name = some raw) (x : α) :
          read (Text.trim raw.toList) = some ((env.value? name read).getD x) := by
        obtain ⟨y, read, value⟩ := Environment.misread?_eq_none.1 (fine _ mem) raw given
        rw [value, read, Option.getD_some]
      refine ⟨fun raw given => heeded (by simp [Environment.numbers]) given _,
        fun raw given => heeded (by simp [Environment.numbers]) given _,
        fun raw given => heeded (by simp [Environment.numbers]) given _, fun f given => ?_⟩
      rw [Environment.amend, given]
      cases f <;> rfl
  · rw [load_of_loadFile loaded, load_of_loadFile loaded, Environment.fault?_unset_logFormat,
      Environment.amend_unset_logFormat given strange]

theorem load_heeds_seed : loadFile ⟨[], []⟩ ⟨"settings.toml"⟩ = .ok none ∧
    load ⟨[("MOUSETRAP_SEED", "5"), ("MOUSETRAP_LOG_FORMAT", "JSON")]⟩ ⟨[], []⟩ ⟨"settings.toml"⟩ =
      .ok { run := { seed := 5 } } ∧
    Decimal.word? (Text.trim "5".toList) = some 5 ∧
    load ⟨[("MOUSETRAP_SEED", "5"), ("MOUSETRAP_LOG_FORMAT", "JSON")]⟩ ⟨[], []⟩ ⟨"settings.toml"⟩ =
      load (Environment.unset ⟨[("MOUSETRAP_SEED", "5"), ("MOUSETRAP_LOG_FORMAT", "JSON")]⟩
        "MOUSETRAP_LOG_FORMAT") ⟨[], []⟩ ⟨"settings.toml"⟩ := by
  have absent : loadFile ⟨[], []⟩ ⟨"settings.toml"⟩ = .ok none := if_neg (by decide)
  have taken : load ⟨[("MOUSETRAP_SEED", "5"), ("MOUSETRAP_LOG_FORMAT", "JSON")]⟩ ⟨[], []⟩
    ⟨"settings.toml"⟩ =
      .ok { run := { seed := 5 } } := by
    rw [load_of_loadFile absent]
    rfl
  obtain ⟨-, heeded, ignored⟩ :=
    load_heeds absent ⟨[("MOUSETRAP_SEED", "5"), ("MOUSETRAP_LOG_FORMAT", "JSON")]⟩
  obtain ⟨-, -, seed, -⟩ := heeded _ taken
  exact ⟨absent, taken, seed "5" rfl, ignored "JSON" rfl (by rintro (_ | _) <;> decide)⟩

/-- A log format that is not known is no fault, nor is a known one between spaces: the format stays
what it was. -/
theorem load_pretty :
    load ⟨[("MOUSETRAP_LOG_FORMAT", "pretty")]⟩ ⟨[], []⟩ ⟨"settings.toml"⟩ = .ok {} ∧
    load ⟨[("MOUSETRAP_LOG_FORMAT", " json ")]⟩ ⟨[], []⟩ ⟨"settings.toml"⟩ = .ok {} := by
  have absent : loadFile ⟨[], []⟩ ⟨"settings.toml"⟩ = .ok none := if_neg (by decide)
  rw [load_of_loadFile absent, load_of_loadFile absent]
  exact ⟨rfl, rfl⟩

end Pursuit.Settings
