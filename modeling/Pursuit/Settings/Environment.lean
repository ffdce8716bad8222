import Pursuit.Files.Path
import Pursuit.Settings.Profile
import Pursuit.Decimal.Reader
import Pursuit.Text.Blank
import Pursuit.Text.Quoted

/-!
Variables of the environment, and what they change in a profile. They are looked at in a fixed
order, and the first that cannot be read is a fault.
-/
namespace Pursuit.Settings

structure Environment where
  entries : List (String × String)

namespace Environment

/-- A variable that is not UTF-8 counts as unset. -/
def ofBytes (raw : List (String × ByteArray)) : Environment :=
  ⟨raw.filterMap fun (name, value) => (String.fromUTF8? value).map (name, ·)⟩

def get? (env : Environment) (name : String) : Option String :=
  (env.entries.find? (·.1 == name)).map (·.2)

/-- What a variable says, if it is set. White space around the value does not count. -/
def parsed? {α : Type} (env : Environment) (name : String) (read : List Char → Option α) :
    Except ConfigFault (Option α) :=
  match env.get? name with
  | none => .ok none
  | some raw =>
    match read (Text.trim raw.toList) with
    | some x => .ok (some x)
    | none => .error (.invalid name ("cannot parse " ++ Text.quote raw))

def override {α : Type} (env : Environment) (name : String) (read : List Char → Option α)
    (set : Profile → α → Profile) (p : Profile) : Except ConfigFault Profile :=
  (env.parsed? name read).map fun
    | some x => set p x
    | none => p

/-- The log format that the environment asks for. Any other text asks for none. -/
def logFormat? (env : Environment) : Option LogFormat :=
  match env.get? "MOUSETRAP_LOG_FORMAT" with
  | some "json" => some .json
  | some "compact" => some .compact
  | _ => none

def overrides (env : Environment) : List (Profile → Except ConfigFault Profile) := [
  env.override "MOUSETRAP_TICK_INTERVAL" Decimal.float?
    fun p tickInterval => { p with run := { p.run with tickInterval } },
  env.override "MOUSETRAP_FRAME_DELTA" Decimal.float?
    fun p frameDelta => { p with run := { p.run with frameDelta } },
  env.override "MOUSETRAP_SEED" Decimal.word? fun p seed => { p with run := { p.run with seed } },
  fun p => .ok <| match env.logFormat? with
    | some logFormat => { p with telemetry := { p.telemetry with logFormat } }
    | none => p]

def applyAll : List (Profile → Except ConfigFault Profile) → Profile → Profile × Verdict
  | [], p => (p, .ok ())
  | f :: fs, p =>
    match f p with
    | .ok p => applyAll fs p
    | .error e => (p, .error e)

/-- A profile with all that the environment changes in it; what was changed before a fault stays. -/
def apply (env : Environment) (p : Profile) : Profile × Verdict := applyAll env.overrides p

def defaultPath (env : Environment) : Files.Path :=
  inHome ((env.get? "HOME").getD ((env.get? "USERPROFILE").getD "."))
where
  inHome (home : String) : Files.Path :=
    (Files.Path.join ⟨home⟩ ⟨".mousetrap"⟩).join ⟨"config.toml"⟩

end Environment

end Pursuit.Settings
