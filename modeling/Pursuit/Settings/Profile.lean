import Pursuit.Settings.Run

/-!
All that a settings file holds: the settings of a run, and where and how its events are logged.
-/
namespace Pursuit.Settings

inductive LogFormat where
  | compact
  | json
deriving DecidableEq, Repr

def LogFormat.text : LogFormat → String
  | .compact => "compact"
  | .json => "json"

structure TelemetrySettings where
  serviceName : String := "mousetrap"
  /-- What is logged unless the environment says otherwise. -/
  filter : String := "info"
  logFormat : LogFormat := .compact
  /-- Where traces are sent, if anywhere. -/
  endpoint : Option String := none
deriving DecidableEq

structure Profile where
  run : RunSettings := {}
  telemetry : TelemetrySettings := {}
deriving BEq

end Pursuit.Settings
