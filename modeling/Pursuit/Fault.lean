import Pursuit.Plane.Point

/-!
What can go wrong: a deed of an agent that fails, and settings that cannot be read, used or
written. Every cause has one wording and one dump.
-/
namespace Pursuit

inductive ActionFault where
  | noTarget (text : String)
  | navigation (destination : Point) (reason : String)
  | alreadyCollected (cheese : Nat)
  | stateUnavailable (text : String)
  | failed (text : String)

def ActionFault.message : ActionFault → String
  | .noTarget text => "no target available: " ++ text
  | .navigation p reason => "navigation rejected destination " ++ p.text ++ ": " ++ reason
  | .alreadyCollected cheese => "cheese " ++ Nat.repr cheese ++ " was already collected"
  | .stateUnavailable text => "shared state unavailable: " ++ text
  | .failed text => text

def ActionFault.dump : ActionFault → Text.Dump
  | .noTarget text => .tuple "NoTarget" [.quoted text]
  | .navigation p reason => .fields "Navigation" [
      ("x", .atom (Decimal.Layout.dump.narrow p.x)), ("y", .atom (Decimal.Layout.dump.narrow p.y)),
      ("reason", .quoted reason)]
  | .alreadyCollected cheese => .tuple "AlreadyCollected" [.ofNat cheese]
  | .stateUnavailable text => .tuple "StateUnavailable" [.quoted text]
  | .failed text => .tuple "Failed" [.quoted text]

inductive ConfigFault where
  | tickInterval (value : Float)
  | invalid (field reason : String)
  | io (path reason : String)
  | parse (text : String)
  | serialize (text : String)

def ConfigFault.message : ConfigFault → String
  | .tickInterval value =>
    "tick interval must be a finite, non-negative number of seconds (got " ++
      Decimal.Layout.plain.wide value ++ ")"
  | .invalid field reason => "invalid value for `" ++ field ++ "`: " ++ reason
  | .io path reason => "config I/O failed at " ++ path ++ ": " ++ reason
  | .parse text => "failed to parse config: " ++ text
  | .serialize text => "failed to serialize config: " ++ text

def ConfigFault.dump : ConfigFault → Text.Dump
  | .tickInterval value =>
    .tuple "InvalidTickInterval" [.atom (Decimal.Layout.dump.wide value)]
  | .invalid field reason =>
    .fields "InvalidValue" [("field", .quoted field), ("reason", .quoted reason)]
  | .io path reason => .fields "Io" [("path", .quoted path), ("reason", .quoted reason)]
  | .parse text => .tuple "Parse" [.quoted text]
  | .serialize text => .tuple "Serialize" [.quoted text]

end Pursuit
