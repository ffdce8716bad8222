import Pursuit.Settings.Profile
import Pursuit.Text.Json
import Pursuit.Text.Split
import Pursuit.Journal

/-!
Lines of the log. In JSON a line is one event with its fields; in compact form it is text.
-/
namespace Pursuit.Logging

open Settings (LogFormat)

inductive Line where
  /-- An event as JSON. -/
  | json (e : Event)
  | text (s : String)

def fieldJson : Field → String
  | .text s => Text.Json.quote s
  | .flag b => if b then "true" else "false"
  | .count n => Nat.repr n
  | .seconds x => Decimal.Layout.jsonWide.wide x

def fieldText : Field → String
  | .text s => Text.quote s
  | .flag b => if b then "true" else "false"
  | .count n => Nat.repr n
  | .seconds x => Decimal.Layout.plain.wide x

namespace Line

def ofEvent : LogFormat → Event → Line
  | .json, e => .json e
  | .compact, e => .text (e.level.name ++ " " ++ e.target ++ ": " ++
      String.intercalate " " (e.message :: e.fields.map fun (key, v) => key ++ "=" ++ fieldText v))

/-- A message as lines, of which it has one more than newlines. -/
def ofMessage (s : String) : List Line :=
  (Text.split '\n' s.toList).map fun l => .text (.ofList l)

def render : Line → String
  | .text s => s
  | .json e => Text.Json.object [
      ("level", Text.Json.quote e.level.name),
      ("fields", Text.Json.object
        (("message", Text.Json.quote e.message) ::
          e.fields.map fun (key, v) => (key, fieldJson v))),
      ("target", Text.Json.quote e.target)]

end Line

end Pursuit.Logging
