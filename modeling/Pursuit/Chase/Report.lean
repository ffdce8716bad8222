import Pursuit.Mode
import Pursuit.Plane.Point
import Pursuit.Text.Json
import Pursuit.Text.Paint

/-!
The summary of a run, as JSON and for people. Its counts are taken to stay below 2^64.
-/
namespace Pursuit.Chase

open Text (Paint)

structure Report where
  outcome : Outcome
  frames : Nat
  /-- How long the run took for its agents. -/
  seconds : Float
  catTicks : Nat
  mouseTicks : Nat
  collected : Nat
  remaining : Nat
  catPosition : Point
  catMode : CatMode
  mousePosition : Point
  mouseMode : MouseMode

namespace Report

def json (r : Report) : String :=
  let place (p : Point) : String := Text.Json.spread 1 [
    ("x", Decimal.Layout.jsonNarrow.narrow p.x), ("y", Decimal.Layout.jsonNarrow.narrow p.y)]
  Text.Json.spread 0 [
    ("outcome", Text.Json.quote r.outcome.text),
    ("frames", Nat.repr r.frames),
    ("simulated_seconds", Decimal.Layout.jsonWide.wide r.seconds),
    ("cat_ticks", Nat.repr r.catTicks),
    ("mouse_ticks", Nat.repr r.mouseTicks),
    ("cheese_collected", Nat.repr r.collected),
    ("cheese_remaining", Nat.repr r.remaining),
    ("cat_position", place r.catPosition),
    ("cat_mode", Text.Json.quote r.catMode.text),
    ("mouse_position", place r.mousePosition),
    ("mouse_mode", Text.Json.quote r.mouseMode.text)]

def headline (p : Paint) : Outcome → String
  | .mouseCaught => p.apply [Paint.bold, Paint.red] "the cat caught the mouse"
  | .allCheeseCollected => p.apply [Paint.bold, Paint.green] "the mouse got all the cheese"
  | .ongoing => p.apply [Paint.bold, Paint.yellow] "still running"

def text (p : Paint) (r : Report) : String :=
  let mode (s : String) : String := p.apply [Paint.dimmed] ("(" ++ s ++ ")")
  String.join ([
    "  Outcome:   " ++ headline p r.outcome,
    "  Frames:    " ++ Nat.repr r.frames ++ " (" ++ Decimal.centsWide r.seconds ++ " s simulated)",
    "  Ticks:     cat " ++ Nat.repr r.catTicks ++ " / mouse " ++ Nat.repr r.mouseTicks,
    "  Cheese:    " ++ Nat.repr r.collected ++ " collected, " ++ Nat.repr r.remaining ++ " left",
    "  Cat:       " ++ r.catPosition.text ++ " " ++ mode r.catMode.name,
    "  Mouse:     " ++ r.mousePosition.text ++ " " ++ mode r.mouseMode.name,
    ""].map (· ++ "\n"))

end Report

end Pursuit.Chase
