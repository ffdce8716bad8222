import Pursuit.Behavior.Dump

/-!
A driver ticks the root of a tree at most once per interval, however the frames arrive. It gathers
frame times while it is running with a root; when they reach the interval it ticks and starts over.
Starting, resuming and stopping leave the gathered time alone. A tick that is abandoned leaves the
driver as it was when the tick began, so the next frame ticks again. Ticks are counted without a
bound: it is taken that there are fewer than 2^64.
-/
namespace Pursuit.Behavior

structure Driver (σ : Type) where
  root : Option (Tree σ) := none
  isRunning : Bool := false
  interval : Float
  timer : Float := 0.0
  ticks : Nat := 0
  last : Option Status := none

namespace Driver

variable {σ : Type}

def usable (seconds : Float) : Bool := seconds.isFinite && !(seconds < 0.0)

def create? (interval : Float) : Except ConfigFault (Driver σ) :=
  if usable interval then .ok { interval } else .error (.tickInterval interval)

def withRoot? (interval : Float) (t : Tree σ) : Except ConfigFault (Driver σ) :=
  (create? interval).map fun (d : Driver σ) => { d with root := some t }

variable [Journal σ]

def start (d : Driver σ) (t : Tree σ) (s : σ) : Driver σ × σ :=
  let s := if d.root.isSome then record .rootReplaced s else s
  ({ d with root := some t, isRunning := true }, record (.started d.timer) s)

def resume (d : Driver σ) (s : σ) : Driver σ × σ :=
  ({ d with isRunning := true }, record (.resumed d.root.isSome d.timer) s)

def stop (d : Driver σ) (s : σ) : Driver σ × σ :=
  ({ d with isRunning := false }, record (.stopped d.ticks) s)

/-- Ticks the root and starts the interval over, unless the tick is abandoned. -/
def fire (d : Driver σ) (t : Tree σ) (s : σ) : Exit Unit × Driver σ × σ :=
  match t.tick s with
  | (.returned status, t, s) =>
    let ticks := d.ticks + 1
    (.returned (), { d with root := some t, timer := 0.0, ticks, last := some status },
      record (.ticked ticks status) s)
  | (.unwound, t, s) => (.unwound, { d with root := some t }, s)
  | (.tooDeep, t, s) => (.tooDeep, { d with root := some t }, s)

def frame (d : Driver σ) (delta : Float) (s : σ) : Exit Unit × Driver σ × σ :=
  match d.isRunning, d.root with
  | true, some t =>
    if usable delta then
      let d := { d with timer := d.timer + delta }
      if d.interval ≤ d.timer then d.fire t s else (.returned (), d, s)
    else (.returned (), d, record (.frameIgnored delta) s)
  | _, _ => (.returned (), d, s)

def dump (d : Driver σ) : Text.Dump :=
  let number (x : Float) : Text.Dump := .atom (Decimal.Layout.dump.wide x)
  .fields "TreeDriver" [
    ("root", .ofOption (d.root.map Tree.dump)), ("is_running", .ofBool d.isRunning),
    ("tick_interval", number d.interval), ("timer", number d.timer), ("ticks", .ofNat d.ticks),
    ("last_state", .ofOption (d.last.map fun s => .atom s.name))]

end Driver

end Pursuit.Behavior
