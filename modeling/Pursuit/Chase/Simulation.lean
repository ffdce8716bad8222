import Pursuit.Behavior.Driver
import Pursuit.Chase.Cat
import Pursuit.Chase.Mouse
import Pursuit.Chase.Report

/-!
A run: in each frame the cat's driver and then the mouse's get the frame time, after which the
scene moves on. Once the mouse is caught or no cheese is left both drivers stop and further frames
change nothing. A frame ends abandoned only if a tick in it does. Frames, too, are counted without a
bound, and taken to be fewer than 2^64.
-/
namespace Pursuit.Chase

open Pursuit.Behavior Pursuit.Settings

structure Simulation where
  host : Host
  catDriver : Driver Host
  mouseDriver : Driver Host
  frameDelta : Float
  frames : Nat := 0
  outcome : Outcome := .ongoing

namespace Simulation

def ofSettings (c : RunSettings) : Except ConfigFault Simulation := do
  c.validate
  let h : Host := { scene := .ofSettings c }
  let cat ← Driver.create? c.tickInterval
  let (cat, h) := cat.start { root := Cat.tree } h
  let mouse ← Driver.create? c.tickInterval
  let (mouse, h) := mouse.start { root := Mouse.tree } h
  let h := record (.ready c.tickInterval c.seed c.world.cheeses.length) h
  return { host := h, catDriver := cat, mouseDriver := mouse, frameDelta := c.frameDelta }

def stop (sim : Simulation) : Simulation :=
  let (cat, h) := sim.catDriver.stop sim.host
  let (mouse, h) := sim.mouseDriver.stop h
  { sim with catDriver := cat, mouseDriver := mouse, host := h }

def settle (sim : Simulation) (delta : Float) : Outcome × Simulation :=
  let frames := sim.frames + 1
  match sim.host.scene.outcome with
  | .ongoing =>
    (.ongoing, { sim with frames, host := { sim.host with scene := sim.host.scene.advance delta } })
  | outcome =>
    let sim := stop { sim with frames }
    (outcome, { sim with outcome, host := record (.finished outcome frames) sim.host })

def play (sim : Simulation) (delta : Float) : Exit Outcome × Simulation :=
  if sim.outcome = .ongoing then
    match sim.catDriver.frame delta sim.host with
    | (.returned (), cat, h) =>
      match sim.mouseDriver.frame delta h with
      | (.returned (), mouse, h) =>
        let (outcome, sim) :=
          settle { sim with catDriver := cat, mouseDriver := mouse, host := h } delta
        (.returned outcome, sim)
      | (.unwound, mouse, h) =>
        (.unwound, { sim with catDriver := cat, mouseDriver := mouse, host := h })
      | (.tooDeep, mouse, h) =>
        (.tooDeep, { sim with catDriver := cat, mouseDriver := mouse, host := h })
    | (.unwound, cat, h) => (.unwound, { sim with catDriver := cat, host := h })
    | (.tooDeep, cat, h) => (.tooDeep, { sim with catDriver := cat, host := h })
  else (.returned sim.outcome, sim)

/-- One frame of a host that does not look at the outcome. -/
def frame (sim : Simulation) (delta : Float) : Exit Unit × Simulation :=
  let (exit, sim) := sim.play delta
  (exit.map fun _ => (), sim)

def frames? (delta : Float) : (budget : Nat) → Simulation → Exit Unit × Simulation
  | 0, sim => (.returned (), sim)
  | budget + 1, sim =>
    match sim.play delta with
    | (.returned .ongoing, sim) => frames? delta budget sim
    | (exit, sim) => (exit.map fun _ => (), sim)

/-- At most `budget` frames, each as long as a clock says, fewer if the run ends. Where the clock
names no time the run is interrupted, which stops both trees. Says whether it was. -/
def paced {m : Type → Type} [Monad m] (beat : m (Option Float)) :
    (budget : Nat) → Simulation → m (Exit Bool × Simulation)
  | 0, sim => pure (.returned false, sim)
  | budget + 1, sim => do
    match ← beat with
    | none => return (.returned true, sim.stop)
    | some delta =>
      match sim.play delta with
      | (.returned .ongoing, sim) => paced beat budget sim
      | (exit, sim) => return (exit.map fun _ => false, sim)

def report (sim : Simulation) : Report where
  outcome := sim.outcome
  frames := sim.frames
  seconds := sim.host.scene.elapsed
  catTicks := sim.catDriver.ticks
  mouseTicks := sim.mouseDriver.ticks
  collected := sim.host.scene.mouse.collected
  remaining := sim.host.scene.world.remaining
  catPosition := sim.host.scene.cat.nav.position
  catMode := sim.host.scene.cat.mode
  mousePosition := sim.host.scene.mouse.nav.position
  mouseMode := sim.host.scene.mouse.mode

/-- Runs frames of the configured length until the run ends or has had `total` frames in all. -/
def runHeadless (sim : Simulation) (total : Nat) : Exit Unit × Simulation :=
  sim.frames? sim.frameDelta (total - sim.frames)

end Simulation

end Pursuit.Chase
