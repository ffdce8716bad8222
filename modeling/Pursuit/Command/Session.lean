import Pursuit.Chase.Simulation
import Pursuit.Command.Arguments
import Pursuit.Logging.Endpoint
import Pursuit.Logging.Filter
import Pursuit.Logging.Line
import Pursuit.Settings.Store

/-!
One call of the program: from the command line, the environment and the disk to what is printed,
what is logged, the exit code and the disk afterwards. A run in real time asks a clock for the
length of each frame; without a clock every frame is taken to last as long as the settings say.
-/
namespace Pursuit.Command

open Pursuit.Chase Pursuit.Settings Pursuit.Logging Pursuit.Behavior
open Files (Disk Path)
open Text (Paint)

structure Transcript where
  exit : UInt8
  output : String := ""
  log : List Line := []
  disk : Disk

namespace Transcript

def succeeded : UInt8 := 0

def failed : UInt8 := 1

def misused : UInt8 := 2

def broken : UInt8 := 101

end Transcript

/-- Colours are on only if the environment forces them. -/
def colours (env : Environment) : Paint := ⟨(env.get? "CLICOLOR_FORCE").any (· != "0")⟩

def version : String := "0.1.0"

def fault (env : Environment) (d : Disk) (log : List Line) (e : ConfigFault) : Transcript where
  exit := Transcript.failed
  log := log ++
    Line.ofMessage ((colours env).apply [Paint.bold, Paint.red] "error" ++ ": " ++ e.message)
  disk := d

def brokenSetup (d : Disk) : Transcript where
  exit := Transcript.broken
  log := [.text "the log filter cannot be cut inside a character"]
  disk := d

/-! ## Runs -/

def banner (p : Paint) : String :=
  let line (s : String) : String := p.apply [Paint.bold, Paint.cyan] s ++ "\n"
  "\n" ++ line "   /\\_/\\     mousetrap" ++ line "  ( o.o )    cat vs. mouse" ++
    line "   > ^ <     " ++ "\n  " ++ p.apply [Paint.dimmed] ("v" ++ version) ++ "\n\n"

structure Session where
  paint : Paint
  options : RunOptions
  filter : Filter
  format : LogFormat
  /-- What was said while logging was set up. -/
  notices : List Line
  sim : Simulation

def ignoredSettings (env : Environment) (t : TelemetrySettings) (ignored : List String) :
    List Line :=
  let directives := ignored.map fun d => "ignoring \x60" ++ d ++ "\x60: invalid filter directive"
  (directives ++ (Endpoint.complaint? (Endpoint.choose env t)).toList).flatMap Line.ofMessage

/-- Whether a clock can count these seconds: they are not negative and fewer than 2^64. -/
def isCountable (seconds : Float) : Bool := 0.0 ≤ seconds && seconds < 18446744073709551616.0

inductive Setback where
  | fault (e : ConfigFault) (log : List Line)
  | broken

namespace Session

def prepare (env : Environment) (d : Disk) (p : Path) (o : RunOptions) :
    Except Setback Session := do
  let c ← (load env d p).mapError (Setback.fault · [])
  let run := { c.run with seed := o.seed.getD c.run.seed }
  match Filter.choose env c.telemetry.filter with
  | none => throw .broken
  | some (filter, ignored) =>
    let notices := ignoredSettings env c.telemetry ignored
    let sim ← (Simulation.ofSettings run).mapError (Setback.fault · notices)
    return {
      paint := colours env, options := o, filter, format := c.telemetry.logFormat, notices, sim }

def opening (s : Session) : String := if s.options.json then "" else banner s.paint

def canPace (s : Session) : Bool := isCountable s.sim.frameDelta

def lines (s : Session) (events : List Event) : List Line :=
  s.notices ++ (events.filter s.filter.keeps).map (Line.ofEvent s.format)

def closing (s : Session) (report : Report) : String :=
  if s.options.json then report.json ++ "\n" else report.text s.paint

def events (sim : Simulation) : List Event :=
  sim.host.events.reverse ++ [.complete sim.report.outcome sim.report.frames]

def close (s : Session) (sim : Simulation) (d : Disk) : Transcript where
  exit := Transcript.succeeded
  output := s.opening ++ s.closing sim.report
  log := s.lines (events sim)
  disk := d

def breakOff (s : Session) (sim : Simulation) (d : Disk) : Transcript where
  exit := Transcript.broken
  output := s.opening
  log := s.lines sim.host.events.reverse ++ [.text "the run broke off"]
  disk := d

def interruption (p : Paint) : String :=
  "\n" ++ p.apply [Paint.bold, Paint.yellow] "⚠  Ctrl-C received – stopping the simulation …" ++
    "\n"

/-- The end of a run that a clock paced, which may have been interrupted. -/
def conclude (s : Session) (d : Disk) : Exit Bool × Simulation → Transcript
  | (.returned interrupted, sim) =>
    let notice := if interrupted then interruption s.paint else ""
    { s.close sim d with output := s.opening ++ notice ++ s.closing sim.report }
  | (_, sim) => s.breakOff sim d

/-- All frames of a run at the pace of a clock. It lets a time go by that is as long as a frame and
says how long that was, or that the run is to be interrupted. -/
def playPaced {m : Type → Type} [Monad m] (clock : Float → m (Option Float)) (s : Session)
    (d : Disk) : m Transcript :=
  if s.canPace then
    s.conclude d <$> s.sim.paced (clock s.sim.frameDelta) (s.options.frames.toNat - s.sim.frames)
  else pure (s.breakOff s.sim d)

def play (s : Session) (d : Disk) : Transcript :=
  if s.options.realtime && !s.canPace then s.breakOff s.sim d
  else
    match s.sim.runHeadless s.options.frames.toNat with
    | (.returned (), sim) => s.close sim d
    | (_, sim) => s.breakOff sim d

end Session

def Setback.transcript (env : Environment) (d : Disk) : Setback → Transcript
  | .fault e log => Command.fault env d log e
  | .broken => brokenSetup d

def run (env : Environment) (d : Disk) (p : Path) (o : RunOptions) : Transcript :=
  match Session.prepare env d p o with
  | .ok s => s.play d
  | .error s => s.transcript env d

/-! ## Settings files -/

/-- Writes the default settings, over a file that is there only if forced. -/
def init (env : Environment) (d : Disk) (p : Path) (force : Bool) : Transcript :=
  let bold (s : String) : String := (colours env).apply [Paint.bold] s
  if d.pathExists p && !force then
    { exit := Transcript.succeeded
      output := "  Config already exists at " ++ bold p.text ++ " (use " ++ bold "--force" ++
        " to overwrite)\n"
      disk := d }
  else
    match save {} p d with
    | (d, .error e) => fault env d [] e
    | (d, .ok ()) =>
      { exit := Transcript.succeeded
        output := "  " ++ (colours env).apply [Paint.bold, Paint.green] "✓" ++
          " Config saved to " ++ bold p.text ++ "\n"
        disk := d }

def document (env : Environment) (d : Disk) (p : Path) : Except ConfigFault String := do
  let c ← load env d p
  c.run.validate
  c.print

def showConfig (env : Environment) (d : Disk) (p : Path) : Transcript :=
  match document env d p with
  | .ok s => { exit := Transcript.succeeded, output := "# " ++ p.text ++ "\n" ++ s, disk := d }
  | .error e => fault env d [] e

/-! ## Calls -/

def usage : String := String.join ([
  "Cat-and-mouse behavior-tree simulation",
  "",
  "Usage: mousetrap [--config PATH] COMMAND",
  "",
  "Commands:",
  "  run          Run the simulation and print a report",
  "               [--frames N] [--seed N] [--realtime] [--json]",
  "  init         Write the default configuration file [--force]",
  "  show-config  Print the effective configuration as TOML",
  "",
  "Options:",
  "  --config PATH  Config file to use instead of ~/.mousetrap/config.toml",
  "  -h, --help     Print help",
  "  -V, --version  Print version"].map (· ++ "\n"))

def obey (env : Environment) (d : Disk) (p : Path) : Order → Transcript
  | .run o => run env d p o
  | .init force => init env d p force
  | .showConfig => showConfig env d p

def call (env : Environment) (d : Disk) (args : List String) : Transcript :=
  match read args with
  | .order o config => obey env d (config.getD env.defaultPath) o
  | .version =>
    { exit := Transcript.succeeded, output := "mousetrap " ++ version ++ "\n", disk := d }
  | .help => { exit := Transcript.succeeded, output := usage, disk := d }
  | .refused => { exit := Transcript.misused, log := [.text usage], disk := d }

end Pursuit.Command
