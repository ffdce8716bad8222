import Pursuit.Command.Session

/-!
The program. What the library needs of the system is gathered first and what it changed is carried
out last; only a run in real time waits for the clock in between.
-/
namespace Pursuit.Main

open Pursuit.Chase Pursuit.Command Pursuit.Settings Pursuit.Files Pursuit.Behavior

def consulted : List String := [
  "HOME", "USERPROFILE", "MOUSETRAP_TICK_INTERVAL", "MOUSETRAP_FRAME_DELTA", "MOUSETRAP_SEED",
  "MOUSETRAP_LOG_FORMAT", "RUST_LOG", "OTEL_EXPORTER_OTLP_ENDPOINT", "CLICOLOR_FORCE"]

def environment : IO Environment := do
  return ⟨← consulted.filterMapM fun name => do return (← IO.getEnv name).map (name, ·)⟩

def textOf (l : Location) : String := "/" ++ String.intercalate "/" l

/-- What is at a location of the system's disk. Modes are taken to be the usual ones, and to bar
nothing: what the user may not do the system itself refuses. -/
def itemAt (l : Location) : IO (Option Item) := do
  let p := System.mkFilePath [textOf l]
  if ← p.isDir then return some (.directory ⟨.master, Disk.openMode⟩)
  else if ← p.pathExists then
    return some (.file ⟨.master, Disk.fileMode⟩ (← IO.FS.readBinFile p))
  else return none

def passed : Location → List String → List Location
  | l, [] => [l]
  | l, name :: names =>
    let next :=
      if name = "" ∨ name = "." then l else if name = ".." then l.dropLast else l ++ [name]
    l :: passed next names

/-- As much of the system's disk as a path leads through. -/
def diskFor (p : Path) : IO Disk := do
  let here := (Path.names ⟨(← IO.currentDir).toString⟩).filter (· ≠ "")
  let start : Location := if p.isAbsolute then [] else here
  let places := (passed [] here ++ passed start p.names).eraseDups
  let items ← places.filterMapM fun l => do return (← itemAt l).map (l, ·)
  return ⟨items, here⟩

def rights (mode : Nat) : IO.FileRight :=
  let three (n : Nat) : IO.AccessRight :=
    { read := n / 4 % 2 = 1, write := n / 2 % 2 = 1, execution := n % 2 = 1 }
  { user := three (mode / 64), group := three (mode / 8), other := three mode }

def install (before : Disk) (l : Location) (i : Item) : IO Unit := do
  let name := textOf l
  match i, before.item? l with
  | .directory access, some (.directory old) =>
    if access.mode ≠ old.mode then IO.setAccessRights name (rights access.mode.toNat)
  | .directory access, _ =>
    IO.FS.createDir name
    IO.setAccessRights name (rights access.mode.toNat)
  | .file _ content, some (.file _ old) =>
    if content.data ≠ old.data then IO.FS.writeBinFile name content
  | .file access content, _ =>
    IO.FS.writeBinFile name content
    IO.setAccessRights name (rights access.mode.toNat)

def installAll (before after : Disk) : IO Unit :=
  (after.items.mergeSort fun a b => a.1.length ≤ b.1.length).forM fun (l, i) => install before l i

def carryOut (before : Disk) (t : Transcript) : IO UInt32 := do
  t.log.forM fun l => IO.eprintln l.render
  installAll before t.disk
  IO.print t.output
  return t.exit.toUInt32

def tick (last : IO.Ref Nat) (length : Float) : IO (Option Float) := do
  IO.sleep (length * 1000.0).ceil.toUInt32
  let now ← IO.monoNanosNow
  let before ← last.swap now
  return some ((now - before).toFloat / 1000000000.0)

def playPaced (s : Session) (d : Disk) : IO UInt32 := do
  IO.print s.opening
  let t ← s.playPaced (tick (← IO.mkRef (← IO.monoNanosNow))) d
  carryOut d { t with output := (t.output.drop s.opening.length).toString }

def start (args : List String) : IO UInt32 := do
  let env ← environment
  match read args with
  | .order o config =>
    let p := config.getD env.defaultPath
    let d ← diskFor p
    match o with
    | .run options =>
      match Session.prepare env d p options with
      | .ok s => if options.realtime then playPaced s d else carryOut d (s.play d)
      | .error s => carryOut d (s.transcript env d)
    | _ => carryOut d (obey env d p o)
  | _ =>
    let d : Disk := ⟨[], []⟩
    carryOut d (call env d args)

end Pursuit.Main

def main (args : List String) : IO UInt32 := Pursuit.Main.start args
