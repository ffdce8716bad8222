import Pursuit.Files.Disk
import Pursuit.Settings.Environment
import Pursuit.Settings.Schema
import Pursuit.Toml.Printer
import Pursuit.Toml.Reader

/-!
Settings files. A file that is not there stands for the defaults. Saving makes the directory of the
file, which is then for its owner only, and replaces the file.
-/
namespace Pursuit.Settings

open Files (Disk Path)

/-- The document of a profile. Its seed is the only setting for which there may be no text. -/
def Profile.print (c : Profile) : Except ConfigFault String :=
  match Toml.write? (Field.entries Codec.profileFields c) with
  | some s => .ok s
  | none => .error (.serialize "out-of-range value for u64 type")

def Profile.parse (s : String) : Except ConfigFault Profile :=
  match (Toml.read? s).bind fun es => Codec.profile.read (.table es) with
  | some c => .ok c
  | none => .error (.parse "not a settings document")

def fileFault (p : Path) (e : Files.Fault) : ConfigFault := .io p.text e.message

def loadFile (d : Disk) (p : Path) : Except ConfigFault (Option Profile) :=
  if d.pathExists p then do
    let s ← (d.read p).mapError (fileFault p)
    some <$> Profile.parse s
  else .ok none

def load (env : Environment) (d : Disk) (p : Path) : Except ConfigFault Profile := do
  let c ← loadFile d p
  match env.apply (c.getD {}) with
  | (c, .ok ()) => return c
  | (_, .error e) => throw e

/-- Makes the directory of a file, for its owner only. -/
def prepare (d : Disk) (p : Path) : Disk × Verdict :=
  match p.parent? with
  | none => (d, .ok ())
  | some parent =>
    match d.makeDirectories parent with
    | (d, .error e) => (d, .error (fileFault parent e))
    | (d, .ok ()) =>
      match d.setMode parent Disk.ownerMode with
      | .error e => (d, .error (fileFault parent e))
      | .ok d => (d, .ok ())

def writeFile (c : Profile) (p : Path) (d : Disk) : Except ConfigFault Disk := do
  let s ← c.print
  (d.write p s.toUTF8).mapError (fileFault p)

def save (c : Profile) (p : Path) (d : Disk) : Disk × Verdict :=
  match prepare d p with
  | (d, .error e) => (d, .error e)
  | (d, .ok ()) =>
    match writeFile c p d with
    | .error e => (d, .error e)
    | .ok d => (d, .ok ())

end Pursuit.Settings
