import Pursuit.Files.Path

/-!
A disk of files and directories, each known by the names that lead to it from the root, as one user
sees it. Paths are followed name by name: only a directory that the user may search leads on, and
every name on the way must be there. Directories are made in those that the user may write to, and
everyone can enter them; new files are for their owner only. Writing to a file that is there keeps
its mode.

Modes are the nine bits of permissions, and they alone bar a use. The user's mask is taken to be the
usual 022, which withholds writing from the group and from others. There are no other bits of a
mode, no lists of more users, no links and no special files, no bounds on space, and no parts of a
disk that can only be read.
-/
namespace Pursuit.Files

inductive Fault where
  | notFound
  | alreadyExists
  | notADirectory
  | isADirectory
  | nameTooLong
  | accessDenied
  | notOwner
  /-- The path holds a NUL. -/
  | nul
  /-- The file is not UTF-8. -/
  | encoding
deriving DecidableEq

def Fault.message : Fault → String
  | notFound => "No such file or directory (os error 2)"
  | alreadyExists => "File exists (os error 17)"
  | notADirectory => "Not a directory (os error 20)"
  | isADirectory => "Is a directory (os error 21)"
  | nameTooLong => "File name too long (os error 36)"
  | accessDenied => "Permission denied (os error 13)"
  | notOwner => "Operation not permitted (os error 1)"
  | nul => "file name contained an unexpected NUL byte"
  | encoding => "stream did not contain valid UTF-8"

/-- What the user is to an item. A master may do anything with it, whatever its mode. -/
inductive Standing where
  | owner
  | group
  | other
  | master
deriving DecidableEq

/-- What can be done with an item. A directory is searched for the names in it. -/
inductive Use where
  | read
  | write
  | search
deriving DecidableEq

structure Access where
  standing : Standing := .owner
  mode : BitVec 9
deriving DecidableEq

namespace Access

def share (a : Access) : BitVec 9 :=
  match a.standing with
  | .owner => a.mode >>> 6
  | .group => a.mode >>> 3
  | .other => a.mode
  | .master => 0o7

def allows (a : Access) : Use → Bool
  | .read => a.share.getLsbD 2
  | .write => a.share.getLsbD 1
  | .search => a.share.getLsbD 0

def isOwn (a : Access) : Bool := a.standing = .owner || a.standing = .master

end Access

inductive Item where
  | file (access : Access) (content : ByteArray)
  | directory (access : Access)

def Item.access : Item → Access
  | file access _ => access
  | directory access => access

abbrev Location := List String

structure Disk where
  items : List (Location × Item)
  /-- Where relative paths start. -/
  here : Location

namespace Disk

def openMode : BitVec 9 := 0o755

def ownerMode : BitVec 9 := 0o700

def fileMode : BitVec 9 := 0o600

/-- The item at a location; the root is always there, and the user's own unless the disk says
more. -/
def item? (d : Disk) (l : Location) : Option Item :=
  match d.items.find? (·.1 == l) with
  | some (_, i) => some i
  | none => if l = [] then some (.directory { mode := openMode }) else none

def put (d : Disk) (l : Location) (i : Item) : Disk :=
  { d with items := (l, i) :: d.items.filter (·.1 != l) }

def isDirectoryAt (d : Disk) (l : Location) : Bool :=
  match d.item? l with
  | some (.directory _) => true
  | _ => false

def allows (d : Disk) (l : Location) (u : Use) : Bool :=
  match d.item? l with
  | some i => i.access.allows u
  | none => false

def tooLong (name : String) : Bool := 255 < name.utf8ByteSize

def follow (d : Disk) : Location → List String → Except Fault Location
  | l, [] => .ok l
  | l, name :: names =>
    if d.isDirectoryAt l then
      if name = "" then d.follow l names
      else if d.allows l .search then
        if name = "." then d.follow l names
        else if name = ".." then d.follow l.dropLast names
        else if tooLong name then .error .nameTooLong
        else if (d.item? (l ++ [name])).isSome then d.follow (l ++ [name]) names
        else .error .notFound
      else .error .accessDenied
    else .error .notADirectory

def start (d : Disk) (p : Path) : Location := if p.isAbsolute then [] else d.here

/-- Refuses paths that lead nowhere on any disk. -/
def usable (p : Path) : Except Fault Unit :=
  if p.text.toList.contains (.ofNat 0) then .error .nul
  else if 4096 ≤ p.text.utf8ByteSize then .error .nameTooLong
  else if p.text = "" then .error .notFound
  else .ok ()

def locate (d : Disk) (p : Path) : Except Fault Location := do
  usable p
  d.follow (d.start p) p.names

/-- Where the last name of a path belongs: the directory, the name, and whether a slash follows.
A path that ends in no name has none. -/
def target (d : Disk) (p : Path) : Except Fault (Option (Location × String × Bool)) := do
  usable p
  let names := p.names
  let core := (names.reverse.dropWhile (· = "")).reverse
  match core.getLast? with
  | none => return none
  | some name =>
    let l ← d.follow (d.start p) core.dropLast
    if d.isDirectoryAt l then
      if d.allows l .search then
        let special := name = "." ∨ name = ".."
        return if special then none else some (l, name, core.length < names.length)
      else throw .accessDenied
    else throw .notADirectory

def pathExists (d : Disk) (p : Path) : Bool :=
  match d.locate p with
  | .ok _ => true
  | .error _ => false

def isDirectory (d : Disk) (p : Path) : Bool :=
  match d.locate p with
  | .ok l => d.isDirectoryAt l
  | .error _ => false

def read (d : Disk) (p : Path) : Except Fault String := do
  let l ← d.locate p
  match d.item? l with
  | none => throw .notFound
  | some i =>
    if i.access.allows .read then
      match i with
      | .file _ content =>
        match String.fromUTF8? content with
        | some s => return s
        | none => throw .encoding
      | .directory _ => throw .isADirectory
    else throw .accessDenied

/-- Replaces the content of a file, which is made if it is not there. -/
def write (d : Disk) (p : Path) (content : ByteArray) : Except Fault Disk := do
  match ← d.target p with
  | none => throw .isADirectory
  | some (l, name, slash) =>
    if slash then throw .isADirectory
    else if tooLong name then throw .nameTooLong
    else match d.item? (l ++ [name]) with
      | none =>
        if d.allows l .write then return d.put (l ++ [name]) (.file { mode := fileMode } content)
        else throw .accessDenied
      | some (.file access _) =>
        if access.allows .write then return d.put (l ++ [name]) (.file access content)
        else throw .accessDenied
      | some (.directory _) => throw .isADirectory

def makeDirectory (d : Disk) (p : Path) : Except Fault Disk := do
  match ← d.target p with
  | none => throw .alreadyExists
  | some (l, name, _) =>
    if tooLong name then throw .nameTooLong
    else if (d.item? (l ++ [name])).isSome then throw .alreadyExists
    else if d.allows l .write then return d.put (l ++ [name]) (.directory { mode := openMode })
    else throw .accessDenied

def ensureDirectory (d : Disk) (p : Path) : Disk × Except Fault Unit :=
  match d.makeDirectory p with
  | .ok d => (d, .ok ())
  | .error e => (d, if d.isDirectory p then .ok () else .error e)

/-- Makes the first of some directories, and those after it as far as they are missing. -/
def ensureAll (d : Disk) : List Path → Disk × Except Fault Unit
  | [] => (d, .ok ())
  | p :: outer =>
    match d.makeDirectory p with
    | .error .notFound =>
      match d.ensureAll outer with
      | (d, .ok ()) => d.ensureDirectory p
      | failed => failed
    | _ => d.ensureDirectory p

/-- Makes a directory with all that it lies in. What was made before a fault stays. -/
def makeDirectories (d : Disk) (p : Path) : Disk × Except Fault Unit := d.ensureAll p.withAncestors

def setMode (d : Disk) (p : Path) (mode : BitVec 9) : Except Fault Disk := do
  let l ← d.locate p
  match d.item? l with
  | none => throw .notFound
  | some i =>
    if i.access.isOwn then
      match i with
      | .file access content => return d.put l (.file { access with mode } content)
      | .directory access => return d.put l (.directory { access with mode })
    else throw .notOwner

end Disk

end Pursuit.Files
