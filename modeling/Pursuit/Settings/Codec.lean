import Pursuit.Binary.Width
import Pursuit.Toml.Value

/-!
Types of settings as values of a document. A `Codec` reads and writes one type. A record is a list
of fields, each with its key; it is read from a table by the keys or from a list by the places, and
what is missing keeps what the record had before.
-/
namespace Pursuit.Settings

open Toml (Value)

structure Codec (α : Type) where
  read : Value → Option α
  write : α → Value

structure Field (σ : Type) where
  key : String
  /-- Puts into a record what a value stands for. -/
  read : Value → σ → Option σ
  /-- The value that stands for the field of a record, or nothing if it is left out. -/
  write : σ → Option Value

namespace Codec

variable {α σ : Type}

def wide : Codec Float where
  read
    | .float x => some x
    | .integer n => some (Binary.wideOfInt n)
    | _ => none
  write := .float

def narrow : Codec Float32 where
  read
    | .float x => some (Binary.narrow x)
    | .integer n => some (Binary.narrowOfInt n)
    | _ => none
  write x := .float (Binary.widen x)

def word : Codec UInt64 where
  read
    | .integer n => if 0 ≤ n ∧ n.toNat < UInt64.size then some n.toNat.toUInt64 else none
    | _ => none
  write n := .integer n.toNat

def text : Codec String where
  read
    | .text s => some s
    | _ => none
  write := .text

def list (c : Codec α) : Codec (List α) where
  read
    | .list items => items.mapM c.read
    | _ => none
  write xs := .list (xs.map c.write)

end Codec

namespace Field

variable {α σ : Type}

def of (key : String) (c : Codec α) (get : σ → α) (set : σ → α → σ) : Field σ where
  key
  read v s := (c.read v).map (set s)
  write s := some (c.write (get s))

/-- A field that is left out while it is empty. -/
def optional (key : String) (c : Codec α) (get : σ → Option α) (set : σ → Option α → σ) :
    Field σ where
  key
  read v s := (c.read v).map fun x => set s (some x)
  write s := (get s).map c.write

def overlay (fields : List (Field σ)) (entries : List (String × Value)) (s : σ) : Option σ :=
  fields.foldlM (fun s f =>
    match Toml.lookup entries f.key with
    | some v => f.read v s
    | none => some s) s

def inOrder (fields : List (Field σ)) (items : List Value) (s : σ) : Option σ :=
  (fields.zip items).foldlM (fun s (f, v) => f.read v s) s

def entries (fields : List (Field σ)) (s : σ) : List (String × Value) :=
  fields.filterMap fun f => (f.write s).map (f.key, ·)

end Field

namespace Codec

variable {σ : Type}

/-- A record over its defaults. A date has none of the keys. -/
def record (fields : List (Field σ)) (start : σ) : Codec σ where
  read
    | .table entries => Field.overlay fields entries start
    | .list items => Field.inOrder fields items start
    | .moment => some start
    | _ => none
  write s := .table (Field.entries fields s)

def complete (fields : List (Field σ)) (start : σ) : Codec σ where
  read
    | .table entries =>
      if fields.all fun f => (Toml.lookup entries f.key).isSome then
        Field.overlay fields entries start
      else none
    | .list items =>
      if fields.length ≤ items.length then Field.inOrder fields items start else none
    | _ => none
  write s := .table (Field.entries fields s)

end Codec

end Pursuit.Settings
