import Pursuit.Toml.Value

/-!
Tables under construction. Keys come one after the other, under headers or with dotted paths, and
each may be given once. A table that only lay on the way to another may still get its own header;
a table made by a dotted path may only get more keys by such paths; a table or list that was
written as a value is closed.
-/
namespace Pursuit.Toml

inductive Origin where
  /-- By its own header. -/
  | header
  /-- On the way of a header to another table. -/
  | passage
  /-- By a dotted path. -/
  | dotted
deriving DecidableEq

inductive Node where
  | value (v : Value)
  | table (origin : Origin) (entries : List (String × Node))
  /-- One table for each header in double brackets. -/
  | tables (items : List (List (String × Node)))

namespace Node

abbrev Entries := List (String × Node)

def find? (es : Entries) (key : String) : Option Node := (es.find? (·.1 == key)).map (·.2)

def put (es : Entries) (key : String) (n : Node) : Entries :=
  match es with
  | [] => [(key, n)]
  | (k, m) :: es => if k == key then (k, n) :: es else (k, m) :: put es key n

/-- Changes the table at a path. Tables that are missing on the way are made; in a list of tables
the way goes on in the last. A dotted path enters no table that has its own header. -/
def alter (way : Origin) (change : Origin → Entries → Option Entries) (here : Origin) :
    List String → Entries → Option Entries
  | [], es => change here es
  | k :: path, es => do
    match find? es k with
    | none => return put es k (.table way (← alter way change way path []))
    | some (.value _) => none
    | some (.tables items) =>
      let last ← items.getLast?
      return put es k (.tables (items.dropLast ++ [← alter way change .header path last]))
    | some (.table origin inner) =>
      if way = .dotted ∧ origin = .header then none
      else return put es k (.table origin (← alter way change origin path inner))

def assign (es : Entries) (path : List String) (v : Value) : Option Entries :=
  match path.getLast? with
  | none => none
  | some key =>
    alter .dotted (fun origin es =>
      if (origin = .dotted ↔ path.dropLast = []) ∨ (find? es key).isSome then none
      else some (put es key (.value v))) .header path.dropLast es

def assignAll (es : Entries) (assignments : List (List String × Value)) : Option Entries :=
  assignments.foldlM (fun es (path, v) => assign es path v) es

/-- Adds a table with its own header. -/
def open? (es : Entries) (path : List String) (assignments : List (List String × Value)) :
    Option Entries :=
  match path.getLast? with
  | none => none
  | some key =>
    alter .passage (fun _ es =>
      match find? es key with
      | none => do return put es key (.table .header (← assignAll [] assignments))
      | some (.table .passage inner) => do
        return put es key (.table .header (← assignAll inner assignments))
      | some _ => none) .header path.dropLast es

def append? (es : Entries) (path : List String) (assignments : List (List String × Value)) :
    Option Entries :=
  match path.getLast? with
  | none => none
  | some key =>
    alter .passage (fun _ es =>
      match find? es key with
      | none => do return put es key (.tables [← assignAll [] assignments])
      | some (.tables items) => do
        return put es key (.tables (items ++ [← assignAll [] assignments]))
      | some _ => none) .header path.dropLast es

mutual
def toValue : Node → Value
  | .value v => v
  | .table _ es => .table (toValues es)
  | .tables items => .list (toTables items)

def toValues : List (String × Node) → List (String × Value)
  | [] => []
  | (k, n) :: es => (k, n.toValue) :: toValues es

def toTables : List (List (String × Node)) → List Value
  | [] => []
  | es :: items => .table (toValues es) :: toTables items
end

end Node

end Pursuit.Toml
