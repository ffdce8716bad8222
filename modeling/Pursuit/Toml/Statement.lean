import Pursuit.Toml.Table

/-!
A settings document as the statements it is written in, one to a line. `assemble` gives the table
that statements make up; `ofTable` gives statements for a table: its plain keys first, then the
tables below it, each under a header with its full path.
-/
namespace Pursuit.Toml

inductive Statement where
  | header (path : List String)
  /-- A header in double brackets, for one table of a list. -/
  | item (path : List String)
  | assign (path : List String) (v : Value)

namespace Statement

/-! ## From statements to tables -/

abbrev Assignments := List (List String × Value)

inductive Heading where
  | table (path : List String)
  | item (path : List String)

/-- The assignments before the first header, and each header with those that follow it. -/
def sections : List Statement → Assignments × List (Heading × Assignments)
  | [] => ([], [])
  | .assign path v :: rest => ((path, v) :: (sections rest).1, (sections rest).2)
  | .header path :: rest => ([], (.table path, (sections rest).1) :: (sections rest).2)
  | .item path :: rest => ([], (.item path, (sections rest).1) :: (sections rest).2)

def addSection (es : Node.Entries) : Heading × Assignments → Option Node.Entries
  | (.table path, as) => Node.open? es path as
  | (.item path, as) => Node.append? es path as

def assemble (sts : List Statement) : Option (List (String × Value)) := do
  let (as, ss) := sections sts
  let es ← ss.foldlM addSection (← Node.assignAll [] as)
  return Node.toValues es

/-! ## From tables to statements -/

/-- A list that is written as tables with headers of their own. -/
def isTables : List Value → Bool
  | [] => false
  | items => items.all fun
    | .table _ => true
    | _ => false

def isPlain : Value → Bool
  | .table _ => false
  | .list items => !isTables items
  | _ => true

def plain (es : List (String × Value)) : List Statement :=
  (es.filter fun (_, v) => isPlain v).map fun (k, v) => .assign [k] v

/-- A table that only holds other tables has no header. -/
def hasHeader (es : List (String × Value)) : Bool := es.isEmpty || es.any fun (_, v) => isPlain v

mutual
def below (path : List String) : List (String × Value) → List Statement
  | [] => []
  | (k, v) :: es => belowValue (path ++ [k]) v ++ below path es

def belowValue (path : List String) : Value → List Statement
  | .table es =>
    (if hasHeader es then [.header path] else []) ++ plain es ++ below path es
  | .list items => if isTables items then belowItems path items else []
  | _ => []

def belowItems (path : List String) : List Value → List Statement
  | [] => []
  | .table es :: items => .item path :: plain es ++ below path es ++ belowItems path items
  | _ :: items => belowItems path items
end

def ofTable (es : List (String × Value)) : List Statement := plain es ++ below [] es

end Statement

end Pursuit.Toml
