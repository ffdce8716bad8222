import Pursuit.Text.Quoted

/-!
Structure dumps: nested values with their constructor and field names, on one line or with every
element on a line of its own.
-/
namespace Pursuit.Text

inductive Dump where
  /-- Text that is shown as it stands. -/
  | atom (text : String)
  | list (items : List Dump)
  | tuple (name : String) (items : List Dump)
  | fields (name : String) (items : List (String × Dump))

namespace Dump

def quoted (s : String) : Dump := .atom (quote s)

def ofBool (b : Bool) : Dump := .atom (if b then "true" else "false")

def ofNat (n : Nat) : Dump := .atom (Nat.repr n)

def ofOption : Option Dump → Dump
  | none => .atom "None"
  | some d => .tuple "Some" [d]

mutual
def inline : Dump → String
  | .atom text => text
  | .list items => "[" ++ String.intercalate ", " (inlineAll items) ++ "]"
  | .tuple name items => name ++ "(" ++ String.intercalate ", " (inlineAll items) ++ ")"
  | .fields name items =>
    name ++ " \x7b " ++ String.intercalate ", " (inlineFields items) ++ " \x7d"

def inlineAll : List Dump → List String
  | [] => []
  | d :: ds => d.inline :: inlineAll ds

def inlineFields : List (String × Dump) → List String
  | [] => []
  | (name, d) :: ds => (name ++ ": " ++ d.inline) :: inlineFields ds
end

def indent (depth : Nat) : String := .ofList (List.replicate (4 * depth) ' ')

/-- A bracketed block, one line for each element; without elements only the brackets. -/
def block (depth : Nat) (opening closing : String) : List String → String
  | [] => opening ++ closing
  | lines => opening ++ "\n" ++
      String.join (lines.map fun l => indent (depth + 1) ++ l ++ ",\n") ++ indent depth ++ closing

mutual
/-- Every element and field on its own line, at the given level of indentation. -/
def spread (depth : Nat) : Dump → String
  | .atom text => text
  | .list items => block depth "[" "]" (spreadAll (depth + 1) items)
  | .tuple name items => block depth (name ++ "(") ")" (spreadAll (depth + 1) items)
  | .fields name items => block depth (name ++ " \x7b") "\x7d" (spreadFields (depth + 1) items)

def spreadAll (depth : Nat) : List Dump → List String
  | [] => []
  | d :: ds => d.spread depth :: spreadAll depth ds

def spreadFields (depth : Nat) : List (String × Dump) → List String
  | [] => []
  | (name, d) :: ds => (name ++ ": " ++ d.spread depth) :: spreadFields depth ds
end

end Dump

end Pursuit.Text
