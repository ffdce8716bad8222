import Pursuit.Decimal.Layout
import Pursuit.Toml.Quotation
import Pursuit.Toml.Statement

/-!
Writing a settings document. There is no text for a whole number that does not fit into 64 bits with
sign, nor for a date, of which nothing is kept.
-/
namespace Pursuit.Toml

def writeKey (k : String) : List Char :=
  let cs := k.toList
  if !cs.isEmpty && cs.all Quotation.isBare then cs
  else '"' :: Quotation.escaped false 0 cs ++ ['"']

def writePath (path : List String) : List Char :=
  ['.'].intercalate (path.map writeKey)

mutual
def Value.write? : Value → Option (List Char)
  | .flag b => some (if b then ['t', 'r', 'u', 'e'] else ['f', 'a', 'l', 's', 'e'])
  | .integer n =>
    if -0x8000000000000000 ≤ n ∧ n ≤ 0x7fffffffffffffff then some (Int.repr n).toList else none
  | .float x => some (Decimal.Layout.toml.wide x).toList
  | .text s => some (Quotation.write s.toList)
  | .moment => none
  | .list items => do return '[' :: [',', ' '].intercalate (← writeItems items) ++ [']']
  | .table es =>
    do return '\x7b' :: ' ' :: [',', ' '].intercalate (← writeEntries es) ++ [' ', '\x7d']

def writeItems : List Value → Option (List (List Char))
  | [] => some []
  | v :: vs => do return (← v.write?) :: (← writeItems vs)

def writeEntries : List (String × Value) → Option (List (List Char))
  | [] => some []
  | (k, v) :: es => do
    return (writeKey k ++ ' ' :: '=' :: ' ' :: (← v.write?)) :: (← writeEntries es)
end

namespace Statement

def write? : Statement → Option (List Char)
  | .header path => some ('[' :: writePath path ++ [']', '\n'])
  | .item path => some ('[' :: '[' :: writePath path ++ [']', ']', '\n'])
  | .assign path v => do return writePath path ++ ' ' :: '=' :: ' ' :: (← v.write?) ++ ['\n']

def isAssign : Statement → Bool
  | .assign .. => true
  | _ => false

/-- Statements after other text. An empty line stands before each header. -/
def writeRest? : List Statement → Option (List Char)
  | [] => some []
  | st :: sts => do
    return (if st.isAssign then [] else ['\n']) ++ (← st.write?) ++ (← writeRest? sts)

def writeAll? : List Statement → Option (List Char)
  | [] => some []
  | st :: sts => do return (← st.write?) ++ (← writeRest? sts)

end Statement

def write? (es : List (String × Value)) : Option String :=
  (Statement.writeAll? (Statement.ofTable es)).map .ofList

end Pursuit.Toml
