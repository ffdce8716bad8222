import Pursuit.Toml.Number
import Pursuit.Toml.Quotation
import Pursuit.Toml.Statement

/-!
Reading a settings document: its text gives statements, one to a line, and these give a table. Every
reader takes what it reads from the start of a text and leaves the rest.
-/
namespace Pursuit.Toml

/-! ## White space -/

def isSpace (c : Char) : Bool := c = ' ' || c = '\t'

def skipSpaces (s : List Char) : List Char := s.dropWhile isSpace

def lineEnd? : (comment : Bool) → List Char → Option (List Char)
  | _, [] => some []
  | _, '\n' :: s => some s
  | _, '\r' :: '\n' :: s => some s
  | true, c :: s => if Quotation.isVisible c then lineEnd? true s else none
  | false, '#' :: s => lineEnd? true s
  | false, c :: s => if isSpace c then lineEnd? false s else none

def filler? : (comment : Bool) → List Char → Option (List Char)
  | false, [] => some []
  | true, [] => none
  | _, '\n' :: s => filler? false s
  | _, '\r' :: '\n' :: s => filler? false s
  | true, c :: s => if Quotation.isVisible c then filler? true s else none
  | false, '#' :: s => filler? true s
  | false, c :: s => if isSpace c then filler? false s else some (c :: s)

/-! ## Keys -/

def key : Scan String := fun s =>
  match s with
  | '"' :: _ | '\'' :: _ => (Quotation.readLine s).map fun (k, s) => (.ofList k, s)
  | s =>
    let k := s.takeWhile Quotation.isBare
    if k.isEmpty then none else some (.ofList k, s.dropWhile Quotation.isBare)

/-- At least one item and at most `fuel`, with a separator between two. -/
def separated {α : Type} (mark : Char) (item : Scan α) : (fuel : Nat) → Scan (List α)
  | 0, _ => none
  | fuel + 1, s => do
    let (x, s) ← item s
    match s with
    | c :: r =>
      if c = mark then
        let (xs, s) ← separated mark item fuel r
        return (x :: xs, s)
      else return ([x], s)
    | [] => return ([x], [])

/-- How many tables or lists, or parts of a path, may lie in each other. -/
def maxDepth : Nat := 79

def path : Scan (List String) := fun s =>
  let part : Scan String := fun s => (key (skipSpaces s)).map fun (k, s) => (k, skipSpaces s)
  separated '.' part maxDepth s

/-! ## Values -/

/-- The members of a list after its bracket, which may end with a comma. -/
def members (item : Scan Value) : (fuel : Nat) → Scan (List Value)
  | 0, _ => none
  | fuel + 1, s => do
    match ← filler? false s with
    | ']' :: s => return ([], s)
    | s =>
      let (x, s) ← item s
      match ← filler? false s with
      | ']' :: s => return ([x], s)
      | ',' :: s =>
        let (xs, s) ← members item fuel s
        return (x :: xs, s)
      | _ => none

def assignment (item : Scan Value) : Scan (List String × Value) := fun s => do
  let (ks, s) ← path s
  match s with
  | '=' :: s =>
    let (v, s) ← item (skipSpaces s)
    return ((ks, v), s)
  | _ => none

/-- The entries of a table after its brace, all on one line and without a comma after the last. -/
def entries (item : Scan Value) : Scan (List (String × Value)) := fun s => do
  match skipSpaces s with
  | '\x7d' :: s => return ([], s)
  | s =>
    let entry : Scan (List String × Value) := fun s =>
      (assignment item s).map fun (a, s) => (a, skipSpaces s)
    let (as, s) ← separated ',' entry (s.length + 1) s
    match s with
    | '\x7d' :: s => return (Node.toValues (← Node.assignAll [] as), s)
    | _ => none

def scalar : Scan Value := fun s =>
  match s with
  | '"' :: _ | '\'' :: _ => (Quotation.read s).map fun (t, s) => (.text (.ofList t), s)
  | 't' :: 'r' :: 'u' :: 'e' :: s => some (.flag true, s)
  | 'f' :: 'a' :: 'l' :: 's' :: 'e' :: s => some (.flag false, s)
  | s => (Moment.scan s).or (Number.scan s)

def value : (depth : Nat) → Scan Value
  | depth + 1, '[' :: s => (members (value depth) (s.length + 1) s).map fun (xs, s) => (.list xs, s)
  | depth + 1, '\x7b' :: s => (entries (value depth) s).map fun (es, s) => (.table es, s)
  | _, s => scalar s

/-! ## Statements -/

def statement : Scan Statement := fun s =>
  match s with
  | '[' :: '[' :: s => do
    match ← path s with
    | (ks, ']' :: ']' :: s) => return (.item ks, s)
    | _ => none
  | '[' :: s => do
    match ← path s with
    | (ks, ']' :: s) => return (.header ks, s)
    | _ => none
  | s => (assignment (value maxDepth) s).map fun ((ks, v), s) => (.assign ks v, s)

def statements : (fuel : Nat) → List Char → Option (List Statement)
  | _, [] => some []
  | 0, _ => none
  | fuel + 1, s =>
    match lineEnd? false s with
    | some s => statements fuel s
    | none => do
      let (st, s) ← statement (skipSpaces s)
      return st :: (← statements fuel (← lineEnd? false s))

def skipMark : List Char → List Char
  | '\ufeff' :: s => s
  | s => s

def read? (s : String) : Option (List (String × Value)) := do
  let s := skipMark s.toList
  Statement.assemble (← statements s.length s)

end Pursuit.Toml
