/-!
Strings of a settings document, written and read. There are four spellings: basic strings have
escapes, literal strings have none, and each may go over several lines. The writer takes the first
spelling in a fixed order that can show the text without escapes, and escapes what it must if none
can.
-/
namespace Pursuit.Toml.Quotation

def isBare (c : Char) : Bool :=
  ('a' ≤ c && c ≤ 'z') || ('A' ≤ c && c ≤ 'Z') || ('0' ≤ c && c ≤ '9') || c = '_' || c = '-'

/-! ## Writing -/

/-- A character that only an escape can show. Tab and newline are not among them. -/
def isControl (c : Char) : Bool := (c.toNat < 0x20 && c ≠ '\t' && c ≠ '\n') || c.toNat = 0x7f

def longestRun (q : Char) (s : List Char) : Nat :=
  (s.foldl (fun (here, best) c =>
    if c = q then (here + 1, max best (here + 1)) else (0, best)) (0, 0)).2

inductive Spelling where
  | basic
  | literal
  | multilineBasic
  | multilineLiteral
deriving DecidableEq

def Spelling.delimiter : Spelling → List Char
  | basic => ['"']
  | literal => ['\'']
  | multilineBasic => ['"', '"', '"']
  | multilineLiteral => ['\'', '\'', '\'']

def Spelling.isMultiline : Spelling → Bool
  | basic | literal => false
  | multilineBasic | multilineLiteral => true

def spelling (s : List Char) : Spelling :=
  let control := s.any isControl
  let lines := s.contains '\n'
  let slash := s.contains '\\'
  let quotes := longestRun '"' s
  let ticks := longestRun '\'' s
  if !control && !slash && !lines && quotes = 0 then .basic
  else if !control && !lines && ticks = 0 then .literal
  else if !control && !slash && quotes ≤ 2 then .multilineBasic
  else if !control && ticks ≤ 2 then .multilineLiteral
  else if lines then .multilineBasic
  else .basic

def upperHex (n : Nat) : List Char := (Nat.toDigits 16 n).map Char.toUpper

def unicode (c : Char) : List Char :=
  let ds := upperHex c.toNat
  ['\\', 'u'] ++ List.replicate (4 - ds.length) '0' ++ ds

def escape? (multiline : Bool) (c : Char) : Option (List Char) :=
  if c.toNat = 8 then some ['\\', 'b']
  else if c = '\t' then some ['\\', 't']
  else if c = '\n' then if multiline then none else some ['\\', 'n']
  else if c.toNat = 12 then some ['\\', 'f']
  else if c = '\r' then some ['\\', 'r']
  else if c = '\\' then some ['\\', '\\']
  else if isControl c then some (unicode c)
  else none

/-- The inside of a basic string. `quotes` is how many unescaped quotes have just been written;
one string may have none in a row and a multi-line string two. -/
def escaped (multiline : Bool) : (quotes : Nat) → List Char → List Char
  | _, [] => []
  | quotes, c :: s =>
    if c = '"' then
      if quotes < (if multiline then 2 else 0) then '"' :: escaped multiline (quotes + 1) s
      else '\\' :: '"' :: escaped multiline 0 s
    else
      match escape? multiline c with
      | some e => e ++ escaped multiline 0 s
      | none => c :: escaped multiline 0 s

def write (s : List Char) : List Char :=
  let sp := spelling s
  let opening := sp.delimiter ++ if sp.isMultiline && s.contains '\n' then ['\n'] else []
  let inside := match sp with
    | .basic => escaped false 0 s
    | .multilineBasic => escaped true 0 s
    | .literal | .multilineLiteral => s
  opening ++ inside ++ sp.delimiter

/-! ## Reading -/

def isVisible (c : Char) : Bool := c = '\t' || (0x20 ≤ c.toNat && c.toNat ≠ 0x7f)

def hexValue? (c : Char) : Option Nat :=
  if '0' ≤ c ∧ c ≤ '9' then some (c.toNat - 48)
  else if 'a' ≤ c ∧ c ≤ 'f' then some (c.toNat - 87)
  else if 'A' ≤ c ∧ c ≤ 'F' then some (c.toNat - 55)
  else none

/-- The character with the code point that hexadecimal digits give; surrogates have none. -/
def scalar? (ds : List Char) : Option Char := do
  let n ← ds.foldlM (fun n c => do return 16 * n + (← hexValue? c)) 0
  if n < 0xd800 ∨ (0xdfff < n ∧ n < 0x110000) then some (.ofNat n) else none

def letter? (c : Char) : Option Char :=
  match c with
  | 'b' => some (.ofNat 8)
  | 't' => some '\t'
  | 'n' => some '\n'
  | 'f' => some (.ofNat 12)
  | 'r' => some '\r'
  | '"' => some '"'
  | '\\' => some '\\'
  | _ => none

abbrev Read := Option (List Char × List Char)

def Read.cons (c : Char) (r : Read) : Read := r.map fun (s, rest) => (c :: s, rest)

def basic : List Char → Read
  | [] => none
  | '"' :: r => some ([], r)
  | '\\' :: 'u' :: a :: b :: c :: d :: r => do
    let x ← scalar? [a, b, c, d]
    (basic r).cons x
  | '\\' :: 'U' :: a :: b :: c :: d :: e :: f :: g :: h :: r => do
    let x ← scalar? [a, b, c, d, e, f, g, h]
    (basic r).cons x
  | '\\' :: c :: r => do
    let x ← letter? c
    (basic r).cons x
  | c :: r => if isVisible c && c ≠ '\\' then (basic r).cons c else none

def literal : List Char → Read
  | [] => none
  | '\'' :: r => some ([], r)
  | c :: r => if isVisible c then (literal r).cons c else none

/-- Where the reader of a multi-line basic string stands. -/
inductive Fold where
  /-- In the text. -/
  | text
  /-- After a backslash at the end of a line, before the line break. -/
  | ending
  /-- In the white space that such a backslash removes. -/
  | gap

/-- The inside of a multi-line basic string up to its three quotes, of which the last three of up to
five count. -/
def multilineBasic : Fold → List Char → Read
  | _, [] => none
  | .ending, '\n' :: r => multilineBasic .gap r
  | .ending, '\r' :: '\n' :: r => multilineBasic .gap r
  | .ending, c :: r => if c = ' ' ∨ c = '\t' then multilineBasic .ending r else none
  | .gap, '\n' :: r => multilineBasic .gap r
  | .gap, '\r' :: '\n' :: r => multilineBasic .gap r
  | .gap, ' ' :: r => multilineBasic .gap r
  | .gap, '\t' :: r => multilineBasic .gap r
  | _, '"' :: '"' :: '"' :: '"' :: '"' :: r => some (['"', '"'], r)
  | _, '"' :: '"' :: '"' :: '"' :: r => some (['"'], r)
  | _, '"' :: '"' :: '"' :: r => some ([], r)
  | _, '\n' :: r => (multilineBasic .text r).cons '\n'
  | _, '\r' :: '\n' :: r => (multilineBasic .text r).cons '\n'
  | _, '\\' :: 'u' :: a :: b :: c :: d :: r => do
    let x ← scalar? [a, b, c, d]
    (multilineBasic .text r).cons x
  | _, '\\' :: 'U' :: a :: b :: c :: d :: e :: f :: g :: h :: r => do
    let x ← scalar? [a, b, c, d, e, f, g, h]
    (multilineBasic .text r).cons x
  | _, '\\' :: c :: r =>
    match letter? c with
    | some x => (multilineBasic .text r).cons x
    | none => multilineBasic .ending (c :: r)
  | _, c :: r => if isVisible c && c ≠ '\\' then (multilineBasic .text r).cons c else none

def multilineLiteral : List Char → Read
  | [] => none
  | '\'' :: '\'' :: '\'' :: '\'' :: '\'' :: r => some (['\'', '\''], r)
  | '\'' :: '\'' :: '\'' :: '\'' :: r => some (['\''], r)
  | '\'' :: '\'' :: '\'' :: r => some ([], r)
  | '\n' :: r => (multilineLiteral r).cons '\n'
  | '\r' :: '\n' :: r => (multilineLiteral r).cons '\n'
  | c :: r => if isVisible c then (multilineLiteral r).cons c else none

/-- A line break right after the opening does not count. -/
def dropBreak : List Char → List Char
  | '\n' :: r => r
  | '\r' :: '\n' :: r => r
  | s => s

def readLine : List Char → Read
  | '"' :: r => basic r
  | '\'' :: r => literal r
  | _ => none

def read : List Char → Read
  | '"' :: '"' :: '"' :: r => multilineBasic .text (dropBreak r)
  | '\'' :: '\'' :: '\'' :: r => multilineLiteral (dropBreak r)
  | s => readLine s

end Pursuit.Toml.Quotation
