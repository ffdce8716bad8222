/-!
JSON text: quoted strings, and objects on one line or over several.
-/
namespace Pursuit.Text.Json

/-- A control character as `\u` and four lower case digits. -/
def unicode (c : Char) : List Char :=
  let ds := Nat.toDigits 16 c.toNat
  ['\\', 'u'] ++ List.replicate (4 - ds.length) '0' ++ ds

def escape (c : Char) : List Char :=
  if c = '"' then ['\\', '"']
  else if c = '\\' then ['\\', '\\']
  else if c = '\n' then ['\\', 'n']
  else if c = '\r' then ['\\', 'r']
  else if c = '\t' then ['\\', 't']
  else if c.toNat = 8 then ['\\', 'b']
  else if c.toNat = 12 then ['\\', 'f']
  else if c.toNat < 32 then unicode c
  else [c]

def quote (s : String) : String := .ofList ('"' :: s.toList.flatMap escape ++ ['"'])

/-- An object on one line. The values are JSON already. -/
def object (members : List (String × String)) : String :=
  "\x7b" ++ String.intercalate "," (members.map fun (key, value) => quote key ++ ":" ++ value) ++
    "\x7d"

def spread (depth : Nat) (members : List (String × String)) : String :=
  let indent (n : Nat) : String := .ofList (List.replicate (2 * n) ' ')
  let line := fun (key, value) => indent (depth + 1) ++ quote key ++ ": " ++ value
  "\x7b\n" ++ String.intercalate ",\n" (members.map line) ++ "\n" ++ indent depth ++ "\x7d"

end Pursuit.Text.Json
