import Pursuit.Text.Plain

/-!
Text between double quotes, as dumps and error messages show it. A backslash goes before a quote
and a backslash; tab, newline, return and NUL have letters; every other character that is not
plain is written by its code point.
-/
namespace Pursuit.Text

/-- A code point as `\u`, then its lower case hexadecimal digits in braces. -/
def codePoint (c : Char) : List Char :=
  ['\\', 'u', '\x7b'] ++ Nat.toDigits 16 c.toNat ++ ['\x7d']

def escape (c : Char) : List Char :=
  if c = '"' then ['\\', '"']
  else if c = '\\' then ['\\', '\\']
  else if c = '\n' then ['\\', 'n']
  else if c = '\r' then ['\\', 'r']
  else if c = '\t' then ['\\', 't']
  else if c.toNat = 0 then ['\\', '0']
  else if isPlain c then [c]
  else codePoint c

def quote (s : String) : String := .ofList ('"' :: s.toList.flatMap escape ++ ['"'])

end Pursuit.Text
