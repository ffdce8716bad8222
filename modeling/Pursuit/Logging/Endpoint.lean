import Pursuit.Settings.Environment

/-!
Where traces are sent. An address is an authority on its own, a path on its own, or a scheme with
an authority, perhaps a path and perhaps a query.
-/
namespace Pursuit.Logging.Endpoint

open Settings (Environment TelemetrySettings)

def isPlain (c : Char) : Bool :=
  c.isAlphanum || "!#$&'()*+,-./:;=?@[]_~".toList.contains c

def isSchemeChar (c : Char) : Bool := c.isAlphanum || "+-.~".toList.contains c

def isEnd (c : Char) : Bool := c = '/' || c = '?' || c = '#'

/-- What has been seen of an authority since its user part or its brackets. -/
structure Authority where
  colons : Nat := 0
  opened : Bool := false
  closed : Bool := false
  percent : Bool := false
  /-- The last character was an at sign. -/
  atSign : Bool := false

namespace Authority

def step (a : Authority) (c : Char) : Option Authority :=
  let a' := { a with atSign := false }
  if c = ':' then if a.colons < 8 then some { a' with colons := a.colons + 1 } else none
  else if c = '[' then if a.percent || a.opened then none else some { a' with opened := true }
  else if c = ']' then
    if !a.opened || a.closed then none
    else some { a' with closed := true, colons := 0, percent := false }
  else if c = '@' then some { a' with colons := 0, percent := false, atSign := true }
  else if c = '%' then some { a' with percent := true }
  else if isPlain c then some a' else none

/-- Brackets come in pairs, one colon may stand after the host, and a percent sign only before the
at sign that ends the user part. -/
def isComplete (a : Authority) : Bool :=
  a.opened == a.closed && a.colons ≤ 1 && !a.percent && !a.atSign

end Authority

def isAuthority (s : List Char) : Bool :=
  (s.foldlM Authority.step ({} : Authority)).any (·.isComplete)

/-- A character that a query may hold, of any script; a path may not hold all of them. -/
def isQueryChar (c : Char) : Bool :=
  let n := c.toNat
  n = 0x21 || (0x24 ≤ n && n ≤ 0x3b) || n = 0x3d || (0x3f ≤ n && n ≠ 0x7f)

def isPathChar (c : Char) : Bool :=
  let n := c.toNat
  (isQueryChar c && c ≠ '\x60' && c ≠ '?') || n = 0x22

def isPathAndQuery (s : List Char) : Bool :=
  let s := s.takeWhile (· ≠ '#')
  (s.takeWhile (· ≠ '?')).all isPathChar && (s.dropWhile (· ≠ '?')).all isQueryChar

/-- What follows a scheme and `://`, if there is a scheme; the scheme has at most 64 letters. -/
def afterScheme (s : List Char) : Option (Nat × List Char) :=
  match s.dropWhile isSchemeChar with
  | ':' :: '/' :: '/' :: rest =>
    if s.length ≤ 3 then none else some ((s.takeWhile isSchemeChar).length, rest)
  | _ => none

def isAddress (s : String) : Bool :=
  let cs := s.toList
  if s.utf8ByteSize = 0 || 65534 < s.utf8ByteSize then false
  else if cs.head? = some '/' then isPathAndQuery cs
  else
    match afterScheme cs with
    | some (length, rest) =>
      let authority := rest.takeWhile (!isEnd ·)
      length ≤ 64 && !authority.isEmpty && isAuthority authority &&
        isPathAndQuery (rest.dropWhile (!isEnd ·))
    | none => !cs.any isEnd && isAuthority cs

def choose (env : Environment) (t : TelemetrySettings) : Option String :=
  match t.endpoint with
  | some e => if e.isEmpty then fallback else some e
  | none => fallback
where
  fallback := env.get? "OTEL_EXPORTER_OTLP_ENDPOINT"

def complaint? (endpoint : Option String) : Option String :=
  match endpoint with
  | some e =>
    if e.isEmpty || isAddress e then none
    else some ("[mousetrap] OTLP exporter init failed: invalid URI " ++ e)
  | none => none

end Pursuit.Logging.Endpoint
