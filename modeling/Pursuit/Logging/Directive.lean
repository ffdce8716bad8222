import Pursuit.Journal
import Pursuit.Logging.Pattern
import Pursuit.Text.Blank
import Pursuit.Text.Split

/-!
Directives of a log filter: `level`, or `target[span{field=value}]=level` with any part left out.
A directive is read character by character without the white space around it, but its parts are cut
from the text as it is given, at the positions found. So only a text without white space around it
says what it seems to say.
-/
namespace Pursuit.Logging

structure Directive where
  /-- What the target of an event has to start with. -/
  target : String := ""
  /-- A field that an event has to have. -/
  field : Option String := none
  /-- The most detailed level that is kept; without one nothing is. -/
  level : Option Level := some .trace
  /-- It is about spans, by name or by the value of a field, and no event is in a span. -/
  onSpans : Bool := false

inductive Misreading where
  | invalid
  /-- A part would begin or end inside a character. -/
  | splitCharacter

namespace Directive

def level? (s : List Char) : Option (Option Level) :=
  let levels := [Level.error, .warn, .info, .debug, .trace]
  match Decimal.word? s with
  | some 0 => some none
  | some n => (levels.find? (·.rank = n.toNat)).map some
  | none =>
    let word := String.ofList (s.map Decimal.lower)
    if word = "off" then some none
    else (levels.find? fun l => word = String.ofList (l.name.toList.map Decimal.lower)).map some

inductive Part where
  | start
  /-- A target, or a level for all. -/
  | target
  | span (first : Nat)
  | field (first : Nat)
  | afterField
  | afterSpan
  | level (first : Nat)

structure Draft where
  directive : Directive := {}
  part : Part := .start

def mayStart (c : Char) : Bool := c = '-' || c = ':' || c = '_' || Text.isAlphanumeric c

def between (raw : List Char) (first last : Nat) : Except Misreading (List Char) :=
  match Text.slice? raw first last with
  | some s => .ok s
  | none => .error .splitCharacter

/-- The level after an equals sign, which is the most detailed if it is left out. -/
def levelOf (s : List Char) : Except Misreading (Option Level) :=
  if s.isEmpty then .ok (some .trace)
  else
    match level? s with
    | some level => .ok level
    | none => .error .invalid

def withField (d : Directive) (s : List Char) : Except Misreading Directive :=
  if s.isEmpty then .error .invalid
  else
    match Text.split '=' s with
    | _ :: value :: _ =>
      if (Decimal.float? value).isSome || isPattern value then .ok { d with onSpans := true }
      else .error .invalid
    | _ => .ok { d with field := some (.ofList s) }

namespace Draft

def step (raw : List Char) (r : Draft) (i : Nat) (c : Char) : Except Misreading Draft := do
  let d := r.directive
  match r.part, c with
  | .start, '[' => return { r with part := .span (i + 1) }
  | .start, c => if mayStart c then return { r with part := .target } else throw .invalid
  | .target, '=' =>
    return ⟨{ d with target := .ofList (← between raw 0 i) }, .level (i + 1)⟩
  | .target, '[' =>
    return ⟨{ d with target := .ofList (← between raw 0 i) }, .span (i + 1)⟩
  | .span first, ']' =>
    let _ ← between raw first i
    return ⟨{ d with onSpans := true }, .afterSpan⟩
  | .span first, '\x7b' =>
    let name ← between raw first i
    return ⟨{ d with onSpans := !name.isEmpty }, .field (i + 1)⟩
  | .field first, '\x7d' => return ⟨← withField d (← between raw first i), .afterField⟩
  | .afterField, ']' => return { r with part := .afterSpan }
  | .afterSpan, '=' => return { r with part := .level (i + 1) }
  | .afterField, _ | .afterSpan, _ => throw .invalid
  | .target, _ | .span _, _ | .field _, _ | .level _, _ => return r

def steps (raw : List Char) (r : Draft) (i : Nat) : List Char → Except Misreading Draft
  | [] => .ok r
  | c :: s => do (← r.step raw i c).steps raw (i + c.utf8Size) s

def finish (raw : List Char) (r : Draft) : Except Misreading Directive :=
  match r.part with
  | .target =>
    .ok <| match level? raw with
      | some level => { r.directive with level }
      | none => { r.directive with target := .ofList raw }
  | .level first => do
    let text ← between raw first (String.ofList raw).utf8ByteSize
    return { r.directive with level := ← levelOf text }
  | .afterSpan => .ok r.directive
  | _ => .error .invalid

end Draft

def ofText (raw : List Char) : Except Misreading Directive := do
  (← ({} : Draft).steps raw 0 (Text.trim raw)).finish raw

def appliesTo (d : Directive) (e : Event) : Bool :=
  !d.onSpans && d.target.toList.isPrefixOf e.target.toList &&
    d.field.all fun f => f = "message" || e.fields.any (·.1 = f)

/-- The longer target says more than the shorter; of two as long, a field more than none. -/
def saysAsMuch (a b : Directive) : Bool :=
  let length (d : Directive) : Nat := d.target.utf8ByteSize
  length a < length b || length a = length b &&
    match a.field, b.field with
    | none, _ => true
    | some _, none => false
    | some f, some g => f ≤ g

end Directive

end Pursuit.Logging
