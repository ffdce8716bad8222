import Pursuit.Logging.Directive
import Pursuit.Settings.Environment

/-!
Which events are logged. A filter is a list of directives: of those that apply to an event the one
that says most about it decides, and of two that say as much the later.
-/
namespace Pursuit.Logging

open Settings (Environment)

structure Filter where
  directives : List Directive

namespace Filter

def pieces (s : String) : List (List Char) :=
  (Text.split ',' s.toList).filter (!·.isEmpty)

def ofDirectives (ds : List Directive) : Filter :=
  ⟨if ds.isEmpty then [{ level := some .error }] else ds⟩

def ofText (s : String) : Except Misreading Filter :=
  ((pieces s).mapM Directive.ofText).map ofDirectives

def sort : List (List Char) → Option (List Directive × List String)
  | [] => some ([], [])
  | s :: ss =>
    match Directive.ofText s with
    | .ok d => (sort ss).map fun (ds, ignored) => (d :: ds, ignored)
    | .error .invalid => (sort ss).map fun (ds, ignored) => (ds, .ofList s :: ignored)
    | .error .splitCharacter => none

/-- The filter of the directives that can be read, and those that are ignored. There is none if a
directive would have to be cut inside a character. -/
def ofReadable (s : String) : Option (Filter × List String) :=
  (sort (pieces s)).map fun (ds, ignored) => (ofDirectives ds, ignored)

def choose (env : Environment) (configured : String) : Option (Filter × List String) :=
  match (env.get? "RUST_LOG").map ofText with
  | some (.ok f) => some (f, [])
  | some (.error .splitCharacter) => none
  | some (.error .invalid) | none => ofReadable configured

def better (a : Option Directive) (b : Directive) : Option Directive :=
  match a with
  | none => some b
  | some a => if a.saysAsMuch b then some b else some a

def keeps (f : Filter) (e : Event) : Bool :=
  match ((f.directives.filter (·.appliesTo e)).foldl better none).bind (·.level) with
  | some level => e.level.rank ≤ level.rank
  | none => false

end Filter

end Pursuit.Logging
