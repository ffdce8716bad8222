import Pursuit.Decimal.Reader
import Pursuit.Files.Path

/-!
The command line. Arguments are read from left to right; the first that cannot be accepted has the
whole line refused, and a request for help or the version ends the reading. The option for the
settings file may stand before the command and after it, and counts there.
-/
namespace Pursuit.Command

structure RunOptions where
  /-- The greatest number of frames. -/
  frames : UInt64 := 3600
  /-- The seed, if it is not that of the settings. -/
  seed : Option UInt64 := none
  realtime : Bool := false
  json : Bool := false

inductive Order where
  | run (options : RunOptions)
  | init (force : Bool)
  | showConfig

inductive Request where
  /-- An order, and the settings file it is for, if one is given. -/
  | order (o : Order) (config : Option Files.Path)
  | version
  | help
  | refused

/-! ## Options -/

inductive Kind where
  | flag
  | number
  | file
  | helpFlag
  | versionFlag

abbrev Options := List (String × Kind)

def Options.kind? (os : Options) (name : String) : Option Kind :=
  (os.find? (·.1 == name)).map (·.2)

def Kind.accepts : Kind → String → Bool
  | .number, v => (Decimal.word? v.toList).isSome
  | .file, v => !v.isEmpty
  | _, _ => true

abbrev Given := List (String × String)

def Given.value? (g : Given) (name : String) : Option String := (g.find? (·.1 == name)).map (·.2)

inductive Reading where
  /-- At the end of the line. -/
  | finished (g : Given)
  /-- At an argument that is no option, before the rest. -/
  | word (g : Given) (w : String) (rest : List String)
  | version
  | help
  | refused

inductive Shape where
  /-- Two hyphens alone, after which there are no options. -/
  | separator
  /-- A name after two hyphens, and a value after an equals sign. -/
  | long (name : String) (value : Option String)
  /-- One hyphen and a letter. -/
  | short (letter : Char)
  | word

def shape (arg : String) : Shape :=
  match arg.toList with
  | ['-', '-'] => .separator
  | '-' :: '-' :: s =>
    let name := String.ofList (s.takeWhile (· ≠ '='))
    match s.dropWhile (· ≠ '=') with
    | _ :: value => .long name (some (.ofList value))
    | [] => .long name none
  | '-' :: letter :: _ => .short letter
  | _ => .word

def isWord (arg : String) : Bool :=
  match shape arg with
  | .word => true
  | _ => false

/-- Adds an option unless it has been given or has a value that it does not accept. -/
def Given.add? (g : Given) (name : String) (kind : Kind) (value : String) : Option Given :=
  if (g.value? name).isNone && kind.accepts value then some ((name, value) :: g) else none

/-- What the name of an option does; `value` is what stands after its equals sign, if it has one,
and `next` the argument after it. -/
inductive Effect where
  /-- The option is complete with this value, which took the next argument or did not. -/
  | given (kind : Kind) (value : String) (tookNext : Bool)
  | help
  | version
  | refused

def effect (os : Options) (name : String) (value next : Option String) : Effect :=
  match os.kind? name, value with
  | none, _ => .refused
  | some .helpFlag, none => .help
  | some .versionFlag, none => .version
  | some .flag, none => .given .flag "" false
  | some .helpFlag, some _ | some .versionFlag, some _ | some .flag, some _ => .refused
  | some kind, some v => .given kind v false
  | some kind, none =>
    match next with
    | some v => if isWord v then .given kind v true else .refused
    | none => .refused

def readOptions (os : Options) : Given → List String → Reading
  | g, [] => .finished g
  | g, arg :: rest =>
    match shape arg with
    | .separator => if rest.isEmpty then .finished g else .refused
    | .short letter =>
      if letter = 'h' then .help
      else if letter = 'V' ∧ (os.kind? "version").isSome then .version
      else .refused
    | .word => .word g arg rest
    | .long name value =>
      match effect os name value rest.head?, rest with
      | .help, _ => .help
      | .version, _ => .version
      | .refused, _ => .refused
      | .given kind v true, _ :: rest =>
        match g.add? name kind v with
        | some g => readOptions os g rest
        | none => .refused
      | .given kind v _, rest =>
        match g.add? name kind v with
        | some g => readOptions os g rest
        | none => .refused

/-! ## Orders -/

def everywhere : Options := [("config", .file), ("help", .helpFlag)]

def Given.number? (g : Given) (name : String) : Option UInt64 :=
  (g.value? name).bind fun v => Decimal.word? v.toList

def Given.has (g : Given) (name : String) : Bool := (g.value? name).isSome

def orders : List (String × Options × (Given → Order)) := [
  ("run", [("frames", .number), ("seed", .number), ("realtime", .flag), ("json", .flag)],
    fun g => .run {
      frames := (g.number? "frames").getD 3600
      seed := g.number? "seed"
      realtime := g.has "realtime"
      json := g.has "json" }),
  ("init", [("force", .flag)], fun g => .init (g.has "force")),
  ("show-config", [], fun _ => .showConfig)]

def readOrder (before : Given) (os : Options) (make : Given → Order) (args : List String) :
    Request :=
  match readOptions (everywhere ++ os) [] args with
  | .finished g => .order (make g) (((g.value? "config").or (before.value? "config")).map .mk)
  | .help => .help
  | .word .. | .version | .refused => .refused

def readHelp : List String → Request
  | [] => .help
  | [name] => if name = "help" ∨ orders.any (·.1 == name) then .help else .refused
  | _ => .refused

def read (args : List String) : Request :=
  match readOptions (everywhere ++ [("version", .versionFlag)]) [] args with
  | .version => .version
  | .help => .help
  | .finished _ | .refused => .refused
  | .word g name rest =>
    match orders.find? (·.1 == name) with
    | some (_, os, make) => readOrder g os make rest
    | none => if name = "help" then readHelp rest else .refused

end Pursuit.Command
