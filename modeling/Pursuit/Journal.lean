import Pursuit.Fault
import Pursuit.Mode

/-!
What a run reports while it happens. An `Event` says what took place; its level, the part of the
program it is filed under, its wording and its fields all follow from it.
-/
namespace Pursuit

inductive Level where
  | error
  | warn
  | info
  | debug
  | trace
deriving DecidableEq, Repr

def Level.rank : Level → Nat
  | .error => 1
  | .warn => 2
  | .info => 3
  | .debug => 4
  | .trace => 5

def Level.name : Level → String
  | .error => "ERROR"
  | .warn => "WARN"
  | .info => "INFO"
  | .debug => "DEBUG"
  | .trace => "TRACE"

inductive Event where
  | stillExecuting (action : String)
  | actionFailed (action : String) (fault : ActionFault)
  | conditionFailed (condition : String) (fault : ActionFault)
  | rootReplaced
  | started (timer : Float)
  | resumed (hasRoot : Bool) (timer : Float)
  | stopped (ticks : Nat)
  | frameIgnored (delta : Float)
  | ticked (tick : Nat) (status : Status)
  | catMode (before after : CatMode)
  | mouseMode (before after : MouseMode)
  | mouseCaught (position : Point)
  | cheeseSpotted (cheese : Nat)
  | cheeseCollected (cheese : Nat) (position : Point)
  | ready (interval : Float) (seed : UInt64) (cheese : Nat)
  | finished (outcome : Outcome) (frames : Nat)
  | complete (outcome : Outcome) (frames : Nat)

inductive Field where
  | text (s : String)
  | flag (b : Bool)
  | count (n : Nat)
  | seconds (x : Float)

namespace Event

def level : Event → Level
  | stillExecuting .. | ticked .. => .trace
  | actionFailed .. | conditionFailed .. => .warn
  | rootReplaced | started .. | resumed .. | stopped .. | frameIgnored .. => .debug
  | catMode .. | mouseMode .. | cheeseSpotted .. => .debug
  | mouseCaught .. | cheeseCollected .. | ready .. | finished .. | complete .. => .info

def message : Event → String
  | stillExecuting .. => "tick reached an action whose effect is still executing"
  | actionFailed .. => "action failed"
  | conditionFailed .. => "condition evaluated as false"
  | rootReplaced => "behavior tree root replaced"
  | started .. => "behavior tree started"
  | resumed .. => "behavior tree resumed"
  | stopped .. => "behavior tree stopped"
  | frameIgnored .. => "ignoring invalid frame time"
  | ticked .. => "behavior tree ticked"
  | catMode .. => "cat changed mode"
  | mouseMode .. => "mouse changed mode"
  | mouseCaught .. => "cat caught the mouse"
  | cheeseSpotted .. => "mouse spotted cheese"
  | cheeseCollected .. => "cheese collected"
  | ready .. => "simulation ready"
  | finished .. => "simulation finished"
  | complete .. => "run complete"

def target : Event → String
  | stillExecuting .. | actionFailed .. => "mousetrap_runtime::behavior_tree"
  | rootReplaced | started .. | resumed .. | stopped .. | frameIgnored .. | ticked .. =>
    "mousetrap_runtime::tree_driver"
  | conditionFailed .. => "mousetrap_sim::scene"
  | catMode .. | mouseCaught .. => "mousetrap_sim::cat"
  | mouseMode .. | cheeseSpotted .. => "mousetrap_sim::mouse"
  | cheeseCollected .. => "mousetrap_sim::world"
  | ready .. | finished .. => "mousetrap_sim::simulation"
  | complete .. => "mousetrap"

def fields : Event → List (String × Field)
  | stillExecuting action => [("action", .text action)]
  | actionFailed action fault => [("action", .text action), ("error", .text fault.message)]
  | conditionFailed condition fault =>
    [("condition", .text condition), ("error", .text fault.message)]
  | rootReplaced => []
  | started timer => [("timer", .seconds timer)]
  | resumed hasRoot timer => [("has_root", .flag hasRoot), ("timer", .seconds timer)]
  | stopped ticks => [("ticks", .count ticks)]
  | frameIgnored delta => [("delta_time", .seconds delta)]
  | ticked tick status => [("tick", .count tick), ("state", .text status.text)]
  | catMode before after => [("from", .text before.name), ("to", .text after.name)]
  | mouseMode before after => [("from", .text before.name), ("to", .text after.name)]
  | mouseCaught position => [("position", .text position.text)]
  | cheeseSpotted cheese => [("cheese", .count cheese)]
  | cheeseCollected cheese position =>
    [("cheese", .count cheese), ("position", .text position.text)]
  | ready interval seed cheese =>
    [("tick_interval", .seconds interval), ("seed", .count seed.toNat), ("cheese", .count cheese)]
  | finished outcome frames | complete outcome frames =>
    [("outcome", .text outcome.name), ("frames", .count frames)]

end Event

/-- A state that takes down events. -/
class Journal (σ : Type) where
  record : Event → σ → σ

export Journal (record)

/-- Events on their own, the latest first. -/
instance : Journal (List Event) := ⟨List.cons⟩

end Pursuit
