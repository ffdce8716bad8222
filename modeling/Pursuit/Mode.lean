/-!
The small vocabularies of a run: what ticking a node can give, what each agent is up to, and how a
run stands. Each has the name used in dumps and logs and the one used in reports.
-/
namespace Pursuit

inductive Status where
  | running
  | success
  | failure
deriving DecidableEq, Repr

def Status.ofBool (b : Bool) : Status := if b then .success else .failure

def Status.text : Status → String
  | .running => "running"
  | .success => "success"
  | .failure => "failure"

def Status.name : Status → String
  | .running => "Running"
  | .success => "Success"
  | .failure => "Failure"

inductive CatMode where
  | patrolling
  | chasing
  | caught
deriving DecidableEq, Repr

def CatMode.text : CatMode → String
  | .patrolling => "patrolling"
  | .chasing => "chasing"
  | .caught => "caught"

def CatMode.name : CatMode → String
  | .patrolling => "Patrolling"
  | .chasing => "Chasing"
  | .caught => "Caught"

inductive MouseMode where
  | wandering
  | seeking
  | fleeing
deriving DecidableEq, Repr

def MouseMode.text : MouseMode → String
  | .wandering => "wandering"
  | .seeking => "seeking"
  | .fleeing => "fleeing"

def MouseMode.name : MouseMode → String
  | .wandering => "Wandering"
  | .seeking => "Seeking"
  | .fleeing => "Fleeing"

inductive Outcome where
  | ongoing
  | mouseCaught
  | allCheeseCollected
deriving DecidableEq, Repr

def Outcome.text : Outcome → String
  | .ongoing => "ongoing"
  | .mouseCaught => "mouse_caught"
  | .allCheeseCollected => "all_cheese_collected"

def Outcome.name : Outcome → String
  | .ongoing => "Ongoing"
  | .mouseCaught => "MouseCaught"
  | .allCheeseCollected => "AllCheeseCollected"

end Pursuit
