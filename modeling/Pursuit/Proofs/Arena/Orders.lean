import Pursuit.Arena.Navigator
import Pursuit.Proofs.Binary.Error

/-! Orders to an agent, in any sequence and with any numbers. An agent goes to the last destination
that it accepted, moves only in a step, and once it has arrived stays until it accepts another
destination. Nothing is said of where a step leads. -/
namespace Pursuit.Arena

variable {n : Navigator} {p : Point} {w : World}

/-! ## Destinations -/

theorem headFor_inside (inside : w.contains p) :
    n.headFor p w = .ok { n with destination := some p } :=
  if_pos inside

theorem headFor_outside (outside : w.contains p = false) :
    n.headFor p w = .error (.navigation p "outside world bounds") :=
  if_neg (Bool.eq_false_iff.1 outside)

theorem headFor_cases (n : Navigator) (p : Point) (w : World) :
    n.headFor p w = .ok { n with destination := some p } ∨
      n.headFor p w = .error (.navigation p "outside world bounds") := by
  rw [Navigator.headFor]
  split
  · exact .inl rfl
  · exact .inr rfl

namespace Navigator

open Pursuit.Binary

variable {d : Point} {dt : Float32}

/-! ## Steps -/

inductive Move where
  /-- It is stopped, or no time goes by. -/
  | held
  | aimless
  /-- The destination is within the stopping distance. -/
  | near
  | travels (d : Point)

def move (n : Navigator) (dt : Float32) : Move :=
  if n.isStopped || dt ≤ .ofBits 0 then .held
  else match n.destination with
    | none => .aimless
    | some d => if n.position.distance d ≤ n.stoppingDistance then .near else .travels d

def moved (n : Navigator) (dt : Float32) : Move → Navigator
  | .travels d => n.travel d dt
  | _ => n

theorem step_eq_moved (n : Navigator) (dt : Float32) : n.step dt = n.moved dt (n.move dt) := by
  simp only [step, move]
  split
  · rfl
  · cases n.destination with
    | none => rfl
    | some d =>
      dsimp only
      split <;> rfl

theorem hasArrived_of_aim (aim : n.destination = some d) :
    n.hasArrived ↔ n.position.distance d ≤ n.stoppingDistance := by
  simp [hasArrived, remaining, aim]

theorem move_eq_near_iff (moving : n.isStopped = false) {dt : Float32} (later : .ofBits 0 < dt)
    (aim : n.destination = some d) : n.move dt = .near ↔ n.hasArrived := by
  have time : ¬ dt ≤ .ofBits 0 := not_le_of_lt_narrow narrowIs_zero later
  rw [hasArrived_of_aim aim]
  simp [move, moving, time, aim]

theorem step_of_arrived (aim : n.destination = some d) (arrived : n.hasArrived) (dt : Float32) :
    n.step dt = n := by
  rw [hasArrived_of_aim aim] at arrived
  simp only [step_eq_moved, move, aim, if_pos arrived]
  split <;> rfl

theorem move_eq_travels_iff : n.move dt = .travels d ↔
    n.isStopped = false ∧ ¬ dt ≤ .ofBits 0 ∧ n.destination = some d ∧ n.hasArrived = false := by
  have going : ¬ (n.isStopped || dt ≤ .ofBits 0) ↔ n.isStopped = false ∧ ¬ dt ≤ .ofBits 0 := by simp
  rw [← and_assoc, ← going, move]
  split
  next held => exact iff_of_false nofun fun ⟨goes, _⟩ => goes held
  next goes =>
    rw [and_iff_right goes]
    cases aim : n.destination with
    | none => exact iff_of_false nofun nofun
    | some d' =>
      rw [← Bool.not_eq_true, hasArrived_of_aim aim, Option.some_inj]
      dsimp only
      split
      next near => exact iff_of_false nofun fun ⟨_, far⟩ => far near
      next far => rw [and_iff_left far, Move.travels.injEq]

theorem step_eq (n : Navigator) (dt : Float32) :
    n.step dt = { n with position := (n.step dt).position, forward := (n.step dt).forward } := by
  rw [step_eq_moved]
  cases n.move dt <;> rfl

theorem step_of_not_travels (still : ∀ d, n.move dt ≠ .travels d) : n.step dt = n := by
  rw [step_eq_moved]
  cases made : n.move dt with
  | travels d => exact absurd made (still d)
  | held | aimless | near => rfl

/-! ## One operation -/

inductive Operation where
  | headFor (p : Point)
  | moveAt (speed : Float32)
  | stop
  | step (dt : Float32)

/-- A destination that is refused leaves the agent as it was. -/
def operate (w : World) (n : Navigator) : Operation → Navigator
  | .headFor p =>
    match n.headFor p w with
    | .ok n => n
    | .error _ => n
  | .moveAt speed => n.moveAt speed
  | .stop => n.stop
  | .step dt => n.step dt

def accepted? (w : World) (n : Navigator) : Operation → Option Point
  | .headFor p =>
    match n.headFor p w with
    | .ok _ => some p
    | .error _ => none
  | _ => none

variable {op : Operation} {ops : List Operation}

theorem operate_headFor_of_inside (inside : w.contains p) :
    n.operate w (.headFor p) = { n with destination := some p } := by
  rw [operate, headFor_inside inside]

theorem operate_headFor_of_outside (outside : w.contains p = false) :
    n.operate w (.headFor p) = n := by
  rw [operate, headFor_outside outside]

theorem accepted?_eq_some : n.accepted? w op = some p ↔ op = .headFor p ∧ w.contains p := by
  cases op with
  | headFor q =>
    rw [accepted?, Operation.headFor.injEq]
    cases inside : w.contains q with
    | true =>
      rw [headFor_inside inside, Option.some_inj]
      exact ⟨fun same => ⟨same, same ▸ inside⟩, And.left⟩
    | false =>
      rw [headFor_outside inside]
      exact iff_of_false nofun fun ⟨same, within⟩ => by rw [same, within] at inside; cases inside
  | moveAt | stop | step => exact iff_of_false nofun nofun

theorem outside_of_declined (declined : n.accepted? w (.headFor p) = none) :
    w.contains p = false := by
  rw [← Bool.not_eq_true]
  intro inside
  rw [accepted?_eq_some.2 ⟨rfl, inside⟩] at declined
  cases declined

theorem operate_of_accepted (taken : n.accepted? w op = some p) :
    n.operate w op = { n with destination := some p } := by
  obtain ⟨rfl, inside⟩ := accepted?_eq_some.1 taken
  exact operate_headFor_of_inside inside

theorem destination_operate (w : World) (n : Navigator) (op : Operation) :
    (n.operate w op).destination = (n.accepted? w op).or n.destination := by
  cases taken : n.accepted? w op with
  | some p => rw [operate_of_accepted taken, Option.some_or]
  | none =>
    rw [Option.none_or]
    cases op with
    | headFor p => rw [operate_headFor_of_outside (outside_of_declined taken)]
    | moveAt | stop => rfl
    | step dt => rw [operate, step_eq]

def Braked (n : Navigator) : Prop := n.isStopped → n.speed = .ofBits 0

theorem Braked.operate (braked : n.Braked) (w : World) (op : Operation) :
    (n.operate w op).Braked := by
  cases op with
  | headFor p =>
    rw [Navigator.operate]
    obtain taken | refused := headFor_cases n p w
    · rw [taken]
      exact braked
    · rw [refused]
      exact braked
  | moveAt speed => exact nofun
  | stop => exact fun _ => rfl
  | step dt =>
    rw [Navigator.operate, step_eq]
    exact braked

theorem travels_of_operate
    (changed : ¬ ((n.operate w op).position = n.position ∧ (n.operate w op).forward = n.forward)) :
    ∃ dt d, op = .step dt ∧ n.move dt = .travels d := by
  cases op with
  | headFor p =>
    rw [operate] at changed
    obtain taken | refused := headFor_cases n p w
    · exact absurd ⟨rfl, rfl⟩ (taken ▸ changed)
    · exact absurd ⟨rfl, rfl⟩ (refused ▸ changed)
  | moveAt | stop => exact absurd ⟨rfl, rfl⟩ changed
  | step dt =>
    by_contra still
    push Not at still
    rw [operate, step_of_not_travels (still dt · rfl)] at changed
    exact changed ⟨rfl, rfl⟩

/-! ## At the destination -/

/-- The agent has not moved, and is to go where it was to go. -/
structure Rests (n n' : Navigator) : Prop where
  position : n'.position = n.position
  forward : n'.forward = n.forward
  destination : n'.destination = n.destination
  stoppingDistance : n'.stoppingDistance = n.stoppingDistance

namespace Rests

variable {n₁ n₂ n₃ : Navigator}

theorem refl (n : Navigator) : n.Rests n := ⟨rfl, rfl, rfl, rfl⟩

theorem trans (first : n₁.Rests n₂) (second : n₂.Rests n₃) : n₁.Rests n₃ :=
  ⟨second.position.trans first.position, second.forward.trans first.forward,
    second.destination.trans first.destination,
      second.stoppingDistance.trans first.stoppingDistance⟩

theorem hasArrived (rests : n₁.Rests n₂) : n₂.hasArrived = n₁.hasArrived := by
  rw [Navigator.hasArrived, Navigator.hasArrived, remaining, remaining, rests.position,
    rests.destination, rests.stoppingDistance]

end Rests

def Operation.isStep : Operation → Bool
  | .step _ => true
  | _ => false

section Arrived

variable (aim : n.destination = some d) (arrived : n.hasArrived)

include aim arrived

theorem operate_of_isStep (step : op.isStep) : n.operate w op = n := by
  cases op with
  | step dt => exact step_of_arrived aim arrived dt
  | headFor | moveAt | stop => cases step

theorem rests_operate (declined : n.accepted? w op = none) : n.Rests (n.operate w op) := by
  cases op with
  | headFor p =>
    rw [operate_headFor_of_outside (outside_of_declined declined)]
    exact .refl n
  | moveAt | stop => exact ⟨rfl, rfl, rfl, rfl⟩
  | step dt =>
    rw [operate_of_isStep aim arrived rfl]
    exact .refl n

end Arrived

/-! ## Any operations -/

def operateAll (w : World) (n : Navigator) (ops : List Operation) : Navigator :=
  ops.foldl (operate w) n

def acceptedAll (w : World) : Navigator → List Operation → List Point
  | _, [] => []
  | n, op :: ops => (n.accepted? w op).toList ++ acceptedAll w (n.operate w op) ops

theorem Braked.run (braked : n.Braked) (w : World) (ops : List Operation) :
    (n.operateAll w ops).Braked := by
  induction ops generalizing n with
  | nil => exact braked
  | cons op ops ih => exact ih (braked.operate w op)

theorem mem_acceptedAll (taken : p ∈ acceptedAll w n ops) : .headFor p ∈ ops ∧ w.contains p := by
  induction ops generalizing n with
  | nil => cases taken
  | cons op ops ih =>
    rw [acceptedAll, List.mem_append, Option.mem_toList, accepted?_eq_some] at taken
    obtain ⟨rfl, inside⟩ | later := taken
    · exact ⟨List.mem_cons_self, inside⟩
    · exact (ih later).imp_left (List.mem_cons_of_mem _)

theorem destination_operateAll (w : World) (n : Navigator) (ops : List Operation) :
    (n.operateAll w ops).destination = (acceptedAll w n ops).getLast?.or n.destination := by
  -- From any destination, as the first operation may have set one.
  induction ops generalizing n with
  | nil => rfl
  | cons op ops ih =>
    have last : (n.accepted? w op).toList.getLast? = n.accepted? w op := by
      cases n.accepted? w op <;> rfl
    calc
      ((n.operate w op).operateAll w ops).destination
        = (acceptedAll w (n.operate w op) ops).getLast?.or (n.operate w op).destination := ih _
      _ = ((acceptedAll w (n.operate w op) ops).getLast?.or (n.accepted? w op)).or
          n.destination := by
        rw [destination_operate, Option.or_assoc]
      _ = (acceptedAll w n (op :: ops)).getLast?.or n.destination := by
        rw [acceptedAll, List.getLast?_append, last]

/-- At its destination an agent rests, and its steps might as well be left out, until it accepts
another one. -/
theorem operateAll_of_arrived (aim : n.destination = some d) (arrived : n.hasArrived)
    (declined : acceptedAll w n ops = []) :
    n.Rests (n.operateAll w ops) ∧
      n.operateAll w ops = n.operateAll w (ops.filter (!·.isStep)) := by
  induction ops generalizing n with
  | nil => exact ⟨.refl n, rfl⟩
  | cons op ops ih =>
    rw [acceptedAll, List.append_eq_nil_iff, Option.toList_eq_nil_iff] at declined
    obtain ⟨first, later⟩ := declined
    have rests := rests_operate aim arrived first
    obtain ⟨others, same⟩ := ih (rests.destination.trans aim) (rests.hasArrived.trans arrived) later
    refine ⟨rests.trans others, ?_⟩
    cases step : op.isStep with
    | true =>
      rw [operate_of_isStep aim arrived step] at same
      rw [List.filter_cons_of_neg (by simp [step]), operateAll, List.foldl_cons,
        operate_of_isStep aim arrived step]
      exact same
    | false =>
      rw [List.filter_cons_of_pos (by simp [step])]
      exact same

theorem foldl_step_of_arrived (aim : n.destination = some d) (arrived : n.hasArrived)
    (dts : List Float32) :
    dts.foldl step n = n := by
  induction dts with
  | nil => rfl
  | cons dt dts ih => rw [List.foldl_cons, step_of_arrived aim arrived, ih]

/-- An agent that starts without a destination, after any operations. It is to go to the last
destination that it accepted, which is in the arena; one that it refuses changes nothing. On the
brakes it has no speed. Its place and its heading change only in a step that is made off the brakes,
with a destination at which it has not arrived. Once it has arrived no further steps change it, and
until it accepts another destination it stays there, as if no step were made among the
operations. -/
theorem operateAll_governed {position : Point} {stoppingDistance : Float32}
    (ran : operateAll w { position, stoppingDistance } ops = n) :
    n.destination = (acceptedAll w { position, stoppingDistance } ops).getLast? ∧
    (∀ d, n.destination = some d → .headFor d ∈ ops ∧ w.contains d) ∧
    (∀ p, (w.contains p ∧ n.headFor p w = .ok { n with destination := some p }) ∨
      (w.contains p = false ∧ n.headFor p w = .error (.navigation p "outside world bounds") ∧
        n.operate w (.headFor p) = n)) ∧
    (n.isStopped → n.speed = .ofBits 0) ∧
    (∀ op, ¬ ((n.operate w op).position = n.position ∧ (n.operate w op).forward = n.forward) →
      ∃ dt, op = .step dt ∧ n.isStopped = false ∧ n.destination.isSome ∧ n.hasArrived = false) ∧
    (n.destination.isSome → n.hasArrived → (∀ dts : List Float32, dts.foldl step n = n) ∧
      ∀ more, acceptedAll w n more = [] → n.Rests (n.operateAll w more) ∧
        n.operateAll w more = n.operateAll w (more.filter (!·.isStep))) := by
  have last : n.destination = (acceptedAll w { position, stoppingDistance } ops).getLast? := by
    rw [← ran, destination_operateAll, Option.or_none]
  have start : Braked { position, stoppingDistance } := fun _ => rfl
  refine ⟨last, fun d aim => ?_, fun p => ?_, ran ▸ start.run w ops, fun op changed => ?_,
    fun aimed arrived => ?_⟩
  · exact mem_acceptedAll (List.mem_of_getLast? (last.symm.trans aim))
  · cases inside : w.contains p with
    | true => exact .inl ⟨rfl, headFor_inside inside⟩
    | false => exact .inr ⟨rfl, headFor_outside inside, operate_headFor_of_outside inside⟩
  · obtain ⟨dt, d, rfl, travels⟩ := travels_of_operate changed
    obtain ⟨moving, -, aim, far⟩ := move_eq_travels_iff.1 travels
    exact ⟨dt, rfl, moving, Option.isSome_of_eq_some aim, far⟩
  · obtain ⟨d, aim⟩ := Option.isSome_iff_exists.1 aimed
    exact ⟨foldl_step_of_arrived aim arrived, fun _ => operateAll_of_arrived aim arrived⟩

end Navigator

def meadow : World := ⟨20.0, [], []⟩

def errand : List Navigator.Operation :=
  [.headFor (.ofInts 0 3), .moveAt 100.0, .headFor (.ofInts 0 25), .step 1.0, .stop]

def nudges : List Navigator.Operation :=
  [.moveAt (.ofBits 0x7fc00000), .step 1.0, .headFor (.ofInts 25 0), .step (.ofBits 0x7fc00000)]

/-- An agent at the origin gets to the first destination and stays there. -/
theorem Navigator.operateAll_governed_errand : ∃ n,
    operateAll meadow { position := .ofInts 0 0, stoppingDistance := 0.5 } errand = n ∧
    n.destination = some (.ofInts 0 3) ∧ n.hasArrived ∧ n.speed = .ofBits 0 ∧
    [Float32.ofBits 0x7fc00000, 1.0].foldl step n = n ∧
    acceptedAll meadow n nudges = [] ∧ n.Rests (n.operateAll meadow nudges) := by
  obtain ⟨n, ran⟩ :
      ∃ n, operateAll meadow { position := .ofInts 0 0, stoppingDistance := 0.5 } errand = n :=
    ⟨_, rfl⟩
  obtain ⟨last, -, -, braked, -, rest⟩ := operateAll_governed ran
  have aim : n.destination = some (.ofInts 0 3) := last.trans rfl
  have arrived : n.hasArrived := by
    rw [← ran]
    decide +kernel
  have declined : acceptedAll meadow n nudges = [] := by
    rw [← ran]
    rfl
  obtain ⟨still, others⟩ := rest (Option.isSome_of_eq_some aim) arrived
  exact ⟨n, ran, aim, arrived, braked (ran ▸ rfl), still _, declined, (others nudges declined).1⟩

end Pursuit.Arena
