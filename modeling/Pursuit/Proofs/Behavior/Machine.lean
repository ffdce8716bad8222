import Pursuit.Proofs.Behavior.Leaves

/-! A tick in single moves, with its call stack in the open. The machine and the recursive tick
agree: a tick ends for some depth of nesting exactly if the machine halts, and both end alike. That
leaf code sees a moment is a claim about the machine's configurations. Raising an action and calling
its effect are one move, and so are the effect's end and the lowering. -/
namespace Pursuit.Behavior

/-- Leaf code that is being called: a predicate, or the effect of the action at a position. -/
inductive Call where
  | predicate
  | effect (name : String) (slot : Nat)

namespace Call

abbrev Answer : Call → Type
  | .predicate => Bool
  | .effect .. => Except ActionFault Unit

def status : (c : Call) → c.Answer → Status
  | .predicate, b => .ofBool b
  | .effect .., .ok () => .success
  | .effect .., .error _ => .failure

def slots : Call → List Nat
  | .predicate => []
  | .effect _ slot => [slot]

variable {σ : Type}

/-- What is left of a run when the call is over, however it ends. -/
def lower : Call → Run σ → Run σ
  | .predicate, r => r
  | .effect _ slot, r => r.lower slot

variable [Journal σ]

def note : (c : Call) → c.Answer → Run σ → Run σ
  | .effect name _, .error e, r => r.note (.actionFailed name e)
  | .effect .., .ok (), r | .predicate, _, r => r

theorem raised_note (c : Call) (a : c.Answer) (r : Run σ) : (c.note a r).raised = r.raised := by
  cases c with
  | predicate => rfl
  | effect name slot => cases a <;> rfl

def settle (c : Call) : Exit c.Answer × Run σ → Exit Status × Run σ
  | (.returned a, r) => (.returned (c.status a), c.note a (c.lower r))
  | (.unwound, r) => (.unwound, c.lower r)
  | (.tooDeep, r) => (.tooDeep, c.lower r)

end Call

namespace Node

variable {σ : Type} [Journal σ] {inner : Inner σ} {name : String} {slot : Nat} {r : Run σ}

theorem tick_condition (predicate : σ → Routine σ Bool) :
    (Node.condition name predicate).tick inner slot r =
      Call.predicate.settle ((predicate r.state).perform inner r.raised) := by
  rw [tick]
  obtain ⟨_ | _ | _, after⟩ := (predicate r.state).perform inner r.raised <;> rfl

theorem tick_action_of_mem {effect : σ → Routine σ (Except ActionFault Unit)}
    (raised : slot ∈ r.raised) :
    (Node.action name effect).tick inner slot r =
      (.returned .running, r.note (.stillExecuting name)) := by
  rw [tick, act, if_pos raised]

theorem tick_action_of_not_mem {effect : σ → Routine σ (Except ActionFault Unit)}
    (lowered : slot ∉ r.raised) :
    (Node.action name effect).tick inner slot r =
      (Call.effect name slot).settle ((effect r.state).perform inner (r.raise slot).raised) := by
  rw [tick, act, if_neg lowered]
  obtain ⟨(_ | ⟨⟨⟩⟩) | _ | _, after⟩ := (effect r.state).perform inner (r.raise slot).raised <;> rfl

theorem within_of_missing {root : Node σ} {depth : Nat} {path : List Nat}
    (missing : root.find? 0 path = none) : root.within depth path r = (.returned none, r) := by
  rw [within, missing]

theorem within_zero {root n : Node σ} {path : List Nat}
    (found : root.find? 0 path = some (slot, n)) : root.within 0 path r = (.tooDeep, r) := by
  rw [within, found]

theorem within_succ {root n : Node σ} {depth : Nat} {path : List Nat} {exit : Exit Status}
    {after : Run σ} (found : root.find? 0 path = some (slot, n))
    (ticked : n.tick (root.within depth) slot r = (exit, after)) :
    root.within (depth + 1) path r = (exit.map some, after) := by
  rw [within, found]
  simp only [ticked]

end Node

/-- What happens next: a node or a stretch of children is ticked, leaf code goes on, or the level
above learns how the one below has ended. -/
inductive Focus (σ : Type) where
  | tick (n : Node σ) (slot : Nat)
  | walk (pass : Status) (rest : List (Node σ)) (slot : Nat)
  | call (c : Call) (rest : Routine σ c.Answer)
  | answer (status : Status)
  | unwinding

inductive Frame (σ : Type) where
  | walk (pass : Status) (rest : List (Node σ)) (slot : Nat)
  | call (c : Call) (next : Option Status → σ → Routine σ c.Answer)

structure Machine (σ : Type) where
  focus : Focus σ
  stack : List (Frame σ)
  run : Run σ

variable {σ : Type}

def Run.withState (r : Run σ) (s : σ) : Run σ := { r with state := s }

namespace Machine

variable [Journal σ]

/-- One move; nothing once the outermost tick has ended. -/
def step (root : Node σ) : Machine σ → Option (Machine σ)
  | ⟨.tick (.sequence cs) slot, k, r⟩ => some ⟨.walk .success cs slot, k, r⟩
  | ⟨.tick (.fallback cs) slot, k, r⟩ => some ⟨.walk .failure cs slot, k, r⟩
  | ⟨.tick (.condition _ predicate) _, k, r⟩ => some ⟨.call .predicate (predicate r.state), k, r⟩
  | ⟨.tick (.action name effect) slot, k, r⟩ =>
    if slot ∈ r.raised then some ⟨.answer .running, k, r.note (.stillExecuting name)⟩
    else some ⟨.call (.effect name slot) (effect r.state), k, r.raise slot⟩
  | ⟨.walk pass [] _, k, r⟩ => some ⟨.answer pass, k, r⟩
  | ⟨.walk pass (c :: cs) slot, k, r⟩ =>
    some ⟨.tick c slot, .walk pass cs (slot + c.leaves) :: k, r⟩
  | ⟨.call c (.finish a s), k, r⟩ =>
    some ⟨.answer (c.status a), k, c.note a (c.lower (r.withState s))⟩
  | ⟨.call c (.unwind s), k, r⟩ => some ⟨.unwinding, k, c.lower (r.withState s)⟩
  | ⟨.call c (.consult path s next), k, r⟩ =>
    match root.find? 0 path with
    | some (slot, n) => some ⟨.tick n slot, .call c next :: k, r.withState s⟩
    | none => some ⟨.call c (next none s), k, r.withState s⟩
  | ⟨.answer status, .walk pass cs slot :: k, r⟩ =>
    if status = pass then some ⟨.walk pass cs slot, k, r⟩ else some ⟨.answer status, k, r⟩
  | ⟨.answer status, .call c next :: k, r⟩ => some ⟨.call c (next (some status) r.state), k, r⟩
  | ⟨.unwinding, .walk .. :: k, r⟩ => some ⟨.unwinding, k, r⟩
  | ⟨.unwinding, .call c _ :: k, r⟩ => some ⟨.unwinding, k, c.lower r⟩
  | ⟨.answer _, [], _⟩ | ⟨.unwinding, [], _⟩ => none

def advance (root : Node σ) : Nat → Machine σ → Option (Machine σ)
  | 0, m => some m
  | n + 1, m => (step root m).bind (advance root n)

def Reaches (root : Node σ) (m m' : Machine σ) : Prop := ∃ n, advance root n m = some m'

variable {root : Node σ} {m m' m'' : Machine σ}

theorem advance_add (i j : Nat) (m : Machine σ) :
    advance root (i + j) m = (advance root i m).bind (advance root j) := by
  induction i generalizing m with
  | zero => simp [advance]
  | succ i ih =>
    rw [Nat.succ_add, advance, advance]
    cases step root m with
    | none => rfl
    | some m' => exact ih m'

theorem Reaches.trans (h : Reaches root m m') (h' : Reaches root m' m'') : Reaches root m m'' := by
  obtain ⟨i, hi⟩ := h
  obtain ⟨j, hj⟩ := h'
  exact ⟨i + j, by rw [advance_add, hi]; exact hj⟩

theorem Reaches.of_step (h : step root m = some m') : Reaches root m m' :=
  ⟨1, by simp [advance, h]⟩

theorem Reaches.head (h : step root m = some m') (h' : Reaches root m' m'') :
    Reaches root m m'' := (Reaches.of_step h).trans h'

theorem Reaches.keeps {P : Machine σ → Prop} (h : Reaches root m m')
    (move : ∀ a b, P a → step root a = some b → P b) (start : P m) : P m' := by
  obtain ⟨n, hn⟩ := h
  induction n generalizing m with
  | zero => exact Option.some.inj hn ▸ start
  | succ n ih =>
    rw [advance, Option.bind_eq_some_iff] at hn
    obtain ⟨a, ha, hn⟩ := hn
    exact ih (move m a start ha) hn

theorem advance_isSome_of_le {i j : Nat} (hij : i ≤ j) (h : (advance root j m).isSome) :
    (advance root i m).isSome := by
  obtain ⟨k, rfl⟩ := Nat.exists_eq_add_of_le hij
  rw [advance_add] at h
  cases he : advance root i m with
  | none => simp [he] at h
  | some a => rfl

theorem advance_eq_none_of_halted {n : Nat} (h : advance root n m = some m')
    (halted : step root m' = none) : advance root (n + 1) m = none := by
  rw [advance_add, h, Option.bind_some, advance, halted, Option.bind_none]

theorem Reaches.halted_unique (h : Reaches root m m') (h' : Reaches root m m'')
    (halted : step root m' = none) (halted' : step root m'' = none) : m' = m'' := by
  obtain ⟨i, hi⟩ := h
  obtain ⟨j, hj⟩ := h'
  -- Neither run is longer: after its last move a halted machine makes no further one.
  have bound {a b : Nat} {x y : Machine σ} (ha : advance root a m = some x)
      (hx : step root x = none) (hb : advance root b m = some y) : b ≤ a := by
    refine Nat.le_of_not_lt fun hlt => ?_
    have hs : (advance root (a + 1) m).isSome := advance_isSome_of_le hlt (by rw [hb]; rfl)
    rw [advance_eq_none_of_halted ha hx] at hs
    cases hs
  have hij : i = j := Nat.le_antisymm (bound hj halted' hi) (bound hi halted hj)
  subst hij
  exact Option.some.inj (hi.symm.trans hj)

def start (n : Node σ) (slot : Nat) (r : Run σ) : Machine σ := ⟨.tick n slot, [], r⟩

def returned (status : Status) (r : Run σ) : Machine σ := ⟨.answer status, [], r⟩

def unwound (r : Run σ) : Machine σ := ⟨.unwinding, [], r⟩

/-- The machine does from `m` on, above the stack `k`, what a tick did: it gets to the same end, or
is still on its way after as many moves as there are levels if these did not suffice. -/
def Follows (root : Node σ) (depth : Nat) (m : Machine σ) (k : List (Frame σ)) :
    Exit Status × Run σ → Prop
  | (.returned status, r) => Reaches root m ⟨.answer status, k, r⟩
  | (.unwound, r) => Reaches root m ⟨.unwinding, k, r⟩
  | (.tooDeep, _) => (advance root depth m).isSome

theorem Follows.head {depth : Nat} {k : List (Frame σ)} {x : Exit Status × Run σ}
    (h : step root m = some m') (h' : Follows root depth m' k x) : Follows root depth m k x := by
  obtain ⟨_ | _ | _, r⟩ := x
  · exact Reaches.head h h'
  · exact Reaches.head h h'
  · refine advance_isSome_of_le (Nat.le_succ depth) ?_
    rw [advance, h]
    exact h'

theorem Follows.of_reaches {depth : Nat} {k : List (Frame σ)} {x : Exit Status × Run σ}
    (h : Reaches root m m') (h' : Follows root depth m' k x) : Follows root depth m k x := by
  obtain ⟨n, hn⟩ := h
  induction n generalizing m with
  | zero => exact Option.some.inj hn ▸ h'
  | succ n ih =>
    rw [advance, Option.bind_eq_some_iff] at hn
    obtain ⟨a, ha, hn⟩ := hn
    exact (ih hn).head ha

def FollowsBelow (root : Node σ) (depth : Nat) : Prop :=
  ∀ d, depth = d + 1 → ∀ n slot k r,
    Follows root d ⟨.tick n slot, k, r⟩ k (n.tick (root.within d) slot r)

theorem call_follows {depth : Nat} (below : FollowsBelow root depth) (c : Call)
    (rest : Routine σ c.Answer) (k : List (Frame σ)) (r : Run σ) :
    Follows root depth ⟨.call c rest, k, r⟩ k
      (c.settle (rest.perform (root.within depth) r.raised)) := by
  -- By induction on what the leaf code still does; a consulted node is a tick one level below.
  induction rest generalizing r with
  | finish a s => exact Reaches.of_step rfl
  | unwind s => exact Reaches.of_step rfl
  | consult path s next ih =>
    rw [Routine.perform]
    cases found : root.find? 0 path with
    | none =>
      have move : step root ⟨.call c (.consult path s next), k, r⟩ =
          some ⟨.call c (next none s), k, r.withState s⟩ := by simp only [step, found]
      rw [Node.within_of_missing found]
      exact (ih none s (r.withState s)).head move
    | some place =>
      obtain ⟨slot, n⟩ := place
      have move : step root ⟨.call c (.consult path s next), k, r⟩ =
          some ⟨.tick n slot, .call c next :: k, r.withState s⟩ := by simp only [step, found]
      cases depth with
      | zero =>
        rw [Node.within_zero found]
        rfl
      | succ d =>
        have inner := below d rfl n slot (.call c next :: k) (r.withState s)
        obtain ⟨exit, after, ticked⟩ :
            ∃ exit after, n.tick (root.within d) slot (r.withState s) = (exit, after) := ⟨_, _, rfl⟩
        rw [ticked] at inner
        rw [show (⟨s, r.raised⟩ : Run σ) = r.withState s from rfl, Node.within_succ found ticked]
        cases exit with
        | returned status =>
          exact Follows.head move (.of_reaches inner
            (.head rfl (ih (some status) after.state after)))
        | unwound => exact Reaches.head move (Reaches.trans inner (.of_step rfl))
        | tooDeep =>
          change (advance root (d + 1) _).isSome
          rw [advance, move]
          exact inner

theorem walk_follows {depth : Nat} {cs : List (Node σ)}
    (children : ∀ c ∈ cs, ∀ slot k r,
      Follows root depth ⟨.tick c slot, k, r⟩ k (c.tick (root.within depth) slot r))
    (pass : Status) (slot : Nat) (k : List (Frame σ)) (r : Run σ) :
    Follows root depth ⟨.walk pass cs slot, k, r⟩ k
      (Node.walk (root.within depth) pass cs slot r) := by
  induction cs generalizing slot r with
  | nil => exact Reaches.of_step rfl
  | cons c cs ih =>
    obtain ⟨hc, hcs⟩ := List.forall_mem_cons.1 children
    refine Follows.head rfl ?_
    have first := hc slot (.walk pass cs (slot + c.leaves) :: k) r
    rw [Node.walk]
    obtain ⟨exit, after, ticked⟩ :
        ∃ exit after, c.tick (root.within depth) slot r = (exit, after) := ⟨_, _, rfl⟩
    rw [ticked] at first ⊢
    cases exit with
    | returned status =>
      refine Follows.of_reaches first ?_
      by_cases hs : status = pass
      · simp only [hs, if_true]
        exact Follows.head (by simp [step]) (ih hcs _ after)
      · simp only [hs, if_false]
        exact Reaches.of_step (by simp [step, hs])
    | unwound => exact Reaches.trans first (.of_step rfl)
    | tooDeep => exact first

theorem tick_follows_of_below {depth : Nat} (below : FollowsBelow root depth) (n : Node σ) :
    ∀ slot k r,
      Follows root depth ⟨.tick n slot, k, r⟩ k (n.tick (root.within depth) slot r) := by
  induction n using Node.induction with
  | sequence cs ih =>
    intro slot k r
    rw [Node.tick_sequence]
    exact Follows.head rfl (walk_follows ih .success slot k r)
  | fallback cs ih =>
    intro slot k r
    rw [Node.tick_fallback]
    exact Follows.head rfl (walk_follows ih .failure slot k r)
  | condition name predicate =>
    intro slot k r
    rw [Node.tick_condition]
    exact Follows.head rfl (call_follows below .predicate (predicate r.state) k r)
  | action name effect =>
    intro slot k r
    by_cases raised : slot ∈ r.raised
    · rw [Node.tick_action_of_mem raised]
      exact Reaches.of_step (by simp [step, raised])
    · rw [Node.tick_action_of_not_mem raised]
      exact Follows.head (by simp [step, raised])
        (call_follows below (.effect name slot) (effect r.state) k (r.raise slot))

theorem tick_follows (root : Node σ) (depth : Nat) :
    ∀ n slot k r,
      Follows root depth ⟨.tick n slot, k, r⟩ k (n.tick (root.within depth) slot r) := by
  induction depth with
  | zero => exact tick_follows_of_below fun d h => absurd h (by omega)
  | succ depth ih =>
    refine tick_follows_of_below fun d h => ?_
    obtain rfl : depth = d := by omega
    exact ih

variable {n : Node σ} {slot : Nat} {r r' : Run σ}

theorem reaches_of_tick_returned {depth : Nat} {status : Status}
    (h : n.tick (root.within depth) slot r = (.returned status, r')) :
    Reaches root (start n slot r) (returned status r') := by
  have on := tick_follows root depth n slot [] r
  rwa [h] at on

theorem reaches_of_tick_unwound {depth : Nat}
    (h : n.tick (root.within depth) slot r = (.unwound, r')) :
    Reaches root (start n slot r) (unwound r') := by
  have on := tick_follows root depth n slot [] r
  rwa [h] at on

theorem tick_ne_tooDeep {moves : Nat} {f : Machine σ}
    (h : advance root moves (start n slot r) = some f) (halted : step root f = none) :
    (n.tick (root.within (moves + 1)) slot r).1 ≠ .tooDeep := by
  intro deep
  -- Running out of that many levels takes more moves than the machine makes.
  have on := tick_follows root (moves + 1) n slot [] r
  rw [← Prod.eta (n.tick _ slot r), deep] at on
  change (advance root (moves + 1) (start n slot r)).isSome at on
  rw [advance_eq_none_of_halted h halted] at on
  cases on

/-- Where the machine halts, some depth of nesting has the tick end. -/
theorem tick_of_halted {moves : Nat} {f : Machine σ}
    (h : advance root moves (start n slot r) = some f) (halted : step root f = none) :
    (∃ status after, n.tick (root.within (moves + 1)) slot r = (.returned status, after) ∧
      f = returned status after) ∨
    ∃ after, n.tick (root.within (moves + 1)) slot r = (.unwound, after) ∧ f = unwound after := by
  have deep := tick_ne_tooDeep h halted
  obtain ⟨exit, after, ticked⟩ :
      ∃ exit after, n.tick (root.within (moves + 1)) slot r = (exit, after) := ⟨_, _, rfl⟩
  cases exit with
  | returned status =>
    have there := reaches_of_tick_returned ticked
    exact .inl ⟨status, after, ticked, Reaches.halted_unique ⟨moves, h⟩ there halted rfl⟩
  | unwound =>
    have there := reaches_of_tick_unwound ticked
    exact .inr ⟨after, ticked, Reaches.halted_unique ⟨moves, h⟩ there halted rfl⟩
  | tooDeep => exact absurd (by rw [ticked]) deep

/-- A tick returns for some depth of nesting exactly if the machine gets to that answer. -/
theorem tick_returned_iff {status : Status} :
    (∃ depth, n.tick (root.within depth) slot r = (.returned status, r')) ↔
      Reaches root (start n slot r) (returned status r') := by
  constructor
  · rintro ⟨depth, h⟩
    exact reaches_of_tick_returned h
  · rintro ⟨moves, h⟩
    obtain ⟨status', after, ticked, same⟩ | ⟨after, -, same⟩ := tick_of_halted h rfl
    · cases same
      exact ⟨moves + 1, ticked⟩
    · cases same

theorem tick_unwound_iff :
    (∃ depth, n.tick (root.within depth) slot r = (.unwound, r')) ↔
      Reaches root (start n slot r) (unwound r') := by
  constructor
  · rintro ⟨depth, h⟩
    exact reaches_of_tick_unwound h
  · rintro ⟨moves, h⟩
    obtain ⟨status, after, -, same⟩ | ⟨after, ticked, same⟩ := tick_of_halted h rfl
    · cases same
    · cases same
      exact ⟨moves + 1, ticked⟩

end Machine

end Pursuit.Behavior
