import Pursuit.Proofs.Behavior.Machine

/-! Raised actions and the call stack. At every moment of a tick the raised actions are those that
were raised when it began and, on top of them, those whose effect is on the call stack, each once.
One move raises, lowers or leaves alone; the balance follows for every run. -/
namespace Pursuit.Behavior

variable {σ : Type}

def Focus.slots : Focus σ → List Nat
  | .call c _ => c.slots
  | .tick .. | .walk .. | .answer _ | .unwinding => []

def Frame.slots : Frame σ → List Nat
  | .call c _ => c.slots
  | .walk .. => []

/-- The positions of the actions whose effect is on the call stack, the innermost first. -/
def Machine.executing (m : Machine σ) : List Nat := m.focus.slots ++ m.stack.flatMap Frame.slots

def Call.Placed (root : Node σ) : Call → Prop
  | .predicate => True
  | .effect name slot => ∃ effect, root.fringe[slot]? = some (.action name effect)

def Focus.Placed (root : Node σ) : Focus σ → Prop
  | .tick n slot => root.Covers slot n.fringe
  | .walk _ rest slot => root.Covers slot (Node.fringeAll rest)
  | .call c _ => c.Placed root
  | .answer _ | .unwinding => True

def Frame.Placed (root : Node σ) : Frame σ → Prop
  | .walk _ rest slot => root.Covers slot (Node.fringeAll rest)
  | .call c _ => c.Placed root

/-- Nodes, children and effects under way are those of the tree, at their own positions. -/
structure Machine.Placed (root : Node σ) (m : Machine σ) : Prop where
  focus : m.focus.Placed root
  stack : ∀ f ∈ m.stack, f.Placed root

/-- What is raised is what was raised at the start and what is executing. -/
structure Machine.Balanced (base : List Nat) (m : Machine σ) : Prop where
  raised : m.run.raised = m.executing ++ base
  nodup : m.executing.Nodup
  fresh : ∀ slot ∈ m.executing, slot ∉ base

theorem Call.raised_lower (c : Call) (r : Run σ) (s : σ) :
    (c.lower (r.withState s)).raised = (c.lower r).raised := by
  cases c <;> rfl

namespace Machine

variable {root : Node σ} {m m' : Machine σ}

/-- The three things that a move can do to the raised actions and to the effects on the stack. -/
inductive Shift (m m' : Machine σ) : Prop where
  | keep (executing : m'.executing = m.executing) (raised : m'.run.raised = m.run.raised)
  | enter (slot : Nat) (lowered : slot ∉ m.run.raised)
      (executing : m'.executing = slot :: m.executing)
      (raised : m'.run.raised = slot :: m.run.raised)
  | leave (slot : Nat) (executing : m.executing = slot :: m'.executing)
      (raised : m'.run.raised = m.run.raised.erase slot)

theorem Shift.of_end {c : Call} (executing : m.executing = c.slots ++ m'.executing)
    (raised : m'.run.raised = (c.lower m.run).raised) : Shift m m' := by
  cases c with
  | predicate => exact .keep executing.symm raised
  | effect name slot => exact .leave slot executing raised

theorem Balanced.start (n : Node σ) (slot : Nat) (r : Run σ) :
    Balanced r.raised (Machine.start n slot r) :=
  ⟨rfl, List.nodup_nil, fun _ h => absurd h List.not_mem_nil⟩

theorem Placed.start {n : Node σ} {path : List Nat} {slot : Nat}
    (found : root.find? 0 path = some (slot, n)) (r : Run σ) : Placed root (start n slot r) :=
  ⟨Node.Covers.of_find? found, fun _ h => absurd h List.not_mem_nil⟩

theorem Placed.action (hm : Placed root m) {slot : Nat} (h : slot ∈ m.executing) :
    ∃ name effect, root.fringe[slot]? = some (.action name effect) := by
  have call {c : Call} (placed : c.Placed root) (h : slot ∈ c.slots) :
      ∃ name effect, root.fringe[slot]? = some (.action name effect) := by
    cases c with
    | predicate => cases h
    | effect name own =>
      obtain rfl := List.mem_singleton.1 h
      exact ⟨name, placed⟩
  obtain ⟨focus, k, r⟩ := m
  obtain h | h := List.mem_append.1 h
  · cases focus with
    | call c rest => exact call hm.focus h
    | tick | walk | answer | unwinding => cases h
  · obtain ⟨f, hf, h⟩ := List.mem_flatMap.1 h
    have placed := hm.stack f hf
    cases f with
    | call c next => exact call placed h
    | walk => cases h

variable [Journal σ]

/-- A move raises an action that was lowered and calls its effect, or ends the innermost effect and
lowers its action, or does neither. -/
theorem shift_of_step (h : step root m = some m') : Shift m m' := by
  obtain ⟨focus, k, r⟩ := m
  cases focus with
  | tick n slot =>
    cases n with
    | sequence cs | fallback cs | condition name predicate => cases h; exact .keep rfl rfl
    | action name effect =>
      rw [step] at h
      split at h
      next => cases h; exact .keep rfl rfl
      next lowered => cases h; exact .enter slot lowered rfl rfl
  | walk pass rest slot =>
    cases rest with
    | nil | cons c cs => cases h; exact .keep rfl rfl
  | call c rest =>
    cases rest with
    | finish a s =>
      cases h
      exact .of_end rfl ((c.raised_note a _).trans (c.raised_lower r s))
    | unwind s => cases h; exact .of_end rfl (c.raised_lower r s)
    | consult path s next =>
      rw [step] at h
      split at h
      next => cases h; exact .keep rfl rfl
      next => cases h; exact .keep rfl rfl
  | answer status =>
    cases k with
    | nil => cases h
    | cons f k =>
      cases f with
      | walk pass cs slot =>
        rw [step] at h
        split at h
        next => cases h; exact .keep rfl rfl
        next => cases h; exact .keep rfl rfl
      | call c next => cases h; exact .keep rfl rfl
  | unwinding =>
    cases k with
    | nil => cases h
    | cons f k =>
      cases f with
      | walk pass cs slot => cases h; exact .keep rfl rfl
      | call c next => cases h; exact .of_end rfl rfl

theorem Balanced.step {base : List Nat} (hm : Balanced base m) (h : step root m = some m') :
    Balanced base m' := by
  cases shift_of_step h with
  | keep executing raised =>
    exact ⟨by rw [raised, executing, hm.raised], executing ▸ hm.nodup, executing ▸ hm.fresh⟩
  | enter slot lowered executing raised =>
    rw [hm.raised, List.mem_append, not_or] at lowered
    refine ⟨by rw [raised, executing, hm.raised, List.cons_append], ?_, ?_⟩
    · rw [executing]
      exact List.nodup_cons.2 ⟨lowered.1, hm.nodup⟩
    · rw [executing]
      exact List.forall_mem_cons.2 ⟨lowered.2, hm.fresh⟩
  | leave slot executing raised =>
    have nodup := hm.nodup
    have fresh := hm.fresh
    rw [executing] at nodup fresh
    refine ⟨?_, (List.nodup_cons.1 nodup).2, (List.forall_mem_cons.1 fresh).2⟩
    rw [raised, hm.raised, executing, List.cons_append, List.erase_cons_head]

theorem Placed.step (hm : Placed root m) (h : step root m = some m') : Placed root m' := by
  obtain ⟨focus, k, r⟩ := m
  obtain ⟨here, above⟩ := hm
  cases focus with
  | tick n slot =>
    cases n with
    | sequence cs | fallback cs => cases h; exact ⟨here, above⟩
    | condition name predicate => cases h; exact ⟨trivial, above⟩
    | action name effect =>
      rw [Machine.step] at h
      split at h
      next => cases h; exact ⟨trivial, above⟩
      next => cases h; exact ⟨⟨effect, here.leaf⟩, above⟩
  | walk pass rest slot =>
    cases rest with
    | nil => cases h; exact ⟨trivial, above⟩
    | cons c cs =>
      cases h
      exact ⟨here.children.1, List.forall_mem_cons.2 ⟨here.children.2, above⟩⟩
  | call c rest =>
    cases rest with
    | finish a s | unwind s => cases h; exact ⟨trivial, above⟩
    | consult path s next =>
      rw [Machine.step] at h
      split at h
      next found =>
        cases h
        exact ⟨Node.Covers.of_find? found, List.forall_mem_cons.2 ⟨here, above⟩⟩
      next => cases h; exact ⟨here, above⟩
  | answer status =>
    cases k with
    | nil => cases h
    | cons f k =>
      obtain ⟨first, others⟩ := List.forall_mem_cons.1 above
      cases f with
      | walk pass cs slot =>
        rw [Machine.step] at h
        split at h
        next => cases h; exact ⟨first, others⟩
        next => cases h; exact ⟨trivial, others⟩
      | call c next => cases h; exact ⟨first, others⟩
  | unwinding =>
    cases k with
    | nil => cases h
    | cons f k =>
      obtain ⟨first, others⟩ := List.forall_mem_cons.1 above
      cases f with
      | walk pass cs slot | call c next => cases h; exact ⟨trivial, others⟩

theorem Reaches.balanced {n : Node σ} {slot : Nat} {r : Run σ}
    (h : Reaches root (Machine.start n slot r) m) : Balanced r.raised m :=
  h.keeps (fun _ _ hm move => hm.step move) (.start n slot r)

theorem Reaches.placed {n : Node σ} {path : List Nat} {slot : Nat} {r : Run σ}
    (found : root.find? 0 path = some (slot, n))
    (h : Reaches root (Machine.start n slot r) m) : Placed root m :=
  h.keeps (fun _ _ hm move => hm.step move) (.start found r)

theorem executing_of_halted (halted : step root m = none) : m.executing = [] := by
  obtain ⟨focus, k, r⟩ := m
  cases focus with
  | tick n slot =>
    cases n with
    | sequence | fallback | condition => cases halted
    | action name effect =>
      rw [Machine.step] at halted
      split at halted <;> cases halted
  | walk pass rest slot => cases rest <;> cases halted
  | call c rest =>
    cases rest with
    | finish | unwind => cases halted
    | consult path s next =>
      rw [Machine.step] at halted
      split at halted <;> cases halted
  | answer status =>
    cases k with
    | nil => rfl
    | cons f k =>
      cases f with
      | walk pass cs slot =>
        rw [Machine.step] at halted
        split at halted <;> cases halted
      | call c next => cases halted
  | unwinding =>
    cases k with
    | nil => rfl
    | cons f k => cases f <;> cases halted

theorem Reaches.raised_of_halted {n : Node σ} {slot : Nat} {r : Run σ}
    (h : Reaches root (Machine.start n slot r) m) (halted : step root m = none) :
    m.run.raised = r.raised := by
  rw [h.balanced.raised, executing_of_halted halted, List.nil_append]

end Machine

namespace Node

open Machine

variable [Journal σ]

theorem raised_of_returned {root n : Node σ} {depth slot : Nat} {r r' : Run σ} {status : Status}
    (h : n.tick (root.within depth) slot r = (.returned status, r')) : r'.raised = r.raised :=
  (tick_returned_iff.1 ⟨depth, h⟩).raised_of_halted rfl

theorem raised_of_unwound {root n : Node σ} {depth slot : Nat} {r r' : Run σ}
    (h : n.tick (root.within depth) slot r = (.unwound, r')) : r'.raised = r.raised :=
  (tick_unwound_iff.1 ⟨depth, h⟩).raised_of_halted rfl

/-- A tick of any node of a tree, from any raised actions. If it returns or unwinds, it does so
where the machine halts, and what is raised afterwards is what was raised before. At every moment on
the way, inner ticks included, what is raised is what was raised at the start and the actions whose
effect is on the call stack. These are actions of the tree, none of them twice and none of them
raised at the start, since an effect is called only while its action is lowered. -/
theorem raised_during_tick (root n : Node σ) (path : List Nat) (slot : Nat)
    (found : root.find? 0 path = some (slot, n)) (r : Run σ) :
    (∀ depth status r', n.tick (root.within depth) slot r = (.returned status, r') →
      r'.raised = r.raised ∧ Reaches root (start n slot r) (returned status r')) ∧
    (∀ depth r', n.tick (root.within depth) slot r = (.unwound, r') →
      r'.raised = r.raised ∧ Reaches root (start n slot r) (unwound r')) ∧
    (∀ m, Reaches root (start n slot r) m →
      m.run.raised = m.executing ++ r.raised ∧
      m.executing.Nodup ∧
      (∀ own ∈ m.executing, own ∉ r.raised ∧
        ∃ name effect, root.fringe[own]? = some (.action name effect)) ∧
      ∀ m' own, step root m = some m' → m'.executing = own :: m.executing →
        own ∉ m.run.raised) := by
  refine ⟨fun depth status r' h => ⟨raised_of_returned h, tick_returned_iff.1 ⟨depth, h⟩⟩,
    fun depth r' h => ⟨raised_of_unwound h, tick_unwound_iff.1 ⟨depth, h⟩⟩, fun m hm => ?_⟩
  have balanced := hm.balanced
  have placed := hm.placed found
  -- That an entered effect was lowered is read off the balance after the move.
  refine ⟨balanced.raised, balanced.nodup,
    fun own ho => ⟨balanced.fresh own ho, placed.action ho⟩, fun m' own move entered => ?_⟩
  have after := balanced.step move
  have nodup := after.nodup
  rw [entered] at nodup
  rw [balanced.raised, List.mem_append, not_or]
  exact ⟨(List.nodup_cons.1 nodup).1, after.fresh own (by simp [entered])⟩

/-- An action that has the whole tree ticked before it answers, beside one that unwinds and one that
is not reached. -/
def entangled : Node (List Event) :=
  .sequence [.action "ask" fun s => .consult [] s fun _ s => .finish (.ok ()) s,
    .action "fail" fun s => .unwind s, .action "rest" fun s => .finish (.ok ()) s]

theorem raised_during_tick_entangled :
    entangled.find? 0 [] = some (0, entangled) ∧
    entangled.tick (entangled.within 1) 0 ⟨[], [2]⟩ =
      (.unwound, ⟨[.stillExecuting "ask"], [2]⟩) ∧
    (entangled.tick (entangled.within 1) 0 ⟨[], [2]⟩).2.raised = [2] := by
  have ended : entangled.tick (entangled.within 1) 0 ⟨[], [2]⟩ =
      (.unwound, ⟨[.stillExecuting "ask"], [2]⟩) := rfl
  have kept := (raised_during_tick entangled entangled [] 0 rfl ⟨[], [2]⟩).2.1 1 _ ended
  exact ⟨rfl, ended, (congrArg (fun x => x.2.raised) ended).trans kept.1⟩

end Node

end Pursuit.Behavior
