import Pursuit.Proofs.Behavior.Visits

/-! Trees whose leaves answer, with nothing ticked on the way and nothing abandoned. A tick of such
a tree returns, whatever its leaves could reach, a composite returns the first state of its children
that does not let it go on, and what only one leaf may change changes only in a call of this
leaf. -/
namespace Pursuit.Behavior

variable {σ ρ : Type}

/-- Gives an answer, with nothing ticked on the way. -/
def Routine.Answers : Routine σ ρ → Prop
  | .finish .. => True
  | .unwind _ | .consult .. => False

namespace Node

def AnsweringLeaf : Node σ → Prop
  | .condition _ predicate => ∀ s, (predicate s).Answers
  | .action _ effect => ∀ s, (effect s).Answers
  | .sequence _ | .fallback _ => True

def Answering (n : Node σ) : Prop := ∀ l ∈ n.fringe, l.AnsweringLeaf

/-- The leaf leaves alone what `view` shows of the host. -/
def Keeps {β : Type} (view : σ → β) : Node σ → Prop
  | .condition _ predicate => ∀ s b s', predicate s = .finish b s' → view s' = view s
  | .action _ effect => ∀ s a s', effect s = .finish a s' → view s' = view s
  | .sequence _ | .fallback _ => True

theorem Answering.child {n c : Node σ} (answering : n.Answering) (h : c ∈ n.children) :
    c.Answering := fun l hl => answering l (fringe_subset h hl)

theorem Answering.plain {n : Node σ} (answering : n.Answering) : n.Plain := by
  have plain {ρ : Type} {rest : Routine σ ρ} (h : rest.Answers) : rest.Plain := by
    cases rest with
    | finish => trivial
    | unwind | consult => cases h
  intro l hl
  have here := answering l hl
  cases l with
  | sequence | fallback => trivial
  | condition | action => exact fun s => plain (here s)

end Node

@[simp] theorem Run.lower_raise (r : Run σ) (slot : Nat) : (r.raise slot).lower slot = r := by
  simp [Run.raise, Run.lower]

variable [Journal σ]

theorem Call.settle_finish {name : String} {slot : Nat} {r : Run σ} {inner : Inner σ}
    (a : Except ActionFault Unit) (s : σ) :
    (Call.effect name slot).settle ((Routine.finish a s).perform inner (r.raise slot).raised) =
      (.returned ((Call.effect name slot).status a),
        ⟨((Call.effect name slot).note a ⟨s, r.raised⟩).state, r.raised⟩) := by
  have lowered : (⟨s, (r.raise slot).raised⟩ : Run σ).lower slot = ⟨s, r.raised⟩ :=
    Run.lower_raise ⟨s, r.raised⟩ slot
  rw [Routine.perform, Call.settle, Call.lower, lowered]
  cases a <;> rfl

namespace Node

variable {inner : Inner σ} {pass : Status} {cs : List (Node σ)} {n : Node σ} {slot : Nat}
  {r : Run σ} {path : List Nat} {v : Visit σ}

theorem walk_answers (pass : Status)
    (children : ∀ c ∈ cs, ∀ slot (r : Run σ), ∃ status s', ∀ inner,
      c.tick inner slot r = (.returned status, ⟨s', r.raised⟩)) (slot : Nat) (r : Run σ) :
    ∃ status s', ∀ inner, walk inner pass cs slot r = (.returned status, ⟨s', r.raised⟩) := by
  induction cs generalizing slot r with
  | nil => exact ⟨pass, r.state, fun _ => rfl⟩
  | cons c cs ih =>
    obtain ⟨hc, hcs⟩ := List.forall_mem_cons.1 children
    obtain ⟨status, s, ticked⟩ := hc slot r
    by_cases hs : status = pass
    · obtain ⟨status', s', rest⟩ := ih hcs (slot + c.leaves) ⟨s, r.raised⟩
      exact ⟨status', s', fun inner => by simp only [walk, ticked, hs, if_true, rest]⟩
    · exact ⟨status, s, fun inner => by simp only [walk, ticked, hs, if_false]⟩

theorem tick_answers (answering : n.Answering) (slot : Nat) (r : Run σ) :
    ∃ status s', ∀ inner, n.tick inner slot r = (.returned status, ⟨s', r.raised⟩) := by
  induction n using Node.induction generalizing slot r with
  | sequence cs ih =>
    simp only [tick_sequence]
    exact walk_answers .success (fun c hc => ih c hc (answering.child hc)) slot r
  | fallback cs ih =>
    simp only [tick_fallback]
    exact walk_answers .failure (fun c hc => ih c hc (answering.child hc)) slot r
  | condition name predicate =>
    have here := answering _ (List.mem_singleton_self _) r.state
    simp only [tick_condition]
    cases answer : predicate r.state with
    | finish b s => exact ⟨.ofBool b, s, fun _ => rfl⟩
    | unwind | consult => rw [answer] at here; cases here
  | action name effect =>
    by_cases raised : slot ∈ r.raised
    · simp only [tick_action_of_mem raised]
      exact ⟨_, _, fun _ => rfl⟩
    · have here := answering _ (List.mem_singleton_self _) r.state
      simp only [tick_action_of_not_mem raised]
      cases answer : effect r.state with
      | finish a s => exact ⟨_, _, fun _ => Call.settle_finish a s⟩
      | unwind | consult => rw [answer] at here; cases here

theorem walk_eq_find? (answering : ∀ c ∈ cs, c.Answering) :
    (walk inner pass cs slot r).1 =
      .returned (((walkStates inner pass cs slot r).find? (· ≠ pass)).getD pass) := by
  induction cs generalizing slot r with
  | nil => rfl
  | cons c cs ih =>
    obtain ⟨hc, hcs⟩ := List.forall_mem_cons.1 answering
    obtain ⟨status, s', ticked⟩ := tick_answers hc slot r
    simp only [walk, walkStates, ticked]
    by_cases hs : status = pass
    · simp [hs, ih hcs]
    · simp [hs]

theorem raised_of_arrive? {i : Nat} (answering : ∀ c ∈ cs, c.Answering)
    (h : arrive? inner pass cs slot r i = some v) : v.run.raised = r.raised := by
  induction cs generalizing slot r i with
  | nil => cases h
  | cons c cs ih =>
    obtain ⟨hc, hcs⟩ := List.forall_mem_cons.1 answering
    obtain ⟨status, s', ticked⟩ := tick_answers hc slot r
    cases i with
    | zero => cases h; rfl
    | succ i =>
      simp only [arrive?, ticked] at h
      split at h
      next => exact ih (r := ⟨s', r.raised⟩) hcs h
      next => cases h

theorem visit?_answering (answering : n.Answering) (h : n.visit? inner path slot r = some v) :
    v.node.Answering ∧ v.run.raised = r.raised := by
  induction path generalizing n slot r with
  | nil => cases h; exact ⟨answering, rfl⟩
  | cons i path ih =>
    obtain ⟨u, hu, hv⟩ := Option.bind_eq_some_iff.1 h
    have child := List.mem_of_getElem? (arrive?_eq_some hu).1
    obtain ⟨node, raised⟩ := ih (answering.child child) hv
    exact ⟨node, raised.trans (raised_of_arrive? (fun c hc => answering.child hc) hu)⟩

theorem walk_view {β : Type} {view : σ → β} {root : Node σ} {own : Nat}
    (children : ∀ c ∈ cs, ∀ slot (r : Run σ), c.Answering → root.Covers slot c.fringe →
      own ∉ c.called inner slot r → view (c.tick inner slot r).2.state = view r.state)
    (answering : ∀ c ∈ cs, c.Answering) (covers : root.Covers slot (fringeAll cs))
    (absent : own ∉ calledAll inner pass cs slot r) :
    view (walk inner pass cs slot r).2.state = view r.state := by
  induction cs generalizing slot r with
  | nil => rfl
  | cons c cs ih =>
    obtain ⟨hc, hcs⟩ := List.forall_mem_cons.1 children
    obtain ⟨ha, has⟩ := List.forall_mem_cons.1 answering
    obtain ⟨status, s', ticked⟩ := tick_answers ha slot r
    rw [calledAll, List.mem_append, not_or] at absent
    have first := hc slot r ha covers.children.1 absent.1
    simp only [ticked] at first absent
    simp only [walk, ticked]
    by_cases hs : status = pass
    · simp only [hs, if_true] at absent ⊢
      exact (ih (r := ⟨s', r.raised⟩) hcs has covers.children.2 absent.2).trans first
    · simp only [hs, if_false]
      exact first

/-- What only one leaf may change stays as it is in a tick that does not call this leaf. -/
theorem view_tick {β : Type} {view : σ → β} {root : Node σ} {own : Nat}
    (journal : ∀ e s, view (record e s) = view s)
    (others : ∀ k l, root.fringe[k]? = some l → k ≠ own → l.Keeps view) (slot : Nat) (r : Run σ)
    (answering : n.Answering) (covers : root.Covers slot n.fringe)
    (absent : own ∉ n.called inner slot r) :
    view (n.tick inner slot r).2.state = view r.state := by
  induction n using Node.induction generalizing slot r with
  | sequence cs ih =>
    rw [tick_sequence]
    exact walk_view ih (fun c hc => answering.child hc) covers absent
  | fallback cs ih =>
    rw [tick_fallback]
    exact walk_view ih (fun c hc => answering.child hc) covers absent
  | condition name predicate =>
    have here := answering _ (List.mem_singleton_self _) r.state
    have keeps := others slot _ covers.leaf (by simpa [called, eq_comm] using absent)
    rw [tick_condition]
    cases answer : predicate r.state with
    | finish b s => exact keeps r.state b s answer
    | unwind | consult => rw [answer] at here; cases here
  | action name effect =>
    by_cases raised : slot ∈ r.raised
    · rw [tick_action_of_mem raised]
      exact journal _ _
    · have here := answering _ (List.mem_singleton_self _) r.state
      have keeps := others slot _ covers.leaf (by simpa [called, raised, eq_comm] using absent)
      rw [tick_action_of_not_mem raised]
      cases answer : effect r.state with
      | finish a s =>
        obtain e | ⟨⟨⟩⟩ := a
        · exact (journal _ _).trans (keeps r.state _ s answer)
        · exact keeps r.state _ s answer
      | unwind | consult => rw [answer] at here; cases here

end Node

end Pursuit.Behavior
