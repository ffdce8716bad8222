import Pursuit.Proofs.Behavior.Machine

/-! Which leaves a tick calls. A watched tree is the same tree on a host that also takes down who is
called; watching changes nothing else. For trees whose leaves have nothing ticked, what it takes
down is given by recursion on the tree, and it is a part of the positions in their order. -/
namespace Pursuit.Behavior

/-- A host that also takes down which leaves are called, the first in front. -/
structure Watched (σ : Type) where
  state : σ
  calls : List Nat := []

instance {σ : Type} [Journal σ] : Journal (Watched σ) :=
  ⟨fun e w => { w with state := record e w.state }⟩

variable {σ ρ : Type}

def Routine.watched : Routine σ ρ → List Nat → Routine (Watched σ) ρ
  | .finish a s, calls => .finish a ⟨s, calls⟩
  | .unwind s, calls => .unwind ⟨s, calls⟩
  | .consult path s next, calls =>
    .consult path ⟨s, calls⟩ fun status w => (next status w.state).watched w.calls

namespace Node

mutual
def watched : Nat → Node σ → Node (Watched σ)
  | slot, .sequence cs => .sequence (watchedAll slot cs)
  | slot, .fallback cs => .fallback (watchedAll slot cs)
  | slot, .condition name predicate =>
    .condition name fun w => (predicate w.state).watched (w.calls ++ [slot])
  | slot, .action name effect =>
    .action name fun w => (effect w.state).watched (w.calls ++ [slot])

def watchedAll : Nat → List (Node σ) → List (Node (Watched σ))
  | _, [] => []
  | slot, c :: cs => c.watched slot :: watchedAll (slot + c.leaves) cs
end

theorem leavesAll_watched {cs : List (Node σ)}
    (h : ∀ c ∈ cs, ∀ slot, (c.watched slot).leaves = c.leaves) (slot : Nat) :
    leavesAll (watchedAll slot cs) = leavesAll cs := by
  induction cs generalizing slot with
  | nil => rfl
  | cons c cs ih =>
    obtain ⟨hc, hcs⟩ := List.forall_mem_cons.1 h
    rw [watchedAll, leavesAll, leavesAll, hc, ih hcs]

@[simp] theorem leaves_watched (n : Node σ) (slot : Nat) : (n.watched slot).leaves = n.leaves := by
  induction n using Node.induction generalizing slot with
  | sequence cs ih => exact leavesAll_watched ih slot
  | fallback cs ih => exact leavesAll_watched ih slot
  | condition => rfl
  | action => rfl

end Node

def Run.watched (r : Run σ) (calls : List Nat) : Run (Watched σ) := ⟨⟨r.state, calls⟩, r.raised⟩

theorem Routine.perform_watched {rest : Routine σ ρ} (plain : rest.Plain) (inner : Inner σ)
    (inner' : Inner (Watched σ)) (raised calls : List Nat) :
    (rest.watched calls).perform inner' raised =
      ((rest.perform inner raised).1, (rest.perform inner raised).2.watched calls) := by
  cases rest with
  | finish | unwind => rfl
  | consult => cases plain

variable [Journal σ]

theorem Call.settle_watched (c : Call) (exit : Exit c.Answer) (r : Run σ) (calls : List Nat) :
    c.settle (exit, r.watched calls) =
      ((c.settle (exit, r)).1, (c.settle (exit, r)).2.watched calls) := by
  cases c with
  | predicate => cases exit <;> rfl
  | effect name slot => obtain (e | ⟨⟨⟩⟩) | _ | _ := exit <;> rfl

namespace Node

mutual
/-- The positions of the leaves that a tick calls, in order. -/
def called (inner : Inner σ) : Node σ → Nat → Run σ → List Nat
  | .sequence cs, slot, r => calledAll inner .success cs slot r
  | .fallback cs, slot, r => calledAll inner .failure cs slot r
  | .condition .., slot, _ => [slot]
  | .action .., slot, r => if slot ∈ r.raised then [] else [slot]

def calledAll (inner : Inner σ) (pass : Status) : List (Node σ) → Nat → Run σ → List Nat
  | [], _, _ => []
  | c :: cs, slot, r =>
    c.called inner slot r ++
      match c.tick inner slot r with
      | (.returned status, after) =>
        if status = pass then calledAll inner pass cs (slot + c.leaves) after else []
      | _ => []
end

theorem calledAll_singleton (inner : Inner σ) (pass : Status) (c : Node σ) (slot : Nat)
    (r : Run σ) : calledAll inner pass [c] slot r = c.called inner slot r := by
  rw [calledAll]
  split
  · rw [calledAll, ite_self, List.append_nil]
  · rw [List.append_nil]

theorem walk_watched {cs : List (Node σ)} {inner : Inner σ} {inner' : Inner (Watched σ)}
    (children : ∀ c ∈ cs, ∀ slot (r : Run σ) calls,
      (c.watched slot).tick inner' slot (r.watched calls) = ((c.tick inner slot r).1,
        (c.tick inner slot r).2.watched (calls ++ c.called inner slot r)))
    (pass : Status) (slot : Nat) (r : Run σ) (calls : List Nat) :
    walk inner' pass (watchedAll slot cs) slot (r.watched calls) =
      ((walk inner pass cs slot r).1,
        (walk inner pass cs slot r).2.watched (calls ++ calledAll inner pass cs slot r)) := by
  induction cs generalizing slot r calls with
  | nil => simp [watchedAll, walk, calledAll]
  | cons c cs ih =>
    obtain ⟨hc, hcs⟩ := List.forall_mem_cons.1 children
    rw [watchedAll, walk, walk, calledAll, hc, leaves_watched]
    obtain ⟨exit, after⟩ := c.tick inner slot r
    cases exit with
    | returned status =>
      by_cases hs : status = pass
      · simp only [hs, if_true]
        rw [ih hcs, List.append_assoc]
      · simp only [hs, if_false, List.append_nil]
    | unwound | tooDeep => simp only [List.append_nil]

/-- Watching a tree takes down the calls and changes nothing else. -/
theorem tick_watched (n : Node σ) (plain : n.Plain) (inner : Inner σ) (inner' : Inner (Watched σ)) :
    ∀ slot (r : Run σ) calls, (n.watched slot).tick inner' slot (r.watched calls) =
      ((n.tick inner slot r).1,
        (n.tick inner slot r).2.watched (calls ++ n.called inner slot r)) := by
  induction n using Node.induction with
  | sequence cs ih =>
    intro slot r calls
    rw [watched, tick_sequence, tick_sequence, called]
    exact walk_watched (fun c hc => ih c hc (plain.child hc)) .success slot r calls
  | fallback cs ih =>
    intro slot r calls
    rw [watched, tick_fallback, tick_fallback, called]
    exact walk_watched (fun c hc => ih c hc (plain.child hc)) .failure slot r calls
  | condition name predicate =>
    intro slot r calls
    rw [watched, tick_condition, tick_condition, called]
    have here := plain _ (List.mem_singleton_self _) r.state
    exact (congrArg _ (Routine.perform_watched here inner inner' r.raised _)).trans
      (Call.settle_watched .predicate _ _ _)
  | action name effect =>
    intro slot r calls
    rw [watched, called]
    by_cases raised : slot ∈ r.raised
    · rw [tick_action_of_mem raised, tick_action_of_mem (r := r.watched calls) raised,
        if_pos raised, List.append_nil]
      rfl
    · rw [tick_action_of_not_mem raised, tick_action_of_not_mem (r := r.watched calls) raised,
        if_neg raised]
      have here := plain _ (List.mem_singleton_self _) r.state
      exact (congrArg _ (Routine.perform_watched here inner inner' (r.raise slot).raised _)).trans
        (Call.settle_watched (.effect name slot) _ _ _)

/-- Where no leaf has anything ticked, a tick does not depend on what the leaves could reach. -/
theorem tick_of_plain {n : Node σ} (plain : n.Plain) (inner inner' : Inner σ) (slot : Nat)
    (r : Run σ) : n.tick inner slot r = n.tick inner' slot r := by
  have h := n.tick_watched plain inner .nowhere slot r []
  rw [n.tick_watched plain inner' .nowhere slot r []] at h
  -- What the host has taken down is all that a watched run adds.
  exact (congrArg (fun x => (x.1, (⟨x.2.state.state, x.2.raised⟩ : Run σ))) h).symm

theorem calledAll_sublist {inner : Inner σ} {pass : Status} {cs : List (Node σ)}
    (children : ∀ c ∈ cs, ∀ slot r, (c.called inner slot r).Sublist (List.range' slot c.leaves))
    (slot : Nat) (r : Run σ) :
    (calledAll inner pass cs slot r).Sublist (List.range' slot (leavesAll cs)) := by
  induction cs generalizing slot r with
  | nil => exact List.Sublist.slnil
  | cons c cs ih =>
    obtain ⟨hc, hcs⟩ := List.forall_mem_cons.1 children
    rw [calledAll, leavesAll, ← List.range'_append_1]
    refine (hc slot r).append ?_
    obtain ⟨status | _ | _, after⟩ := c.tick inner slot r
    case returned =>
      by_cases hs : status = pass
      · simp only [hs, if_true]
        exact ih hcs _ after
      · simp only [hs, if_false]
        exact List.nil_sublist _
    all_goals exact List.nil_sublist _

theorem called_sublist (inner : Inner σ) (n : Node σ) (slot : Nat) (r : Run σ) :
    (n.called inner slot r).Sublist (List.range' slot n.leaves) := by
  induction n using Node.induction generalizing slot r with
  | sequence cs ih => exact calledAll_sublist ih slot r
  | fallback cs ih => exact calledAll_sublist ih slot r
  | condition name predicate => exact List.Sublist.refl [slot]
  | action name effect =>
    rw [called]
    split
    · exact List.nil_sublist _
    · exact List.Sublist.refl [slot]

end Node

end Pursuit.Behavior
