import Pursuit.Proofs.Behavior.Nesting
import Pursuit.Proofs.Behavior.Calls

/-! Ticks of a tree that its leaves cannot reach, as a driver makes them. Whatever the leaves do,
such a tick is not nested too deeply and leaves the tree as it was. -/
namespace Pursuit.Behavior

variable {σ ρ : Type}

/-- A run that is not nested too deeply, and leaves raised what it found raised. -/
def Orderly {α : Type} (raised : List Nat) (x : Exit α × Run σ) : Prop :=
  x.1 ≠ .tooDeep ∧ x.2.raised = raised

theorem Routine.perform_orderly (rest : Routine σ ρ) (raised : List Nat) :
    Orderly raised (rest.perform .nowhere raised) := by
  induction rest with
  | finish a s | unwind s => exact ⟨nofun, rfl⟩
  | consult path s next ih => exact ih none s

variable [Journal σ]

theorem Call.raised_settle (c : Call) {raised : List Nat} {x : Exit c.Answer × Run σ}
    (h : x.2.raised = c.slots ++ raised) : (c.settle x).2.raised = raised := by
  have lowered (r : Run σ) (here : r.raised = c.slots ++ raised) : (c.lower r).raised = raised := by
    cases c with
    | predicate => exact here
    | effect name slot => simp [Call.lower, Run.lower, here, Call.slots]
  obtain ⟨exit, r⟩ := x
  cases exit with
  | returned a => exact (c.raised_note a _).trans (lowered r h)
  | unwound | tooDeep => exact lowered r h

theorem Call.settle_orderly (c : Call) {raised : List Nat} {x : Exit c.Answer × Run σ}
    (h : Orderly (c.slots ++ raised) x) : Orderly raised (c.settle x) :=
  ⟨Node.settle_ne_tooDeep h.1, c.raised_settle h.2⟩

namespace Node

/-- A walk ends as its children do or passes, and leaves raised what they all leave. -/
theorem walk_ends (ends : Exit Status → Prop) {inner : Inner σ} {cs : List (Node σ)} {pass : Status}
    {raised : List Nat} (passing : ends (.returned pass))
    (children : ∀ c ∈ cs, ∀ slot (r : Run σ), r.raised = raised →
      ends (c.tick inner slot r).1 ∧ (c.tick inner slot r).2.raised = raised)
    (slot : Nat) {r : Run σ} (found : r.raised = raised) :
    ends (walk inner pass cs slot r).1 ∧ (walk inner pass cs slot r).2.raised = raised := by
  induction cs generalizing slot r with
  | nil => exact ⟨passing, found⟩
  | cons c cs ih =>
    obtain ⟨hc, hcs⟩ := List.forall_mem_cons.1 children
    have first := hc slot r found
    rw [walk]
    obtain ⟨exit, after, ticked⟩ : ∃ exit after, c.tick inner slot r = (exit, after) := ⟨_, _, rfl⟩
    rw [ticked] at first ⊢
    cases exit with
    | returned status =>
      by_cases hs : status = pass
      · simp only [hs, if_true]
        exact ih hcs _ first.2
      · simp only [hs, if_false]
        exact first
    | unwound | tooDeep => exact first

theorem tick_orderly (n : Node σ) (slot : Nat) (r : Run σ) :
    Orderly r.raised (n.tick .nowhere slot r) := by
  induction n using Node.induction generalizing slot r with
  | sequence cs ih =>
    rw [tick_sequence]
    refine walk_ends (· ≠ .tooDeep) nofun (fun c hc slot r found => ?_) slot rfl
    exact found ▸ ih c hc slot r
  | fallback cs ih =>
    rw [tick_fallback]
    refine walk_ends (· ≠ .tooDeep) nofun (fun c hc slot r found => ?_) slot rfl
    exact found ▸ ih c hc slot r
  | condition name predicate =>
    rw [tick_condition]
    exact Call.predicate.settle_orderly ((predicate r.state).perform_orderly r.raised)
  | action name effect =>
    by_cases raised : slot ∈ r.raised
    · rw [tick_action_of_mem raised]
      exact ⟨nofun, rfl⟩
    · rw [tick_action_of_not_mem raised]
      have orderly := (effect r.state).perform_orderly (slot :: r.raised)
      exact (Call.effect name slot).settle_orderly orderly

end Node

/-- A tick returns or is abandoned, and either way leaves the tree as it was. -/
theorem Tree.tick_returned_or_unwound (t : Tree σ) (s : σ) :
    (∃ status s', t.tick s = (.returned status, t, s')) ∨ ∃ s', t.tick s = (.unwound, t, s') := by
  have orderly := t.root.tick_orderly 0 ⟨s, t.raised⟩
  obtain ⟨exit, s', raised, ticked⟩ :
      ∃ exit s' raised, t.root.tick .nowhere 0 ⟨s, t.raised⟩ = (exit, ⟨s', raised⟩) :=
        ⟨_, _, _, rfl⟩
  rw [ticked] at orderly
  obtain rfl : raised = t.raised := orderly.2
  cases exit with
  | returned status => exact .inl ⟨status, s', by rw [tick, tickWith, ticked]⟩
  | unwound => exact .inr ⟨s', by rw [tick, tickWith, ticked]⟩
  | tooDeep => exact absurd rfl orderly.1

namespace Tree

theorem tickWith_of_plain {t : Tree σ} (plain : t.root.Plain) (s : σ) :
    ∃ exit w, ∀ inner, t.tickWith inner s = (exit, t, w) := by
  have same (inner : Inner σ) : t.tickWith inner s = t.tick s := by
    rw [tick, tickWith, tickWith, Node.tick_of_plain plain inner .nowhere]
  obtain ⟨status, w, ticked⟩ | ⟨w, ticked⟩ := t.tick_returned_or_unwound s
  · exact ⟨_, w, fun inner => (same inner).trans ticked⟩
  · exact ⟨_, w, fun inner => (same inner).trans ticked⟩

/-- The tree and the host after some ticks in a row; one that is abandoned is caught. -/
def later (t : Tree σ) (s : σ) : Nat → Tree σ × σ
  | 0 => (t, s)
  | k + 1 => ((later t s k).1.tick (later t s k).2).2

end Tree

end Pursuit.Behavior
