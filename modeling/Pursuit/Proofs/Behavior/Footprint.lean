import Pursuit.Behavior.Driver
import Pursuit.Proofs.Behavior.Machine

/-! What a tick leaves alone. A footprint relates a state to the later ones that differ from it only
where they may. If every leaf stays within a footprint then so does the tick of a tree, whichever of
its leaves it calls and however they end. -/
namespace Pursuit.Behavior

variable {σ ρ : Type} {R : σ → σ → Prop}

/-- Has nothing ticked, and stays within `R` of the state `s` it is called in. -/
def Routine.Within (R : σ → σ → Prop) (s : σ) : Routine σ ρ → Prop
  | .finish _ s' | .unwind s' => R s s'
  | .consult .. => False

def Node.LeafWithin (R : σ → σ → Prop) : Node σ → Prop
  | .condition _ predicate => ∀ s, (predicate s).Within R s
  | .action _ effect => ∀ s, (effect s).Within R s
  | .sequence _ | .fallback _ => True

theorem Routine.Within.perform {rest : Routine σ ρ} {s : σ} (stays : rest.Within R s)
    (inner : Inner σ) (raised : List Nat) : R s (rest.perform inner raised).2.state := by
  cases rest with
  | finish | unwind => exact stays
  | consult => cases stays

/-- A relation of states that puts no limit on time and on what is noted. -/
structure Footprint [Journal σ] (R : σ → σ → Prop) : Prop where
  refl : ∀ s, R s s
  trans : ∀ {s s' s''}, R s s' → R s' s'' → R s s''
  noted : ∀ s e, R s (record e s)

namespace Footprint

variable [Journal σ]

theorem settle (footprint : Footprint R) (c : Call) (ended : Exit c.Answer × Run σ) :
    R ended.2.state (c.settle ended).2.state := by
  obtain ⟨exit, r⟩ := ended
  cases c with
  | predicate => cases exit <;> exact footprint.refl _
  | effect name slot =>
    obtain (e | ⟨⟨⟩⟩) | _ | _ := exit
    · exact footprint.noted _ _
    all_goals exact footprint.refl _

theorem walk (footprint : Footprint R) {inner : Inner σ} {cs : List (Node σ)}
    (children : ∀ c ∈ cs, ∀ slot (r : Run σ), R r.state (c.tick inner slot r).2.state)
    (pass : Status) (slot : Nat) (r : Run σ) :
    R r.state (Node.walk inner pass cs slot r).2.state := by
  induction cs generalizing slot r with
  | nil => exact footprint.refl _
  | cons c cs ih =>
    obtain ⟨first, rest⟩ := List.forall_mem_cons.1 children
    have here := first slot r
    obtain ⟨exit, after, ticked⟩ : ∃ exit after, c.tick inner slot r = (exit, after) := ⟨_, _, rfl⟩
    rw [ticked] at here
    rw [Node.walk, ticked]
    cases exit with
    | returned status =>
      dsimp only
      split
      · exact footprint.trans here (ih rest _ after)
      · exact here
    | unwound | tooDeep => exact here

theorem tick (footprint : Footprint R) (inner : Inner σ) {n : Node σ}
    (leaves : ∀ l ∈ n.fringe, l.LeafWithin R) (slot : Nat) (r : Run σ) :
    R r.state (n.tick inner slot r).2.state := by
  induction n using Node.induction generalizing slot r with
  | sequence cs ih =>
    rw [Node.tick_sequence]
    exact footprint.walk
      (fun c child => ih c child fun l hl => leaves l (Node.fringe_subset child hl)) ..
  | fallback cs ih =>
    rw [Node.tick_fallback]
    exact footprint.walk
      (fun c child => ih c child fun l hl => leaves l (Node.fringe_subset child hl)) ..
  | condition name predicate =>
    have here := leaves _ (List.mem_singleton_self _) r.state
    rw [Node.tick_condition]
    exact footprint.trans (here.perform inner r.raised) (footprint.settle .predicate _)
  | action name effect =>
    by_cases raised : slot ∈ r.raised
    · rw [Node.tick_action_of_mem raised]
      exact footprint.noted _ _
    · have here := leaves _ (List.mem_singleton_self _) r.state
      rw [Node.tick_action_of_not_mem raised]
      exact footprint.trans (here.perform inner _) (footprint.settle (.effect name slot) _)

theorem tickWith (footprint : Footprint R) (inner : Inner σ) {t : Tree σ}
    (leaves : ∀ l ∈ t.root.fringe, l.LeafWithin R) (s : σ) : R s (t.tickWith inner s).2.2 :=
  footprint.tick inner leaves 0 ⟨s, t.raised⟩

variable {d : Driver σ} {t : Tree σ}

theorem fire (footprint : Footprint R) (leaves : ∀ l ∈ t.root.fringe, l.LeafWithin R) (d : Driver σ)
    (s : σ) : R s (d.fire t s).2.2 := by
  have ticked : R s (t.tick s).2.2 := footprint.tickWith .nowhere leaves s
  obtain ⟨exit, t', s', same⟩ : ∃ exit t' s', t.tick s = (exit, t', s') := ⟨_, _, _, rfl⟩
  rw [same] at ticked
  rw [Driver.fire, same]
  cases exit with
  | returned status => exact footprint.trans ticked (footprint.noted _ _)
  | unwound | tooDeep => exact ticked

theorem frame (footprint : Footprint R) (held : d.root = some t)
    (leaves : ∀ l ∈ t.root.fringe, l.LeafWithin R) (delta : Float) (s : σ) :
    R s (d.frame delta s).2.2 := by
  cases running : d.isRunning with
  | false =>
    rw [Driver.frame, running, held]
    exact footprint.refl s
  | true =>
    rw [Driver.frame, running, held]
    dsimp only
    split
    · split
      · exact footprint.fire leaves _ s
      · exact footprint.refl s
    · exact footprint.noted _ _

end Footprint

end Pursuit.Behavior
