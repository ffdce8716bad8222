import Pursuit.Proofs.Behavior.InFlight

/-! How deep ticks nest when only effects have ticks made. Every effect on the call stack holds an
action raised that was lowered at the start, so the lowered actions bound both the effects on the
stack and the levels that a tick needs, although an inner tick may begin at the root again. -/
namespace Pursuit.Behavior

variable {σ ρ : Type}

namespace Node

def lowered (root : Node σ) (raised : List Nat) : List Nat :=
  (List.range root.leaves).filter fun slot => root.fringe[slot]?.any isAction && slot ∉ raised

def PlainPredicates (root : Node σ) : Prop :=
  ∀ name predicate, .condition name predicate ∈ root.fringe → ∀ s, (predicate s).Plain

variable {root : Node σ} {slot : Nat} {raised : List Nat}

theorem mem_lowered {name : String} {effect : σ → Routine σ (Except ActionFault Unit)}
    (action : root.fringe[slot]? = some (.action name effect)) :
    slot ∈ root.lowered raised ↔ slot ∉ raised := by
  have below : slot < root.leaves := by
    rw [← length_fringe]
    exact (List.getElem?_eq_some_iff.1 action).1
  rw [lowered, List.mem_filter, List.mem_range, action]
  simp [isAction, below]

theorem lowered_cons (slot : Nat) (raised : List Nat) :
    root.lowered (slot :: raised) = (root.lowered raised).filter (· ≠ slot) := by
  rw [lowered, lowered, List.filter_filter]
  refine List.filter_congr fun k _ => ?_
  by_cases hk : k = slot <;> simp [hk]

theorem length_lowered_lt (h : slot ∈ root.lowered raised) :
    (root.lowered (slot :: raised)).length < (root.lowered raised).length := by
  rw [lowered_cons]
  exact List.length_filter_lt_length_iff_exists.2 ⟨slot, h, by simp⟩

theorem perform_plain {inner : Inner σ} {rest : Routine σ ρ} (plain : rest.Plain)
    (raised : List Nat) : (rest.perform inner raised).1 ≠ .tooDeep := by
  cases rest with
  | finish | unwind => rw [Routine.perform]; simp
  | consult => cases plain

variable [Journal σ] {depth : Nat}

/-- Ticks within a tree are not nested too deeply at a depth that covers the lowered actions. -/
def Fits (root : Node σ) (depth : Nat) : Prop :=
  ∀ (n : Node σ) (slot : Nat) (r : Run σ), root.Covers slot n.fringe →
    (root.lowered r.raised).length ≤ depth → (n.tick (root.within depth) slot r).1 ≠ .tooDeep

theorem settle_ne_tooDeep {c : Call} {x : Exit c.Answer × Run σ} (h : x.1 ≠ .tooDeep) :
    (c.settle x).1 ≠ .tooDeep := by
  obtain ⟨_ | _ | _, r⟩ := x
  · simp [Call.settle]
  · simp [Call.settle]
  · exact absurd rfl h

theorem perform_fits (below : ∀ d, depth = d + 1 → root.Fits d) (rest : Routine σ ρ)
    (few : (root.lowered raised).length < depth) :
    (rest.perform (root.within depth) raised).1 ≠ .tooDeep := by
  induction rest generalizing raised with
  | finish a s | unwind s => rw [Routine.perform]; simp
  | consult path s next ih =>
    rw [Routine.perform]
    -- The routine goes on with the same actions raised, so the bound stays with the rest of it.
    cases found : root.find? 0 path with
    | none =>
      rw [within_of_missing found]
      exact ih none s few
    | some place =>
      obtain ⟨slot, n⟩ := place
      obtain ⟨d, rfl⟩ : ∃ d, depth = d + 1 := ⟨depth - 1, by omega⟩
      obtain ⟨exit, after, ticked⟩ :
          ∃ exit after, n.tick (root.within d) slot ⟨s, raised⟩ = (exit, after) := ⟨_, _, rfl⟩
      rw [within_succ found ticked]
      cases exit with
      | returned status =>
        have kept : after.raised = raised := raised_of_returned ticked
        exact ih (some status) after.state (by rwa [kept])
      | unwound => simp [Exit.map]
      | tooDeep =>
        have fits := below d rfl n slot ⟨s, raised⟩ (.of_find? found) (Nat.le_of_lt_succ few)
        exact absurd (by rw [ticked]) fits

theorem walk_fits {cs : List (Node σ)} {pass : Status} {slot : Nat} {r : Run σ}
    (children : ∀ c ∈ cs, ∀ slot (r : Run σ), root.Covers slot c.fringe →
      (root.lowered r.raised).length ≤ depth → (c.tick (root.within depth) slot r).1 ≠ .tooDeep)
    (covers : root.Covers slot (fringeAll cs)) (few : (root.lowered r.raised).length ≤ depth) :
    (walk (root.within depth) pass cs slot r).1 ≠ .tooDeep := by
  induction cs generalizing slot r with
  | nil => simp [walk]
  | cons c cs ih =>
    obtain ⟨hc, hcs⟩ := List.forall_mem_cons.1 children
    have first := hc slot r covers.children.1 few
    rw [walk]
    obtain ⟨exit, after, ticked⟩ :
        ∃ exit after, c.tick (root.within depth) slot r = (exit, after) := ⟨_, _, rfl⟩
    rw [ticked] at first ⊢
    cases exit with
    | returned status =>
      by_cases hs : status = pass
      · simp only [hs, if_true]
        exact ih hcs covers.children.2 (by rwa [raised_of_returned ticked])
      · simp only [hs, if_false]
        simp
    | unwound => simp
    | tooDeep => exact first

theorem fits_of_below (plain : root.PlainPredicates) (below : ∀ d, depth = d + 1 → root.Fits d) :
    root.Fits depth := by
  intro n
  induction n using Node.induction with
  | sequence cs ih =>
    intro slot r covers few
    rw [tick_sequence]
    exact walk_fits ih covers few
  | fallback cs ih =>
    intro slot r covers few
    rw [tick_fallback]
    exact walk_fits ih covers few
  | condition name predicate =>
    intro slot r covers few
    rw [tick_condition]
    have here := plain name predicate (List.mem_of_getElem? covers.leaf) r.state
    exact settle_ne_tooDeep (perform_plain here r.raised)
  | action name effect =>
    intro slot r covers few
    by_cases raised : slot ∈ r.raised
    · rw [tick_action_of_mem raised]
      simp
    · rw [tick_action_of_not_mem raised]
      have fewer := length_lowered_lt ((mem_lowered covers.leaf).2 raised)
      exact settle_ne_tooDeep (perform_fits below (effect r.state) (Nat.lt_of_lt_of_le fewer few))

theorem fits (plain : root.PlainPredicates) (depth : Nat) : root.Fits depth := by
  induction depth with
  | zero => exact fits_of_below plain fun d h => absurd h (by omega)
  | succ depth ih =>
    refine fits_of_below plain fun d h => ?_
    obtain rfl : depth = d := by omega
    exact ih

end Node

namespace Machine

variable [Journal σ] {root n : Node σ} {slot : Nat} {r : Run σ}

theorem halts_of_tick {depth : Nat} (h : (n.tick (root.within depth) slot r).1 ≠ .tooDeep) :
    ∃ moves m, advance root moves (start n slot r) = some m ∧ step root m = none := by
  obtain ⟨exit, after, ticked⟩ :
      ∃ exit after, n.tick (root.within depth) slot r = (exit, after) := ⟨_, _, rfl⟩
  cases exit with
  | returned status =>
    obtain ⟨moves, hm⟩ := tick_returned_iff.1 ⟨depth, ticked⟩
    exact ⟨moves, _, hm, rfl⟩
  | unwound =>
    obtain ⟨moves, hm⟩ := tick_unwound_iff.1 ⟨depth, ticked⟩
    exact ⟨moves, _, hm, rfl⟩
  | tooDeep => exact absurd (by rw [ticked]) h

theorem Reaches.length_executing_le {path : List Nat} {m : Machine σ}
    (found : root.find? 0 path = some (slot, n)) (h : Reaches root (start n slot r) m) :
    m.executing.length ≤ (root.lowered r.raised).length := by
  refine h.balanced.nodup.length_le_of_subset fun own ho => ?_
  obtain ⟨name, effect, action⟩ := (h.placed found).action ho
  exact (Node.mem_lowered action).2 (h.balanced.fresh own ho)

end Machine

namespace Node

open Machine

variable [Journal σ]

/-- If no predicate has a node ticked, every tick of every node ends. It takes no more levels than
there are actions that are not raised when it begins, and at no moment on the way are more effects
on the call stack. -/
theorem tick_ends (root n : Node σ) (plain : root.PlainPredicates) (path : List Nat) (slot : Nat)
    (found : root.find? 0 path = some (slot, n)) (r : Run σ) :
    (∀ depth, (root.lowered r.raised).length ≤ depth →
      (n.tick (root.within depth) slot r).1 ≠ .tooDeep) ∧
    (∃ moves m, advance root moves (start n slot r) = some m ∧ step root m = none) ∧
    ∀ m, Reaches root (start n slot r) m →
      m.executing.length ≤ (root.lowered r.raised).length := by
  have ends := fun depth => fits plain depth n slot r (.of_find? found)
  exact ⟨ends, halts_of_tick (ends _ (Nat.le_refl _)), fun m hm => hm.length_executing_le found⟩

/-- Two actions that have the whole tree ticked, one of them twice, below a plain predicate. -/
def chatter : Node (List Event) :=
  .fallback [.condition "quiet" fun s => .finish false s,
    .action "ask" fun s => .consult [] s fun _ s => .consult [2] s fun _ s =>
      .finish (.error (.failed "no answer")) s,
    .action "reply" fun s => .consult [] s fun _ s => .finish (.ok ()) s]

theorem tick_ends_chatter :
    chatter.PlainPredicates ∧ chatter.find? 0 [] = some (0, chatter) ∧
    (chatter.lowered []).length = 2 ∧
    (chatter.tick (chatter.within 2) 0 ⟨[], []⟩).1 ≠ .tooDeep := by
  have plain : chatter.PlainPredicates := by
    intro name predicate h s
    obtain ⟨rfl, rfl⟩ : name = "quiet" ∧ predicate = fun s => .finish false s := by
      simpa [chatter, fringe, fringeAll] using h
    trivial
  exact ⟨plain, rfl, rfl,
    (tick_ends chatter chatter plain [] 0 rfl ⟨[], []⟩).1 2 (Nat.le_refl _)⟩

end Node

end Pursuit.Behavior
