import Pursuit.Proofs.Behavior.Answering

/-! The short circuit of composites, told for one tick of a whole tree: which leaves are called,
what the visited nodes return, and what the tick leaves alone. -/
namespace Pursuit.Behavior

variable {σ : Type} [Journal σ]

namespace Tree

def watched (t : Tree σ) : Tree (Watched σ) := { t with root := t.root.watched 0 }

/-- The positions of the leaves that one tick calls, in order, as a watching host takes them
down. -/
def calls (t : Tree σ) (s : σ) : List Nat :=
  (t.watched.tick ⟨s, []⟩).2.2.calls

def visit? (t : Tree σ) (s : σ) (path : List Nat) : Option (Visit σ) :=
  t.root.visit? .nowhere path 0 ⟨s, t.raised⟩

/-- What the node at a path returns in a tick of the tree that gets to it. -/
def stateAt? (t : Tree σ) (s : σ) (path : List Nat) : Option Status :=
  (t.visit? s path).bind (Visit.state? .nowhere)

theorem tick_watched {t : Tree σ} (plain : t.root.Plain) (s : σ) :
    t.watched.tick ⟨s, []⟩ = ((t.tick s).1, (t.tick s).2.1.watched,
      ⟨(t.tick s).2.2, t.root.called .nowhere 0 ⟨s, t.raised⟩⟩) := by
  have h := t.root.tick_watched plain .nowhere .nowhere 0 ⟨s, t.raised⟩ []
  rw [List.nil_append] at h
  exact congrArg (fun x => (x.1, { t.watched with raised := x.2.raised }, x.2.state)) h

theorem calls_eq_called {t : Tree σ} (plain : t.root.Plain) (s : σ) :
    t.calls s = t.root.called .nowhere 0 ⟨s, t.raised⟩ :=
  congrArg (fun x => x.2.2.calls) (tick_watched plain s)

theorem stateAt?_append {t : Tree σ} {s : σ} {q : List Nat} {v : Visit σ}
    (visited : t.visit? s q = some v) (i : Nat) :
    t.stateAt? s (q ++ [i]) =
      (Node.walkStates .nowhere v.node.pass v.node.children v.slot v.run)[i]? := by
  have on : t.visit? s (q ++ [i]) = v.node.visit? .nowhere [i] v.slot v.run := by
    rw [visit?, Node.visit?_append]
    rw [visit?] at visited
    rw [visited, Option.bind_some]
  rw [stateAt?, on, Node.walkStates_getElem?]
  exact Node.stateAt?_singleton i

theorem state_of_composite {t : Tree σ} (answering : t.root.Answering) {s : σ} {q : List Nat}
    {v : Visit σ} (visited : t.visit? s q = some v) (composite : v.node.isLeaf = false) :
    ∃ states : List Status, (∀ i, t.stateAt? s (q ++ [i]) = states[i]?) ∧
      t.stateAt? s q = some ((states.find? (· ≠ v.node.pass)).getD v.node.pass) := by
  refine ⟨_, stateAt?_append visited, ?_⟩
  have here := (Node.visit?_answering answering visited).1
  have children : ∀ c ∈ v.node.children, c.Answering := fun c hc => here.child hc
  have returned : (Node.walk .nowhere v.node.pass v.node.children v.slot v.run).1 = _ :=
    Node.walk_eq_find? children
  rw [stateAt?, visited, Option.bind_some, Visit.state?, Node.tick_composite composite, returned]

/-- One tick of a tree whose leaves answer with nothing ticked on the way. The tick returns, watched
or not, the tree is as before, and so is all that only a leaf that was not called may change, such
as the number of its calls and the rest of its script. The leaves that are called are some of the
positions, each once and in order: the leaves that are not raised actions and have all to the left
of their path passed over, by success under a sequence and by failure under a fallback. A visited
composite returns the first state of its visited children that does not let it go on, and a visited
action that is raised is running. -/
theorem tick_visits (t : Tree σ) (answering : t.root.Answering) (s : σ) :
    (∃ status s', (∀ inner, t.tickWith inner s = (.returned status, t, s')) ∧
      t.watched.tick ⟨s, []⟩ = (.returned status, t.watched, ⟨s', t.calls s⟩) ∧
      ∀ {β : Type} (view : σ → β) (own : Nat), (∀ e s, view (record e s) = view s) →
        (∀ k l, t.root.fringe[k]? = some l → k ≠ own → l.Keeps view) →
        own ∉ t.calls s → view s' = view s) ∧
    (t.calls s).Sublist (List.range t.root.leaves) ∧
    (∀ path slot l, t.root.find? 0 path = some (slot, l) → l.isLeaf →
      (slot ∈ t.calls s ↔ ¬ (l.isAction ∧ slot ∈ t.raised) ∧
        ∀ q i j k m, q ++ [i] <+: path → j < i → t.root.find? 0 q = some (k, m) →
          t.stateAt? s (q ++ [j]) = some m.pass)) ∧
    (∀ q slot cs r, t.visit? s q = some ⟨slot, .sequence cs, r⟩ → ∃ states : List Status,
      (∀ i, t.stateAt? s (q ++ [i]) = states[i]?) ∧
      t.stateAt? s q = some ((states.find? (· ≠ .success)).getD .success)) ∧
    (∀ q slot cs r, t.visit? s q = some ⟨slot, .fallback cs, r⟩ → ∃ states : List Status,
      (∀ i, t.stateAt? s (q ++ [i]) = states[i]?) ∧
      t.stateAt? s q = some ((states.find? (· ≠ .failure)).getD .failure)) ∧
    (∀ q slot name effect r, t.visit? s q = some ⟨slot, .action name effect, r⟩ →
      slot ∈ t.raised → t.stateAt? s q = some .running) := by
  have called := calls_eq_called answering.plain s
  refine ⟨?_, ?_, fun path slot l found leaf => ?_, fun q slot cs r visited => ?_,
    fun q slot cs r visited => ?_, fun q slot name effect r visited raised => ?_⟩
  · obtain ⟨status, s', ticked⟩ := Node.tick_answers answering 0 ⟨s, t.raised⟩
    have ended : ∀ inner, t.tickWith inner s = (.returned status, t, s') := fun inner => by
      rw [tickWith, ticked]
    refine ⟨status, s', ended, ?_, ?_⟩
    · rw [tick_watched answering.plain, called, tick, ended]
    · intro β view own journal others absent
      rw [called] at absent
      have kept := Node.view_tick journal others 0 ⟨s, t.raised⟩ answering (.self _) absent
      rwa [ticked] at kept
  · rw [called, List.range_eq_range']
    exact t.root.called_sublist .nowhere 0 ⟨s, t.raised⟩
  · rw [called, Node.mem_called]
    refine Iff.trans ?_ (and_congr_right fun _ => Node.visit?_isSome_iff found)
    constructor
    · rintro ⟨path', v, visited, rfl, calls⟩
      have raised : v.run.raised = t.raised := (Node.visit?_answering answering visited).2
      obtain rfl := Node.find?_leaf_unique leaf calls.1 found (Node.find?_of_visit? visited)
      obtain rfl : l = v.node := by
        simpa using found.symm.trans (Node.find?_of_visit? visited)
      exact ⟨raised ▸ calls.2, by rw [visited]; rfl⟩
    · rintro ⟨lowered, visits⟩
      obtain ⟨v, visited⟩ := Option.isSome_iff_exists.1 visits
      have raised : v.run.raised = t.raised := (Node.visit?_answering answering visited).2
      obtain ⟨rfl, rfl⟩ : slot = v.slot ∧ l = v.node := by
        simpa using found.symm.trans (Node.find?_of_visit? visited)
      exact ⟨path, v, visited, rfl, leaf, raised.symm ▸ lowered⟩
  · exact state_of_composite answering visited rfl
  · exact state_of_composite answering visited rfl
  · have same := (Node.visit?_answering answering visited).2
    have here : slot ∈ r.raised := same ▸ raised
    rw [stateAt?, visited, Option.bind_some, Visit.state?, Node.tick_action_of_mem here]

def guarded : Tree (List Event) where
  root := .fallback [
    .sequence [.condition "near" fun s => .finish true s,
      .action "grab" fun s => .finish (.error (.failed "out of reach")) s],
    .sequence [.condition "far" fun s => .finish true s,
      .action "walk" fun s => .finish (.ok ()) s],
    .action "rest" fun s => .finish (.ok ()) s]
  raised := [3]

theorem tick_visits_guarded :
    guarded.root.Answering ∧ guarded.calls [] = [0, 1, 2] ∧
    (guarded.calls []).Sublist (List.range 5) ∧ guarded.stateAt? [] [1, 1] = some .running := by
  have answering : guarded.root.Answering := by
    simp [guarded, Node.Answering, Node.fringe, Node.fringeAll, Node.AnsweringLeaf, Routine.Answers]
  obtain ⟨-, order, -, -, -, executing⟩ := tick_visits guarded answering []
  have reached : guarded.visit? [] [1, 1] = some ⟨3, .action "walk" fun s => .finish (.ok ()) s,
      ⟨[.actionFailed "grab" (.failed "out of reach")], [3]⟩⟩ := rfl
  exact ⟨answering, rfl, order, executing _ _ _ _ _ reached (List.mem_singleton_self 3)⟩

end Tree

end Pursuit.Behavior
