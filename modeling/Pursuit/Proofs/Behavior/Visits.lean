import Pursuit.Proofs.Behavior.Calls

/-! How far a tick gets. A path is visited if on every level of it the walk over the children comes
as far as the next child on the path. The visits decide the calls: a leaf is called if it is visited
and not an action that is raised, and it is visited if all that stands to the left of its path gave
the state that the composite above passes over. -/
namespace Pursuit.Behavior

variable {σ : Type}

structure Visit (σ : Type) where
  slot : Nat
  node : Node σ
  run : Run σ

namespace Node

/-- The state of a child after which a composite goes on. -/
def pass : Node σ → Status
  | .sequence _ => .success
  | .fallback _ | .condition .. | .action .. => .failure

variable [Journal σ]

/-- The child with a given index, if a walk over the children gets to it. -/
def arrive? (inner : Inner σ) (pass : Status) :
    List (Node σ) → Nat → Run σ → Nat → Option (Visit σ)
  | [], _, _, _ => none
  | c :: _, slot, r, 0 => some ⟨slot, c, r⟩
  | c :: cs, slot, r, i + 1 =>
    match c.tick inner slot r with
    | (.returned status, after) =>
      if status = pass then arrive? inner pass cs (slot + c.leaves) after i else none
    | _ => none

def visit? (inner : Inner σ) : List Nat → Node σ → Nat → Run σ → Option (Visit σ)
  | [], n, slot, r => some ⟨slot, n, r⟩
  | i :: path, n, slot, r =>
    (arrive? inner n.pass n.children slot r i).bind fun v => visit? inner path v.node v.slot v.run

end Node

variable [Journal σ]

def Visit.state? (inner : Inner σ) (v : Visit σ) : Option Status :=
  match (v.node.tick inner v.slot v.run).1 with
  | .returned status => some status
  | .unwound | .tooDeep => none

/-- The visited leaf has its code called. -/
def Visit.Calls (v : Visit σ) : Prop :=
  v.node.isLeaf ∧ ¬ (v.node.isAction ∧ v.slot ∈ v.run.raised)

def Node.stateAt? (inner : Inner σ) (n : Node σ) (slot : Nat) (r : Run σ) (path : List Nat) :
    Option Status :=
  (n.visit? inner path slot r).bind (Visit.state? inner)

namespace Node

variable {inner : Inner σ} {pass : Status} {cs : List (Node σ)} {n : Node σ} {slot : Nat}
  {r : Run σ} {path : List Nat} {v : Visit σ}

theorem arrive?_isSome_iff (i : Nat) :
    (arrive? inner pass cs slot r i).isSome ↔ i < cs.length ∧
      ∀ j < i, (arrive? inner pass cs slot r j).bind (Visit.state? inner) = some pass := by
  induction cs generalizing slot r i with
  | nil => simp [arrive?]
  | cons c cs ih =>
    cases i with
    | zero => simp [arrive?]
    | succ i =>
      rw [Nat.forall_lt_succ_left', List.length_cons, Nat.succ_lt_succ_iff]
      simp only [arrive?, Option.bind_some, Visit.state?]
      obtain ⟨status | _ | _, after⟩ := c.tick inner slot r
      case returned =>
        by_cases hs : status = pass
        · simp only [hs, if_true, true_and]
          exact ih i
        · simp [hs]
      all_goals simp

theorem arrive?_eq_some {i : Nat} (h : arrive? inner pass cs slot r i = some v) :
    cs[i]? = some v.node ∧ v.slot = slot + leavesAll (cs.take i) := by
  induction cs generalizing slot r i with
  | nil => cases h
  | cons c cs ih =>
    cases i with
    | zero => cases h; exact ⟨rfl, rfl⟩
    | succ i =>
      rw [arrive?] at h
      split at h
      next status after _ =>
        split at h
        next =>
          obtain ⟨node, place⟩ := ih h
          exact ⟨node, by rw [place, List.take_succ_cons, leavesAll, Nat.add_assoc]⟩
        next => cases h
      next => cases h

theorem visit?_append (q p : List Nat) :
    n.visit? inner (q ++ p) slot r =
      (n.visit? inner q slot r).bind fun v => v.node.visit? inner p v.slot v.run := by
  induction q generalizing n slot r with
  | nil => rfl
  | cons i q ih =>
    rw [List.cons_append, visit?, visit?, Option.bind_assoc]
    simp only [ih]

theorem find?_of_visit? (h : n.visit? inner path slot r = some v) :
    n.find? slot path = some (v.slot, v.node) := by
  induction path generalizing n slot r with
  | nil => cases h; rfl
  | cons i path ih =>
    obtain ⟨u, hu, hv⟩ := Option.bind_eq_some_iff.1 h
    obtain ⟨child, place⟩ := arrive?_eq_some hu
    rw [find?, child]
    simpa only [place] using ih hv

/-- All that stands to the left of a path gave the state that the composite above passes over. -/
def LeftPassed (inner : Inner σ) (n : Node σ) (slot : Nat) (r : Run σ) (path : List Nat) : Prop :=
  ∀ q i j k m, q ++ [i] <+: path → j < i → n.find? slot q = some (k, m) →
    n.stateAt? inner slot r (q ++ [j]) = some m.pass

theorem stateAt?_cons {i : Nat} {u : Visit σ}
    (hu : arrive? inner n.pass n.children slot r i = some u) (q : List Nat) :
    n.stateAt? inner slot r (i :: q) = u.node.stateAt? inner u.slot u.run q := by
  simp only [stateAt?, visit?, hu, Option.bind_some]

theorem stateAt?_singleton (i : Nat) :
    n.stateAt? inner slot r [i] =
      (arrive? inner n.pass n.children slot r i).bind (Visit.state? inner) := by
  simp only [stateAt?, visit?]
  cases arrive? inner n.pass n.children slot r i <;> rfl

theorem leftPassed_cons {i : Nat} {u : Visit σ}
    (hu : arrive? inner n.pass n.children slot r i = some u) :
    n.LeftPassed inner slot r (i :: path) ↔ u.node.LeftPassed inner u.slot u.run path := by
  obtain ⟨child, place⟩ := arrive?_eq_some hu
  have found (q : List Nat) : n.find? slot (i :: q) = u.node.find? u.slot q := by
    rw [find?, child, place]
  constructor
  · intro h q a j k m hq hj hm
    rw [← stateAt?_cons hu, ← List.cons_append]
    exact h (i :: q) a j k m (by simpa using hq) hj (by rw [found, hm])
  · intro h q a j k m hq hj hm
    cases q with
    | nil =>
      obtain rfl : a = i := by simpa using hq
      obtain ⟨rfl, rfl⟩ : slot = k ∧ n = m := by simpa [find?] using hm
      have before := (arrive?_isSome_iff a).1 (by rw [hu]; rfl)
      rw [List.nil_append, stateAt?_singleton]
      exact before.2 j hj
    | cons b q =>
      obtain ⟨rfl, shorter⟩ : b = i ∧ q ++ [a] <+: path := by simpa using hq
      rw [List.cons_append, stateAt?_cons hu]
      exact h q a j k m shorter hj (by rw [← found, hm])

/-- A tick gets to a node of the tree exactly if all to the left of its path is passed over. -/
theorem visit?_isSome_iff {k : Nat} {m : Node σ} (found : n.find? slot path = some (k, m)) :
    (n.visit? inner path slot r).isSome ↔ n.LeftPassed inner slot r path := by
  induction path generalizing n slot r with
  | nil => simp [visit?, LeftPassed]
  | cons i path ih =>
    rw [find?] at found
    split at found
    next c child =>
      have bound : i < n.children.length := (List.getElem?_eq_some_iff.1 child).1
      constructor
      · intro h
        obtain ⟨v, hv⟩ := Option.isSome_iff_exists.1 h
        obtain ⟨u, hu, hv⟩ := Option.bind_eq_some_iff.1 hv
        obtain ⟨node, place⟩ := arrive?_eq_some hu
        obtain rfl : c = u.node := Option.some.inj (child.symm.trans node)
        exact (leftPassed_cons hu).2 ((ih (place ▸ found)).1 (by rw [hv]; rfl))
      · intro h
        -- The prefixes that end at this node are those with an empty `q`.
        have arrives : (arrive? inner n.pass n.children slot r i).isSome := by
          refine (arrive?_isSome_iff i).2 ⟨bound, fun j hj => ?_⟩
          rw [← stateAt?_singleton]
          exact h [] i j slot n (by simp) hj rfl
        obtain ⟨u, hu⟩ := Option.isSome_iff_exists.1 arrives
        obtain ⟨node, place⟩ := arrive?_eq_some hu
        obtain rfl : c = u.node := Option.some.inj (child.symm.trans node)
        rw [visit?, hu]
        exact (ih (place ▸ found)).2 ((leftPassed_cons hu).1 h)
    next => cases found

theorem mem_calledAll {own : Nat} :
    own ∈ calledAll inner pass cs slot r ↔ ∃ i u, arrive? inner pass cs slot r i = some u ∧
      own ∈ u.node.called inner u.slot u.run := by
  induction cs generalizing slot r with
  | nil => simp [calledAll, arrive?]
  | cons c cs ih =>
    have first : (∃ i u, arrive? inner pass (c :: cs) slot r i = some u ∧
        own ∈ u.node.called inner u.slot u.run) ↔ own ∈ c.called inner slot r ∨
        ∃ i u, arrive? inner pass (c :: cs) slot r (i + 1) = some u ∧
          own ∈ u.node.called inner u.slot u.run := by
      constructor
      · rintro ⟨_ | i, u, hu, h⟩
        · cases hu; exact .inl h
        · exact .inr ⟨i, u, hu, h⟩
      · rintro (h | ⟨i, u, hu, h⟩)
        · exact ⟨0, _, rfl, h⟩
        · exact ⟨i + 1, u, hu, h⟩
    rw [first, calledAll, List.mem_append]
    simp only [arrive?]
    obtain ⟨status | _ | _, after⟩ := c.tick inner slot r
    case returned =>
      by_cases hs : status = pass
      · simp only [hs, if_true, ih]
      · simp [hs]
    all_goals simp

theorem called_composite (h : n.isLeaf = false) :
    n.called inner slot r = calledAll inner n.pass n.children slot r := by
  cases n with
  | sequence | fallback => rfl
  | condition | action => cases h

theorem mem_called_composite {own : Nat} (h : n.isLeaf = false)
    (children : ∀ c ∈ n.children, ∀ slot r, own ∈ c.called inner slot r ↔
      ∃ path v, c.visit? inner path slot r = some v ∧ v.slot = own ∧ v.Calls) :
    own ∈ n.called inner slot r ↔
      ∃ path v, n.visit? inner path slot r = some v ∧ v.slot = own ∧ v.Calls := by
  rw [called_composite h, mem_calledAll]
  constructor
  · rintro ⟨i, u, hu, hc⟩
    have child := List.mem_of_getElem? (arrive?_eq_some hu).1
    obtain ⟨path, v, hv, calls⟩ := (children _ child _ _).1 hc
    exact ⟨i :: path, v, by rw [visit?, hu]; exact hv, calls⟩
  · rintro ⟨_ | ⟨i, path⟩, v, hv, calls⟩
    · cases hv
      exact absurd calls.2.1 (by simp [h])
    · obtain ⟨u, hu, hv⟩ := Option.bind_eq_some_iff.1 hv
      have child := List.mem_of_getElem? (arrive?_eq_some hu).1
      exact ⟨i, u, hu, (children _ child _ _).2 ⟨path, v, hv, calls⟩⟩

theorem visit?_leaf_iff {own : Nat} (h : n.children = []) :
    (∃ path v, n.visit? inner path slot r = some v ∧ v.slot = own ∧ v.Calls) ↔
      slot = own ∧ (⟨slot, n, r⟩ : Visit σ).Calls := by
  constructor
  · rintro ⟨_ | ⟨i, path⟩, v, hv, calls⟩
    · cases hv; exact calls
    · rw [visit?, h] at hv
      cases hv
  · exact fun calls => ⟨[], _, rfl, calls⟩

theorem mem_called {own : Nat} :
    own ∈ n.called inner slot r ↔
      ∃ path v, n.visit? inner path slot r = some v ∧ v.slot = own ∧ v.Calls := by
  induction n using Node.induction generalizing slot r with
  | sequence cs ih => exact mem_called_composite rfl fun c hc _ _ => ih c hc
  | fallback cs ih => exact mem_called_composite rfl fun c hc _ _ => ih c hc
  | condition name predicate =>
    rw [visit?_leaf_iff rfl, called]
    simp [Visit.Calls, isLeaf, isAction, eq_comm]
  | action name effect =>
    rw [visit?_leaf_iff rfl, called]
    by_cases raised : slot ∈ r.raised <;>
      simp [Visit.Calls, isLeaf, isAction, raised, eq_comm]

def walkStates (inner : Inner σ) (pass : Status) : List (Node σ) → Nat → Run σ → List Status
  | [], _, _ => []
  | c :: cs, slot, r =>
    match c.tick inner slot r with
    | (.returned status, after) =>
      status :: if status = pass then walkStates inner pass cs (slot + c.leaves) after else []
    | _ => []

theorem walkStates_getElem? (i : Nat) :
    (walkStates inner pass cs slot r)[i]? =
      (arrive? inner pass cs slot r i).bind (Visit.state? inner) := by
  induction cs generalizing slot r i with
  | nil => rfl
  | cons c cs ih =>
    cases i with
    | zero =>
      simp only [walkStates, arrive?, Option.bind_some, Visit.state?]
      obtain ⟨_ | _ | _, after⟩ := c.tick inner slot r <;> rfl
    | succ i =>
      simp only [walkStates, arrive?]
      obtain ⟨status | _ | _, after⟩ := c.tick inner slot r
      case returned =>
        by_cases hs : status = pass
        · simp only [hs, if_true, List.getElem?_cons_succ, ih]
        · simp [hs]
      all_goals rfl

theorem tick_composite (h : n.isLeaf = false) :
    n.tick inner slot r = walk inner n.pass n.children slot r := by
  cases n with
  | sequence cs => exact tick_sequence inner cs slot r
  | fallback cs => exact tick_fallback inner cs slot r
  | condition | action => cases h

end Node

end Pursuit.Behavior
