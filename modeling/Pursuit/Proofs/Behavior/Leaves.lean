import Pursuit.Behavior.Tree

/-! A tree seen through its leaves. The position that a tick hands to a leaf is its place in the
fringe, so two leaves never share one. Both kinds of composite are one walk over the children,
which goes on as long as they give the state that the composite passes over. -/
namespace Pursuit.Behavior

variable {σ ρ : Type}

def Routine.Plain : Routine σ ρ → Prop
  | .finish .. | .unwind _ => True
  | .consult .. => False

namespace Node

@[elab_as_elim]
theorem induction {P : Node σ → Prop}
    (sequence : ∀ cs, (∀ c ∈ cs, P c) → P (.sequence cs))
    (fallback : ∀ cs, (∀ c ∈ cs, P c) → P (.fallback cs))
    (condition : ∀ name predicate, P (.condition name predicate))
    (action : ∀ name effect, P (.action name effect)) (n : Node σ) : P n :=
  @Node.rec σ P (fun cs => ∀ c ∈ cs, P c) sequence fallback condition action
    (fun _ h => absurd h List.not_mem_nil)
    (fun _ _ hc hcs => List.forall_mem_cons.2 ⟨hc, hcs⟩) n

def isLeaf : Node σ → Bool
  | .condition .. | .action .. => true
  | .sequence _ | .fallback _ => false

def isAction : Node σ → Bool
  | .action .. => true
  | .sequence _ | .fallback _ | .condition .. => false

mutual
def fringe : Node σ → List (Node σ)
  | .sequence cs | .fallback cs => fringeAll cs
  | .condition name predicate => [.condition name predicate]
  | .action name effect => [.action name effect]

def fringeAll : List (Node σ) → List (Node σ)
  | [] => []
  | c :: cs => c.fringe ++ fringeAll cs
end

theorem length_fringeAll_of {cs : List (Node σ)} (h : ∀ c ∈ cs, c.fringe.length = c.leaves) :
    (fringeAll cs).length = leavesAll cs := by
  induction cs with
  | nil => rfl
  | cons c cs ih =>
    obtain ⟨hc, hcs⟩ := List.forall_mem_cons.1 h
    rw [fringeAll, leavesAll, List.length_append, hc, ih hcs]

@[simp] theorem length_fringe (n : Node σ) : n.fringe.length = n.leaves := by
  induction n using Node.induction with
  | sequence cs ih => exact length_fringeAll_of ih
  | fallback cs ih => exact length_fringeAll_of ih
  | condition => rfl
  | action => rfl

@[simp] theorem length_fringeAll (cs : List (Node σ)) : (fringeAll cs).length = leavesAll cs :=
  length_fringeAll_of fun c _ => c.length_fringe

theorem leaves_composite {n : Node σ} (h : n.isLeaf = false) : n.leaves = leavesAll n.children := by
  cases n with
  | sequence | fallback => rfl
  | condition | action => cases h

theorem fringe_composite {n : Node σ} (h : n.isLeaf = false) : n.fringe = fringeAll n.children := by
  cases n with
  | sequence | fallback => rfl
  | condition | action => cases h

theorem fringe_of_children {n c : Node σ} (h : c ∈ n.children) :
    n.fringe = fringeAll n.children := by
  cases n with
  | sequence | fallback => rfl
  | condition | action => cases h

theorem fringeAll_split {cs : List (Node σ)} {i : Nat} {c : Node σ} (h : cs[i]? = some c) :
    fringeAll cs = fringeAll (cs.take i) ++ c.fringe ++ fringeAll (cs.drop (i + 1)) := by
  induction cs generalizing i with
  | nil => simp at h
  | cons d cs ih =>
    cases i with
    | zero =>
      obtain rfl : d = c := by simpa using h
      simp [fringeAll]
    | succ i =>
      have hi : cs[i]? = some c := by simpa using h
      simp [fringeAll, ih hi]

theorem fringe_subset {n c : Node σ} (h : c ∈ n.children) : c.fringe ⊆ n.fringe := by
  obtain ⟨i, hi⟩ := List.mem_iff_getElem?.1 h
  intro l hl
  rw [fringe_of_children h, fringeAll_split hi]
  simp [hl]

/-- The leaves `ls` stand side by side in the fringe, the first of them at `slot`. -/
def Covers (root : Node σ) (slot : Nat) (ls : List (Node σ)) : Prop :=
  ∃ before after, root.fringe = before ++ ls ++ after ∧ before.length = slot

theorem Covers.self (root : Node σ) : root.Covers 0 root.fringe := ⟨[], [], by simp⟩

theorem Covers.append {root : Node σ} {slot : Nat} {ls ms : List (Node σ)}
    (h : root.Covers slot (ls ++ ms)) :
    root.Covers slot ls ∧ root.Covers (slot + ls.length) ms := by
  obtain ⟨before, after, he, hl⟩ := h
  refine ⟨⟨before, ms ++ after, by simp [he], hl⟩, ⟨before ++ ls, after, by simp [he], ?_⟩⟩
  rw [List.length_append, hl]

theorem Covers.children {root c : Node σ} {slot : Nat} {cs : List (Node σ)}
    (h : root.Covers slot (fringeAll (c :: cs))) :
    root.Covers slot c.fringe ∧ root.Covers (slot + c.leaves) (fringeAll cs) := by
  rw [fringeAll] at h
  simpa using h.append

theorem Covers.leaf {root : Node σ} {slot : Nat} {l : Node σ} (h : root.Covers slot [l]) :
    root.fringe[slot]? = some l := by
  obtain ⟨before, after, he, rfl⟩ := h
  simp [he]

theorem find?_covers {root n : Node σ} {path : List Nat} {start slot : Nat}
    (h : root.find? start path = some (slot, n)) :
    ∃ k, slot = start + k ∧ root.Covers k n.fringe := by
  induction path generalizing root start with
  | nil =>
    obtain ⟨rfl, rfl⟩ : start = slot ∧ root = n := by simpa [find?] using h
    exact ⟨0, rfl, Covers.self _⟩
  | cons i path ih =>
    rw [find?] at h
    split at h
    next c hc =>
      obtain ⟨k, rfl, before, after, he, hk⟩ := ih h
      refine ⟨leavesAll (root.children.take i) + k, by omega,
        fringeAll (root.children.take i) ++ before,
        after ++ fringeAll (root.children.drop (i + 1)), ?_, by simp [hk]⟩
      rw [fringe_of_children (List.mem_of_getElem? hc), fringeAll_split hc, he]
      simp only [List.append_assoc]
    next => cases h

theorem Covers.of_find? {root n : Node σ} {path : List Nat} {slot : Nat}
    (h : root.find? 0 path = some (slot, n)) : root.Covers slot n.fringe := by
  obtain ⟨k, rfl, hk⟩ := find?_covers h
  simpa using hk

theorem Covers.bound {root : Node σ} {slot : Nat} {ls : List (Node σ)} (h : root.Covers slot ls) :
    slot + ls.length ≤ root.leaves := by
  obtain ⟨before, after, he, rfl⟩ := h
  rw [← length_fringe, he]
  simp

theorem leavesAll_take_lt {cs : List (Node σ)} {i j : Nat} {c : Node σ} (hc : cs[i]? = some c)
    (hij : i < j) : leavesAll (cs.take i) + c.leaves ≤ leavesAll (cs.take j) := by
  have child : (cs.take j)[i]? = some c := by rw [List.getElem?_take_of_lt hij, hc]
  have split := congrArg List.length (fringeAll_split child)
  simp only [List.length_append, length_fringeAll, length_fringe, List.take_take,
    Nat.min_eq_left (Nat.le_of_lt hij)] at split
  omega

theorem find?_cons_eq_some {root n : Node σ} {i start slot : Nat} {path : List Nat}
    (h : root.find? start (i :: path) = some (slot, n)) :
    ∃ c, root.children[i]? = some c ∧
      c.find? (start + leavesAll (root.children.take i)) path = some (slot, n) := by
  rw [find?] at h
  split at h
  next c hc => exact ⟨c, hc, h⟩
  next => cases h

theorem find?_cons_of_leaf {n : Node σ} (leaf : n.isLeaf) (start i : Nat) (path : List Nat) :
    n.find? start (i :: path) = none := by
  cases n with
  | sequence | fallback => cases leaf
  | condition | action => rfl

theorem slot_of_find? {c l : Node σ} {start slot : Nat} {path : List Nat} (leaf : l.isLeaf)
    (h : c.find? start path = some (slot, l)) : start ≤ slot ∧ slot < start + c.leaves := by
  obtain ⟨k, rfl, covers⟩ := find?_covers h
  have bound := covers.bound
  have one : l.leaves = 1 := by
    cases l with
    | sequence | fallback => cases leaf
    | condition | action => rfl
  rw [length_fringe, one] at bound
  omega

theorem find?_leaf_unique {root l l' : Node σ} {p q : List Nat} {start slot : Nat}
    (leaf : l.isLeaf) (leaf' : l'.isLeaf) (h : root.find? start p = some (slot, l))
    (h' : root.find? start q = some (slot, l')) : p = q := by
  induction p generalizing root start q with
  | nil =>
    cases q with
    | nil => rfl
    | cons j q =>
      cases h
      rw [find?_cons_of_leaf leaf] at h'
      cases h'
  | cons i p ih =>
    cases q with
    | nil =>
      cases h'
      rw [find?_cons_of_leaf leaf'] at h
      cases h
    | cons j q =>
      obtain ⟨c, hc, h⟩ := find?_cons_eq_some h
      obtain ⟨c', hc', h'⟩ := find?_cons_eq_some h'
      have range := slot_of_find? leaf h
      have range' := slot_of_find? leaf' h'
      obtain hij | rfl | hij := Nat.lt_trichotomy i j
      · have apart := leavesAll_take_lt hc hij
        omega
      · obtain rfl : c = c' := Option.some.inj (hc.symm.trans hc')
        rw [ih h h']
      · have apart := leavesAll_take_lt hc' hij
        omega

def PlainLeaf : Node σ → Prop
  | .condition _ predicate => ∀ s, (predicate s).Plain
  | .action _ effect => ∀ s, (effect s).Plain
  | .sequence _ | .fallback _ => True

def Plain (n : Node σ) : Prop := ∀ l ∈ n.fringe, l.PlainLeaf

theorem Plain.child {n c : Node σ} (plain : n.Plain) (h : c ∈ n.children) : c.Plain :=
  fun l hl => plain l (fringe_subset h hl)

variable [Journal σ]

/-- Ticks children from left to right for as long as each gives `pass`. -/
def walk (inner : Inner σ) (pass : Status) : List (Node σ) → Nat → Run σ → Exit Status × Run σ
  | [], _, r => (.returned pass, r)
  | c :: cs, slot, r =>
    match c.tick inner slot r with
    | (.returned status, after) =>
      if status = pass then walk inner pass cs (slot + c.leaves) after
      else (.returned status, after)
    | stop => stop

theorem walk_singleton (inner : Inner σ) (pass : Status) (c : Node σ) (slot : Nat) (r : Run σ) :
    walk inner pass [c] slot r = c.tick inner slot r := by
  rw [walk]
  obtain ⟨_ | _ | _, after⟩ := c.tick inner slot r
  case returned status =>
    by_cases hs : status = pass
    · simp [walk, hs]
    · simp [hs]
  all_goals rfl

theorem tickSequence_eq_walk (inner : Inner σ) (cs : List (Node σ)) (slot : Nat) (r : Run σ) :
    tickSequence inner cs slot r = walk inner .success cs slot r := by
  induction cs generalizing slot r with
  | nil => rfl
  | cons c cs ih =>
    rw [tickSequence, walk]
    obtain ⟨_ | _ | _, after⟩ := c.tick inner slot r
    case returned status => cases status <;> simp [ih]
    all_goals rfl

theorem tickFallback_eq_walk (inner : Inner σ) (cs : List (Node σ)) (slot : Nat) (r : Run σ) :
    tickFallback inner cs slot r = walk inner .failure cs slot r := by
  induction cs generalizing slot r with
  | nil => rfl
  | cons c cs ih =>
    rw [tickFallback, walk]
    obtain ⟨_ | _ | _, after⟩ := c.tick inner slot r
    case returned status => cases status <;> simp [ih]
    all_goals rfl

theorem tick_sequence (inner : Inner σ) (cs : List (Node σ)) (slot : Nat) (r : Run σ) :
    (Node.sequence cs).tick inner slot r = walk inner .success cs slot r := by
  rw [tick, tickSequence_eq_walk]

theorem tick_fallback (inner : Inner σ) (cs : List (Node σ)) (slot : Nat) (r : Run σ) :
    (Node.fallback cs).tick inner slot r = walk inner .failure cs slot r := by
  rw [tick, tickFallback_eq_walk]

end Node

end Pursuit.Behavior
