import Pursuit.Proofs.Behavior.ShortCircuit
import Pursuit.Proofs.Behavior.Orderly

/-! Shapes of a tree that no tick tells apart. A composite with a single child is that child, and a
composite under one of its own kind is as good as its children in its place. Either may be put for
the other anywhere in a tree: walks over children that go alike go alike in any walk around them. -/
namespace Pursuit.Behavior

variable {σ : Type}

inductive Kind where
  | sequence
  | fallback

def Kind.node : Kind → List (Node σ) → Node σ
  | .sequence => .sequence
  | .fallback => .fallback

namespace Node

/-- The node in composites with a single child, the first kind outermost. -/
def wrapped (kinds : List Kind) (n : Node σ) : Node σ := kinds.foldr (fun kind n => kind.node [n]) n

/-- The children of a child that is of the node's own kind, put in its place. -/
def spliced (i : Nat) : Node σ → Node σ
  | .sequence cs =>
    match cs[i]? with
    | some (.sequence ds) => .sequence (cs.take i ++ ds ++ cs.drop (i + 1))
    | _ => .sequence cs
  | .fallback cs =>
    match cs[i]? with
    | some (.fallback ds) => .fallback (cs.take i ++ ds ++ cs.drop (i + 1))
    | _ => .fallback cs
  | .condition name predicate => .condition name predicate
  | .action name effect => .action name effect

end Node

inductive Edit where
  | wrap (kinds : List Kind)
  | splice (i : Nat)

namespace Node

def edited : Edit → Node σ → Node σ
  | .wrap kinds => wrapped kinds
  | .splice i => spliced i

/-- The tree with the node at a path edited; the same tree if there is no such node. -/
def editedAt (edit : Edit) : List Nat → Node σ → Node σ
  | [], n => n.edited edit
  | i :: path, .sequence cs => .sequence (cs.modify i (editedAt edit path))
  | i :: path, .fallback cs => .fallback (cs.modify i (editedAt edit path))
  | _ :: _, .condition name predicate => .condition name predicate
  | _ :: _, .action name effect => .action name effect

@[simp] theorem fringeAll_append (cs ds : List (Node σ)) :
    fringeAll (cs ++ ds) = fringeAll cs ++ fringeAll ds := by
  induction cs with
  | nil => rfl
  | cons c cs ih => simp [fringeAll, ih]

variable [Journal σ] {inner : Inner σ} {pass : Status}

theorem walk_append (cs ds : List (Node σ)) (slot : Nat) (r : Run σ) :
    walk inner pass (cs ++ ds) slot r =
      match walk inner pass cs slot r with
      | (.returned status, after) =>
        if status = pass then walk inner pass ds (slot + leavesAll cs) after
        else (.returned status, after)
      | stop => stop := by
  induction cs generalizing slot r with
  | nil => simp [walk, leavesAll]
  | cons c cs ih =>
    rw [List.cons_append, walk, walk, leavesAll]
    obtain ⟨_ | _ | _, after⟩ := c.tick inner slot r
    case returned status =>
      by_cases hs : status = pass
      · simp only [hs, if_true, ih, Nat.add_assoc]
      · simp only [hs, if_false]
    all_goals rfl

theorem calledAll_append (cs ds : List (Node σ)) (slot : Nat) (r : Run σ) :
    calledAll inner pass (cs ++ ds) slot r = calledAll inner pass cs slot r ++
      match walk inner pass cs slot r with
      | (.returned status, after) =>
        if status = pass then calledAll inner pass ds (slot + leavesAll cs) after else []
      | _ => [] := by
  induction cs generalizing slot r with
  | nil => simp [walk, calledAll, leavesAll]
  | cons c cs ih =>
    rw [List.cons_append, walk, calledAll, calledAll, leavesAll]
    obtain ⟨_ | _ | _, after⟩ := c.tick inner slot r
    case returned status =>
      by_cases hs : status = pass
      · simp only [hs, if_true, ih, Nat.add_assoc, List.append_assoc]
      · simp only [hs, if_false, List.append_nil]
    all_goals simp

/-- A row of children that makes no difference to a walk that goes on after `pass`, if it is put for
another. -/
structure Replaces (pass : Status) (cs ds : List (Node σ)) : Prop where
  fringe : fringeAll ds = fringeAll cs
  walk : ∀ inner slot r, walk inner pass ds slot r = walk inner pass cs slot r
  called : ∀ inner slot r, calledAll inner pass ds slot r = calledAll inner pass cs slot r

/-- A node that makes no difference to a tick, if it is put for another. -/
structure Interchangeable (n m : Node σ) : Prop where
  fringe : m.fringe = n.fringe
  tick : ∀ inner slot r, m.tick inner slot r = n.tick inner slot r
  called : ∀ inner slot r, m.called inner slot r = n.called inner slot r

theorem Interchangeable.refl (n : Node σ) : n.Interchangeable n :=
  ⟨rfl, fun _ _ _ => rfl, fun _ _ _ => rfl⟩

theorem Interchangeable.trans {n m l : Node σ} (h : n.Interchangeable m)
    (h' : m.Interchangeable l) :
    n.Interchangeable l where
  fringe := h'.fringe.trans h.fringe
  tick inner slot r := (h'.tick inner slot r).trans (h.tick inner slot r)
  called inner slot r := (h'.called inner slot r).trans (h.called inner slot r)

theorem Replaces.refl (cs : List (Node σ)) : Replaces pass cs cs :=
  ⟨rfl, fun _ _ _ => rfl, fun _ _ _ => rfl⟩

theorem Replaces.leaves {cs ds : List (Node σ)} (h : Replaces pass cs ds) :
    leavesAll ds = leavesAll cs := by
  rw [← length_fringeAll, ← length_fringeAll, h.fringe]

/-- Rows that go alike do so next to others: where the first stops, the walk stops with it. -/
theorem Replaces.append {cs cs' ds ds' : List (Node σ)} (h : Replaces pass cs cs')
    (h' : Replaces pass ds ds') : Replaces pass (cs ++ ds) (cs' ++ ds') where
  fringe := by simp [h.fringe, h'.fringe]
  walk inner slot r := by simp only [walk_append, h.walk, h'.walk, h.leaves]
  called inner slot r := by simp only [calledAll_append, h.called, h'.called, h.walk, h.leaves]

theorem Interchangeable.singleton {n m : Node σ} (h : n.Interchangeable m) :
    Replaces pass [n] [m] where
  fringe := by simp only [fringeAll, h.fringe]
  walk inner slot r := by simp only [walk, h.tick]
  called inner slot r := by simp only [calledAll, h.called, h.tick]

theorem Interchangeable.composite {n m : Node σ} (left : n.isLeaf = false)
    (right : m.isLeaf = false) (same : m.pass = n.pass)
    (h : Replaces n.pass n.children m.children) : n.Interchangeable m where
  fringe := by rw [fringe_composite left, fringe_composite right, h.fringe]
  tick inner slot r := by rw [tick_composite left, tick_composite right, same, h.walk]
  called inner slot r := by rw [called_composite left, called_composite right, same, h.called]

theorem replaces_children {n : Node σ} (composite : n.isLeaf = false) :
    Replaces n.pass [n] n.children where
  fringe := by simp [fringeAll, fringe_composite composite]
  walk inner slot r := by rw [walk_singleton, tick_composite composite]
  called inner slot r := by rw [calledAll_singleton, called_composite composite]

theorem replaces_at {cs ds : List (Node σ)} {i : Nat} {c : Node σ} (child : cs[i]? = some c)
    (h : Replaces pass [c] ds) : Replaces pass cs (cs.take i ++ ds ++ cs.drop (i + 1)) := by
  obtain ⟨bound, rfl⟩ := List.getElem?_eq_some_iff.1 child
  have split : cs = cs.take i ++ [cs[i]] ++ cs.drop (i + 1) := by
    rw [List.append_assoc, List.singleton_append, ← List.drop_eq_getElem_cons bound,
      List.take_append_drop]
  have whole := ((Replaces.refl (cs.take i)).append h).append (Replaces.refl (cs.drop (i + 1)))
  rwa [← split] at whole

theorem replaces_modify {f : Node σ → Node σ} (h : ∀ c : Node σ, c.Interchangeable (f c))
    (cs : List (Node σ)) (i : Nat) : Replaces pass cs (cs.modify i f) := by
  by_cases bound : i < cs.length
  · have child : cs[i]? = some cs[i] := List.getElem?_eq_getElem bound
    rw [List.modify_eq_take_cons_drop bound, ← List.singleton_append, ← List.append_assoc]
    exact replaces_at child (h cs[i]).singleton
  · rw [List.modify_eq_self (Nat.le_of_not_lt bound)]
    exact .refl cs

theorem interchangeable_single (kind : Kind) (n : Node σ) : n.Interchangeable (kind.node [n]) where
  fringe := by cases kind <;> simp [Kind.node, fringe, fringeAll]
  tick inner slot r := by
    cases kind with
    | sequence => rw [Kind.node, tick_sequence, walk_singleton]
    | fallback => rw [Kind.node, tick_fallback, walk_singleton]
  called inner slot r := by
    cases kind with
    | sequence => rw [Kind.node, called, calledAll_singleton]
    | fallback => rw [Kind.node, called, calledAll_singleton]

theorem interchangeable_wrapped (kinds : List Kind) (n : Node σ) :
    n.Interchangeable (n.wrapped kinds) := by
  induction kinds with
  | nil => exact .refl n
  | cons kind kinds ih => exact ih.trans (interchangeable_single kind (n.wrapped kinds))

theorem interchangeable_spliced (i : Nat) (n : Node σ) : n.Interchangeable (n.spliced i) := by
  cases n with
  | sequence cs =>
    rw [spliced]
    split
    next ds child =>
      have same : Replaces .success [sequence ds] ds := replaces_children (n := .sequence ds) rfl
      exact .composite rfl rfl rfl (replaces_at child same)
    next => exact .refl _
  | fallback cs =>
    rw [spliced]
    split
    next ds child =>
      have same : Replaces .failure [fallback ds] ds := replaces_children (n := .fallback ds) rfl
      exact .composite rfl rfl rfl (replaces_at child same)
    next => exact .refl _
  | condition | action => exact .refl _

theorem interchangeable_edited (edit : Edit) (path : List Nat) (n : Node σ) :
    n.Interchangeable (n.editedAt edit path) := by
  induction path generalizing n with
  | nil =>
    cases edit with
    | wrap kinds => exact interchangeable_wrapped kinds n
    | splice i => exact interchangeable_spliced i n
  | cons i path ih =>
    cases n with
    | sequence cs => exact .composite rfl rfl rfl (replaces_modify ih cs i)
    | fallback cs => exact .composite rfl rfl rfl (replaces_modify ih cs i)
    | condition | action => exact .refl _

end Node

namespace Tree

/-- The tree after some edits one after the other, each at its path in the tree as it is by then.
The same actions stay raised. -/
def edited (t : Tree σ) (edits : List (List Nat × Edit)) : Tree σ :=
  { t with root := edits.foldl (fun n edit => n.editedAt edit.2 edit.1) t.root }

variable [Journal σ]

theorem interchangeable_edited (t : Tree σ) (edits : List (List Nat × Edit)) :
    t.root.Interchangeable (t.edited edits).root := by
  rw [edited]
  generalize t.root = n
  induction edits generalizing n with
  | nil => exact .refl n
  | cons edit edits ih => exact (n.interchangeable_edited edit.2 edit.1).trans (ih _)

theorem tickWith_edited {t : Tree σ} {inner : Inner σ} {s w : σ} {exit : Exit Status}
    (ticked : t.tickWith inner s = (exit, t, w)) (edits : List (List Nat × Edit)) :
    (t.edited edits).tickWith inner s = (exit, t.edited edits, w) := by
  have same := (t.interchangeable_edited edits).tick inner 0 ⟨s, t.raised⟩
  calc (t.edited edits).tickWith inner s
    _ = ((t.tickWith inner s).1, { t.edited edits with raised := (t.tickWith inner s).2.1.raised },
          (t.tickWith inner s).2.2) :=
      congrArg (fun x => (x.1, { t.edited edits with raised := x.2.raised }, x.2.state)) same
    _ = (exit, t.edited edits, w) := by rw [ticked]; rfl

theorem later_edited {t : Tree σ} (plain : t.root.Plain) (edits : List (List Nat × Edit)) (s : σ)
    (k : Nat) : ∃ v, t.later s k = (t, v) ∧ (t.edited edits).later s k = (t.edited edits, v) := by
  induction k with
  | zero => exact ⟨s, rfl, rfl⟩
  | succ k ih =>
    obtain ⟨v, before, before'⟩ := ih
    obtain ⟨exit, w, ticked⟩ := tickWith_of_plain plain v
    refine ⟨w, ?_, ?_⟩
    · rw [later, before, tick, ticked]
    · rw [later, before', tick, tickWith_edited (ticked .nowhere)]

theorem calls_edited {t : Tree σ} (plain : t.root.Plain) (edits : List (List Nat × Edit)) (s : σ) :
    (t.edited edits).calls s = t.calls s := by
  have same := t.interchangeable_edited edits
  have plain' : (t.edited edits).root.Plain := by rwa [Node.Plain, same.fringe]
  rw [calls_eq_called plain', calls_eq_called plain]
  exact same.called .nowhere 0 ⟨s, t.raised⟩

/-- Some ticks in a row of a tree whose leaves have nothing ticked, and as many of the tree after
any edits, on the same host. The leaves are the same at the same positions. Every tick ends alike on
both sides, returned or abandoned, with the host in the same state and the actions raised that were,
and it has called the same leaves in the same order. -/
theorem ticks_edited (t : Tree σ) (plain : t.root.Plain) (edits : List (List Nat × Edit)) (s : σ) :
    (t.edited edits).root.fringe = t.root.fringe ∧ (t.edited edits).raised = t.raised ∧
    ∀ k, ∃ v exit w, t.later s k = (t, v) ∧ (t.edited edits).later s k = (t.edited edits, v) ∧
      (∀ inner, t.tickWith inner v = (exit, t, w)) ∧
      (∀ inner, (t.edited edits).tickWith inner v = (exit, t.edited edits, w)) ∧
      (t.edited edits).calls v = t.calls v := by
  refine ⟨(t.interchangeable_edited edits).fringe, rfl, fun k => ?_⟩
  obtain ⟨v, before, before'⟩ := later_edited plain edits s k
  obtain ⟨exit, w, ticked⟩ := tickWith_of_plain plain v
  exact ⟨v, exit, w, before, before', ticked, fun inner => tickWith_edited (ticked inner) edits,
    calls_edited plain edits v⟩

def crowded : Tree (List Event) where
  root := .sequence [.sequence [], .sequence [
    .condition "awake" fun s => .finish true s,
    .fallback [.fallback [.action "grab" fun s => .finish (.error (.failed "out of reach")) s],
      .action "walk" fun s => .finish (.ok ()) s]],
    .action "rest" fun s => .unwind s]
  raised := [2]

def flattening : List (List Nat × Edit) :=
  [([], .splice 0), ([], .splice 0), ([1], .splice 0),
    ([2], .wrap [.sequence, .fallback, .sequence])]

theorem ticks_edited_crowded :
    crowded.root.Plain ∧
    (crowded.edited flattening).root = .sequence [.condition "awake" fun s => .finish true s,
      .fallback [.action "grab" fun s => .finish (.error (.failed "out of reach")) s,
        .action "walk" fun s => .finish (.ok ()) s],
      .sequence [.fallback [.sequence [.action "rest" fun s => .unwind s]]]] ∧
    ∃ v, (crowded.edited flattening).later [] 1 = (crowded.edited flattening, v) ∧
      ((crowded.edited flattening).tick v).1 = .returned .running ∧
      (crowded.edited flattening).calls v = [0, 1] := by
  have plain : crowded.root.Plain := by
    simp [crowded, Node.Plain, Node.fringe, Node.fringeAll, Node.PlainLeaf, Routine.Plain]
  obtain ⟨-, -, ticks⟩ := ticks_edited crowded plain flattening []
  obtain ⟨v, exit, w, before, before', ticked, ticked', calls⟩ := ticks 1
  obtain rfl : [.stillExecuting "walk", .actionFailed "grab" (.failed "out of reach")] = v :=
    congrArg Prod.snd before
  obtain rfl : .returned .running = exit := congrArg Prod.fst (ticked .nowhere)
  exact ⟨plain, rfl, _, before', congrArg Prod.fst (ticked' .nowhere), calls⟩

end Tree

end Pursuit.Behavior
