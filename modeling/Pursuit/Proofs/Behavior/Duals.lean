import Pursuit.Proofs.Behavior.Likeness
import Pursuit.Proofs.Behavior.Orderly

/-! Sequence and fallback are dual. In the dual of a tree they change places, and every leaf gives
the opposite of what it gave. A tick of the dual then does the same, move by move, and returns the
opposite. -/
namespace Pursuit

def Status.opposite : Status → Status
  | .success => .failure
  | .failure => .success
  | .running => .running

@[simp] theorem Status.opposite_opposite (a : Status) : a.opposite.opposite = a := by
  cases a <;> rfl

namespace Behavior

variable {σ ρ τ β : Type}

def Routine.map (f : ρ → τ) : Routine σ ρ → Routine σ τ
  | .finish a s => .finish (f a) s
  | .unwind s => .unwind s
  | .consult path s next => .consult path s fun status s => (next status s).map f

theorem Routine.Plain.map {rest : Routine σ ρ} (plain : rest.Plain) (f : ρ → τ) :
    (rest.map f).Plain := by
  cases rest with
  | finish | unwind => trivial
  | consult => cases plain

/-- What went through fails with `fault`, and what failed goes through. -/
def reversed (fault : ActionFault) : Except ActionFault Unit → Except ActionFault Unit
  | .ok () => .error fault
  | .error _ => .ok ()

namespace Node

mutual
/-- Sequences for fallbacks, and the opposite answer of every leaf. The errors of the dual actions
are free to choose. -/
def dual (fault : String → ActionFault) : Node σ → Node σ
  | .sequence cs => .fallback (dualAll fault cs)
  | .fallback cs => .sequence (dualAll fault cs)
  | .condition name predicate => .condition name fun s => (predicate s).map not
  | .action name effect => .action name fun s => (effect s).map (reversed (fault name))

def dualAll (fault : String → ActionFault) : List (Node σ) → List (Node σ)
  | [] => []
  | c :: cs => c.dual fault :: dualAll fault cs
end

theorem dualAll_eq_map (fault : String → ActionFault) (cs : List (Node σ)) :
    dualAll fault cs = cs.map (dual fault) := by
  induction cs with
  | nil => rfl
  | cons c cs ih => rw [dualAll, ih, List.map_cons]

theorem fringeAll_dual {fault : String → ActionFault} {cs : List (Node σ)}
    (children : ∀ c ∈ cs, (c.dual fault).fringe = c.fringe.map (dual fault)) :
    fringeAll (dualAll fault cs) = (fringeAll cs).map (dual fault) := by
  induction cs with
  | nil => rfl
  | cons c cs ih =>
    obtain ⟨hc, hcs⟩ := List.forall_mem_cons.1 children
    simp [dualAll, fringeAll, hc, ih hcs]

@[simp] theorem fringe_dual (fault : String → ActionFault) (n : Node σ) :
    (n.dual fault).fringe = n.fringe.map (dual fault) := by
  induction n using Node.induction with
  | sequence cs ih => exact fringeAll_dual ih
  | fallback cs ih => exact fringeAll_dual ih
  | condition | action => rfl

theorem Plain.dual {n : Node σ} (plain : n.Plain) (fault : String → ActionFault) :
    (n.dual fault).Plain := by
  intro l hl
  rw [fringe_dual, List.mem_map] at hl
  obtain ⟨l, hl, rfl⟩ := hl
  have here := plain l hl
  cases l with
  | sequence | fallback => trivial
  | condition | action => exact fun s => (here s).map _

end Node

theorem Routine.Like.map {view : σ → β} {rest rest' : Routine σ ρ} (like : rest.Like view Eq rest')
    {agree : ρ → ρ → Prop} {f : ρ → ρ} (changed : ∀ a, agree a (f a)) :
    rest.Like view agree (rest'.map f) := by
  cases like with
  | finish same shown => exact .finish (same ▸ changed _) shown
  | unwind shown => exact .unwind shown

namespace Node

theorem Heeds.like_dual {view : σ → β} {n : Node σ} (heeds : n.Heeds view)
    (fault : String → ActionFault) : n.Like view .opposite (n.dual fault) := by
  refine heeds.like_map (f := dual fault) (fun n h => ?_) fun l _ here => ?_
  · cases n with
    | sequence cs | fallback cs => exact ⟨rfl, rfl, dualAll_eq_map fault cs⟩
    | condition | action => cases h
  · cases l with
    | sequence | fallback => contradiction
    | condition name predicate =>
      refine .condition name fun s t same => (here s t same).map fun b => ?_
      cases b <;> rfl
    | action name effect =>
      refine .action name fun slot s t same => (here s t same).map fun a => ?_
      cases a <;> rfl

end Node

namespace Tree

def dual (fault : String → ActionFault) (t : Tree σ) : Tree σ :=
  { t with root := t.root.dual fault }

variable [Journal σ] {view : σ → β} {t : Tree σ}

theorem faithful_opposite (journal : ∀ e s, view (record e s) = view s) :
    Faithful view .opposite where
  journal := journal
  injective := fun a b h => by rw [← a.opposite_opposite, h, b.opposite_opposite]
  running := rfl

theorem tickWith_dual (journal : ∀ e s, view (record e s) = view s) (heeds : t.root.Heeds view)
    (fault : String → ActionFault) {s s' : σ} (same : view s' = view s) :
    ∃ exit w w', (∀ inner, t.tickWith inner s = (exit, t, w)) ∧
      (∀ inner, (t.dual fault).tickWith inner s' = (exit.map .opposite, t.dual fault, w')) ∧
      view w' = view w := by
  obtain ⟨exit, w, ticked⟩ := tickWith_of_plain heeds.plain s
  have plain' : (t.dual fault).root.Plain := heeds.plain.dual fault
  obtain ⟨exit', w', ticked'⟩ := tickWith_of_plain plain' s'
  have like : t.root.Like view .opposite (t.dual fault).root := heeds.like_dual fault
  obtain ⟨ended, shown⟩ :=
    tickWith_like (faithful_opposite journal) like rfl same .nowhere .nowhere
  rw [ticked, ticked'] at ended shown
  obtain rfl : exit' = exit.map .opposite := ended
  exact ⟨exit, w, w', ticked, ticked', shown⟩

theorem later_dual (journal : ∀ e s, view (record e s) = view s) (heeds : t.root.Heeds view)
    (fault : String → ActionFault) {s s' : σ} (same : view s' = view s) (k : Nat) :
    ∃ v v', t.later s k = (t, v) ∧ (t.dual fault).later s' k = (t.dual fault, v') ∧
      view v' = view v := by
  induction k with
  | zero => exact ⟨s, s', rfl, rfl, same⟩
  | succ k ih =>
    obtain ⟨v, v', before, before', same⟩ := ih
    obtain ⟨exit, w, w', ticked, ticked', shown⟩ := tickWith_dual journal heeds fault same
    refine ⟨w, w', ?_, ?_, shown⟩
    · rw [later, before, tick, ticked]
    · rw [later, before', tick, ticked']

theorem calls_dual (journal : ∀ e s, view (record e s) = view s) (heeds : t.root.Heeds view)
    (fault : String → ActionFault) {s s' : σ} (same : view s' = view s) :
    (t.dual fault).calls s' = t.calls s := by
  have plain' : (t.dual fault).root.Plain := heeds.plain.dual fault
  rw [calls_eq_called plain', calls_eq_called heeds.plain]
  have agree := (heeds.like_dual fault).agree (faithful_opposite journal) .nowhere .nowhere
  exact (agree.2 0 ⟨s, t.raised⟩ ⟨s', t.raised⟩ ⟨same, rfl⟩).2

open Machine in
theorem raised_dual (journal : ∀ e s, view (record e s) = view s) (heeds : t.root.Heeds view)
    (fault : String → ActionFault) {s s' : σ} (same : view s' = view s) (moves : Nat) :
    (advance (t.dual fault).root moves (start (t.dual fault).root 0 ⟨s', t.raised⟩)).map
        (·.run.raised) =
      (advance t.root moves (start t.root 0 ⟨s, t.raised⟩)).map (·.run.raised) := by
  have first : (start t.root 0 ⟨s, t.raised⟩).Like view .opposite
      (start (t.dual fault).root 0 ⟨s', t.raised⟩) :=
    ⟨.tick 0 (heeds.like_dual fault), .nil, same, rfl⟩
  exact raised_advance_like (faithful_opposite journal) moves first

open Machine in
/-- Some ticks in a row of a tree whose leaves have nothing ticked, and as many of its dual. An
action that fails is logged and its dual is not, so the hosts come to differ in their logs; in all
else that `view` shows, and that the leaves go by, they stay the same. Every tick of the dual calls
the leaves at the same positions in the same order, has the same actions raised after every move, is
abandoned where that of the tree is, and returns the opposite. -/
theorem ticks_dual (view : σ → β) (journal : ∀ e s, view (record e s) = view s) (t : Tree σ)
    (heeds : t.root.Heeds view) (fault : String → ActionFault) (s s' : σ)
    (same : view s' = view s) :
    (t.dual fault).root.fringe = t.root.fringe.map (Node.dual fault) ∧
    ∀ k, ∃ v v' exit w w', t.later s k = (t, v) ∧ (t.dual fault).later s' k = (t.dual fault, v') ∧
      (∀ inner, t.tickWith inner v = (exit, t, w)) ∧
      (∀ inner, (t.dual fault).tickWith inner v' = (exit.map .opposite, t.dual fault, w')) ∧
      view v' = view v ∧ view w' = view w ∧
      (t.dual fault).calls v' = t.calls v ∧
      ∀ moves, (advance (t.dual fault).root moves
          (start (t.dual fault).root 0 ⟨v', (t.dual fault).raised⟩)).map (·.run.raised) =
        (advance t.root moves (start t.root 0 ⟨v, t.raised⟩)).map (·.run.raised) := by
  refine ⟨Node.fringe_dual fault t.root, fun k => ?_⟩
  obtain ⟨v, v', before, before', shown⟩ := later_dual journal heeds fault same k
  obtain ⟨exit, w, w', ticked, ticked', after⟩ := tickWith_dual journal heeds fault shown
  exact ⟨v, v', exit, w, w', before, before', ticked, ticked', shown, after,
    calls_dual journal heeds fault shown, raised_dual journal heeds fault shown⟩

def moody : Tree (Watched (List Event)) where
  root := .sequence [
    .action "knock" fun w =>
      let heard : Watched (List Event) := { w with calls := 0 :: w.calls }
      match w.calls with
      | [] => .finish (.ok ()) heard
      | [_] => .finish (.error (.failed "no answer")) heard
      | _ => .unwind heard,
    .fallback [.condition "open" fun w => .finish false w, .action "wait" fun w => .unwind w]]
  raised := [2]

theorem ticks_dual_moody :
    moody.root.Heeds Watched.calls ∧ ∃ v v',
      moody.later ⟨[], []⟩ 1 = (moody, v) ∧
      (moody.dual fun _ => .failed "answered").later ⟨[], []⟩ 1 =
        (moody.dual fun _ => .failed "answered", v') ∧
      (moody.tick v).1 = .returned .failure ∧
      ((moody.dual fun _ => .failed "answered").tick v').1 = .returned .success ∧
      (moody.dual fun _ => .failed "answered").calls v' = [0] := by
  have heeds : moody.root.Heeds Watched.calls := by
    intro l hl
    simp only [moody, Node.fringe, Node.fringeAll, List.append_nil, List.cons_append,
      List.nil_append, List.mem_cons, List.not_mem_nil, or_false] at hl
    obtain rfl | rfl | rfl := hl
    · rintro ⟨s, calls⟩ ⟨t, _⟩ ⟨rfl⟩
      obtain _ | ⟨_, _ | _⟩ := calls
      · exact .finish rfl rfl
      · exact .finish rfl rfl
      · exact .unwind rfl
    · exact fun s t same => .finish rfl same
    · exact fun s t same => .unwind same
  obtain ⟨-, ticks⟩ := ticks_dual Watched.calls (fun _ _ => rfl) moody heeds
    (fun _ => .failed "answered") ⟨[], []⟩ ⟨[], []⟩ rfl
  obtain ⟨v, v', exit, w, w', before, before', ticked, ticked', -, -, calls, -⟩ := ticks 1
  obtain rfl : (⟨[.stillExecuting "wait"], [0]⟩ : Watched (List Event)) = v :=
    congrArg Prod.snd before
  have failed : exit = .returned .failure := (congrArg Prod.fst (ticked .nowhere)).symm
  refine ⟨heeds, _, v', before, before', rfl, ?_, calls.trans rfl⟩
  rw [tick, ticked', failed]
  rfl

end Tree

end Behavior

end Pursuit
