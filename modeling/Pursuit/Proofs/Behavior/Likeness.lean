import Pursuit.Proofs.Behavior.ShortCircuit
import Pursuit.Proofs.Behavior.Orderly
import Pursuit.Behavior.Driver
import Mathlib.Data.List.Forall2

/-! Trees that are alike through a view of the host. Their leaves, called on hosts that show the
same, end alike and leave hosts that show the same; the states on one side are those on the other,
turned. Ticks of such trees are alike as a whole and move by move. -/
namespace Pursuit.Behavior

variable {σ ρ β : Type}

/-- Both have nothing ticked and end alike, with answers that agree. -/
inductive Routine.Like (view : σ → β) (agree : ρ → ρ → Prop) : Routine σ ρ → Routine σ ρ → Prop
  | finish {a b : ρ} {s t : σ} (answers : agree a b) (shown : view t = view s) :
      Like view agree (.finish a s) (.finish b t)
  | unwind {s t : σ} (shown : view t = view s) : Like view agree (.unwind s) (.unwind t)

theorem Routine.Like.imp {view : σ → β} {agree agree' : ρ → ρ → Prop} {rest rest' : Routine σ ρ}
    (like : rest.Like view agree rest') (h : ∀ a b, agree a b → agree' a b) :
    rest.Like view agree' rest' := by
  cases like with
  | finish answers shown => exact .finish (h _ _ answers) shown
  | unwind shown => exact .unwind shown

theorem Routine.Like.plain {view : σ → β} {agree : ρ → ρ → Prop} {rest rest' : Routine σ ρ}
    (like : rest.Like view agree rest') : rest.Plain := by
  cases like with
  | finish | unwind => trivial

def Call.Turned (turn : Status → Status) (c : Call) (a b : c.Answer) : Prop :=
  c.status b = turn (c.status a)

namespace Node

inductive Like (view : σ → β) (turn : Status → Status) : Node σ → Node σ → Prop
  | composite {n m : Node σ} (left : n.isLeaf = false) (right : m.isLeaf = false)
      (pass : m.pass = turn n.pass)
      (children : List.Forall₂ (Like view turn) n.children m.children) :
      Like view turn n m
  | condition (name : String) {p q : σ → Routine σ Bool}
      (code : ∀ s t, view t = view s → (p s).Like view (Call.predicate.Turned turn) (q t)) :
      Like view turn (.condition name p) (.condition name q)
  | action (name : String) {e f : σ → Routine σ (Except ActionFault Unit)}
      (code : ∀ slot s t, view t = view s →
        (e s).Like view ((Call.effect name slot).Turned turn) (f t)) :
      Like view turn (.action name e) (.action name f)

/-- What the leaf does depends on what `view` shows only, and nothing is ticked for it. -/
def HeedsLeaf (view : σ → β) : Node σ → Prop
  | .condition _ predicate => ∀ s t, view t = view s → (predicate s).Like view Eq (predicate t)
  | .action _ effect => ∀ s t, view t = view s → (effect s).Like view Eq (effect t)
  | .sequence _ | .fallback _ => True

def Heeds (view : σ → β) (n : Node σ) : Prop := ∀ l ∈ n.fringe, l.HeedsLeaf view

theorem Heeds.child {view : σ → β} {n c : Node σ} (heeds : n.Heeds view) (h : c ∈ n.children) :
    c.Heeds view := fun l hl => heeds l (fringe_subset h hl)

theorem Heeds.plain {view : σ → β} {n : Node σ} (heeds : n.Heeds view) : n.Plain := by
  intro l hl
  have here := heeds l hl
  cases l with
  | sequence | fallback => trivial
  | condition | action => exact fun s => (here s s rfl).plain

/-- A tree whose leaves go by the view is like the one that a map of the nodes makes of it, if the
map has the state that a composite passes over turned and makes a like leaf of every leaf. -/
theorem Heeds.like_map {view : σ → β} {turn : Status → Status} {f : Node σ → Node σ}
    (composite : ∀ n : Node σ, n.isLeaf = false → (f n).isLeaf = false ∧
      (f n).pass = turn n.pass ∧ (f n).children = n.children.map f)
    (leaf : ∀ l : Node σ, l.isLeaf → l.HeedsLeaf view → l.Like view turn (f l)) {n : Node σ}
    (heeds : n.Heeds view) : n.Like view turn (f n) := by
  have whole {n : Node σ} (left : n.isLeaf = false) (heeds : n.Heeds view)
      (ih : ∀ c ∈ n.children, c.Heeds view → c.Like view turn (f c)) : n.Like view turn (f n) := by
    obtain ⟨right, pass, children⟩ := composite n left
    refine .composite left right pass ?_
    rw [children, List.forall₂_map_right_iff, List.forall₂_same]
    exact fun c hc => ih c hc (heeds.child hc)
  induction n using Node.induction with
  | sequence cs ih => exact whole rfl heeds ih
  | fallback cs ih => exact whole rfl heeds ih
  | condition | action => exact leaf _ rfl (heeds _ (List.mem_singleton_self _))

theorem Heeds.like {view : σ → β} {n : Node σ} (heeds : n.Heeds view) : n.Like view id n := by
  refine heeds.like_map (f := id) (fun n h => ⟨h, rfl, (List.map_id _).symm⟩) fun l _ here => ?_
  cases l with
  | sequence | fallback => contradiction
  | condition name predicate =>
    exact .condition name fun s t same => (here s t same).imp fun a b h => h ▸ rfl
  | action name effect =>
    exact .action name fun slot s t same => (here s t same).imp fun a b h => h ▸ rfl

@[elab_as_elim]
theorem Like.induction {view : σ → β} {turn : Status → Status} {P : Node σ → Node σ → Prop}
    {n m : Node σ} (like : n.Like view turn m)
    (composite : ∀ n m, n.isLeaf = false → m.isLeaf = false → m.pass = turn n.pass →
      List.Forall₂ P n.children m.children → P n m)
    (condition : ∀ name p q,
      (∀ s t, view t = view s → (p s).Like view (Call.predicate.Turned turn) (q t)) →
      P (.condition name p) (.condition name q))
    (action : ∀ name e f, (∀ slot s t, view t = view s →
        (e s).Like view ((Call.effect name slot).Turned turn) (f t)) →
      P (.action name e) (.action name f)) : P n m :=
  @Like.rec σ β view turn (fun n m _ => P n m) (fun cs ds _ => List.Forall₂ P cs ds)
    (fun left right pass _ ih => composite _ _ left right pass ih)
    (fun name p q code => condition name p q code) (fun name e f code => action name e f code)
    .nil (fun _ _ first rest => .cons first rest) n m like

theorem leavesAll_like {cs ds : List (Node σ)}
    (children : List.Forall₂ (fun c d => d.leaves = c.leaves) cs ds) :
    leavesAll ds = leavesAll cs := by
  induction children with
  | nil => rfl
  | cons first _ ih => rw [leavesAll, leavesAll, first, ih]

theorem Like.leaves {view : σ → β} {turn : Status → Status} {n m : Node σ}
    (like : n.Like view turn m) : m.leaves = n.leaves := by
  refine like.induction (fun n m left right _ children => ?_)
    (fun _ _ _ _ => rfl) fun _ _ _ _ => rfl
  rw [leaves_composite left, leaves_composite right]
  exact leavesAll_like children

end Node

/-- The view does not show the log. Turning tells states apart and leaves running as it is. -/
structure Faithful [Journal σ] (view : σ → β) (turn : Status → Status) : Prop where
  journal : ∀ e s, view (record e s) = view s
  injective : ∀ a b, turn a = turn b → a = b
  running : turn .running = .running

@[simp] theorem Exit.map_id {α : Type} (exit : Exit α) : exit.map id = exit := by
  cases exit <;> rfl

structure Run.Like (view : σ → β) (r r' : Run σ) : Prop where
  view : view r'.state = view r.state
  raised : r'.raised = r.raised

/-- Ends of two ticks, of which one is that of the other turned. -/
structure Exit.Like (view : σ → β) (turn : Status → Status) (x y : Exit Status × Run σ) : Prop where
  exit : y.1 = x.1.map turn
  run : x.2.Like view y.2

variable {view : σ → β} {turn : Status → Status} {r r' : Run σ}

theorem Run.Like.raise (like : r.Like view r') (slot : Nat) :
    (r.raise slot).Like view (r'.raise slot) :=
  ⟨like.view, congrArg (slot :: ·) like.raised⟩

theorem Run.Like.lower (like : r.Like view r') (c : Call) : (c.lower r).Like view (c.lower r') := by
  cases c with
  | predicate => exact like
  | effect name slot => exact ⟨like.view, congrArg (·.erase slot) like.raised⟩

variable [Journal σ]

theorem Run.Like.note (faithful : Faithful view turn) (like : r.Like view r') (c : Call)
    (a b : c.Answer) : (c.note a r).Like view (c.note b r') := by
  have kept (a : c.Answer) (r : Run σ) : view (c.note a r).state = view r.state := by
    cases c with
    | predicate => rfl
    | effect name slot =>
      cases a with
      | ok => rfl
      | error => exact faithful.journal _ _
  refine ⟨?_, ?_⟩
  · rw [kept, kept, like.view]
  · rw [c.raised_note, c.raised_note, like.raised]

theorem Run.Like.stillExecuting (faithful : Faithful view turn) (like : r.Like view r')
    (name : String) : (r.note (.stillExecuting name)).Like view
      (r'.note (.stillExecuting name)) := by
  refine ⟨?_, like.raised⟩
  simp only [Run.note, faithful.journal, like.view]

theorem Call.settle_like (faithful : Faithful view turn) (c : Call)
    {rest rest' : Routine σ c.Answer} (like : rest.Like view (c.Turned turn) rest')
    (inner inner' : Inner σ) {raised raised' : List Nat} (same : raised' = raised) :
    Exit.Like view turn (c.settle (rest.perform inner raised))
      (c.settle (rest'.perform inner' raised')) := by
  cases like with
  | @finish a b s t turned shown =>
    have ended : Run.Like view ⟨s, raised⟩ ⟨t, raised'⟩ := ⟨shown, same⟩
    exact ⟨congrArg Exit.returned turned, (ended.lower c).note faithful c a b⟩
  | @unwind s t shown =>
    have ended : Run.Like view ⟨s, raised⟩ ⟨t, raised'⟩ := ⟨shown, same⟩
    exact ⟨rfl, ended.lower c⟩

namespace Node

variable {n m : Node σ} {inner inner' : Inner σ}

/-- Ticks that begin alike, at the same position, end alike and call the same leaves. -/
def Agree (view : σ → β) (turn : Status → Status) (inner inner' : Inner σ) (n m : Node σ) : Prop :=
  m.leaves = n.leaves ∧ ∀ (slot : Nat) (r r' : Run σ), r.Like view r' →
    Exit.Like view turn (n.tick inner slot r) (m.tick inner' slot r') ∧
    m.called inner' slot r' = n.called inner slot r

theorem walk_like (faithful : Faithful view turn) (pass : Status) {cs ds : List (Node σ)}
    (children : List.Forall₂ (Agree view turn inner inner') cs ds) (slot : Nat) {r r' : Run σ}
    (like : r.Like view r') :
    Exit.Like view turn (walk inner pass cs slot r) (walk inner' (turn pass) ds slot r') ∧
    calledAll inner' (turn pass) ds slot r' = calledAll inner pass cs slot r := by
  induction children generalizing slot r r' with
  | nil => exact ⟨⟨rfl, like⟩, rfl⟩
  | @cons c d cs ds first rest ih =>
    obtain ⟨same, first⟩ := first
    obtain ⟨⟨ended, run⟩, calls⟩ := first slot r r' like
    rw [walk, walk, calledAll, calledAll, calls, same]
    obtain ⟨exit, after, ticked⟩ : ∃ exit after, c.tick inner slot r = (exit, after) := ⟨_, _, rfl⟩
    obtain ⟨exit', after', ticked'⟩ : ∃ exit after, d.tick inner' slot r' = (exit, after) :=
      ⟨_, _, rfl⟩
    rw [ticked, ticked'] at ended run
    rw [ticked, ticked']
    obtain rfl : exit' = exit.map turn := ended
    cases exit with
    | returned status =>
      by_cases hs : status = pass
      · subst hs
        simp only [Exit.map, if_true]
        obtain ⟨rest, calls⟩ := ih (slot + c.leaves) run
        exact ⟨rest, by rw [calls]⟩
      · have turned : ¬ turn status = turn pass := fun h => hs (faithful.injective _ _ h)
        simp only [Exit.map, hs, turned, if_false]
        exact ⟨⟨rfl, run⟩, trivial⟩
    | unwound | tooDeep => exact ⟨⟨rfl, run⟩, rfl⟩

/-- Trees that are alike have ticks that are alike, whatever their leaves could reach. -/
theorem Like.agree (faithful : Faithful view turn) (like : n.Like view turn m)
    (inner inner' : Inner σ) : Agree view turn inner inner' n m := by
  refine like.induction (fun n m left right pass children => ?composite)
    (fun name p q code => ?condition) fun name e f code => ?action
  case composite =>
    refine ⟨?_, fun slot r r' same => ?_⟩
    · rw [leaves_composite left, leaves_composite right]
      exact leavesAll_like (children.imp fun _ _ h => h.1)
    · rw [tick_composite left, tick_composite right, called_composite left, called_composite right,
        pass]
      exact walk_like faithful n.pass children slot same
  case condition =>
    refine ⟨rfl, fun slot r r' same => ⟨?_, rfl⟩⟩
    rw [tick_condition, tick_condition]
    exact Call.predicate.settle_like faithful (code _ _ same.view) inner inner' same.raised
  case action =>
    refine ⟨rfl, fun slot r r' same => ?_⟩
    rw [called, called, same.raised]
    by_cases raised : slot ∈ r.raised
    · have raised' : slot ∈ r'.raised := same.raised ▸ raised
      rw [tick_action_of_mem raised, tick_action_of_mem raised']
      exact ⟨⟨by rw [Exit.map, faithful.running], same.stillExecuting faithful name⟩, rfl⟩
    · have lowered : slot ∉ r'.raised := same.raised ▸ raised
      rw [tick_action_of_not_mem raised, tick_action_of_not_mem lowered]
      refine ⟨?_, rfl⟩
      exact (Call.effect name slot).settle_like faithful (code slot _ _ same.view) inner inner'
        (same.raise slot).raised

end Node

theorem Tree.tickWith_like (faithful : Faithful view turn) {t t' : Tree σ}
    (like : t.root.Like view turn t'.root) (raised : t'.raised = t.raised) {s s' : σ}
    (same : view s' = view s) (inner inner' : Inner σ) :
    (t'.tickWith inner' s').1 = (t.tickWith inner s).1.map turn ∧
    view (t'.tickWith inner' s').2.2 = view (t.tickWith inner s).2.2 := by
  obtain ⟨⟨exit, run⟩, -⟩ :=
    (like.agree faithful inner inner').2 0 ⟨s, t.raised⟩ ⟨s', t'.raised⟩ ⟨same, raised⟩
  exact ⟨exit, run.view⟩

/-! ## Hosts that show the same -/

section Heeds

variable {t : Tree σ} {s s' w : σ}

theorem Tree.tick_heeds (journal : ∀ e s, view (record e s) = view s) (heeds : t.root.Heeds view)
    {exit : Exit Status} {t₁ : Tree σ} (ticked : t.tick s = (exit, t₁, w))
    (same : view s' = view s) : ∃ w', t.tick s' = (exit, t₁, w') ∧ view w' = view w := by
  have faithful : Faithful view id := ⟨journal, fun _ _ => id, rfl⟩
  obtain ⟨ended, shown⟩ := tickWith_like faithful heeds.like rfl same .nowhere .nowhere
  obtain ⟨exit₀, w₀, here⟩ := tickWith_of_plain heeds.plain s
  obtain ⟨exit', w', there⟩ := tickWith_of_plain heeds.plain s'
  obtain ⟨rfl, rfl, rfl⟩ : exit₀ = exit ∧ t = t₁ ∧ w₀ = w := by
    simpa [tick, here] using ticked
  rw [here, there] at ended shown
  obtain rfl : exit' = exit₀ := ended.trans exit₀.map_id
  exact ⟨w', there _, shown⟩

theorem Driver.fire_heeds (journal : ∀ e s, view (record e s) = view s) {d d₁ : Driver σ}
    (heeds : t.root.Heeds view) {exit : Exit Unit} (fired : d.fire t s = (exit, d₁, w))
    (same : view s' = view s) : ∃ w', d.fire t s' = (exit, d₁, w') ∧ view w' = view w := by
  rw [fire] at fired ⊢
  obtain ⟨ended, t₁, v, ticked⟩ : ∃ ended t₁ v, t.tick s = (ended, t₁, v) := ⟨_, _, _, rfl⟩
  obtain ⟨v', ticked', shown⟩ := Tree.tick_heeds journal heeds ticked same
  rw [ticked] at fired
  rw [ticked']
  cases ended with
  | returned status =>
    cases fired
    exact ⟨_, rfl, by rw [journal, journal, shown]⟩
  | unwound | tooDeep =>
    cases fired
    exact ⟨_, rfl, shown⟩

theorem Driver.frame_heeds (journal : ∀ e s, view (record e s) = view s) {d d₁ : Driver σ}
    (held : d.root = some t) (heeds : t.root.Heeds view) {delta : Float} {exit : Exit Unit}
    (framed : d.frame delta s = (exit, d₁, w)) (same : view s' = view s) :
    ∃ w', d.frame delta s' = (exit, d₁, w') ∧ view w' = view w := by
  rw [frame, held] at framed ⊢
  cases running : d.isRunning with
  | false =>
    rw [running] at framed
    cases framed
    exact ⟨s', rfl, same⟩
  | true =>
    rw [running] at framed
    dsimp only at framed ⊢
    by_cases fine : usable delta
    · rw [if_pos fine] at framed ⊢
      by_cases due : d.interval ≤ d.timer + delta
      · rw [if_pos due] at framed ⊢
        exact fire_heeds journal heeds framed same
      · rw [if_neg due] at framed ⊢
        cases framed
        exact ⟨s', rfl, same⟩
    · rw [if_neg fine] at framed ⊢
      cases framed
      exact ⟨_, rfl, by rw [journal, journal, same]⟩

end Heeds

/-! ## Moves -/

inductive Focus.Like (view : σ → β) (turn : Status → Status) : Focus σ → Focus σ → Prop
  | tick {n m : Node σ} (slot : Nat) (nodes : n.Like view turn m) :
      Like view turn (.tick n slot) (.tick m slot)
  | walk (pass : Status) {cs ds : List (Node σ)} (slot : Nat)
      (rest : List.Forall₂ (Node.Like view turn) cs ds) :
      Like view turn (.walk pass cs slot) (.walk (turn pass) ds slot)
  | call (c : Call) {rest rest' : Routine σ c.Answer}
      (code : rest.Like view (c.Turned turn) rest') : Like view turn (.call c rest) (.call c rest')
  | answer {status status' : Status} (turned : status' = turn status) :
      Like view turn (.answer status) (.answer status')
  | unwinding : Like view turn .unwinding .unwinding

inductive Frame.Like (view : σ → β) (turn : Status → Status) : Frame σ → Frame σ → Prop
  | walk (pass : Status) {cs ds : List (Node σ)} (slot : Nat)
      (rest : List.Forall₂ (Node.Like view turn) cs ds) :
      Like view turn (.walk pass cs slot) (.walk (turn pass) ds slot)

namespace Machine

structure Like (view : σ → β) (turn : Status → Status) (m m' : Machine σ) : Prop where
  focus : m.focus.Like view turn m'.focus
  stack : List.Forall₂ (Frame.Like view turn) m.stack m'.stack
  run : m.run.Like view m'.run

section Step

variable {root root' : Node σ} {k k' : List (Frame σ)}

theorem step_composite {n : Node σ} (h : n.isLeaf = false) (slot : Nat) (k : List (Frame σ))
    (r : Run σ) : step root ⟨.tick n slot, k, r⟩ = some ⟨.walk n.pass n.children slot, k, r⟩ := by
  cases n with
  | sequence | fallback => rfl
  | condition | action => cases h

theorem step_tick_like (faithful : Faithful view turn) {n m : Node σ} (nodes : n.Like view turn m)
    (slot : Nat) (stack : List.Forall₂ (Frame.Like view turn) k k') (run : r.Like view r') :
    Option.Rel (Like view turn) (step root ⟨.tick n slot, k, r⟩)
      (step root' ⟨.tick m slot, k', r'⟩) := by
  cases nodes with
  | composite left right pass children =>
    rw [step_composite left, step_composite right, pass]
    exact .some ⟨.walk _ slot children, stack, run⟩
  | condition name code => exact .some ⟨.call .predicate (code _ _ run.view), stack, run⟩
  | action name code =>
    by_cases raised : slot ∈ r.raised
    · have raised' : slot ∈ r'.raised := run.raised ▸ raised
      simp only [step, raised, raised', if_true]
      exact .some ⟨.answer faithful.running.symm, stack, run.stillExecuting faithful name⟩
    · have lowered : slot ∉ r'.raised := run.raised ▸ raised
      simp only [step, raised, lowered, if_false]
      exact .some ⟨.call _ (code slot _ _ run.view), stack, run.raise slot⟩

theorem step_call_like (faithful : Faithful view turn) (c : Call) {rest rest' : Routine σ c.Answer}
    (code : rest.Like view (c.Turned turn) rest')
    (stack : List.Forall₂ (Frame.Like view turn) k k') (run : r.Like view r') :
    Option.Rel (Like view turn) (step root ⟨.call c rest, k, r⟩)
      (step root' ⟨.call c rest', k', r'⟩) := by
  cases code with
  | @finish a b s t turned shown =>
    have ended : (r.withState s).Like view (r'.withState t) := ⟨shown, run.raised⟩
    exact .some ⟨.answer turned, stack, (ended.lower c).note faithful c a b⟩
  | @unwind s t shown =>
    have ended : (r.withState s).Like view (r'.withState t) := ⟨shown, run.raised⟩
    exact .some ⟨.unwinding, stack, ended.lower c⟩

/-- The walk above goes on or stops on both sides, since turning keeps states apart. -/
theorem step_answer_like (faithful : Faithful view turn) (status : Status)
    (stack : List.Forall₂ (Frame.Like view turn) k k') (run : r.Like view r') :
    Option.Rel (Like view turn) (step root ⟨.answer status, k, r⟩)
      (step root' ⟨.answer (turn status), k', r'⟩) := by
  cases stack with
  | nil => exact .none
  | cons top below =>
    obtain ⟨pass, slot, rest⟩ := top
    by_cases hs : status = pass
    · subst hs
      simp only [step, if_true]
      exact .some ⟨.walk status slot rest, below, run⟩
    · have turned : ¬ turn status = turn pass := fun h => hs (faithful.injective _ _ h)
      simp only [step, hs, turned, if_false]
      exact .some ⟨.answer rfl, below, run⟩

/-- Machines that are alike halt together or make a move after which they are alike. -/
theorem step_like (faithful : Faithful view turn) {m m' : Machine σ} (like : m.Like view turn m') :
    Option.Rel (Like view turn) (step root m) (step root' m') := by
  obtain ⟨focus, k, r⟩ := m
  obtain ⟨focus', k', r'⟩ := m'
  obtain ⟨here, stack, run⟩ := like
  dsimp only at here stack run
  cases here with
  | tick slot nodes => exact step_tick_like faithful nodes slot stack run
  | walk pass slot rest =>
    cases rest with
    | nil => exact .some ⟨.answer rfl, stack, run⟩
    | cons first rest =>
      rw [step, step, first.leaves]
      exact .some ⟨.tick slot first, .cons (.walk pass _ rest) stack, run⟩
  | call c code => exact step_call_like faithful c code stack run
  | answer turned =>
    subst turned
    exact step_answer_like faithful _ stack run
  | unwinding =>
    cases stack with
    | nil => exact .none
    | cons top below =>
      obtain ⟨pass, slot, rest⟩ := top
      exact .some ⟨.unwinding, below, run⟩

end Step

variable {root root' : Node σ}

theorem advance_like (faithful : Faithful view turn) (moves : Nat) {m m' : Machine σ}
    (like : m.Like view turn m') :
    Option.Rel (Like view turn) (advance root moves m) (advance root' moves m') := by
  induction moves generalizing m m' with
  | zero => exact .some like
  | succ moves ih =>
    rw [advance, advance]
    have move : Option.Rel (Like view turn) (step root m) (step root' m') := step_like faithful like
    generalize step root m = next at move ⊢
    generalize step root' m' = next' at move ⊢
    cases move with
    | none => exact .none
    | some both => exact ih both

theorem raised_advance_like (faithful : Faithful view turn) (moves : Nat) {m m' : Machine σ}
    (like : m.Like view turn m') :
    (advance root' moves m').map (·.run.raised) = (advance root moves m).map (·.run.raised) := by
  have both : Option.Rel (Like view turn) (advance root moves m) (advance root' moves m') :=
    advance_like faithful moves like
  generalize advance root moves m = last at both ⊢
  generalize advance root' moves m' = last' at both ⊢
  cases both with
  | none => rfl
  | some like => exact congrArg some like.run.raised

end Machine

end Pursuit.Behavior
