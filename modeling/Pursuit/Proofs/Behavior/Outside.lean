import Pursuit.Proofs.Behavior.Cadence

/-! What is seen of a tree from outside. A tick that is made by a leaf may find an action whose
effect has not come back; a tick that is not finds none, since everything raised on its way has been
lowered again whenever it comes to an action, however the inner ticks ended. -/
namespace Pursuit.Behavior

variable {σ ρ : Type}

/-- Inner ticks leave raised what they find raised, however they end. -/
def Inner.Tidy (inner : Inner σ) : Prop := ∀ path r, (inner path r).2.raised = r.raised

theorem Inner.nowhere_tidy : (Inner.nowhere : Inner σ).Tidy := fun _ _ => rfl

/-- The end of a tick that is not running if nothing was raised, and leaves raised what was. -/
def Settled (raised : List Nat) (x : Exit Status × Run σ) : Prop :=
  (raised = [] → x.1 ≠ .returned .running) ∧ x.2.raised = raised

theorem Routine.raised_perform {inner : Inner σ} (tidy : inner.Tidy) (rest : Routine σ ρ)
    (raised : List Nat) : (rest.perform inner raised).2.raised = raised := by
  induction rest generalizing raised with
  | finish a s | unwind s => rfl
  | consult path s next ih =>
    rw [perform]
    have kept := tidy path ⟨s, raised⟩
    obtain ⟨exit, after, asked⟩ : ∃ exit after, inner path ⟨s, raised⟩ = (exit, after) :=
      ⟨_, _, rfl⟩
    rw [asked] at kept ⊢
    cases exit with
    | returned status => exact (ih status after.state after.raised).trans kept
    | unwound | tooDeep => exact kept

theorem Call.status_ne_running (c : Call) (a : c.Answer) : c.status a ≠ .running := by
  cases c with
  | predicate => cases a <;> nofun
  | effect name slot => cases a <;> nofun

def Operation.Clear : Operation σ → Prop
  | .start t => t.raised = []
  | .resume | .stop | .frame _ => True

structure Driver.Calm (d : Driver σ) : Prop where
  clear : ∀ t, d.root = some t → t.raised = []
  last : d.last ≠ some .running

theorem Driver.Fresh.calm {interval : Float} {d : Driver σ} (fresh : d.Fresh interval)
    (clear : ∀ t, d.root = some t → t.raised = []) : d.Calm := by
  refine ⟨clear, ?_⟩
  obtain made | ⟨t, made⟩ := fresh
  · rw [create?_eq_ok made]
    nofun
  · rw [withRoot?_eq_ok made]
    nofun

variable [Journal σ] {inner : Inner σ}

theorem Call.settle_ne_running (c : Call) (x : Exit c.Answer × Run σ) :
    (c.settle x).1 ≠ .returned .running := by
  obtain ⟨exit, r⟩ := x
  cases exit with
  | returned a => simpa [Call.settle] using c.status_ne_running a
  | unwound | tooDeep => simp [Call.settle]

namespace Node

/-- A tick lowers all that was raised in it. So with nothing raised before, whatever action it comes
to is lowered. -/
theorem tick_settled (tidy : inner.Tidy) (n : Node σ) (slot : Nat) (r : Run σ) :
    Settled r.raised (n.tick inner slot r) := by
  induction n using Node.induction generalizing slot r with
  | sequence cs ih =>
    rw [tick_sequence]
    refine walk_ends (fun exit => r.raised = [] → exit ≠ .returned .running) (fun _ => by simp)
      (fun c hc slot r' found => ?_) slot rfl
    exact found ▸ ih c hc slot r'
  | fallback cs ih =>
    rw [tick_fallback]
    refine walk_ends (fun exit => r.raised = [] → exit ≠ .returned .running) (fun _ => by simp)
      (fun c hc slot r' found => ?_) slot rfl
    exact found ▸ ih c hc slot r'
  | condition name predicate =>
    rw [tick_condition]
    have kept := (predicate r.state).raised_perform tidy r.raised
    exact ⟨fun _ => Call.settle_ne_running _ _, Call.predicate.raised_settle kept⟩
  | action name effect =>
    by_cases raised : slot ∈ r.raised
    · rw [tick_action_of_mem raised]
      exact ⟨fun clear => absurd (clear ▸ raised) List.not_mem_nil, rfl⟩
    · rw [tick_action_of_not_mem raised]
      have kept := (effect r.state).raised_perform tidy (slot :: r.raised)
      exact ⟨fun _ => Call.settle_ne_running _ _, (Call.effect name slot).raised_settle kept⟩

theorem within_tidy (root : Node σ) (depth : Nat) : (root.within depth).Tidy := by
  induction depth with
  | zero =>
    intro path r
    cases found : root.find? 0 path with
    | none => rw [within_of_missing found]
    | some place => rw [within_zero found]
  | succ depth ih =>
    intro path r
    cases found : root.find? 0 path with
    | none => rw [within_of_missing found]
    | some place =>
      obtain ⟨slot, n⟩ := place
      rw [within_succ found rfl]
      exact (tick_settled ih n slot r).2

end Node

/-! ## Drivers -/

namespace Driver

/-- An operation on a driver whose leaves may have nodes of its tree ticked, as `reach` says for the
root. -/
def operateWith (reach : Node σ → Inner σ) (d : Driver σ) (s : σ) (op : Operation σ) :
    Exit Unit × Driver σ × σ :=
  match d.standing.effective? op with
  | none => d.operate s op
  | some (t, delta) =>
    let d := { d with timer := d.timer + delta }
    if d.interval ≤ d.timer then
      match t.tickWith (reach t.root) s with
      | (.returned status, t, s) =>
        let ticks := d.ticks + 1
        (.returned (), { d with root := some t, timer := 0.0, ticks, last := some status },
          record (.ticked ticks status) s)
      | (.unwound, t, s) => (.unwound, { d with root := some t }, s)
      | (.tooDeep, t, s) => (.tooDeep, { d with root := some t }, s)
    else (.returned (), d, s)

theorem operateWith_nowhere (d : Driver σ) (s : σ) (op : Operation σ) :
    d.operateWith (fun _ => .nowhere) s op = d.operate s op := by
  rw [operateWith]
  cases effective : d.standing.effective? op with
  | none => rfl
  | some pair =>
    obtain ⟨t, delta⟩ := pair
    exact (operate_of_effective effective).symm

/-- Operations one after another. One that breaks off is caught, and the next follows it. -/
def operateCaught (act : Driver σ → σ → Operation σ → Exit Unit × Driver σ × σ) (d : Driver σ)
    (s : σ) : List (Operation σ) → Driver σ × σ
  | [] => (d, s)
  | op :: ops => operateCaught act (act d s op).2.1 (act d s op).2.2 ops

theorem Calm.operate_of_ineffective {d : Driver σ} {s : σ} {op : Operation σ} (calm : d.Calm)
    (clear : op.Clear) (idle : d.standing.effective? op = none) : (d.operate s op).2.1.Calm := by
  cases op with
  | start t =>
    obtain ⟨events, started⟩ := start_eq (d := d) (t := t) (s := s)
    rw [operate, started]
    exact ⟨fun t' same => Option.some.inj same ▸ clear, calm.last⟩
  | resume | stop => exact ⟨calm.clear, calm.last⟩
  | frame delta =>
    rw [operate]
    obtain same | ignored := frame_of_ineffective (s := s) idle
    · rw [same]
      exact calm
    · rw [ignored]
      exact calm

theorem Calm.operateWith {reach : Node σ → Inner σ} (tidy : ∀ root, (reach root).Tidy)
    {d : Driver σ} {op : Operation σ} (calm : d.Calm) (clear : op.Clear) (s : σ) :
    (d.operateWith reach s op).2.1.Calm := by
  rw [Driver.operateWith]
  cases effective : d.standing.effective? op with
  | none => exact calm.operate_of_ineffective clear effective
  | some pair =>
    obtain ⟨t, delta⟩ := pair
    dsimp only
    split
    case isFalse => exact ⟨calm.clear, calm.last⟩
    case isTrue =>
      -- The tick finds nothing raised, so it leaves nothing raised and has another state to report.
      have lowered : t.raised = [] := calm.clear t (effective?_eq_some effective).2.2.1
      obtain ⟨done, raised⟩ := Node.tick_settled (tidy t.root) t.root 0 ⟨s, t.raised⟩
      obtain ⟨exit, after, ticked⟩ :
          ∃ exit after, t.root.tick (reach t.root) 0 ⟨s, t.raised⟩ = (exit, after) := ⟨_, _, rfl⟩
      rw [ticked] at raised done
      have held (t' : Tree σ) (same : some { t with raised := after.raised } = some t') :
          t'.raised = [] := Option.some.inj same ▸ raised.trans lowered
      rw [Tree.tickWith, ticked]
      cases exit with
      | returned status =>
        refine ⟨held, fun running => done lowered ?_⟩
        rw [Option.some.inj running]
      | unwound | tooDeep => exact ⟨held, calm.last⟩

theorem Calm.operateCaught {reach : Node σ → Inner σ} (tidy : ∀ root, (reach root).Tidy)
    {d : Driver σ} (calm : d.Calm) {ops : List (Operation σ)}
    (clear : ∀ op ∈ ops, op.Clear) (s : σ) :
    (d.operateCaught (Driver.operateWith reach) s ops).1.Calm := by
  induction ops generalizing d s with
  | nil => exact calm
  | cons op ops ih =>
    obtain ⟨first, rest⟩ := List.forall_mem_cons.1 clear
    exact ih (calm.operateWith tidy first s) rest _

/-- With no action raised before, a tick that is not made by a leaf is not running, and no action is
raised after it, whatever the leaves do and have ticked on the way. Nor has a driver last seen its
tree running after any operations in a row, as they are or with leaves that have nodes of the tree
ticked; those that broke off are caught. -/
theorem running_unseen :
    (∀ (root n : Node σ) (depth slot : Nat) (r : Run σ), r.raised = [] →
      (n.tick (root.within depth) slot r).1 ≠ .returned .running ∧
      (n.tick (root.within depth) slot r).2.raised = []) ∧
    ∀ (interval : Float) (d : Driver σ) (s : σ) (ops : List (Operation σ)), d.Fresh interval →
      (∀ t, d.root = some t → t.raised = []) → (∀ op ∈ ops, op.Clear) →
      (d.operateCaught Driver.operate s ops).1.last ≠ some .running ∧
      ∀ depth, (d.operateCaught (Driver.operateWith (·.within depth)) s ops).1.last ≠
        some .running := by
  refine ⟨fun root n depth slot r clear => ?_, fun interval d s ops fresh held clear => ?_⟩
  · obtain ⟨done, kept⟩ := n.tick_settled (root.within_tidy depth) slot r
    exact ⟨done clear, kept.trans clear⟩
  · have calm : d.Calm := Fresh.calm fresh held
    have alone : Driver.operateWith (fun _ => .nowhere) = Driver.operate (σ := σ) := by
      funext d s op
      exact operateWith_nowhere d s op
    refine ⟨?_, fun depth => ?_⟩
    · rw [← alone]
      exact (calm.operateCaught (fun _ => Inner.nowhere_tidy) clear s).last
    · exact (calm.operateCaught (fun root => root.within_tidy depth) clear s).last

def nosy : Node (List Event) :=
  .sequence [.condition "ready" fun s => .consult [1] s fun _ s => .finish true s,
    .action "ask" fun s => .consult [] s fun
      | some .running, s => .finish (.ok ()) s
      | _, s => .unwind s]

def prying : List (Operation (List Event)) :=
  [.start { root := nosy }, .frame 0.5, .stop, .frame 4.0, .resume, .frame 0.25, .frame 0.25]

/-- The tick is done only because the tick inside it was running. Where that one is not made, the
action unwinds. -/
theorem running_unseen_nosy :
    (nosy.tick (nosy.within 3) 0 ⟨[], []⟩).1 = .returned .success ∧
    (nosy.tick .nowhere 0 ⟨[], []⟩).1 = .unwound ∧
    (nosy.tick (nosy.within 3) 0 ⟨[], []⟩).2.raised = [] ∧
    (idle.operateCaught (operateWith (·.within 3)) [] prying).1.last = some .success ∧
    (idle.operateCaught (operateWith (·.within 3)) [] prying).1.last ≠ some .running ∧
    (idle.operateCaught operate [] prying).1.last ≠ some .running := by
  obtain ⟨ticks, drivers⟩ := running_unseen (σ := List Event)
  have kept := (ticks nosy nosy 3 0 ⟨[], []⟩ rfl).2
  have clear : ∀ op ∈ prying, op.Clear := by simp [prying, Operation.Clear]
  obtain ⟨alone, within⟩ := drivers 0.5 idle [] prying (.inl rfl) nofun clear
  exact ⟨by decide +kernel, rfl, kept, by decide +kernel, within 3, alone⟩

end Driver

end Pursuit.Behavior
