import Pursuit.Proofs.Behavior.Outside
import Pursuit.Proofs.Binary.Amounts

/-! What an abandoned tick leaves behind. A driver adds the frame time before it ticks and starts
the timer over after, so a tick that breaks off leaves the interval filled. From then on every
effective frame ticks, whatever the host does in between, until one of these ticks comes back. -/
namespace Pursuit.Behavior

open Pursuit.Binary

variable {σ : Type}

namespace Driver

/-- Whether a tick is owed after an operation: it broke off, or one was owed before and none was
counted. -/
def owesAfter (owed : Bool) (d : Driver σ) : Exit Unit × Driver σ × σ → Bool
  | (.returned (), d', _) => owed && d'.ticks = d.ticks
  | (.unwound, _) | (.tooDeep, _) => true

/-- Whether a tick is owed: one was abandoned, and none has been counted since. -/
def owes (act : Driver σ → σ → Operation σ → Exit Unit × Driver σ × σ) (owed : Bool) (d : Driver σ)
    (s : σ) : List (Operation σ) → Bool
  | [] => owed
  | op :: ops => owes act (d.owesAfter owed (act d s op)) (act d s op).2.1 (act d s op).2.2 ops

structure Timed (interval : Float) (owed : Bool) (d : Driver σ) : Prop where
  length : d.interval = interval
  amount : ∃ v, Measures d.timer v
  short : owed = false → d.timer = 0.0 ∨ d.timer < interval
  filled : owed = true → interval ≤ d.timer
  counted : d.last = none ↔ d.ticks = 0

variable {d : Driver σ} {interval delta : Float} {owed : Bool}

theorem measures_of_usable (fine : usable delta) : ∃ x : ℝ, Measures delta x :=
  measures_of_isFinite (usable_iff.1 fine).1 (usable_iff.1 fine).2

theorem Fresh.measures (fresh : d.Fresh interval) : ∃ x : ℝ, Measures interval x := by
  have accepted {e : Driver σ} (made : create? interval = .ok e) : usable interval := by
    rw [create?] at made
    split at made
    next fine => exact fine
    next => cases made
  apply measures_of_usable
  obtain made | ⟨t, made⟩ := fresh
  · exact accepted made
  · cases created : (create? interval : Except ConfigFault (Driver σ)) with
    | error e =>
      rw [withRoot?, created] at made
      cases made
    | ok e => exact accepted created

theorem Fresh.timed (fresh : d.Fresh interval) : d.Timed interval false := by
  have made : d.last = none ∧ d.ticks = 0 ∧ d.timer = 0.0 := by
    obtain made | ⟨t, made⟩ := fresh
    · rw [create?_eq_ok made]
      simp
    · rw [withRoot?_eq_ok made]
      simp
  obtain ⟨last, ticks, timer⟩ := made
  refine ⟨fresh.scanned.1, ⟨0, ?_⟩, fun _ => .inl timer, nofun, by simp [last, ticks]⟩
  rw [timer]
  exact measures_zero

theorem Timed.filled_add (timed : d.Timed interval owed) (length : ∃ i : ℝ, Measures interval i)
    (fine : usable delta) (filled : interval ≤ d.timer) : interval ≤ d.timer + delta := by
  obtain ⟨i, length⟩ := length
  obtain ⟨v, amount⟩ := timed.amount
  obtain ⟨x, time⟩ := measures_of_usable fine
  obtain ⟨u, total, more⟩ := amount.add time
  exact (length.le_iff total).2 (((length.le_iff amount).1 filled).trans more)

end Driver

variable [Journal σ]

/-- What carries out operations, and what ticks the root in it: a driver by itself, or one whose
leaves may have nodes of the tree ticked. -/
inductive Manner : (Driver σ → σ → Operation σ → Exit Unit × Driver σ × σ) →
    (Tree σ → σ → Exit Status × Tree σ × σ) → Prop
  | alone : Manner Driver.operate Tree.tick
  | nested (depth : Nat) : Manner (Driver.operateWith (·.within depth)) (Tree.tickNested depth)

namespace Driver

variable {act : Driver σ → σ → Operation σ → Exit Unit × Driver σ × σ}
  {tick : Tree σ → σ → Exit Status × Tree σ × σ} {d : Driver σ} {s : σ} {op : Operation σ}
  {t : Tree σ}
  {interval delta : Float} {owed : Bool}

/-! ## One operation -/

theorem last_of_ineffective (idle : d.standing.effective? op = none) :
    (d.operate s op).2.1.last = d.last := by
  cases op with
  | start t =>
    obtain ⟨events, started⟩ := start_eq (d := d) (t := t) (s := s)
    rw [operate, started]
  | resume | stop => rfl
  | frame delta =>
    rw [operate]
    obtain same | ignored := frame_of_ineffective (s := s) idle
    · rw [same]
    · rw [ignored]

theorem idle_of_ineffective (manner : Manner act tick) (idle : d.standing.effective? op = none) :
    ∃ d' s', act d s op = (.returned (), d', s') ∧ d'.interval = d.interval ∧ d'.timer = d.timer ∧
      d'.ticks = d.ticks ∧ d'.last = d.last := by
  have same : act d s op = d.operate s op := by
    cases manner with
    | alone => rfl
    | nested depth => rw [operateWith, idle]
  obtain ⟨d', events, moved, interval, -, scanned⟩ := operate_of_ineffective (s := s) idle
  have last := last_of_ineffective (s := s) idle
  rw [moved] at last
  exact ⟨d', _, same.trans moved, interval, congrArg Scan.timer scanned,
    congrArg Scan.ticks scanned, last⟩

theorem short_of_effective (manner : Manner act tick)
    (effective : d.standing.effective? op = some (t, delta))
    (short : ¬ d.interval ≤ d.timer + delta) :
    act d s op = (.returned (), { d with timer := d.timer + delta }, s) := by
  cases manner with
  | alone => exact operate_of_short effective short
  | nested depth =>
    rw [operateWith, effective]
    exact if_neg short

theorem tick_kept (manner : Manner act tick) (t : Tree σ) (s : σ) :
    ∃ exit s', tick t s = (exit, t, s') := by
  cases manner with
  | alone =>
    obtain ⟨status, s', ticked⟩ | ⟨s', ticked⟩ := t.tick_returned_or_unwound s
    · exact ⟨_, s', ticked⟩
    · exact ⟨_, s', ticked⟩
  | nested depth =>
    obtain ⟨-, raised⟩ := Node.tick_settled (t.root.within_tidy depth) t.root 0 ⟨s, t.raised⟩
    obtain ⟨exit, after, ticked⟩ :
        ∃ exit after, t.root.tick (t.root.within depth) 0 ⟨s, t.raised⟩ = (exit, after) :=
          ⟨_, _, rfl⟩
    have kept : after.raised = t.raised := by rwa [ticked] at raised
    refine ⟨exit, after.state, ?_⟩
    rw [Tree.tickNested, Tree.tickWith, ticked]
    simp only [kept]

/-- What is left of a driver whose timer was filled to `timer`, by how its tick ends. -/
def afterTick (d : Driver σ) (timer : Float) : Exit Status × σ → Exit Unit × Driver σ × σ
  | (.returned status, s) =>
    (.returned (), { d with timer := 0.0, ticks := d.ticks + 1, last := some status },
      record (.ticked (d.ticks + 1) status) s)
  | (.unwound, s) => (.unwound, { d with timer }, s)
  | (.tooDeep, s) => (.tooDeep, { d with timer }, s)

theorem tick_of_due (manner : Manner act tick)
    (effective : d.standing.effective? op = some (t, delta)) (due : d.interval ≤ d.timer + delta) :
    act d s op = d.afterTick (d.timer + delta) ((tick t s).1, (tick t s).2.2) := by
  have held : d.root = some t := (effective?_eq_some effective).2.2.1
  obtain ⟨exit, s', ticked⟩ := tick_kept manner t s
  rw [ticked]
  cases manner with
  | alone =>
    rw [operate_of_effective effective, if_pos due, fire, ticked]
    cases exit <;> simp only [afterTick, ← held]
  | nested depth =>
    rw [operateWith, effective]
    rw [Tree.tickNested] at ticked
    simp only [due, if_true, ticked]
    cases exit <;> simp only [afterTick, ← held]

theorem Timed.step (manner : Manner act tick) (length : ∃ i : ℝ, Measures interval i)
    (timed : d.Timed interval owed) (s : σ) (op : Operation σ) :
    (act d s op).2.1.Timed interval (d.owesAfter owed (act d s op)) := by
  cases effective : d.standing.effective? op with
  | none =>
    obtain ⟨d', s', acted, same, timer, ticks, last⟩ :=
      idle_of_ineffective (s := s) manner effective
    have owed' : d.owesAfter owed (act d s op) = owed := by simp [acted, owesAfter, ticks]
    rw [owed', acted]
    exact ⟨same.trans timed.length, timer ▸ timed.amount, timer ▸ timed.short, timer ▸ timed.filled,
      by rw [last, ticks, timed.counted]⟩
  | some pair =>
    obtain ⟨t, delta⟩ := pair
    have fine : usable delta := (effective?_eq_some effective).2.2.2
    have total : ∃ u, Measures (d.timer + delta) u := by
      obtain ⟨v, amount⟩ := timed.amount
      obtain ⟨x, time⟩ := measures_of_usable fine
      obtain ⟨u, total, -⟩ := amount.add time
      exact ⟨u, total⟩
    by_cases due : d.interval ≤ d.timer + delta
    · rw [tick_of_due manner effective due]
      cases (tick t s).1 with
      | returned status =>
        have owed' : d.owesAfter owed
          (d.afterTick (d.timer + delta) (.returned status, (tick t s).2.2)) =
            false := by simp [afterTick, owesAfter]
        rw [owed']
        exact ⟨timed.length, ⟨0, measures_zero⟩, fun _ => .inl rfl, nofun, by simp [afterTick]⟩
      | unwound | tooDeep =>
        exact ⟨timed.length, total, nofun, fun _ => timed.length ▸ due, timed.counted⟩
    · rw [short_of_effective manner effective due]
      rw [timed.length] at due
      -- A tick that is owed would have kept the interval filled.
      have paid : owed = false := by
        cases owed with
        | false => rfl
        | true => exact absurd (timed.filled_add length fine (timed.filled rfl)) due
      have less : d.timer + delta < interval := by
        obtain ⟨i, length⟩ := length
        obtain ⟨u, total⟩ := total
        rw [length.le_iff total, not_le] at due
        exact (total.lt_iff length).2 due
      simp only [paid, owesAfter, Bool.false_and]
      exact ⟨timed.length, total, fun _ => .inr less, nofun, timed.counted⟩

theorem Timed.run (manner : Manner act tick) (length : ∃ i : ℝ, Measures interval i)
    (timed : d.Timed interval owed) (s : σ) (ops : List (Operation σ)) :
    (d.operateCaught act s ops).1.Timed interval (d.owes act owed s ops) := by
  induction ops generalizing d s owed with
  | nil => exact timed
  | cons op ops ih => exact ih (timed.step manner length s op) _

/-- Any operations in a row on a driver as it is made, where those that break off are caught. The
timer is never NaN or negative, and is zero or below the interval unless a tick is owed. A tick that
breaks off changes nothing but the timer, which is filled then. As long as it is owed every
effective frame, however short, has the root ticked again, and when that comes back the timer starts
over at zero. There is a last state exactly if a tick was counted. -/
theorem operateCaught_timer (manner : Manner act tick) {d₀ : Driver σ} (fresh : d₀.Fresh interval)
    (ops : List (Operation σ)) (s₀ : σ) :
    ∃ d s owed, d₀.operateCaught act s₀ ops = (d, s) ∧ d₀.owes act false s₀ ops = owed ∧
      d.timer.isNaN = false ∧ ¬ d.timer < 0.0 ∧
      (owed = false → d.timer = 0.0 ∨ d.timer < interval) ∧
      (owed = true → interval ≤ d.timer ∧ ∀ op t delta,
        d.standing.effective? op = some (t, delta) → interval ≤ d.timer + delta) ∧
      (d.last = none ↔ d.ticks = 0) ∧
      (∀ op, d.standing.effective? op = none → ∃ d' s', act d s op = (.returned (), d', s') ∧
        d'.timer = d.timer ∧ d'.ticks = d.ticks ∧ d'.last = d.last) ∧
      (∀ op t delta, d.standing.effective? op = some (t, delta) → ¬ interval ≤ d.timer + delta →
        act d s op = (.returned (), { d with timer := d.timer + delta }, s)) ∧
      (∀ op t delta, d.standing.effective? op = some (t, delta) → interval ≤ d.timer + delta →
        ∃ exit s', tick t s = (exit, t, s') ∧
          act d s op = d.afterTick (d.timer + delta) (exit, s')) := by
  have length := fresh.measures
  have timed := (Fresh.timed fresh).run manner length s₀ ops
  obtain ⟨d, s, ran⟩ : ∃ d s, d₀.operateCaught act s₀ ops = (d, s) := ⟨_, _, rfl⟩
  rw [ran] at timed
  obtain ⟨v, amount⟩ := timed.amount
  have same := timed.length
  refine ⟨d, s, _, ran, rfl, amount.isNaN_eq_false, amount.not_lt_zero, timed.short,
    fun filled => ?_, timed.counted, fun op idle => ?_, fun op t delta effective short => ?_,
    fun op t delta effective due => ?_⟩
  · refine ⟨timed.filled filled, fun op t delta effective => ?_⟩
    exact timed.filled_add length (effective?_eq_some effective).2.2.2 (timed.filled filled)
  · obtain ⟨d', s', acted, -, kept⟩ := idle_of_ineffective (s := s) manner idle
    exact ⟨d', s', acted, kept⟩
  · exact short_of_effective manner effective (same ▸ short)
  · obtain ⟨exit, s', ticked⟩ := tick_kept manner t s
    refine ⟨exit, s', ticked, ?_⟩
    rw [tick_of_due manner effective (same ▸ due), ticked]

def flaky : Tree (List Event) where
  root := .condition "ready" fun s => if s.length ≤ 1 then .unwind s else .finish true s

def faltering : List (Operation (List Event)) :=
  [.start flaky, .frame 0.5, .stop, .frame 4.0, .resume]

/-- The owed tick is made up for by a frame that takes no time. -/
theorem operateCaught_timer_faltering : idle.Fresh 0.5 ∧
    idle.owes operate false [] faltering = true ∧ ∃ d s d' s',
      idle.operateCaught operate [] faltering = (d, s) ∧ 0.5 ≤ d.timer ∧ d.ticks = 0 ∧
      d.operate s (.frame 0.0) = (.returned (), d', s') ∧ d'.timer = 0.0 ∧ d'.ticks = 1 ∧
      d'.last = some .success := by
  have fresh : idle.Fresh 0.5 := .inl rfl
  have owing : idle.owes operate false [] faltering = true := by decide +kernel
  obtain ⟨d, s, owed, ran, same, -, -, -, filled, -, -, -, due⟩ :=
    operateCaught_timer .alone fresh faltering []
  obtain rfl : true = owed := owing.symm.trans same
  obtain ⟨full, again⟩ := filled rfl
  have stands : (idle.operateCaught operate [] faltering).1.standing = ⟨true, some flaky⟩ := rfl
  rw [ran] at stands
  have effective : d.standing.effective? (.frame 0.0) = some (flaky, 0.0) := by rw [stands]; rfl
  have heard : (idle.operateCaught operate [] faltering).2.length = 3 := rfl
  rw [ran] at heard
  have ready : flaky.tick s = (.returned .success, flaky, s) := by
    simp [Tree.tick, Tree.tickWith, flaky, Node.tick, Routine.perform, heard, Exit.map,
      Status.ofBool]
  have uncounted : d.ticks = 0 := by
    have none : (idle.operateCaught operate [] faltering).1.ticks = 0 := rfl
    rwa [ran] at none
  obtain ⟨exit, s', ticked, acted⟩ := due _ _ _ effective (again _ _ _ effective)
  rw [ready] at ticked
  cases ticked
  exact ⟨fresh, owing, d, s, _, _, ran, full, uncounted, acted, rfl,
    congrArg (· + 1) uncounted, rfl⟩

end Driver

end Pursuit.Behavior
