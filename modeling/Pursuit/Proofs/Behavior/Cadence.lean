import Pursuit.Behavior.Driver
import Pursuit.Proofs.Behavior.Orderly

/-! When a driver ticks. A frame is effective if the driver is running with a root as it arrives and
the frame time is usable. Whatever else the host does in between, the timer and the number of ticks
are those of a greedy scan of the effective frame times, and what is ticked is the latest root. -/
namespace Pursuit.Behavior

variable {σ : Type}

inductive Operation (σ : Type) where
  | start (t : Tree σ)
  | resume
  | stop
  | frame (delta : Float)

structure Standing (σ : Type) where
  isRunning : Bool
  root : Option (Tree σ)

namespace Standing

def after (st : Standing σ) : Operation σ → Standing σ
  | .start t => ⟨true, some t⟩
  | .resume => { st with isRunning := true }
  | .stop => { st with isRunning := false }
  | .frame _ => st

def afterAll (st : Standing σ) (ops : List (Operation σ)) : Standing σ := ops.foldl after st

/-- The latest root and the frame time, if the operation is an effective frame. -/
def effective? (st : Standing σ) : Operation σ → Option (Tree σ × Float)
  | .frame delta =>
    if st.isRunning ∧ delta.isFinite ∧ ¬ delta < 0.0 then st.root.map (·, delta) else none
  | .start _ | .resume | .stop => none

def effective : Standing σ → List (Operation σ) → List Float
  | _, [] => []
  | st, op :: ops => ((st.effective? op).map (·.2)).toList ++ effective (st.after op) ops

end Standing

/-- Where a scan of frame times is: the time since the last tick, and the ticks so far. -/
structure Scan where
  timer : Float := 0.0
  ticks : Nat := 0

/-- Ticks as soon as the gathered time reaches the interval, and starts over. -/
def Scan.gather (interval : Float) (c : Scan) (delta : Float) : Scan :=
  if interval ≤ c.timer + delta then ⟨0.0, c.ticks + 1⟩ else ⟨c.timer + delta, c.ticks⟩

def Scan.gatherAll (interval : Float) (c : Scan) (deltas : List Float) : Scan :=
  deltas.foldl (gather interval) c

def scan (interval : Float) (deltas : List Float) : Scan := Scan.gatherAll interval {} deltas

namespace Driver

def Fresh (interval : Float) (d : Driver σ) : Prop :=
  create? interval = .ok d ∨ ∃ t, withRoot? interval t = .ok d

def standing (d : Driver σ) : Standing σ := ⟨d.isRunning, d.root⟩

def scanned (d : Driver σ) : Scan := ⟨d.timer, d.ticks⟩

variable {interval delta : Float} {d : Driver σ} {op : Operation σ} {t : Tree σ}

theorem usable_iff : usable delta ↔ delta.isFinite ∧ ¬ delta < 0.0 := by
  simp [usable]

theorem effective?_eq_some (h : d.standing.effective? op = some (t, delta)) :
    op = .frame delta ∧ d.isRunning ∧ d.root = some t ∧ usable delta := by
  cases op with
  | start | resume | stop => cases h
  | frame x =>
    rw [Standing.effective?] at h
    split at h
    next on =>
      obtain ⟨root, held, pair⟩ := Option.map_eq_some_iff.1 h
      obtain ⟨rfl, rfl⟩ := Prod.mk.inj pair
      exact ⟨rfl, on.1, held, usable_iff.2 on.2⟩
    next => cases h

theorem create?_eq_ok (h : create? interval = .ok d) : d = { interval } := by
  rw [create?] at h
  split at h
  · exact (Except.ok.inj h).symm
  · cases h

theorem withRoot?_eq_ok (h : withRoot? interval t = .ok d) : d = { interval, root := some t } := by
  cases made : (create? interval : Except ConfigFault (Driver σ)) with
  | error e => rw [withRoot?, made] at h; cases h
  | ok d₁ =>
    rw [withRoot?, made, create?_eq_ok made] at h
    exact (Except.ok.inj h).symm

theorem Fresh.scanned (fresh : d.Fresh interval) : d.interval = interval ∧ d.scanned = {} := by
  obtain made | ⟨t, made⟩ := fresh
  · rw [create?_eq_ok made]; exact ⟨rfl, rfl⟩
  · rw [withRoot?_eq_ok made]; exact ⟨rfl, rfl⟩

end Driver

variable [Journal σ]

namespace Driver

def operate (d : Driver σ) (s : σ) : Operation σ → Exit Unit × Driver σ × σ
  | .start t => (.returned (), d.start t s)
  | .resume => (.returned (), d.resume s)
  | .stop => (.returned (), d.stop s)
  | .frame delta => d.frame delta s

def operateAll (d : Driver σ) (s : σ) : List (Operation σ) → Exit Unit × Driver σ × σ
  | [] => (.returned (), d, s)
  | op :: ops =>
    match d.operate s op with
    | (.returned (), d, s) => d.operateAll s ops
    | stop => stop

variable {delta : Float} {d : Driver σ} {s : σ} {op : Operation σ} {t : Tree σ}

theorem start_eq : ∃ events : List Event,
    d.start t s = ({ d with root := some t, isRunning := true }, events.foldr record s) := by
  rw [start]
  cases d.root with
  | none => exact ⟨[.started d.timer], rfl⟩
  | some _ => exact ⟨[.started d.timer, .rootReplaced], rfl⟩

theorem frame_of_ineffective (h : d.standing.effective? (.frame delta) = none) :
    d.frame delta s = (.returned (), d, s) ∨
      d.frame delta s = (.returned (), d, record (.frameIgnored delta) s) := by
  rw [frame]
  split
  next t running held =>
    split
    next fine =>
      rw [Standing.effective?, if_pos ⟨running, usable_iff.1 fine⟩] at h
      simp [standing, held] at h
    next => exact .inr rfl
  next => exact .inl rfl

/-- What is no effective frame has nothing ticked: the host sees the driver's own events at most. -/
theorem operate_of_ineffective (h : d.standing.effective? op = none) :
    ∃ (d' : Driver σ) (events : List Event),
      d.operate s op = (.returned (), d', events.foldr record s) ∧
      d'.interval = d.interval ∧ d'.standing = d.standing.after op ∧ d'.scanned = d.scanned := by
  cases op with
  | start t =>
    obtain ⟨events, started⟩ := start_eq (d := d) (t := t) (s := s)
    exact ⟨_, events, congrArg (Prod.mk _) started, rfl, rfl, rfl⟩
  | resume => exact ⟨(d.resume s).1, [.resumed d.root.isSome d.timer], rfl, rfl, rfl, rfl⟩
  | stop => exact ⟨(d.stop s).1, [.stopped d.ticks], rfl, rfl, rfl, rfl⟩
  | frame delta =>
    obtain same | ignored := frame_of_ineffective (s := s) h
    · exact ⟨d, [], same, rfl, rfl, rfl⟩
    · exact ⟨d, [.frameIgnored delta], ignored, rfl, rfl, rfl⟩

theorem operate_of_effective (h : d.standing.effective? op = some (t, delta)) :
    d.operate s op =
      if d.interval ≤ d.timer + delta then { d with timer := d.timer + delta }.fire t s
      else (.returned (), { d with timer := d.timer + delta }, s) := by
  obtain ⟨rfl, running, held, fine⟩ := effective?_eq_some h
  rw [operate, frame, running, held]
  simp only [fine, if_true]

theorem operate_of_short (h : d.standing.effective? op = some (t, delta))
    (short : ¬ d.interval ≤ d.timer + delta) :
    d.operate s op = (.returned (), { d with timer := d.timer + delta }, s) := by
  rw [operate_of_effective h, if_neg short]

theorem operate_of_due (h : d.standing.effective? op = some (t, delta))
    (due : d.interval ≤ d.timer + delta) :
    (∃ status s', t.tick s = (.returned status, t, s') ∧ d.operate s op = (.returned (),
      { d with timer := 0.0, ticks := d.ticks + 1, last := some status },
      record (.ticked (d.ticks + 1) status) s')) ∨
    ∃ s', t.tick s = (.unwound, t, s') ∧
      d.operate s op = (.unwound, { d with timer := d.timer + delta }, s') := by
  have held : d.root = some t := (effective?_eq_some h).2.2.1
  rw [operate_of_effective h, if_pos due, fire]
  obtain ⟨status, s', ticked⟩ | ⟨s', ticked⟩ := t.tick_returned_or_unwound s
  · exact .inl ⟨status, s', ticked, by simp only [ticked, ← held]⟩
  · exact .inr ⟨s', ticked, by simp only [ticked, ← held]⟩

theorem operate_scanned (calm : (d.operate s op).1 ≠ .unwound) :
    ∃ d' s', d.operate s op = (.returned (), d', s') ∧
      d'.interval = d.interval ∧ d'.standing = d.standing.after op ∧
      d'.scanned = d.scanned.gatherAll d.interval
        ((d.standing.effective? op).map (·.2)).toList := by
  cases effective : d.standing.effective? op with
  | none =>
    obtain ⟨d', events, moved, kept⟩ := operate_of_ineffective (s := s) effective
    exact ⟨d', _, moved, kept⟩
  | some pair =>
    -- A frame leaves the standing alone, whether it ticks or only adds its time.
    obtain ⟨t, delta⟩ := pair
    have place : op = .frame delta := (effective?_eq_some effective).1
    have same : d.standing.after op = d.standing := by rw [place]; rfl
    by_cases due : d.interval ≤ d.timer + delta
    · have moved : d.scanned.gather d.interval delta = ⟨0.0, d.ticks + 1⟩ := if_pos due
      obtain ⟨status, s', -, after⟩ | ⟨s', -, after⟩ := operate_of_due (s := s) effective due
      · exact ⟨_, _, after, rfl, same.symm, moved.symm⟩
      · exact absurd (by rw [after]) calm
    · have moved : d.scanned.gather d.interval delta = ⟨d.timer + delta, d.ticks⟩ := if_neg due
      exact ⟨_, s, operate_of_short effective due, rfl, same.symm, moved.symm⟩

theorem calm_head {ops : List (Operation σ)} (calm : (d.operateAll s (op :: ops)).1 ≠ .unwound) :
    (d.operate s op).1 ≠ .unwound := by
  obtain ⟨exit, after, moved⟩ : ∃ exit after, d.operate s op = (exit, after) := ⟨_, _, rfl⟩
  rw [operateAll, moved] at calm
  rw [moved]
  cases exit with
  | returned | tooDeep => exact nofun
  | unwound => exact absurd rfl calm

theorem operateAll_scanned (ops : List (Operation σ)) (calm : (d.operateAll s ops).1 ≠ .unwound) :
    ∃ d' s', d.operateAll s ops = (.returned (), d', s') ∧
      d'.interval = d.interval ∧ d'.standing = d.standing.afterAll ops ∧
      d'.scanned = d.scanned.gatherAll d.interval (d.standing.effective ops) := by
  induction ops generalizing d s with
  | nil => exact ⟨d, s, rfl, rfl, rfl, rfl⟩
  | cons op ops ih =>
    obtain ⟨d₁, s₁, moved, interval, standing, scanned⟩ := operate_scanned (calm_head calm)
    rw [operateAll, moved] at calm ⊢
    obtain ⟨d₂, s₂, rest, interval', standing', scanned'⟩ := ih calm
    refine ⟨d₂, s₂, rest, interval'.trans interval, ?_, ?_⟩
    · rw [standing', standing, Standing.afterAll, Standing.afterAll, List.foldl_cons]
    · rw [scanned', scanned, interval, standing, Standing.effective, Scan.gatherAll, Scan.gatherAll,
        Scan.gatherAll, List.foldl_append]

/-- A run of a driver, as it is made, in which no tick is abandoned. The driver stands as the host
left it, and its timer and number of ticks are those of the greedy scan of the effective frame
times, so that two runs with the same effective frame times agree in both. From there the next
operation has the latest root ticked, exactly once, if it is an effective frame whose time fills the
interval, and nothing ticked otherwise: the host sees the driver's own events at most. -/
theorem operateAll_cadence {interval : Float} {d₀ : Driver σ} (fresh : d₀.Fresh interval)
    (ops : List (Operation σ)) (s₀ : σ) (calm : (d₀.operateAll s₀ ops).1 ≠ .unwound) :
    ∃ d s, d₀.operateAll s₀ ops = (.returned (), d, s) ∧
      d.standing = d₀.standing.afterAll ops ∧
      d.scanned = scan interval (d₀.standing.effective ops) ∧
      (∀ op, d.standing.effective? op = none → ∃ (d' : Driver σ) (events : List Event),
        d.operate s op = (.returned (), d', events.foldr record s) ∧
        d'.timer = d.timer ∧ d'.ticks = d.ticks) ∧
      (∀ op t delta, d.standing.effective? op = some (t, delta) → ¬ interval ≤ d.timer + delta →
        d.operate s op = (.returned (), { d with timer := d.timer + delta }, s)) ∧
      (∀ op t delta, d.standing.effective? op = some (t, delta) → interval ≤ d.timer + delta →
        (∃ status s', t.tick s = (.returned status, t, s') ∧ d.operate s op = (.returned (),
          { d with timer := 0.0, ticks := d.ticks + 1, last := some status },
          record (.ticked (d.ticks + 1) status) s')) ∨
        ∃ s', t.tick s = (.unwound, t, s') ∧
          d.operate s op = (.unwound, { d with timer := d.timer + delta }, s')) ∧
      ∀ {τ : Type} [Journal τ] (e₀ e : Driver τ) (ops' : List (Operation τ)) (u₀ u : τ),
        e₀.Fresh interval → e₀.operateAll u₀ ops' = (.returned (), e, u) →
        e₀.standing.effective ops' = d₀.standing.effective ops →
        e.timer = d.timer ∧ e.ticks = d.ticks := by
  obtain ⟨d, s, ended, same, standing, scanned⟩ := operateAll_scanned ops calm
  obtain ⟨rfl, start⟩ := fresh.scanned
  rw [start] at scanned
  refine ⟨d, s, ended, standing, scanned, fun op idle => ?_, fun op t delta frame short => ?_,
    fun op t delta frame due => ?_, fun e₀ e ops' u₀ u fresh' ended' times => ?_⟩
  · obtain ⟨d', events, moved, -, -, kept⟩ := operate_of_ineffective idle
    exact ⟨d', events, moved, congrArg Scan.timer kept, congrArg Scan.ticks kept⟩
  · exact operate_of_short frame (same ▸ short)
  · exact operate_of_due frame (same ▸ due)
  · obtain ⟨e', u', again, -, -, scanned'⟩ := operateAll_scanned ops' (by rw [ended']; nofun)
    obtain ⟨same', start'⟩ := fresh'.scanned
    obtain ⟨rfl, rfl⟩ : e = e' ∧ u = u' := by simpa [ended'] using again
    rw [start', same', times, ← scanned] at scanned'
    exact ⟨congrArg Scan.timer scanned', congrArg Scan.ticks scanned'⟩

def idle : Driver (List Event) := { interval := 0.5 }

def shift : List (Operation (List Event)) :=
  [.start { root := .action "walk" fun s => .finish (.ok ()) s }, .frame 0.25, .stop, .frame 4.0,
    .start { root := .condition "rested" fun s => .finish true s }, .frame (-1.0), .frame 0.25,
    .frame 0.125]

theorem operateAll_cadence_shift :
    idle.Fresh 0.5 ∧
    (idle.operateAll [] shift).1 ≠ .unwound ∧
    idle.standing.effective shift = [0.25, 0.25, 0.125] ∧
    ∃ d s, idle.operateAll [] shift = (.returned (), d, s) ∧ d.scanned = ⟨0.125, 1⟩ := by
  have fresh : idle.Fresh 0.5 := .inl rfl
  have calm : (idle.operateAll [] shift).1 ≠ .unwound := nofun
  have times : idle.standing.effective shift = [0.25, 0.25, 0.125] := rfl
  obtain ⟨d, s, ended, -, scanned, -⟩ := operateAll_cadence fresh shift [] calm
  refine ⟨fresh, calm, times, d, s, ended, scanned.trans ?_⟩
  exact (congrArg (scan 0.5) times).trans rfl

end Driver

end Pursuit.Behavior
