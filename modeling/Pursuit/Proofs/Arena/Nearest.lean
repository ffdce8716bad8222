import Pursuit.Proofs.Arena.Cheese
import Pursuit.Proofs.Binary.Ranks
import Mathlib.Data.Prod.Lex

/-! A world after any calls for its cheese: which pieces are left, what the next call answers, and
which piece is the nearest. Equally near pieces are told apart by their numbers. -/
namespace Pursuit.Arena.World

open Pursuit.Binary

variable {w : World} {eye : Point} {id : ℕ} {halfExtent : Float32} {obstacles : List Obstacle}
  {places : List Point} {ids : List ℕ}

/-! ## Calls -/

/-- One call for cheese `id`, with its answer. A call that fails keeps the world. -/
def call (w : World) (id : ℕ) : Except ActionFault Event × World :=
  match w.collect id with
  | .ok (left, event) => (.ok event, left)
  | .error fault => (.error fault, w)

def after (w : World) (ids : List ℕ) : World := ids.foldl (fun w id => (w.call id).2) w

def answers : World → List ℕ → List (Except ActionFault Event)
  | _, [] => []
  | w, id :: ids => (w.call id).1 :: (w.call id).2.answers ids

theorem after_append_singleton (w : World) (ids : List ℕ) (id : ℕ) :
    w.after (ids ++ [id]) = ((w.after ids).call id).2 := by
  simp [after]

theorem call_of_none (none : w.cheeses[id]? = none) :
    w.call id = (.error (.noTarget ("no cheese with id " ++ Nat.repr id)), w) := by
  simp [call, collect, none]

theorem call_of_collected {c : Cheese} (here : w.cheeses[id]? = some c)
    (gone : c.collected = true) :
    w.call id = (.error (.alreadyCollected id), w) := by
  simp [call, collect, here, gone]

theorem call_of_uncollected {c : Cheese} (here : w.cheeses[id]? = some c)
    (there : c.collected = false) :
    w.call id = (.ok (.cheeseCollected id c.position), w.take id c) := by
  rw [call, collect_eq_ok here there]

theorem obstacles_after (w : World) (ids : List ℕ) : (w.after ids).obstacles = w.obstacles := by
  induction ids using List.reverseRecOn with
  | nil => rfl
  | append_singleton ids id ih =>
    rw [after_append_singleton, ← ih, call]
    split
    next left event taken =>
      obtain ⟨cheeses, same⟩ := world_of_collect taken
      simp only at same
      rw [same]
    next => rfl

theorem remaining_call (w : World) (id : ℕ) :
    (w.call id).2.remaining + (if (w.call id).1.isOk then 1 else 0) = w.remaining := by
  cases here : w.cheeses[id]? with
  | none => simp [call_of_none here, Except.isOk, Except.toBool]
  | some c =>
    cases there : c.collected with
    | true => simp [call_of_collected here there, Except.isOk, Except.toBool]
    | false =>
      have less := remaining_take here there
      simpa [call_of_uncollected here there, Except.isOk, Except.toBool] using less

theorem remaining_after (w : World) (ids : List ℕ) :
    (w.after ids).remaining + (w.answers ids).countP (·.isOk) = w.remaining := by
  induction ids generalizing w with
  | nil => rfl
  | cons id ids ih =>
    have step := remaining_call w id
    have rest := ih (w.call id).2
    rw [answers, List.countP_cons]
    change ((w.call id).2.after ids).remaining + _ = _
    omega

/-- After the calls just the cheese that was called for is gone. -/
theorem cheeses_after (halfExtent : Float32) (obstacles : List Obstacle) (places : List Point)
    (ids : List ℕ) (i : ℕ) :
    ((ofPlaces halfExtent obstacles places).after ids).cheeses[i]? =
      places[i]?.map fun p => ⟨p, decide (i ∈ ids)⟩ := by
  induction ids using List.reverseRecOn generalizing i with
  | nil => simp [after, ofPlaces]
  | append_singleton ids id ih =>
    rw [after_append_singleton]
    have here := ih id
    cases place : places[id]? with
    | none =>
      rw [place, Option.map_none] at here
      rw [call_of_none here, ih i]
      have apart (p) (other : places[i]? = some p) : i ≠ id := by
        rintro rfl
        simp [place] at other
      cases other : places[i]? with
      | none => rfl
      | some p => simp [apart p other]
    | some p =>
      rw [place, Option.map_some] at here
      by_cases earlier : id ∈ ids
      · rw [call_of_collected here (by simpa using earlier), ih i]
        have same : i ∈ ids ++ [id] ↔ i ∈ ids := by
          simp only [List.mem_append, List.mem_singleton, or_iff_left_iff_imp]
          rintro rfl
          exact earlier
        simp only [same]
      · rw [call_of_uncollected here (by simpa using earlier), take]
        by_cases same : id = i
        · subst same
          rw [List.getElem?_set_self' , here, place]
          simp
        · rw [List.getElem?_set_ne same, ih i]
          have apart : i ≠ id := Ne.symm same
          simp [apart]

/-! ## The nearest piece -/

/-- What pieces are ordered by: the distance first, then the number. -/
def key (eye : Point) (a : Cheese × ℕ) : ℤ ×ₗ ℕ := toLex (rank (eye.distance a.1.position), a.2)

theorem key_nearer_le (eye : Point) {a b : Cheese × ℕ} (ordered : a.2 < b.2) :
    key eye (nearer eye a b) ≤ key eye a ∧ key eye (nearer eye a b) ≤ key eye b := by
  simp only [key, nearer, Prod.Lex.toLex_le_toLex]
  split <;> omega

theorem key_foldl_nearer_le {a : Cheese × ℕ} {bs : List (Cheese × ℕ)}
    (ordered : (a :: bs).Pairwise (·.2 < ·.2)) {x : Cheese × ℕ} (member : x ∈ a :: bs) :
    key eye (bs.foldl (nearer eye) a) ≤ key eye x := by
  induction bs generalizing a x with
  | nil => simp_all
  | cons b bs ih =>
    obtain ⟨first, rest⟩ := List.pairwise_cons.1 ordered
    obtain ⟨second, tail⟩ := List.pairwise_cons.1 rest
    have least := key_nearer_le eye (first b List.mem_cons_self)
    have ordered : (nearer eye a b :: bs).Pairwise (·.2 < ·.2) := by
      refine List.pairwise_cons.2 ⟨fun c later => ?_, tail⟩
      obtain kept | taken := nearer_eq_or eye a b
      · rw [kept]
        exact first c (List.mem_cons_of_mem b later)
      · rw [taken]
        exact second c later
    have head := ih ordered List.mem_cons_self
    rw [List.foldl_cons]
    obtain rfl | member := List.mem_cons.1 member
    · exact head.trans least.1
    · obtain rfl | member := List.mem_cons.1 member
      · exact head.trans least.2
      · exact ih ordered (List.mem_cons_of_mem _ member)

theorem uncollected_pairwise (w : World) : w.uncollected.Pairwise (·.2 < ·.2) := by
  apply List.Pairwise.filter
  rw [← List.pairwise_map, List.zipIdx_map_snd]
  exact List.pairwise_lt_range'

theorem nearest?_eq_none : w.nearest? eye = none ↔ w.uncollected = [] := by
  rw [nearest?]
  split <;> simp_all

theorem length_uncollected (w : World) : w.uncollected.length = w.remaining := by
  rw [uncollected, ← List.countP_eq_length_filter, remaining]
  conv_rhs => rw [← List.zipIdx_map_fst 0 w.cheeses, List.countP_map]
  rfl

theorem key_le_of_nearest? {x y : Cheese × ℕ} (found : w.nearest? eye = some x)
    (member : y ∈ w.uncollected) :
    key eye x ≤ key eye y := by
  rw [nearest?] at found
  split at found
  next => cases found
  next a bs list =>
    obtain rfl := Option.some.inj found
    have ordered := w.uncollected_pairwise
    rw [list] at ordered member
    exact key_foldl_nearer_le ordered member

theorem toBits_distance_lt (p q : Point) : (p.distance q).toBits.toNat < 2 ^ 31 :=
  toBits_sqrt_squares_lt _ _

theorem key_lt_iff {a b : Cheese × ℕ} (number : (eye.distance a.1.position).isNaN = false)
    (number' : (eye.distance b.1.position).isNaN = false) :
    key eye a < key eye b ↔ eye.distance a.1.position < eye.distance b.1.position ∨
      eye.distance a.1.position = eye.distance b.1.position ∧ a.2 < b.2 := by
  have same : rank (eye.distance a.1.position) = rank (eye.distance b.1.position) ↔
      eye.distance a.1.position = eye.distance b.1.position :=
    ⟨eq_of_rank_eq (toBits_distance_lt _ _) (toBits_distance_lt _ _), congrArg rank⟩
  rw [key, key, Prod.Lex.toLex_lt_toLex, same,
    rank_lt_iff (toBits_distance_lt _ _) (toBits_distance_lt _ _)
    (not_sqrt_lt_zero _) (not_sqrt_lt_zero _) number number']

/-- The nearest piece is the least in the order of distances and then of numbers. -/
theorem nearest?_eq_some {c : Cheese}
    (number : ∀ c ∈ w.cheeses, (eye.distance c.position).isNaN = false) :
    w.nearest? eye = some (c, id) ↔ (w.cheeses[id]? = some c ∧ c.collected = false) ∧
      ∀ id' c', w.cheeses[id']? = some c' → c'.collected = false → id' ≠ id →
        eye.distance c.position < eye.distance c'.position ∨
          eye.distance c.position = eye.distance c'.position ∧ id < id' := by
  have number {i c} (here : w.cheeses[i]? = some c) := number c (List.mem_of_getElem? here)
  constructor
  · intro found
    have here := mem_uncollected.1 (nearest?_mem found)
    refine ⟨here, fun id' c' here' there' apart => ?_⟩
    rw [← key_lt_iff (a := (c, id)) (b := (c', id')) (number here.1) (number here')]
    refine (key_le_of_nearest? found (mem_uncollected.2 ⟨here', there'⟩)).lt_of_ne
      fun same => apart ?_
    exact (congrArg (fun k => (ofLex k).2) same).symm
  · rintro ⟨here, least⟩
    cases found : w.nearest? eye with
    | none =>
      have member := mem_uncollected.2 here
      simp [nearest?_eq_none.1 found] at member
    | some x =>
      obtain ⟨c', id'⟩ := x
      have here' := mem_uncollected.1 (nearest?_mem found)
      have below := key_le_of_nearest? found (mem_uncollected.2 here)
      by_cases same : id' = id
      · subst same
        rw [Option.some.inj (here'.1.symm.trans here.1)]
      · have above :=
          (key_lt_iff (a := (c, id)) (b := (c', id')) (number here.1) (number here'.1)).2
          (least id' c' here'.1 here'.2 same)
        exact absurd below above.not_ge

/-- After any calls for the cheese of a world: there is a nearest piece just while some is left, it
is the least of what is left in the order of distances and numbers, and it alone decides what is in
view. The next call succeeds just if there is such a piece and no call was for it before; another
keeps the world. -/
theorem nearest_after (numbers : ∀ p ∈ places, (eye.distance p).isNaN = false)
    (reached : (ofPlaces halfExtent obstacles places).after ids = w) :
    (w.nearest? eye = none ↔ w.remaining = 0) ∧
    (∀ id c, w.nearest? eye = some (c, id) ↔ (w.cheeses[id]? = some c ∧ c.collected = false) ∧
      ∀ id' c', w.cheeses[id']? = some c' → c'.collected = false → id' ≠ id →
        eye.distance c.position < eye.distance c'.position ∨
          eye.distance c.position = eye.distance c'.position ∧ id < id') ∧
    (∀ x, w.nearestVisible? eye = some x ↔
      w.nearest? eye = some x ∧ ∀ o ∈ obstacles, o.blocks eye x.1.position = false) ∧
    (∀ id, w.cheeses[id]? = places[id]?.map fun p => (⟨p, decide (id ∈ ids)⟩ : Cheese)) ∧
    (∀ id, places[id]? = none →
      w.call id = (.error (.noTarget ("no cheese with id " ++ Nat.repr id)), w)) ∧
    (∀ id p, places[id]? = some p → w.call id =
      if id ∈ ids then (.error (.alreadyCollected id), w)
      else (.ok (.cheeseCollected id p), w.take id ⟨p, false⟩)) ∧
    w.remaining + ((ofPlaces halfExtent obstacles places).answers ids).countP (·.isOk) =
      places.length := by
  subst reached
  have cheeses := cheeses_after halfExtent obstacles places ids
  have distances : ∀ c ∈ ((ofPlaces halfExtent obstacles places).after ids).cheeses,
      (eye.distance c.position).isNaN = false := by
    intro c member
    obtain ⟨i, here⟩ := List.mem_iff_getElem?.1 member
    rw [cheeses, Option.map_eq_some_iff] at here
    obtain ⟨p, place, rfl⟩ := here
    exact numbers p (List.mem_of_getElem? place)
  refine ⟨?_, fun id c => nearest?_eq_some distances, fun x => ?_, cheeses,
    fun id none => ?_, fun id p place => ?_, ?_⟩
  · rw [nearest?_eq_none, ← length_uncollected, List.length_eq_zero_iff]
  · rw [nearestVisible?, Option.filter_eq_some_iff, lineOfSight, obstacles_after]
    simp [ofPlaces]
  · apply call_of_none
    rw [cheeses, none, Option.map_none]
  · have here := cheeses id
    rw [place, Option.map_some] at here
    split
    next earlier => exact call_of_collected here (by simpa using earlier)
    next fresh =>
      have there : decide (id ∈ ids) = false := by simpa using fresh
      rw [call_of_uncollected here there, there]
  · rw [remaining_after, remaining_ofPlaces]

/-- Of two pieces four away the first is the nearest. It is hidden, so nothing is in view, though
nothing hides the other. -/
theorem nearest_after_hidden :
    let places := [Point.ofInts 4 0, .ofInts 1 0, .ofInts (-4) 0, .ofInts 0 8]
    let start := ofPlaces (narrowOfInt 20) [⟨.ofInts 2 0, one⟩] places
    let w := start.after [1, 1, 9]
    (∀ p ∈ places, (Point.origin.distance p).isNaN = false) ∧
      (w.nearest? .origin).map (·.2) = some 0 ∧ (w.nearestVisible? .origin).isNone ∧
      w.lineOfSight .origin (.ofInts (-4) 0) = true ∧
      w.call 1 = (.error (.alreadyCollected 1), w) ∧ (start.answers [1, 1, 9]).countP (·.isOk) = 1 ∧
      w.remaining = 3 := by
  intro places start w
  have numbers : ∀ p ∈ places, (Point.origin.distance p).isNaN = false := by decide +kernel
  have once : (start.answers [1, 1, 9]).countP (·.isOk) = 1 := by decide +kernel
  obtain ⟨-, -, -, -, -, next, count⟩ := nearest_after numbers (rfl : start.after [1, 1, 9] = w)
  refine ⟨numbers, by decide +kernel, by decide +kernel,
    by decide +kernel, next 1 (.ofInts 1 0) rfl, once, ?_⟩
  rw [once] at count
  exact Nat.succ.inj count

end Pursuit.Arena.World
