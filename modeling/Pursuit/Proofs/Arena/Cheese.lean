import Pursuit.Arena.Sight

/-! The cheese of a world: what is found lies there and is still to be had, and taking a piece
leaves one piece less and every place as it was. -/
namespace Pursuit.Arena.World

variable {w : World} {eye : Point} {id : Nat} {c : Cheese}

theorem mem_uncollected :
    (c, id) ∈ w.uncollected ↔ w.cheeses[id]? = some c ∧ c.collected = false := by
  rw [uncollected, List.mem_filter, List.mem_zipIdx_iff_getElem?]
  simp

theorem nearer_eq_or (eye : Point) (a b : Cheese × Nat) :
    nearer eye a b = a ∨ nearer eye a b = b := by
  rw [nearer]
  split
  · exact .inr rfl
  · exact .inl rfl

theorem foldl_nearer_mem (a : Cheese × Nat) (bs : List (Cheese × Nat)) :
    bs.foldl (nearer eye) a ∈ a :: bs := by
  induction bs generalizing a with
  | nil => exact List.mem_singleton_self a
  | cons b bs ih =>
    rw [List.foldl_cons, List.mem_cons]
    obtain kept | taken := nearer_eq_or eye a b
    · rw [kept]
      exact (List.mem_cons.1 (ih a)).imp_right (List.mem_cons_of_mem b)
    · rw [taken]
      exact .inr (ih b)

theorem nearest?_mem {x : Cheese × Nat} (found : w.nearest? eye = some x) : x ∈ w.uncollected := by
  rw [nearest?] at found
  split at found
  next => cases found
  next a bs list =>
    obtain rfl := Option.some.inj found
    exact list ▸ foldl_nearer_mem a bs

theorem nearestVisible?_eq_some (found : w.nearestVisible? eye = some (c, id)) :
    w.cheeses[id]? = some c ∧ c.collected = false :=
  mem_uncollected.1 (nearest?_mem (Option.filter_eq_some_iff.1 found).1)

theorem remaining_ofPlaces (halfExtent : Float32) (obstacles : List Obstacle)
    (places : List Point) :
    (ofPlaces halfExtent obstacles places).remaining = places.length := by
  simp [remaining, ofPlaces, List.countP_map, Function.comp_def]

def take (w : World) (id : Nat) (c : Cheese) : World :=
  { w with cheeses := w.cheeses.set id { c with collected := true } }

theorem collect_eq_ok (here : w.cheeses[id]? = some c) (there : c.collected = false) :
    w.collect id = .ok (w.take id c, .cheeseCollected id c.position) := by
  simp [collect, here, there, take]

theorem world_of_collect {left : World × Event} (taken : w.collect id = .ok left) :
    ∃ cheeses, left.1 = { w with cheeses } := by
  rw [collect] at taken
  split at taken
  · cases taken
  · split at taken
    · cases taken
    · obtain rfl := Except.ok.inj taken
      exact ⟨_, rfl⟩

theorem halfExtent_of_collect {left : World × Event} (taken : w.collect id = .ok left) :
    left.1.halfExtent = w.halfExtent := by
  obtain ⟨cheeses, same⟩ := world_of_collect taken
  rw [same]

theorem remaining_take (here : w.cheeses[id]? = some c) (there : c.collected = false) :
    (w.take id c).remaining + 1 = w.remaining := by
  obtain ⟨inside, rfl⟩ := List.getElem?_eq_some_iff.1 here
  have counted : 0 < w.cheeses.countP (!·.collected) :=
    List.countP_pos_iff.2 ⟨_, List.getElem_mem inside, by simp [there]⟩
  simp only [remaining, take, List.countP_set inside, there, Bool.not_false, Bool.not_true, if_true,
    Bool.false_eq_true, if_false]
  omega

theorem places_take (here : w.cheeses[id]? = some c) :
    (w.take id c).cheeses.map (·.position) = w.cheeses.map (·.position) := by
  obtain ⟨inside, rfl⟩ := List.getElem?_eq_some_iff.1 here
  calc (w.take id w.cheeses[id]).cheeses.map (·.position)
      = (w.cheeses.map (·.position)).set id w.cheeses[id].position := List.map_set
    _ = (w.cheeses.set id w.cheeses[id]).map (·.position) := List.map_set.symm
    _ = w.cheeses.map (·.position) := by rw [List.set_getElem_self]

end Pursuit.Arena.World
