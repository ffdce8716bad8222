import Pursuit.Proofs.Chase.Catch
import Pursuit.Proofs.Chase.Footprints

/-! A spoiled scene. From then on every guard is shut and every deed refused before it gets to see
the scene, so both trees fail at each tick, none of their actions stays raised, and only time goes
on. -/
namespace Pursuit.Chase

open Pursuit.Behavior Pursuit.Settings

variable {h : Host}

/-! ## Ticks -/

/-- What is noted when a course is refused: its guard where it has one, else its deed. -/
def Course.refusal (c : Course) : Event :=
  match c.guard with
  | none => .actionFailed c.name Host.spoiledFault
  | some (label, _) => .conditionFailed label Host.spoiledFault

def Host.refuse (h : Host) (cs : List Course) : Host := cs.foldl (fun h c => record c.refusal h) h

theorem Host.refuse_scene (h : Host) (cs : List Course) :
    (h.refuse cs).scene = h.scene ∧ (h.refuse cs).spoiled = h.spoiled := by
  induction cs generalizing h with
  | nil => exact ⟨rfl, rfl⟩
  | cons c cs ih => exact ih (record c.refusal h)

theorem tick_condition_of_spoiled (spoiled : h.spoiled) (name : String)
    (check : Scene → Bool × Scene) (slot : Nat) :
    (condition name check).tick .nowhere slot ⟨h, []⟩ =
      (.returned .failure, ⟨record (.conditionFailed name Host.spoiledFault) h, []⟩) := by
  obtain ⟨s, _, events⟩ := h
  obtain rfl := spoiled
  rfl

theorem tick_action_of_spoiled (spoiled : h.spoiled) (name : String) (deed : Scene → Deed)
    (slot : Nat) :
    (action name deed).tick .nowhere slot ⟨h, []⟩ =
      (.returned .failure, ⟨record (.actionFailed name Host.spoiledFault) h, []⟩) := by
  rw [action, Node.tick, Node.act, if_neg List.not_mem_nil]
  simp [Host.lock, spoiled, Routine.perform, Node.settle, Run.lower, Run.raise, Run.note]

theorem tick_node_of_spoiled (spoiled : h.spoiled) (c : Course) (slot : Nat) :
    c.node.tick .nowhere slot ⟨h, []⟩ = (.returned .failure, ⟨record c.refusal h, []⟩) := by
  obtain ⟨guard, name, deed⟩ := c
  cases guard with
  | none => exact tick_action_of_spoiled spoiled name deed slot
  | some guard =>
    rw [Course.node, Node.tick_sequence, Node.walk, tick_condition_of_spoiled spoiled]
    rfl

theorem walk_nodes_of_spoiled (spoiled : h.spoiled) (cs : List Course) (slot : Nat) :
    Node.walk .nowhere .failure (cs.map Course.node) slot ⟨h, []⟩ =
      (.returned .failure, ⟨h.refuse cs, []⟩) := by
  induction cs generalizing h slot with
  | nil => rfl
  | cons c cs ih =>
    rw [List.map_cons, Node.walk, tick_node_of_spoiled spoiled]
    exact ih (h := record c.refusal h) spoiled _

theorem Cat.tick_tree_of_spoiled (spoiled : h.spoiled) :
    Tree.tick { root := Cat.tree } h =
      (.returned .failure, { root := Cat.tree }, h.refuse courses) := by
  have walked : Cat.tree.tick .nowhere 0 ⟨h, []⟩ = _ :=
    (Node.tick_fallback ..).trans (walk_nodes_of_spoiled spoiled courses 0)
  rw [Tree.tick, Tree.tickWith, walked]

theorem Mouse.tick_tree_of_spoiled (spoiled : h.spoiled) :
    Tree.tick { root := Mouse.tree } h = (.returned .failure, { root := Mouse.tree },
      record (.conditionFailed "mouse_is_free" Host.spoiledFault) h) := by
  rw [Tree.tick, Tree.tickWith, tree, Node.tick_sequence, Node.walk,
    tick_condition_of_spoiled spoiled]
  rfl

/-! ## Time -/

theorem Moves.refl (s : Scene) : Moves s s := ⟨_, _, _, _, _, rfl⟩

theorem Moves.trans {s s' s'' : Scene} (first : Moves s s') (second : Moves s' s'') :
    Moves s s'' := by
  obtain ⟨_, _, _, _, _, rfl⟩ := first
  obtain ⟨_, _, _, _, _, rfl⟩ := second
  exact ⟨_, _, _, _, _, rfl⟩

def Scene.advanceAll (s : Scene) (deltas : List Float) : Scene := deltas.foldl advance s

theorem advanceAll_moves (s : Scene) (deltas : List Float) : Moves s (s.advanceAll deltas) := by
  induction deltas generalizing s with
  | nil => exact .refl s
  | cons delta deltas ih => exact (advance_moves s delta).trans (ih (s.advance delta))

/-! ## Strokes -/

def Stroke.refused : Stroke → Option (Exit Status)
  | .cat | .mouse => some (.returned .failure)
  | .advance _ => none

def Stroke.delta? : Stroke → Option Float
  | .cat | .mouse => none
  | .advance delta => some delta

namespace Stage

variable {st : Stage}

structure AtRest (st : Stage) : Prop where
  cat : st.cat = { root := Cat.tree }
  mouse : st.mouse = { root := Mouse.tree }

/-- A tick lowers what it raises, in any scene, also if a deed breaks off and spoils it. -/
theorem AtRest.play (rest : st.AtRest) (stroke : Stroke) : (st.play stroke).2.AtRest := by
  obtain ⟨cat, mouse⟩ := rest
  cases stroke with
  | cat =>
    refine ⟨?_, mouse⟩
    rw [Stage.play, cat]
    cases spoiled : st.host.spoiled with
    | true => rw [Cat.tick_tree_of_spoiled spoiled]
    | false => rw [Cat.tick_tree spoiled]
  | mouse =>
    refine ⟨cat, ?_⟩
    rw [Stage.play, mouse]
    cases spoiled : st.host.spoiled with
    | true => rw [Mouse.tick_tree_of_spoiled spoiled]
    | false =>
      cases caught : st.host.scene.mouseCaught with
      | true => rw [Mouse.tick_tree_of_caught spoiled caught]
      | false => rw [Mouse.tick_tree_of_free spoiled caught]
  | advance delta => exact ⟨cat, mouse⟩

theorem AtRest.playAll (rest : st.AtRest) (strokes : List Stroke) :
    (st.playAll strokes).2.AtRest := by
  induction strokes generalizing st with
  | nil => exact rest
  | cons stroke strokes ih => exact ih (rest.play stroke)

theorem play_of_spoiled (rest : st.AtRest) (spoiled : st.host.spoiled) (stroke : Stroke) :
    ∃ st', st.play stroke = (stroke.refused, st') ∧ st'.host.spoiled ∧
      st'.host.scene = st.host.scene.advanceAll stroke.delta?.toList := by
  cases stroke with
  | cat =>
    obtain ⟨scene, kept⟩ := st.host.refuse_scene Cat.courses
    rw [play, rest.cat, Cat.tick_tree_of_spoiled spoiled]
    exact ⟨_, rfl, kept.trans spoiled, scene⟩
  | mouse =>
    rw [play, rest.mouse, Mouse.tick_tree_of_spoiled spoiled]
    exact ⟨_, rfl, spoiled, rfl⟩
  | advance delta => exact ⟨_, rfl, spoiled, rfl⟩

theorem playAll_of_atRest (rest : st.AtRest) (spoiled : st.host.spoiled) (strokes : List Stroke) :
    ∃ st', st.playAll strokes = (strokes.map Stroke.refused, st') ∧ st'.AtRest ∧ st'.host.spoiled ∧
      st'.host.scene = st.host.scene.advanceAll (strokes.filterMap Stroke.delta?) := by
  induction strokes generalizing st with
  | nil => exact ⟨st, rfl, rest, spoiled, rfl⟩
  | cons stroke strokes ih =>
    obtain ⟨st₁, played, spoiled₁, here⟩ := play_of_spoiled rest spoiled stroke
    have rest₁ := rest.play stroke
    rw [played] at rest₁
    obtain ⟨st', more, rest', spoiled', there⟩ := ih rest₁ spoiled₁
    refine ⟨st', ?_, rest', spoiled', ?_⟩
    · rw [playAll, played]
      dsimp only
      rw [more]
      rfl
    · rw [there, here]
      cases stroke with
      | cat | mouse | advance => rfl

/-- A stage with any scene, spoiled from the start or by a deed that broke off on the way. Every
further tick of either tree fails without being abandoned, no action stays raised, and the scene is
what the advances alone make of it: they change places, headings and the clock. -/
theorem playAll_of_spoiled (h : Host) (first further : List Stroke)
    (spoiled : (playAll { host := h } first).2.host.spoiled) :
    ∃ st st', (playAll { host := h } first).2 = st ∧
      st.playAll further = (further.map Stroke.refused, st') ∧
      st'.cat = { root := Cat.tree } ∧ st'.mouse = { root := Mouse.tree } ∧
      st'.host.scene = st.host.scene.advanceAll (further.filterMap Stroke.delta?) ∧
      Moves st.host.scene st'.host.scene := by
  have rest : (playAll { host := h } first).2.AtRest := AtRest.playAll ⟨rfl, rfl⟩ first
  obtain ⟨st', played, rest', -, scene⟩ := playAll_of_atRest rest spoiled further
  exact ⟨_, st', rfl, played, rest'.cat, rest'.mouse, scene, scene ▸ advanceAll_moves _ _⟩

def inverted : RunSettings := { world := { halfExtent := -1.0, cheeses := [] } }

/-- The mouse's first walk breaks off. -/
theorem playAll_of_spoiled_inverted :
    ((ofSettings inverted).playAll [.cat, .mouse]).2.host.spoiled ∧
    ∃ st st', ((ofSettings inverted).playAll [.cat, .mouse]).2 = st ∧
      st.playAll [.mouse, .advance 0.5, .cat] =
        ([some (.returned .failure), none, some (.returned .failure)], st') ∧
      st'.host.scene = st.host.scene.advance 0.5 := by
  have spoiled : ((ofSettings inverted).playAll [.cat, .mouse]).2.host.spoiled := by decide +kernel
  obtain ⟨st, st', begun, played, -, -, scene, -⟩ :=
    playAll_of_spoiled { scene := .ofSettings inverted } [.cat, .mouse] [.mouse, .advance 0.5, .cat]
      spoiled
  exact ⟨spoiled, st, st', begun, played, scene⟩

end Stage

end Pursuit.Chase
