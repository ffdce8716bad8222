import Pursuit.Proofs.Toml.Deletion
import Pursuit.Proofs.Toml.Lines

/-! Documents of whole tables. In a neat table simple values and tables lie under keys that need no
quotes, so that each of its statements can be written. -/
namespace Pursuit.Toml

open Statement (isPlain isTables hasHeader below belowValue belowItems belowValue_of_isPlain)

variable {v : Value} {es : List (String × Value)} {items : List Value}

/-- What a document can hold without quoted keys and values in values. Paths into it are at most
`depth` keys long. -/
inductive Value.IsNeat : ℕ → Value → Prop
  | simple {depth v} : v.IsSimple → IsNeat depth v
  | table {depth es} : (es.map (·.1)).Nodup → (∀ e ∈ es, IsBareKey e.1) →
      (∀ e ∈ es, e.2.IsNeat depth) → IsNeat (depth + 1) (.table es)
  | tables {depth items} : isTables items → (∀ v ∈ items, v.IsNeat depth) →
      IsNeat depth (.list items)

theorem Value.IsSimple.isPlain (simple : v.IsSimple) : isPlain v := by
  cases v with
  | table => exact simple.elim
  | list items =>
    obtain rfl : items = [] := simple
    rfl
  | flag | integer | float | text | moment => rfl

theorem Value.IsSimple.without (simple : v.IsSimple) (gone : Deletion) : v.without gone = v := by
  cases v with
  | table => exact simple.elim
  | list items =>
    obtain rfl : items = [] := simple
    rfl
  | flag | integer | float | text | moment => rfl

theorem isSimple_of_isNeat {depth : ℕ} (neat : v.IsNeat depth) (plain : isPlain v) :
    v.IsSimple := by
  cases neat with
  | simple simple => exact simple
  | table => cases plain
  | tables tables =>
    rw [isPlain, tables] at plain
    cases plain

/-! ## Writing the statements of a table -/

theorem isBarePath_append {path : List String} {depth : ℕ} (bare : ∀ k ∈ path, IsBareKey k)
    (shallow : path.length + (depth + 1) ≤ maxDepth) (key : IsBareKey k) :
    IsBarePath (path ++ [k]) where
  nonempty := by simp
  bare := by simpa [or_imp, forall_and] using ⟨bare, key⟩
  shallow := by simp; omega

def Writable (depth : ℕ) (v : Value) : Prop :=
  ∀ path, IsBarePath path → path.length + depth ≤ maxDepth → ∀ st ∈ belowValue path v, st.IsSimple

theorem isSimple_plain {depth : ℕ} (bare : ∀ e ∈ es, IsBareKey e.1)
    (neat : ∀ e ∈ es, e.2.IsNeat depth) : ∀ st ∈ Statement.plain es, st.IsSimple := by
  intro st mem
  obtain ⟨⟨k, v⟩, entry, rfl⟩ := List.mem_map.1 mem
  obtain ⟨entry, plain⟩ := List.mem_filter.1 entry
  exact ⟨⟨by simp, by simpa using bare _ entry, by simp [maxDepth]⟩,
    isSimple_of_isNeat (neat _ entry) plain⟩

theorem isSimple_below {depth : ℕ} (bare : ∀ e ∈ es, IsBareKey e.1)
    (writable : ∀ e ∈ es, Writable depth e.2) {path : List String} (keys : ∀ k ∈ path, IsBareKey k)
    (shallow : path.length + (depth + 1) ≤ maxDepth) : ∀ st ∈ below path es, st.IsSimple := by
  induction es with
  | nil => exact List.forall_mem_nil _
  | cons e es ih =>
    obtain ⟨k, v⟩ := e
    obtain ⟨key, bare⟩ := List.forall_mem_cons.1 bare
    obtain ⟨first, writable⟩ := List.forall_mem_cons.1 writable
    intro st mem
    obtain mem | mem := List.mem_append.1 mem
    · exact first _ (isBarePath_append keys shallow key) (by simp; omega) st mem
    · exact ih bare writable st mem

theorem isSimple_belowItems {depth : ℕ} {path : List String} (keys : IsBarePath path)
    (shallow : path.length + depth ≤ maxDepth) (tables : ∀ v ∈ items, ∃ es, v = .table es)
    (writable : ∀ v ∈ items, Writable depth v) : ∀ st ∈ belowItems path items, st.IsSimple := by
  induction items with
  | nil => exact List.forall_mem_nil _
  | cons v items ih =>
    obtain ⟨⟨es, rfl⟩, others⟩ := List.forall_mem_cons.1 tables
    obtain ⟨first, writable⟩ := List.forall_mem_cons.1 writable
    have inside := first path keys shallow
    rw [belowValue, List.append_assoc] at inside
    intro st mem
    rw [belowItems, List.cons_append, List.cons_append] at mem
    obtain rfl | mem := List.mem_cons.1 mem
    · exact keys
    · obtain mem | mem := List.mem_append.1 mem
      · exact inside st (List.mem_append_right _ mem)
      · exact ih others writable st mem

theorem writable_of_isNeat {depth : ℕ} (neat : v.IsNeat depth) : Writable depth v := by
  induction neat with
  | simple simple =>
    intro path _ _ st mem
    rw [belowValue_of_isPlain simple.isPlain] at mem
    cases mem
  | @table depth es distinct bare neat writable =>
    intro path keys shallow st mem
    rw [belowValue] at mem
    obtain mem | mem := List.mem_append.1 mem
    · obtain mem | mem := List.mem_append.1 mem
      · cases header : hasHeader es with
        | true =>
          rw [header] at mem
          obtain rfl := List.mem_singleton.1 mem
          exact keys
        | false =>
          rw [header] at mem
          cases mem
      · exact isSimple_plain bare neat st mem
    · exact isSimple_below bare writable keys.bare shallow st mem
  | @tables depth items tables _ writable =>
    intro path keys shallow st mem
    rw [belowValue, if_pos tables] at mem
    exact isSimple_belowItems keys shallow (exists_table tables) writable st mem

theorem isSimple_ofTable (neat : (Value.table es).IsNeat maxDepth) :
    ∀ st ∈ Statement.ofTable es, st.IsSimple := by
  cases neat with
  | simple simple => exact simple.elim
  | table distinct bare neat =>
    intro st mem
    obtain mem | mem := List.mem_append.1 mem
    · exact isSimple_plain bare neat st mem
    · exact isSimple_below bare (fun e mem => writable_of_isNeat (neat e mem))
        (List.forall_mem_nil _) (by simp; decide) st mem

end Pursuit.Toml
