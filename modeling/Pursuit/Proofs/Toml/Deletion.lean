import Pursuit.Proofs.Toml.Assembly

/-! Documents from which keys have been deleted. Every line that stands under a deleted key goes
with it, and all other lines stay, also the header of a table that has lost all its keys. What is
left of a document is read as what is left of its table if no table vanishes with its keys, for want
of a header. A header that still stands makes the same table, whatever is left to stand under it. -/
namespace Pursuit.Toml

open Statement (isPlain isTables hasHeader below belowValue belowItems plain sections addSections)

/-! ## Places -/

inductive Step where
  | key (k : String)
  | item (i : ℕ)

/-- The steps from a whole document to a value in it. -/
abbrev Place := List Step

/-- Which keys are deleted. Each is named with the place of its table. -/
abbrev Deletion := Place → String → Bool

namespace Deletion

def under (gone : Deletion) (s : Step) : Deletion := fun place => gone (s :: place)

def spares (gone : Deletion) : Place → Bool
  | [] => true
  | .key k :: place => !gone [] k && spares (gone.under (.key k)) place
  | .item i :: place => spares (gone.under (.item i)) place

end Deletion

abbrev Keys := List (Place × String)

def Keys.after (s : Step) (ks : Keys) : Keys := ks.map fun (place, k) => (s :: place, k)

/-- Keys that lie in each of `n` items, of which the first is at `i`. -/
def Keys.inItems (ks : Keys) (i n : ℕ) : Keys :=
  (List.range' i n).flatMap fun j => ks.after (.item j)

namespace Deletion

/-- What a key stands for: what is written under it, or the default if it is deleted. -/
def pick {α : Type} (gone : Deletion) (k : String) (written default : α) : α :=
  if gone [] k then default else written

def hits (gone : Deletion) (ks : Keys) : Bool :=
  ks.any fun (place, k) => gone.spares place && gone place k

theorem hits_append (gone : Deletion) (ks ks' : Keys) :
    gone.hits (ks ++ ks') = (gone.hits ks || gone.hits ks') :=
  List.any_append

theorem hits_after_key (gone : Deletion) (k : String) (ks : Keys) :
    gone.hits (ks.after (.key k)) = (!gone [] k && (gone.under (.key k)).hits ks) := by
  rw [hits, Keys.after, List.any_map, hits]
  cases deleted : gone [] k <;> simp [Function.comp_def, spares, under, deleted]

theorem hits_inItems_succ (gone : Deletion) (ks : Keys) (i n : ℕ) :
    gone.hits (ks.inItems i (n + 1)) =
      ((gone.under (.item i)).hits ks || gone.hits (ks.inItems (i + 1) n)) := by
  have first : gone.hits (ks.after (.item i)) = (gone.under (.item i)).hits ks := by
    rw [hits, Keys.after, List.any_map]
    rfl
  rw [Keys.inItems, List.range'_succ, List.flatMap_cons, hits_append, first, Keys.inItems]

end Deletion

variable {k : String} {v : Value} {es : List (String × Value)} {items : List Value}

/-! ## What is left of a table -/

mutual
def Value.without (gone : Deletion) : Value → Value
  | .table es => .table (withoutEntries gone es)
  | .list items => .list (withoutItems gone 0 items)
  | v => v

def withoutEntries (gone : Deletion) : List (String × Value) → List (String × Value)
  | [] => []
  | (k, v) :: es =>
    if gone [] k then withoutEntries gone es
    else (k, v.without (gone.under (.key k))) :: withoutEntries gone es

def withoutItems (gone : Deletion) (i : ℕ) : List Value → List Value
  | [] => []
  | v :: items => v.without (gone.under (.item i)) :: withoutItems gone (i + 1) items
end

theorem keys_withoutEntries (gone : Deletion) (es : List (String × Value)) :
    ((withoutEntries gone es).map (·.1)).Sublist (es.map (·.1)) := by
  induction es with
  | nil => exact .slnil
  | cons e es ih =>
    rw [withoutEntries]
    split
    · exact ih.cons _
    · exact ih.cons_cons _

theorem lookup_cons (e : String × Value) (es : List (String × Value)) (k : String) :
    lookup (e :: es) k = if e.1 = k then some e.2 else lookup es k := by
  by_cases same : e.1 = k <;> simp [lookup, same]

theorem lookup_withoutEntries (gone : Deletion) (es : List (String × Value)) (k : String) :
    lookup (withoutEntries gone es) k =
      if gone [] k then none else (lookup es k).map (·.without (gone.under (.key k))) := by
  induction es with
  | nil => simp [withoutEntries, lookup]
  | cons e es ih =>
    obtain ⟨j, v⟩ := e
    rw [withoutEntries, lookup_cons]
    by_cases same : j = k
    · subst same
      cases deleted : gone [] j with
      | true => simpa [deleted] using ih
      | false => simp [lookup_cons]
    · cases deleted : gone [] j <;> simp [lookup_cons, same, ih]

theorem all_withoutItems {p : Value → Bool} (blind : ∀ gone v, p (v.without gone) = p v)
    (gone : Deletion) (i : ℕ) (items : List Value) :
    (withoutItems gone i items).all p = items.all p := by
  induction items generalizing i with
  | nil => rfl
  | cons v items ih => rw [withoutItems, List.all_cons, List.all_cons, blind, ih]

theorem isTables_withoutItems (gone : Deletion) (i : ℕ) (items : List Value) :
    isTables (withoutItems gone i items) = isTables items := by
  cases items with
  | nil => rfl
  | cons v items =>
    rw [withoutItems, isTables, isTables]
    · refine all_withoutItems (fun gone v => ?_) gone i (v :: items)
      cases v <;> rfl
    · exact List.cons_ne_nil _ _
    · exact List.cons_ne_nil _ _

theorem isPlain_without (gone : Deletion) (v : Value) : isPlain (v.without gone) = isPlain v := by
  cases v with
  | list items => rw [Value.without, isPlain, isPlain, isTables_withoutItems]
  | table | flag | integer | float | text | moment => rfl

/-! ## What is left of a document -/

namespace Statement

def spared (gone : Deletion) (es : List (String × Value)) : List (String × Value) :=
  es.filter fun (k, _) => !gone [] k

theorem spared_cons (gone : Deletion) (k : String) (v : Value) (es : List (String × Value)) :
    spared gone ((k, v) :: es) =
      if gone [] k then spared gone es else (k, v) :: spared gone es := by
  cases deleted : gone [] k <;> simp [spared, deleted]

mutual
def remainingBelow (gone : Deletion) : List (String × Value) → List Statement
  | [] => []
  | (k, v) :: es =>
    (if gone [] k then [] else (remainingValue (gone.under (.key k)) v).map (under k)) ++
      remainingBelow gone es

def remainingValue (gone : Deletion) : Value → List Statement
  | .table es =>
    (if hasHeader es then [.header []] else []) ++ plain (spared gone es) ++ remainingBelow gone es
  | .list items => if isTables items then remainingItems gone 0 items else []
  | _ => []

def remainingItems (gone : Deletion) (i : ℕ) : List Value → List Statement
  | [] => []
  | .table es :: items =>
    .item [] :: plain (spared (gone.under (.item i)) es) ++
      remainingBelow (gone.under (.item i)) es ++
      remainingItems gone (i + 1) items
  | _ :: items => remainingItems gone (i + 1) items
end

/-- The statements of a table but for those that stand under a deleted key. -/
def remaining (gone : Deletion) (es : List (String × Value)) : List Statement :=
  plain (spared gone es) ++ remainingBelow gone es

theorem plain_spared (gone : Deletion) (es : List (String × Value)) :
    (plain (spared gone es)).Sublist (plain es) :=
  (List.filter_sublist.filter _).map _

theorem plain_spared_of_not_hasHeader (bare : hasHeader es = false) (gone : Deletion) :
    plain (spared gone es) = [] := by
  have none := plain_spared gone es
  rwa [plain_of_not_hasHeader bare, List.sublist_nil] at none

mutual
theorem remainingBelow_sublist (gone : Deletion) :
    ∀ es, (remainingBelow gone es).Sublist (below [] es)
  | [] => .slnil
  | (k, v) :: es => by
    rw [remainingBelow, below, List.nil_append, belowValue_cons k [] v]
    refine .append ?_ (remainingBelow_sublist gone es)
    split
    · exact List.nil_sublist _
    · exact (remainingValue_sublist (gone.under (.key k)) v).map _

theorem remainingValue_sublist (gone : Deletion) :
    ∀ v, (remainingValue gone v).Sublist (belowValue [] v)
  | .table es => by
    rw [remainingValue, belowValue]
    exact ((List.Sublist.refl _).append (plain_spared gone es)).append
      (remainingBelow_sublist gone es)
  | .list items => by
    rw [remainingValue, belowValue]
    cases isTables items with
    | true => exact remainingItems_sublist gone 0 items
    | false => exact .slnil
  | .flag _ | .integer _ | .float _ | .text _ | .moment => .slnil

theorem remainingItems_sublist (gone : Deletion) (i : ℕ) :
    ∀ items, (remainingItems gone i items).Sublist (belowItems [] items)
  | [] => .slnil
  | .table es :: items => by
    rw [remainingItems, belowItems]
    exact (((plain_spared _ es).cons_cons _).append (remainingBelow_sublist _ es)).append
      (remainingItems_sublist gone (i + 1) items)
  | .list _ :: items | .flag _ :: items | .integer _ :: items | .float _ :: items
  | .text _ :: items | .moment :: items => remainingItems_sublist gone (i + 1) items
end

theorem remaining_sublist (gone : Deletion) (es : List (String × Value)) :
    (remaining gone es).Sublist (ofTable es) :=
  (plain_spared gone es).append (remainingBelow_sublist gone es)

/-! ## The sections that are left -/

mutual
theorem headed_remainingBelow (gone : Deletion) : ∀ es, (sections (remainingBelow gone es)).1 = []
  | [] => rfl
  | (k, v) :: es => by
    rw [remainingBelow, sections_append _ (headed_remainingBelow gone es)]
    split
    · rfl
    · rw [sections_under]
      exact headed_remainingValue (gone.under (.key k)) v

theorem headed_remainingValue (gone : Deletion) : ∀ v, (sections (remainingValue gone v)).1 = []
  | .table es => by
    rw [remainingValue]
    cases header : hasHeader es with
    | true => rfl
    | false =>
      rw [plain_spared_of_not_hasHeader header]
      exact headed_remainingBelow gone es
  | .list items => by
    rw [remainingValue]
    cases isTables items with
    | true => exact headed_remainingItems gone 0 items
    | false => rfl
  | .flag _ | .integer _ | .float _ | .text _ | .moment => rfl

theorem headed_remainingItems (gone : Deletion) (i : ℕ) :
    ∀ items, (sections (remainingItems gone i items)).1 = []
  | [] => rfl
  | .table _ :: _ => rfl
  | .list _ :: items | .flag _ :: items | .integer _ :: items | .float _ :: items
  | .text _ :: items | .moment :: items => headed_remainingItems gone (i + 1) items
end

theorem path_ne_nil_remainingBelow (gone : Deletion) (es : List (String × Value)) :
    ∀ s ∈ (sections (remainingBelow gone es)).2, s.1.path ≠ [] := by
  induction es with
  | nil => exact List.forall_mem_nil _
  | cons e es ih =>
    rw [remainingBelow, sections_append _ (headed_remainingBelow gone es)]
    intro s mem
    obtain mem | mem := List.mem_append.1 mem
    · split at mem
      · cases mem
      · rw [sections_under] at mem
        exact path_under_ne_nil s mem
    · exact ih s mem

theorem sections_remaining (gone : Deletion) (es : List (String × Value)) :
    sections (remaining gone es) =
      (assignments (spared gone es), (sections (remainingBelow gone es)).2) := by
  rw [remaining, sections_plain, headed_remainingBelow, List.append_nil]

theorem sections_remainingValue_of_hasHeader (header : hasHeader es) (gone : Deletion) :
    (sections ((remainingValue gone (.table es)).map (under k))).2 =
      (.table [k], assignments (spared gone es)) ::
        (sections (remainingBelow gone es)).2.map (Section.under k) := by
  have inside := sections_remaining gone es
  rw [remaining] at inside
  rw [sections_under, remainingValue, header, if_pos rfl, List.append_assoc, List.singleton_append,
    sections, inside]
  rfl

theorem sections_remainingValue_of_not_hasHeader (bare : hasHeader es = false) (gone : Deletion) :
    (sections ((remainingValue gone (.table es)).map (under k))).2 =
      (sections (remainingBelow gone es)).2.map (Section.under k) := by
  rw [sections_under, remainingValue, bare, plain_spared_of_not_hasHeader bare]
  rfl

theorem sections_remainingItems (gone : Deletion) (i : ℕ) (es : List (String × Value))
    (items : List Value) :
    (sections ((remainingItems gone i (.table es :: items)).map (under k))).2 =
      (.item [k], assignments (spared (gone.under (.item i)) es)) ::
        ((sections (remainingBelow (gone.under (.item i)) es)).2.map (Section.under k) ++
          (sections ((remainingItems gone (i + 1) items).map (under k))).2) := by
  have inside := sections_remaining (gone.under (.item i)) es
  have headed := headed_remainingItems gone (i + 1) items
  rw [remaining] at inside
  rw [sections_under, sections_under, remainingItems, List.cons_append, List.cons_append, sections,
    sections_append _ headed, inside]
  exact congrArg (_ :: ·) List.map_append

end Statement

open Statement (spared remaining remainingBelow remainingValue remainingItems)

/-! ## Reading what is left -/

/-- The statements that are left below a new key give what is left of the value. -/
def Survives (gone : Deletion) (v : Value) : Prop :=
  ∀ (base : Node.Entries) (k : String), k ∉ Node.keys base → isPlain v = false →
    ∃ n, addSections base (sections ((remainingValue gone v).map (Statement.under k))).2 =
      some (base ++ [(k, n)]) ∧
      n.toValue = (v.without gone).readBack

/-- A table of which the values below survive, and the plain ones stay whole. -/
structure Endures (gone : Deletion) (es : List (String × Value)) : Prop where
  below : ∀ e ∈ es, Survives (gone.under (.key e.1)) e.2
  plain : ∀ e ∈ es, isPlain e.2 → e.2.without (gone.under (.key e.1)) = e.2
  distinct : (es.map (·.1)).Nodup

variable {gone : Deletion}

theorem ofPlain_withoutEntries
    (whole : ∀ e ∈ es, isPlain e.2 → e.2.without (gone.under (.key e.1)) = e.2) :
    Node.ofPlain (withoutEntries gone es) = Node.ofPlain (spared gone es) := by
  induction es with
  | nil => rfl
  | cons e es ih =>
    obtain ⟨k, v⟩ := e
    obtain ⟨first, whole⟩ := List.forall_mem_cons.1 whole
    rw [withoutEntries, Statement.spared_cons]
    cases deleted : gone [] k with
    | true => exact ih whole
    | false =>
      rw [if_neg Bool.false_ne_true, if_neg Bool.false_ne_true, Node.ofPlain_cons,
        Node.ofPlain_cons, isPlain_without, ih whole]
      cases plain : isPlain v with
      | true => rw [first plain]
      | false => rfl

theorem toValues_append (a b : Node.Entries) :
    Node.toValues (a ++ b) = Node.toValues a ++ Node.toValues b := by
  rw [toValues_eq_map, toValues_eq_map, toValues_eq_map, List.map_append]

theorem addSections_remainingBelow (each : ∀ e ∈ es, Survives (gone.under (.key e.1)) e.2)
    (distinct : (es.map (·.1)).Nodup) {base : Node.Entries}
    (fresh : ∀ e ∈ es, isPlain e.2 = false → e.1 ∉ Node.keys base) :
    ∃ ns, addSections base (sections (remainingBelow gone es)).2 = some (base ++ ns) ∧
      Node.toValues ns = Node.toValues (Node.ofBelow (withoutEntries gone es)) := by
  -- Each value below goes to the end of what is there, which its key must not be in yet.
  induction es generalizing base with
  | nil => exact ⟨[], congrArg some (List.append_nil base).symm, rfl⟩
  | cons e es ih =>
    obtain ⟨k, v⟩ := e
    obtain ⟨first, each⟩ := List.forall_mem_cons.1 each
    obtain ⟨new, fresh⟩ := List.forall_mem_cons.1 fresh
    rw [List.map_cons, List.nodup_cons] at distinct
    rw [remainingBelow, Statement.sections_append _ (Statement.headed_remainingBelow gone es),
      Statement.addSections_append, withoutEntries]
    cases deleted : gone [] k with
    | true => exact ih each distinct.2 fresh
    | false =>
      rw [if_neg Bool.false_ne_true, if_neg Bool.false_ne_true, Node.ofBelow, isPlain_without]
      cases plain : isPlain v with
      | true =>
        have none : remainingValue (gone.under (.key k)) v = [] := by
          rw [← List.sublist_nil, ← Statement.belowValue_of_isPlain plain []]
          exact Statement.remainingValue_sublist _ v
        rw [none]
        exact ih each distinct.2 fresh
      | false =>
        obtain ⟨n, read, same⟩ := first base k (new plain) plain
        have other : ∀ e ∈ es, isPlain e.2 = false → e.1 ∉ Node.keys (base ++ [(k, n)]) := by
          intro e mem below
          have different : e.1 ≠ k := fun same => distinct.1 (List.mem_map.2 ⟨e, mem, same⟩)
          simpa [Node.keys, different] using fresh e mem below
        obtain ⟨ns, rest, others⟩ := ih each distinct.2 other
        refine ⟨(k, n) :: ns, ?_, ?_⟩
        · rw [read, Option.bind_some, rest, List.append_assoc]
          rfl
        · rw [if_neg Bool.false_ne_true, Node.toValues, Node.toValues, same, others]
          rfl

/-- The plain keys that are left come first, and what is left below is added to them. -/
theorem Endures.addSections_ofPlain (endures : Endures gone es) :
    ∃ ns, addSections (Node.ofPlain (spared gone es))
      (sections (remainingBelow gone es)).2 = some ns ∧
      Node.toValues ns = Node.toValues (Node.ofEntries (withoutEntries gone es)) := by
  have fresh : ∀ e ∈ es, isPlain e.2 = false → e.1 ∉ Node.keys (Node.ofPlain (spared gone es)) := by
    intro e mem below key
    refine Node.not_mem_keys_ofPlain endures.distinct mem below (List.Sublist.subset ?_ key)
    exact ((List.filter_sublist.filter _).map _).map _
  obtain ⟨ns, read, same⟩ := addSections_remainingBelow endures.below endures.distinct fresh
  refine ⟨_, read, ?_⟩
  rw [Node.ofEntries, toValues_append, toValues_append, same, ofPlain_withoutEntries endures.plain]

theorem Endures.assignAll (endures : Endures gone es) :
    Node.assignAll [] (Statement.assignments (spared gone es)) =
      some (Node.ofPlain (spared gone es)) :=
  Node.assignAll_ofPlain (endures.distinct.sublist (List.filter_sublist.map _))

theorem toValues_ofEntries_ne_nil (some : es ≠ []) : Node.toValues (Node.ofEntries es) ≠ [] := by
  intro none
  have perm := perm_toValues es
  rw [none, List.nil_perm, List.map_eq_nil_iff] at perm
  exact some perm

theorem Endures.survives (endures : Endures gone es)
    (stands : hasHeader es ∨ withoutEntries gone es ≠ []) :
    Survives gone (.table es) := by
  intro base k fresh _
  obtain ⟨ns, inside, same⟩ := endures.addSections_ofPlain
  have deep := Statement.path_ne_nil_remainingBelow gone es
  cases header : hasHeader es with
  | true =>
    have open? : Statement.addSection base (.table [k], Statement.assignments (spared gone es)) =
        some (base ++ [(k, .table .header (Node.ofPlain (spared gone es)))]) :=
      Node.open?_fresh fresh endures.assignAll
    refine ⟨.table .header ns, ?_, ?_⟩
    · rw [Statement.sections_remainingValue_of_hasHeader header, addSections,
        List.foldlM_cons, open?]
      refine (Statement.addSections_under (Node.isWay_table .header) fresh _ deep).trans ?_
      rw [inside]
      rfl
    · rw [Node.toValue, same, Value.without, readBack_table]
  | false =>
    -- The first heading below makes the table, and there is one, for a key of the table is left.
    have stays : withoutEntries gone es ≠ [] := stands.resolve_left (by simp [header])
    have bare : Node.ofPlain (spared gone es) = [] := by
      have none := Statement.plain_spared_of_not_hasHeader header gone
      rw [Statement.plain, List.map_eq_nil_iff] at none
      rw [Node.ofPlain, none, List.map_nil]
    rw [bare] at inside
    have some : (sections (remainingBelow gone es)).2 ≠ [] := by
      intro none
      rw [none] at inside
      obtain rfl := Option.some.inj inside
      exact toValues_ofEntries_ne_nil stays same.symm
    refine ⟨.table .passage ns, ?_, ?_⟩
    · rw [Statement.sections_remainingValue_of_not_hasHeader header,
        Statement.addSections_under_fresh fresh some deep, inside]
      rfl
    · rw [Node.toValue, same, Value.without, readBack_table]

theorem addSections_remainingItems {i : ℕ}
    (tables : ∀ j v, items[j]? = some v → ∃ es, v = .table es ∧
      Endures (gone.under (.item (i + j))) es)
    {base : Node.Entries} (fresh : k ∉ Node.keys base) (done : List Node.Entries) :
    ∃ ns, addSections (Node.withTables base k done)
        (sections ((remainingItems gone i items).map (Statement.under k))).2 =
          some (Node.withTables base k (done ++ ns)) ∧
      Node.toTables ns = Node.toTables (Node.ofItems (withoutItems gone i items)) := by
  induction items generalizing done i with
  | nil => exact ⟨[], congrArg (some <| Node.withTables base k ·) (List.append_nil done).symm, rfl⟩
  | cons v items ih =>
    obtain ⟨es, rfl, endures⟩ := tables 0 v rfl
    have others : ∀ j v, items[j]? = some v → ∃ es, v = .table es ∧
        Endures (gone.under (.item (i + 1 + j))) es := by
      intro j v got
      rw [Nat.add_right_comm]
      exact tables (j + 1) v got
    obtain ⟨ns, inside, same⟩ := endures.addSections_ofPlain
    have append : Statement.addSection (Node.withTables base k done)
        (.item [k], Statement.assignments (spared (gone.under (.item i)) es)) =
          some (Node.withTables base k
              (done ++ [Node.ofPlain (spared (gone.under (.item i)) es)])) :=
      Node.append?_withTables fresh endures.assignAll
    have under := Statement.addSections_under (Node.isWay_tables done) fresh
      (Node.ofPlain (spared (gone.under (.item i)) es))
        (Statement.path_ne_nil_remainingBelow (gone.under (.item i)) es)
    rw [Nat.add_zero] at inside same
    rw [inside, Option.map_some, ← Node.withTables_concat, ← Node.withTables_concat] at under
    obtain ⟨rest, read, alike⟩ := ih others (done ++ [ns])
    rw [List.append_assoc] at read
    refine ⟨ns :: rest, ?_, ?_⟩
    · rw [Statement.sections_remainingItems, addSections, List.foldlM_cons, append]
      change addSections _ _ = _
      rw [Statement.addSections_append, under]
      exact read
    · rw [withoutItems, Value.without, Node.ofItems, Node.toTables, Node.toTables, same, alike]
      rfl

/-- A value in which nothing is deleted but from tables that stay. A table without a header stays
only with a key that is left in it. -/
inductive Value.Lasts : Deletion → Value → Prop
  | plain {gone : Deletion} {v : Value} : isPlain v → v.without gone = v → Lasts gone v
  | table {gone : Deletion} {es : List (String × Value)} : (es.map (·.1)).Nodup →
      hasHeader es ∨ withoutEntries gone es ≠ [] → (∀ e ∈ es, Lasts (gone.under (.key e.1)) e.2) →
      Lasts gone (.table es)
  | tables {gone : Deletion} {items : List Value} : isTables items →
      (∀ i v, items[i]? = some v → Lasts (gone.under (.item i)) v) → Lasts gone (.list items)

theorem Value.Lasts.without (lasts : v.Lasts gone) (plain : isPlain v) : v.without gone = v := by
  cases lasts with
  | plain _ whole => exact whole
  | table => cases plain
  | tables tables =>
    rw [isPlain, tables] at plain
    cases plain

/-- Along with the value itself goes what a list needs of its tables, whose headings are not those
of a table under a key. -/
theorem survives_of_lasts (lasts : v.Lasts gone) :
    Survives gone v ∧ ∀ es, v = .table es → Endures gone es := by
  induction lasts with
  | @plain _ v plain =>
    refine ⟨fun _ _ _ below => ?_, fun es same => ?_⟩
    · cases plain.symm.trans below
    · rw [same] at plain
      cases plain
  | @table _ es distinct stands lasts each =>
    have endures := Endures.mk (fun e mem => (each e mem).1)
      (fun e mem => (lasts e mem).without) distinct
    refine ⟨endures.survives stands, fun es same => ?_⟩
    cases same
    exact endures
  | @tables gone items tables _ each =>
    refine ⟨fun base k fresh _ => ?_, fun es same => by cases same⟩
    have inside : ∀ j v, items[j]? = some v → ∃ es, v = .table es ∧
        Endures (gone.under (.item (0 + j))) es := by
      intro j v got
      obtain ⟨es, same⟩ := exists_table tables v (List.mem_of_getElem? got)
      rw [Nat.zero_add]
      exact ⟨es, same, (each j v got).2 es same⟩
    obtain ⟨ns, read, same⟩ := addSections_remainingItems inside fresh []
    have some : ns ≠ [] := by
      rintro rfl
      obtain ⟨v, items, rfl⟩ :=
        List.exists_cons_of_ne_nil (show items ≠ [] by rintro rfl; cases tables)
      obtain ⟨es, rfl⟩ := exists_table tables v List.mem_cons_self
      cases same
    refine ⟨.tables ns, ?_, ?_⟩
    · rw [remainingValue, if_pos tables]
      obtain ⟨n, ns, rfl⟩ := List.exists_cons_of_ne_nil some
      exact read
    · rw [Node.toValue, same, Value.without, Value.readBack, Node.ofValue, isTables_withoutItems,
        if_pos tables, Node.toValue]

theorem assemble_remaining (lasts : ∀ e ∈ es, e.2.Lasts (gone.under (.key e.1)))
    (distinct : (es.map (·.1)).Nodup) :
    Statement.assemble (remaining gone es) =
      some (Node.toValues (Node.ofEntries (withoutEntries gone es))) := by
  have endures : Endures gone es :=
    ⟨fun e mem => (survives_of_lasts (lasts e mem)).1, fun e mem => (lasts e mem).without, distinct⟩
  obtain ⟨ns, read, same⟩ := endures.addSections_ofPlain
  rw [Statement.assemble, Statement.sections_remaining]
  dsimp only
  rw [endures.assignAll]
  change
    (addSections (Node.ofPlain (spared gone es)) (sections (remainingBelow gone es)).2).bind _ = _
  rw [read, ← same]
  rfl

/-! ## Nothing deleted -/

namespace Deletion

def nothing : Deletion := fun _ _ => false

theorem hits_nothing (ks : Keys) : nothing.hits ks = false := by simp [hits, nothing]

theorem spared_nothing (es : List (String × Value)) : spared nothing es = es :=
  List.filter_eq_self.2 fun _ _ => rfl

mutual
theorem remainingBelow_nothing : ∀ es, remainingBelow nothing es = below [] es
  | [] => rfl
  | (k, v) :: es => by
    rw [below, List.nil_append, Statement.belowValue_cons k [] v, ← remainingValue_nothing v,
      ← remainingBelow_nothing es]
    rfl

theorem remainingValue_nothing : ∀ v, remainingValue nothing v = belowValue [] v
  | .table es => by rw [remainingValue, belowValue, spared_nothing, remainingBelow_nothing es]
  | .list items => by rw [remainingValue, belowValue, remainingItems_nothing 0 items]
  | .flag _ | .integer _ | .float _ | .text _ | .moment => rfl

theorem remainingItems_nothing (i : ℕ) :
    ∀ items, remainingItems nothing i items = belowItems [] items
  | [] => rfl
  | .table es :: items => by
    rw [belowItems, ← remainingItems_nothing (i + 1) items, ← remainingBelow_nothing es,
      remainingItems]
    change _ :: plain (spared nothing es) ++ _ ++ _ = _
    rw [spared_nothing]
    rfl
  | .list _ :: items | .flag _ :: items | .integer _ :: items | .float _ :: items
  | .text _ :: items | .moment :: items => remainingItems_nothing (i + 1) items
end

theorem remaining_nothing (es : List (String × Value)) :
    remaining nothing es = Statement.ofTable es := by
  rw [remaining, spared_nothing, remainingBelow_nothing, Statement.ofTable]

end Deletion

end Pursuit.Toml
