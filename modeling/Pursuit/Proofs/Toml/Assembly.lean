import Mathlib.Data.List.Find
import Mathlib.Data.List.Nodup
import Mathlib.Data.List.Perm.Basic
import Pursuit.Toml.Statement

/-! The table that the statements of a table make up again. A heading with a path acts inside the
first table on its way as the heading with the rest of the path acts there, so that the statements
below a key are read as a document of their own. What is read back of a table has its plain keys
first, and under each key what it had. -/
namespace Pursuit.Toml

variable {k : String} {es : List (String × Value)}

/-! ## Entries under construction -/

namespace Node

variable {base inner : Entries} {n m : Node}

def keys (es : Entries) : List String := es.map (·.1)

theorem find?_eq_none (fresh : k ∉ keys base) : find? base k = none := by
  rw [find?, Option.map_eq_none_iff, List.find?_eq_none]
  intro e mem same
  exact fresh (List.mem_map.2 ⟨e, mem, by simpa using same⟩)

theorem put_append (fresh : k ∉ keys base) (rest : Entries) :
    put (base ++ rest) k n = base ++ put rest k n := by
  induction base with
  | nil => rfl
  | cons e base ih =>
    rw [keys, List.map_cons, List.mem_cons, not_or] at fresh
    have other : (e.1 == k) = false := by simpa using Ne.symm fresh.1
    rw [List.cons_append, put, other, if_neg Bool.false_ne_true, ih fresh.2]
    rfl

theorem put_fresh (fresh : k ∉ keys base) : put base k n = base ++ [(k, n)] := by
  simpa [put] using put_append (n := n) fresh []

theorem put_last (fresh : k ∉ keys base) : put (base ++ [(k, m)]) k n = base ++ [(k, n)] := by
  rw [put_append fresh, put, beq_self_eq_true, if_pos rfl]

theorem find?_last (fresh : k ∉ keys base) : find? (base ++ [(k, n)]) k = some n := by
  have absent := find?_eq_none fresh
  rw [find?, Option.map_eq_none_iff] at absent
  rw [find?, List.find?_append, absent]
  simp

/-- A change in the table under a key, as a heading makes it on its way. -/
def into (change : Entries → Option Entries) (es : Entries) (key : String) : Option Entries :=
  match find? es key with
  | none => do return put es key (.table .passage (← change []))
  | some (.value _) => none
  | some (.tables items) => do
    let last ← items.getLast?
    return put es key (.tables (items.dropLast ++ [← change last]))
  | some (.table origin inner) => do return put es key (.table origin (← change inner))

theorem into_fresh (fresh : k ∉ keys base) (change : Entries → Option Entries) :
    into change base k = (change []).map fun es => base ++ [(k, .table .passage es)] := by
  rw [into, find?_eq_none fresh]
  cases change [] with
  | none => rfl
  | some es => exact congrArg some (put_fresh fresh)

/-- A node that holds a table for headings to go on in. -/
def IsWay (wrap : Entries → Node) : Prop :=
  ∀ {base k inner} (_ : k ∉ keys base) (change : Entries → Option Entries),
    into change (base ++ [(k, wrap inner)]) k =
      (change inner).map fun es => base ++ [(k, wrap es)]

theorem isWay_table (origin : Origin) : IsWay (.table origin) := by
  intro base k inner fresh change
  rw [into, find?_last fresh]
  dsimp only
  cases change inner with
  | none => rfl
  | some es => exact congrArg some (put_last fresh)

theorem isWay_tables (done : List Entries) : IsWay fun es => .tables (done ++ [es]) := by
  intro base k inner fresh change
  rw [into, find?_last fresh]
  simp only [List.getLast?_append, List.getLast?_singleton, List.dropLast_concat, Option.some_or,
    Option.bind_eq_bind, Option.bind_some]
  cases change inner with
  | none => rfl
  | some es => exact congrArg some (put_last fresh)

theorem alter_cons {change : Origin → Entries → Option Entries}
    (alike : ∀ o o', change o = change o') (here here' : Origin) (k : String) (path : List String)
    (es : Entries) :
    alter .passage change here (k :: path) es = into (alter .passage change here' path) es k := by
  have anywhere (o : Origin) (es : Entries) :
      alter .passage change o path es = alter .passage change here' path es := by
    cases path with
    | nil => exact congrFun (alike o here') es
    | cons => rfl
  rw [alter, into]
  cases find? es k with
  | none => simp only [anywhere]
  | some n => cases n <;> simp only [anywhere, reduceCtorEq, false_and, if_false]

end Node

namespace Statement

/-! ## Sections -/

abbrev Section := Heading × Assignments

def Heading.path : Heading → List String
  | .table path | .item path => path

def Heading.under (k : String) : Heading → Heading
  | .table path => .table (k :: path)
  | .item path => .item (k :: path)

def Section.under (k : String) (s : Section) : Section := (s.1.under k, s.2)

theorem addSection_under {s : Section} (deep : s.1.path ≠ []) (k : String) (es : Node.Entries) :
    addSection es (s.under k) = Node.into (addSection · s) es k := by
  obtain ⟨heading, as⟩ := s
  cases heading with
  | table path =>
    obtain ⟨j, path, rfl⟩ := List.exists_cons_of_ne_nil deep
    have last := List.getLast?_eq_some_getLast (List.cons_ne_nil j path)
    change Node.open? es (k :: j :: path) as = Node.into (Node.open? · (j :: path) as) es k
    simp only [Node.open?, List.getLast?_cons_cons, last]
    exact Node.alter_cons (fun _ _ => rfl) ..
  | item path =>
    obtain ⟨j, path, rfl⟩ := List.exists_cons_of_ne_nil deep
    have last := List.getLast?_eq_some_getLast (List.cons_ne_nil j path)
    change Node.append? es (k :: j :: path) as = Node.into (Node.append? · (j :: path) as) es k
    simp only [Node.append?, List.getLast?_cons_cons, last]
    exact Node.alter_cons (fun _ _ => rfl) ..

def addSections (es : Node.Entries) (ss : List Section) : Option Node.Entries :=
  ss.foldlM addSection es

theorem addSections_append (base : Node.Entries) (ss ss' : List Section) :
    addSections base (ss ++ ss') = (addSections base ss).bind (addSections · ss') :=
  List.foldlM_append

/-- Sections under a key that is there act inside what it holds. -/
theorem addSections_under {wrap : Node.Entries → Node} (way : Node.IsWay wrap)
    {base : Node.Entries} (fresh : k ∉ Node.keys base) (inner : Node.Entries) {ss : List Section}
    (deep : ∀ s ∈ ss, s.1.path ≠ []) :
    addSections (base ++ [(k, wrap inner)]) (ss.map (Section.under k)) =
      (addSections inner ss).map fun es => base ++ [(k, wrap es)] := by
  induction ss generalizing inner with
  | nil => rfl
  | cons s ss ih =>
    obtain ⟨first, deep⟩ := List.forall_mem_cons.1 deep
    rw [addSections, List.map_cons, List.foldlM_cons, addSection_under first, way fresh,
      addSections, List.foldlM_cons]
    cases addSection inner s with
    | none => rfl
    | some es => exact ih es deep

theorem addSections_under_fresh {base : Node.Entries} (fresh : k ∉ Node.keys base)
    {ss : List Section} (some : ss ≠ []) (deep : ∀ s ∈ ss, s.1.path ≠ []) :
    addSections base (ss.map (Section.under k)) =
      (addSections [] ss).map fun es => base ++ [(k, .table .passage es)] := by
  obtain ⟨s, ss, rfl⟩ := List.exists_cons_of_ne_nil some
  obtain ⟨first, deep⟩ := List.forall_mem_cons.1 deep
  rw [addSections, List.map_cons, List.foldlM_cons, addSection_under first,
    Node.into_fresh fresh, addSections, List.foldlM_cons]
  cases addSection [] s with
  | none => rfl
  | some es => exact addSections_under (Node.isWay_table .passage) fresh es deep

/-! ## The sections of a table -/

variable {v : Value} {items : List Value} {path : List String}

def under (k : String) : Statement → Statement
  | .header path => .header (k :: path)
  | .item path => .item (k :: path)
  | .assign path v => .assign path v

theorem plain_map_under (k : String) (es : List (String × Value)) :
    (plain es).map (under k) = plain es := by
  simp [plain, under]

mutual
theorem below_cons (k : String) (path : List String) :
    ∀ es, below (k :: path) es = (below path es).map (under k)
  | [] => rfl
  | (j, v) :: es => by
    rw [below, below, List.map_append, ← below_cons k path es, ← belowValue_cons k (path ++ [j]) v]
    rfl

theorem belowValue_cons (k : String) (path : List String) :
    ∀ v, belowValue (k :: path) v = (belowValue path v).map (under k)
  | .table es => by
    rw [belowValue, belowValue, List.map_append, List.map_append, plain_map_under,
      ← below_cons k path es]
    cases hasHeader es <;> rfl
  | .list items => by
    rw [belowValue, belowValue]
    cases isTables items with
    | true => exact belowItems_cons k path items
    | false => rfl
  | .flag _ | .integer _ | .float _ | .text _ | .moment => rfl

theorem belowItems_cons (k : String) (path : List String) :
    ∀ items, belowItems (k :: path) items = (belowItems path items).map (under k)
  | [] => rfl
  | .table es :: items => by
    rw [belowItems, belowItems, List.map_append, List.map_append, List.map_cons, plain_map_under,
      ← below_cons k path es, ← belowItems_cons k path items]
    rfl
  | .list _ :: items | .flag _ :: items | .integer _ :: items | .float _ :: items
  | .text _ :: items | .moment :: items => belowItems_cons k path items
end

theorem belowValue_of_isPlain (plain : isPlain v) (path : List String) :
    belowValue path v = [] := by
  cases v with
  | table => cases plain
  | list items =>
    have single : isTables items = false := by simpa [isPlain] using plain
    rw [belowValue, single]
    rfl
  | flag | integer | float | text | moment => rfl

def assignments (es : List (String × Value)) : Assignments :=
  (es.filter fun (_, v) => isPlain v).map fun (k, v) => ([k], v)

theorem assignments_cons (k : String) (v : Value) (es : List (String × Value)) :
    assignments ((k, v) :: es) = (if isPlain v then [([k], v)] else []) ++ assignments es := by
  cases plain : isPlain v <;> simp [assignments, plain]

theorem sections_plain (es : List (String × Value)) (sts : List Statement) :
    sections (plain es ++ sts) = (assignments es ++ (sections sts).1, (sections sts).2) := by
  rw [plain, assignments]
  induction es.filter fun (_, v) => isPlain v with
  | nil => rfl
  | cons e es ih =>
    rw [List.map_cons, List.cons_append, sections, ih]
    rfl

theorem sections_append (a : List Statement) {b : List Statement} (headed : (sections b).1 = []) :
    sections (a ++ b) = ((sections a).1, (sections a).2 ++ (sections b).2) := by
  induction a with
  | nil => exact Prod.ext headed rfl
  | cons st a ih =>
    cases st with
    | assign path v => rw [List.cons_append, sections, sections, ih]
    | header path | item path => rw [List.cons_append, sections, sections, ih]; rfl

theorem sections_under (k : String) (sts : List Statement) :
    sections (sts.map (under k)) = ((sections sts).1, (sections sts).2.map (Section.under k)) := by
  induction sts with
  | nil => rfl
  | cons st sts ih =>
    cases st with
    | assign path v => rw [List.map_cons, under, sections, sections, ih]
    | header path | item path => rw [List.map_cons, under, sections, sections, ih]; rfl

theorem filter_of_not_hasHeader (bare : hasHeader es = false) :
    es.filter (fun (_, v) => isPlain v) = [] := by
  rw [hasHeader, Bool.or_eq_false_iff, List.any_eq_false] at bare
  exact List.filter_eq_nil_iff.2 bare.2

theorem plain_of_not_hasHeader (bare : hasHeader es = false) : plain es = [] := by
  rw [plain, filter_of_not_hasHeader bare, List.map_nil]

theorem path_under_ne_nil {ss : List Section} : ∀ s ∈ ss.map (Section.under k), s.1.path ≠ [] := by
  intro s mem
  obtain ⟨⟨heading, as⟩, -, rfl⟩ := List.mem_map.1 mem
  cases heading <;> exact List.cons_ne_nil _ _

end Statement

/-! ## What a table is read as -/

namespace Node

open Statement (isPlain isTables hasHeader)

def ofPlain (es : List (String × Value)) : Entries :=
  (es.filter fun (_, v) => isPlain v).map fun (k, v) => (k, .value v)

mutual
/-- A table under construction once all its statements have been read: the plain keys stand
first. -/
def ofValue : Value → Node
  | .table es =>
    .table (if hasHeader es then .header else .passage) (ofPlain es ++ ofBelow es)
  | .list items => if isTables items then .tables (ofItems items) else .value (.list items)
  | .flag b => .value (.flag b)
  | .integer n => .value (.integer n)
  | .float x => .value (.float x)
  | .text s => .value (.text s)
  | .moment => .value .moment

def ofBelow : List (String × Value) → Entries
  | [] => []
  | (k, v) :: es => if isPlain v then ofBelow es else (k, ofValue v) :: ofBelow es

def ofItems : List Value → List Entries
  | [] => []
  | .table es :: items => (ofPlain es ++ ofBelow es) :: ofItems items
  | _ :: items => ofItems items
end

def ofEntries (es : List (String × Value)) : Entries := ofPlain es ++ ofBelow es

variable {base inner : Entries} {v : Value}

theorem ofPlain_cons (k : String) (v : Value) (es : List (String × Value)) :
    ofPlain ((k, v) :: es) = (if isPlain v then [(k, .value v)] else []) ++ ofPlain es := by
  cases plain : isPlain v <;> simp [ofPlain, plain]

theorem ofValue_of_isPlain (plain : isPlain v) : ofValue v = .value v := by
  cases v with
  | table es => cases plain
  | list items =>
    have single : isTables items = false := by simpa [isPlain] using plain
    rw [ofValue, single]
    rfl
  | flag | integer | float | text | moment => rfl

theorem assign_fresh (fresh : k ∉ keys base) :
    assign base [k] v = some (base ++ [(k, .value v)]) := by
  change (if (Origin.header = .dotted ↔ [] = []) ∨ (find? base k).isSome then none
      else some (put base k (.value v))) = _
  rw [if_neg (by simp [find?_eq_none fresh]), put_fresh fresh]

theorem assignAll_ofPlain (distinct : (keys base ++ es.map (·.1)).Nodup) :
    assignAll base (Statement.assignments es) = some (base ++ ofPlain es) := by
  induction es generalizing base with
  | nil => exact congrArg some (List.append_nil base).symm
  | cons e es ih =>
    obtain ⟨k, v⟩ := e
    rw [Statement.assignments_cons, ofPlain_cons]
    rw [List.map_cons] at distinct
    cases plain : isPlain v with
    | true =>
      have fresh : k ∉ keys base := fun mem =>
        List.nodup_append.1 distinct |>.2.2 k mem k List.mem_cons_self rfl
      have next : (keys (base ++ [(k, .value v)]) ++ es.map (·.1)).Nodup := by
        simpa [keys] using distinct
      have rest := ih next
      rw [List.append_assoc] at rest
      rw [if_pos rfl, if_pos rfl, ← rest]
      exact congrArg (Option.bind · _) (assign_fresh fresh)
    | false =>
      have next : (keys base ++ es.map (·.1)).Nodup :=
        distinct.sublist (List.Sublist.append_left (List.sublist_cons_self ..) _)
      exact ih next

variable {as : Statement.Assignments} {done : List Entries}

theorem open?_fresh (fresh : k ∉ keys base) (read : assignAll [] as = some inner) :
    open? base [k] as = some (base ++ [(k, .table .header inner)]) := by
  rw [open?, List.getLast?_singleton]
  simp only [List.dropLast_singleton, alter]
  rw [find?_eq_none fresh, read]
  exact congrArg some (put_fresh fresh)

/-- Tables of a list under a key. A key without tables is not there at all. -/
def withTables (base : Entries) (k : String) : List Entries → Entries
  | [] => base
  | done => base ++ [(k, .tables done)]

theorem withTables_concat (base : Entries) (k : String) (done : List Entries) (es : Entries) :
    withTables base k (done ++ [es]) = base ++ [(k, .tables (done ++ [es]))] := by
  cases done <;> rfl

theorem append?_withTables (fresh : k ∉ keys base) (read : assignAll [] as = some inner) :
    append? (withTables base k done) [k] as =
      some (withTables base k (done ++ [inner])) := by
  rw [withTables_concat]
  rw [append?, List.getLast?_singleton]
  simp only [List.dropLast_singleton, alter]
  cases done with
  | nil =>
    rw [withTables, find?_eq_none fresh, read]
    exact congrArg some (put_fresh fresh)
  | cons es done =>
    rw [withTables, find?_last fresh, read]
    · exact congrArg some (put_last fresh)
    · exact List.cons_ne_nil es done

theorem not_mem_keys_ofPlain (distinct : (es.map (·.1)).Nodup) {e : String × Value} (mem : e ∈ es)
    (below : isPlain e.2 = false) : e.1 ∉ keys (ofPlain es) := by
  rw [keys, ofPlain, List.map_map, List.mem_map]
  rintro ⟨⟨k, v⟩, plain, same⟩
  obtain ⟨mem', plain⟩ := List.mem_filter.1 plain
  obtain rfl := List.inj_on_of_nodup_map distinct mem' mem same
  cases below.symm.trans plain

end Node

open Statement (isPlain isTables hasHeader)

variable {items : List Value}

theorem exists_table (tables : isTables items) : ∀ v ∈ items, ∃ es, v = .table es := by
  intro v mem
  rw [isTables] at tables
  · have table := List.all_eq_true.1 tables v mem
    cases v with
    | table es => exact ⟨es, rfl⟩
    | _ => cases table
  · exact List.ne_nil_of_mem mem

theorem isTables_of_forall (nonempty : items ≠ [])
    (tables : ∀ v ∈ items, ∃ es, v = .table es) : isTables items := by
  obtain ⟨v, items, rfl⟩ := List.exists_cons_of_ne_nil nonempty
  refine List.all_eq_true.2 fun v mem => ?_
  obtain ⟨es, rfl⟩ := tables v mem
  rfl

/-! ## What is found in the table that is read -/

def Value.readBack (v : Value) : Value := (Node.ofValue v).toValue

theorem toValues_eq_map (es : Node.Entries) :
    Node.toValues es = es.map fun e => (e.1, e.2.toValue) := by
  induction es with
  | nil => rfl
  | cons e es ih =>
    rw [Node.toValues, ih]
    rfl

theorem perm_ofEntries (es : List (String × Value)) :
    (Node.ofEntries es).Perm (es.map fun e => (e.1, .ofValue e.2)) := by
  induction es with
  | nil => exact .nil
  | cons e es ih =>
    obtain ⟨k, v⟩ := e
    rw [Node.ofEntries, Node.ofPlain_cons, Node.ofBelow, List.map_cons]
    cases plain : isPlain v with
    | true =>
      rw [Node.ofValue_of_isPlain plain]
      exact ih.cons (k, .value v)
    | false => exact List.perm_middle.trans (ih.cons (k, .ofValue v))

theorem perm_toValues (es : List (String × Value)) :
    (Node.toValues (Node.ofEntries es)).Perm (es.map fun e => (e.1, e.2.readBack)) := by
  have perm := (perm_ofEntries es).map fun e => (e.1, e.2.toValue)
  rwa [List.map_map, ← toValues_eq_map] at perm

/-- A key is read with what it was written with, wherever it stands. -/
theorem lookup_toValues (distinct : (es.map (·.1)).Nodup) (k : String) :
    lookup (Node.toValues (Node.ofEntries es)) k = (lookup es k).map Value.readBack := by
  have single : {e | e ∈ es.map (fun e => (e.1, e.2.readBack)) ∧
      (e.1 == k) = true}.Subsingleton := by
    rintro a ⟨mem, same⟩ b ⟨mem', same'⟩
    obtain ⟨e, inside, rfl⟩ := List.mem_map.1 mem
    obtain ⟨e', inside', rfl⟩ := List.mem_map.1 mem'
    rw [List.inj_on_of_nodup_map distinct inside inside'
      ((eq_of_beq same).trans (eq_of_beq same').symm)]
  rw [lookup, ← List.find?_eq_find?_of_perm (perm_toValues es).symm single, List.find?_map, lookup,
    Option.map_map, Option.map_map]
  rfl

theorem readBack_table (es : List (String × Value)) :
    (Value.table es).readBack = .table (Node.toValues (Node.ofEntries es)) := by
  rw [Value.readBack, Node.ofValue, Node.toValue, Node.ofEntries]

theorem readBack_list (tables : isTables items) :
    (Value.list items).readBack = .list (items.map Value.readBack) := by
  have each := exists_table tables
  rw [Value.readBack, Node.ofValue, if_pos tables, Node.toValue]
  refine congrArg Value.list ?_
  clear tables
  induction items with
  | nil => rfl
  | cons v items ih =>
    obtain ⟨⟨es, rfl⟩, others⟩ := List.forall_mem_cons.1 each
    rw [Node.ofItems, Node.toTables, ih others, List.map_cons, readBack_table]
    rfl

end Pursuit.Toml
