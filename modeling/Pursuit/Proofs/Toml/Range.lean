import Pursuit.Proofs.Toml.Assembly
import Pursuit.Toml.Reader

/-! Every whole number in the table of a document fits into 64 bits with sign. No other is read, and
what makes a table of the statements only puts the values that were read at their places. -/
namespace Pursuit.Toml

variable {α : Type} {v : Value} {es es' : Node.Entries} {k : String} {path : List String}

inductive Value.Fits : Value → Prop
  | flag (b : Bool) : Fits (.flag b)
  | integer {n : ℤ} : -0x8000000000000000 ≤ n ∧ n ≤ 0x7fffffffffffffff → Fits (.integer n)
  | float (x : Float) : Fits (.float x)
  | text (s : String) : Fits (.text s)
  | moment : Fits .moment
  | list {items : List Value} : (∀ v ∈ items, v.Fits) → Fits (.list items)
  | table {es : List (String × Value)} : (∀ e ∈ es, e.2.Fits) → Fits (.table es)

/-! ## Tables under construction -/

namespace Node

inductive Fits : Node → Prop
  | value {v : Value} : v.Fits → Fits (.value v)
  | table {origin : Origin} {es : Entries} : (∀ e ∈ es, e.2.Fits) → Fits (.table origin es)
  | tables {items : List Entries} : (∀ es ∈ items, ∀ e ∈ es, e.2.Fits) → Fits (.tables items)

def AllFit (es : Entries) : Prop := ∀ e ∈ es, e.2.Fits

variable {n : Node} {way here : Origin}

theorem allFit_nil : AllFit [] := nofun

theorem fits_of_find? (fit : AllFit es) (found : find? es k = some n) : n.Fits := by
  rw [find?, Option.map_eq_some_iff] at found
  obtain ⟨e, got, rfl⟩ := found
  exact fit e (List.mem_of_find?_eq_some got)

theorem allFit_put (fit : AllFit es) (fits : n.Fits) : AllFit (put es k n) := by
  induction es with
  | nil => exact List.forall_mem_singleton.2 fits
  | cons e es ih =>
    obtain ⟨first, rest⟩ := List.forall_mem_cons.1 fit
    rw [put]
    split_ifs
    · exact List.forall_mem_cons.2 ⟨fits, rest⟩
    · exact List.forall_mem_cons.2 ⟨first, ih rest⟩

theorem allFit_alter {change : Origin → Entries → Option Entries}
    (kept : ∀ origin es es', AllFit es → change origin es = some es' → AllFit es') (fit : AllFit es)
    (done : alter way change here path es = some es') : AllFit es' := by
  induction path generalizing here es es' with
  | nil => exact kept _ _ _ fit done
  | cons k path ih =>
    rw [alter] at done
    split at done
    next =>
      obtain ⟨inner, inside, ⟨⟩⟩ := Option.bind_eq_some_iff.1 done
      exact allFit_put fit (.table (ih allFit_nil inside))
    next => cases done
    next items found =>
      obtain ⟨last, ends, done⟩ := Option.bind_eq_some_iff.1 done
      obtain ⟨inner, inside, ⟨⟩⟩ := Option.bind_eq_some_iff.1 done
      obtain - | - | items := fits_of_find? fit found
      refine allFit_put fit (.tables fun es mem => ?_)
      obtain mem | mem := List.mem_append.1 mem
      · exact items es (List.dropLast_subset _ mem)
      · rw [List.mem_singleton.1 mem]
        exact ih (items last (List.mem_of_getLast? ends)) inside
    next origin inner found =>
      split_ifs at done
      obtain ⟨inner', inside, ⟨⟩⟩ := Option.bind_eq_some_iff.1 done
      obtain - | entries | - := fits_of_find? fit found
      exact allFit_put fit (.table (ih entries inside))

theorem allFit_assign (fit : AllFit es) (fits : v.Fits) (done : assign es path v = some es') :
    AllFit es' := by
  rw [assign] at done
  split at done
  next => cases done
  next =>
    refine allFit_alter (fun origin es es' fit done => ?_) fit done
    split_ifs at done
    cases done
    exact allFit_put fit (.value fits)

variable {as : List (List String × Value)}

theorem allFit_assignAll (fit : AllFit es) (each : ∀ a ∈ as, a.2.Fits)
    (done : assignAll es as = some es') : AllFit es' := by
  induction as generalizing es with
  | nil =>
    cases done
    exact fit
  | cons a as ih =>
    obtain ⟨first, rest⟩ := List.forall_mem_cons.1 each
    rw [assignAll, List.foldlM_cons] at done
    obtain ⟨es₁, one, done⟩ := Option.bind_eq_some_iff.1 done
    exact ih (allFit_assign fit first one) rest done

theorem allFit_open (fit : AllFit es) (each : ∀ a ∈ as, a.2.Fits)
    (done : open? es path as = some es') : AllFit es' := by
  rw [open?] at done
  split at done
  next => cases done
  next =>
    refine allFit_alter (fun origin es es' fit done => ?_) fit done
    split at done
    next =>
      obtain ⟨inner, inside, ⟨⟩⟩ := Option.bind_eq_some_iff.1 done
      exact allFit_put fit (.table (allFit_assignAll allFit_nil each inside))
    next found =>
      obtain ⟨inner, inside, ⟨⟩⟩ := Option.bind_eq_some_iff.1 done
      obtain - | entries | - := fits_of_find? fit found
      exact allFit_put fit (.table (allFit_assignAll entries each inside))
    next => cases done

theorem allFit_append (fit : AllFit es) (each : ∀ a ∈ as, a.2.Fits)
    (done : append? es path as = some es') : AllFit es' := by
  rw [append?] at done
  split at done
  next => cases done
  next =>
    refine allFit_alter (fun origin es es' fit done => ?_) fit done
    split at done
    next =>
      obtain ⟨inner, inside, ⟨⟩⟩ := Option.bind_eq_some_iff.1 done
      exact allFit_put fit
        (.tables (List.forall_mem_singleton.2 (allFit_assignAll allFit_nil each inside)))
    next found =>
      obtain ⟨inner, inside, ⟨⟩⟩ := Option.bind_eq_some_iff.1 done
      obtain - | - | items := fits_of_find? fit found
      refine allFit_put fit (.tables (List.forall_mem_append.2 ⟨items, ?_⟩))
      exact List.forall_mem_singleton.2 (allFit_assignAll allFit_nil each inside)
    next => cases done

theorem toTables_eq_map (items : List Entries) :
    toTables items = items.map fun es => .table (toValues es) := by
  induction items with
  | nil => rfl
  | cons es items ih =>
    rw [toTables, ih]
    rfl

theorem Fits.toValue (fits : n.Fits) : n.toValue.Fits := by
  induction fits with
  | value fits => exact fits
  | table _ each =>
    rw [Node.toValue, toValues_eq_map]
    exact .table (List.forall_mem_map.2 each)
  | tables _ each =>
    rw [Node.toValue, toTables_eq_map]
    refine .list (List.forall_mem_map.2 fun es mem => ?_)
    rw [toValues_eq_map]
    exact .table (List.forall_mem_map.2 (each es mem))

theorem AllFit.toValues (fit : AllFit es) : ∀ e ∈ toValues es, e.2.Fits := by
  rw [toValues_eq_map]
  exact List.forall_mem_map.2 fun e mem => (fit e mem).toValue

end Node

/-! ## Statements -/

namespace Statement

def Fits : Statement → Prop
  | .assign _ v => v.Fits
  | _ => True

variable {sts : List Statement}

theorem fits_sections (each : ∀ st ∈ sts, st.Fits) :
    (∀ a ∈ (sections sts).1, a.2.Fits) ∧ ∀ s ∈ (sections sts).2, ∀ a ∈ s.2, a.2.Fits := by
  induction sts with
  | nil => exact ⟨nofun, nofun⟩
  | cons st sts ih =>
    obtain ⟨first, rest⟩ := List.forall_mem_cons.1 each
    obtain ⟨before, after⟩ := ih rest
    cases st with
    | assign path v => exact ⟨List.forall_mem_cons.2 ⟨first, before⟩, after⟩
    | header path => exact ⟨nofun, List.forall_mem_cons.2 ⟨before, after⟩⟩
    | item path => exact ⟨nofun, List.forall_mem_cons.2 ⟨before, after⟩⟩

theorem allFit_addSections {ss : List (Heading × Assignments)} (fit : Node.AllFit es)
    (each : ∀ s ∈ ss, ∀ a ∈ s.2, a.2.Fits) (done : ss.foldlM addSection es = some es') :
    Node.AllFit es' := by
  induction ss generalizing es with
  | nil =>
    cases done
    exact fit
  | cons s ss ih =>
    obtain ⟨first, rest⟩ := List.forall_mem_cons.1 each
    rw [List.foldlM_cons] at done
    obtain ⟨es₁, one, done⟩ := Option.bind_eq_some_iff.1 done
    refine ih ?_ rest done
    match s with
    | (.table path, as) => exact Node.allFit_open fit first one
    | (.item path, as) => exact Node.allFit_append fit first one

/-- Nothing but the values of its statements is in a table. -/
theorem fits_assemble {es : List (String × Value)} (each : ∀ st ∈ sts, st.Fits)
    (done : assemble sts = some es) :
    ∀ e ∈ es, e.2.Fits := by
  obtain ⟨before, after⟩ := fits_sections each
  obtain ⟨es₁, first, done⟩ := Option.bind_eq_some_iff.1 done
  obtain ⟨es₂, rest, ⟨⟩⟩ := Option.bind_eq_some_iff.1 done
  have started := Node.allFit_assignAll Node.allFit_nil before first
  exact (allFit_addSections started after rest).toValues

end Statement

/-! ## What is read -/

def Gives (scan : Scan α) (p : α → Prop) : Prop := ∀ s x rest, scan s = some (x, rest) → p x

namespace Number

theorem fits_of_integer {n : ℤ} (some : integer? n = some v) : v.Fits := by
  rw [integer?] at some
  split_ifs at some with range
  cases some
  exact .integer range

theorem gives_based (base : ℕ) (ok : Char → Bool) : Gives (based base ok) Value.Fits := by
  intro s v rest done
  obtain ⟨⟨ds, rest'⟩, -, done⟩ := Option.bind_eq_some_iff.1 done
  obtain ⟨v, some, ⟨⟩⟩ := Option.bind_eq_some_iff.1 done
  exact fits_of_integer some

theorem gives_decimal (negative : Bool) : Gives (decimal negative) Value.Fits := by
  intro s v rest done
  obtain ⟨⟨whole, s⟩, -, done⟩ := Option.bind_eq_some_iff.1 done
  dsimp only at done
  split at done
  next => cases done
  next =>
    obtain ⟨⟨places, s⟩, -, done⟩ := Option.bind_eq_some_iff.1 done
    obtain ⟨⟨power, s⟩, -, done⟩ := Option.bind_eq_some_iff.1 done
    dsimp only at done
    split at done
    next =>
      obtain ⟨v, some, ⟨⟩⟩ := Option.bind_eq_some_iff.1 done
      exact fits_of_integer some
    next =>
      split at done
      next => cases done
      next =>
        cases done
        exact .float _

theorem gives_scan : Gives scan Value.Fits := by
  intro s v rest done
  rw [scan.eq_def] at done
  split at done
  · exact gives_based _ _ _ _ _ done
  · exact gives_based _ _ _ _ _ done
  · exact gives_based _ _ _ _ _ done
  · split at done
    · cases done
      exact .float _
    · cases done
      exact .float _
    · exact gives_decimal _ _ _ _ done

end Number

theorem gives_moment : Gives Moment.scan Value.Fits := by
  intro s v rest done
  rw [Moment.scan] at done
  split at done
  all_goals
    obtain ⟨rest, -, ⟨⟩⟩ := Option.map_eq_some_iff.1 done
    exact .moment

theorem gives_scalar : Gives scalar Value.Fits := by
  intro s v rest done
  rw [scalar.eq_def] at done
  split at done
  · obtain ⟨t, -, ⟨⟩⟩ := Option.map_eq_some_iff.1 done
    exact .text _
  · obtain ⟨t, -, ⟨⟩⟩ := Option.map_eq_some_iff.1 done
    exact .text _
  · cases done
    exact .flag _
  · cases done
    exact .flag _
  · rw [Option.or_eq_some_iff] at done
    exact done.elim (gives_moment _ _ _) fun other => Number.gives_scan _ _ _ other.2

variable {item : Scan Value}

theorem gives_separated {p : α → Prop} {part : Scan α} (gives : Gives part p) (mark : Char)
    (fuel : ℕ) :
    Gives (separated mark part fuel) fun xs => ∀ x ∈ xs, p x := by
  induction fuel with
  | zero => exact nofun
  | succ fuel ih =>
    intro s xs rest done
    obtain ⟨⟨x, s⟩, first, done⟩ := Option.bind_eq_some_iff.1 done
    have fits := gives _ _ _ first
    dsimp only at done
    split at done
    next =>
      split at done
      next =>
        obtain ⟨⟨xs, s⟩, others, ⟨⟩⟩ := Option.bind_eq_some_iff.1 done
        exact List.forall_mem_cons.2 ⟨fits, ih _ _ _ others⟩
      next =>
        cases done
        exact List.forall_mem_singleton.2 fits
    next =>
      cases done
      exact List.forall_mem_singleton.2 fits

theorem gives_members (gives : Gives item Value.Fits) (fuel : ℕ) :
    Gives (members item fuel) fun vs => ∀ v ∈ vs, v.Fits := by
  induction fuel with
  | zero => exact nofun
  | succ fuel ih =>
    intro s vs rest done
    obtain ⟨s, -, done⟩ := Option.bind_eq_some_iff.1 done
    split at done
    next =>
      cases done
      exact nofun
    next =>
      obtain ⟨⟨v, s⟩, first, done⟩ := Option.bind_eq_some_iff.1 done
      have fits := gives _ _ _ first
      obtain ⟨s, -, done⟩ := Option.bind_eq_some_iff.1 done
      split at done
      next =>
        cases done
        exact List.forall_mem_singleton.2 fits
      next =>
        obtain ⟨⟨vs, s⟩, others, ⟨⟩⟩ := Option.bind_eq_some_iff.1 done
        exact List.forall_mem_cons.2 ⟨fits, ih _ _ _ others⟩
      next => cases done

theorem gives_assignment (gives : Gives item Value.Fits) : Gives (assignment item) (·.2.Fits) := by
  intro s a rest done
  obtain ⟨⟨ks, s⟩, -, done⟩ := Option.bind_eq_some_iff.1 done
  dsimp only at done
  split at done
  next =>
    obtain ⟨⟨v, s⟩, some, ⟨⟩⟩ := Option.bind_eq_some_iff.1 done
    exact gives _ _ _ some
  next => cases done

theorem gives_entries (gives : Gives item Value.Fits) :
    Gives (entries item) fun es => ∀ e ∈ es, e.2.Fits := by
  intro s es rest done
  rw [entries] at done
  split at done
  next =>
    cases done
    exact nofun
  next =>
    obtain ⟨⟨as, s⟩, some, done⟩ := Option.bind_eq_some_iff.1 done
    have each := gives_separated (p := fun a => a.2.Fits) (fun s a rest done => by
      obtain ⟨a, read, ⟨⟩⟩ := Option.map_eq_some_iff.1 done
      exact gives_assignment gives _ _ _ read) _ _ _ _ _ some
    dsimp only at done
    split at done
    next =>
      obtain ⟨ns, made, ⟨⟩⟩ := Option.bind_eq_some_iff.1 done
      exact (Node.allFit_assignAll Node.allFit_nil each made).toValues
    next => cases done

theorem gives_value (depth : ℕ) : Gives (value depth) Value.Fits := by
  induction depth with
  | zero => exact gives_scalar
  | succ depth ih =>
    intro s v rest done
    rw [value.eq_def] at done
    split at done
    next same =>
      cases same
      obtain ⟨vs, read, ⟨⟩⟩ := Option.map_eq_some_iff.1 done
      exact .list (gives_members ih _ _ _ _ read)
    next same =>
      cases same
      obtain ⟨es, read, ⟨⟩⟩ := Option.map_eq_some_iff.1 done
      exact .table (gives_entries ih _ _ _ read)
    next => exact gives_scalar _ _ _ done

theorem gives_statement : Gives statement Statement.Fits := by
  intro s st rest done
  rw [statement.eq_def] at done
  split at done
  next =>
    obtain ⟨⟨ks, s⟩, -, done⟩ := Option.bind_eq_some_iff.1 done
    split at done
    next =>
      cases done
      trivial
    next => cases done
  next =>
    obtain ⟨⟨ks, s⟩, -, done⟩ := Option.bind_eq_some_iff.1 done
    split at done
    next =>
      cases done
      trivial
    next => cases done
  next =>
    obtain ⟨a, read, ⟨⟩⟩ := Option.map_eq_some_iff.1 done
    exact gives_assignment (gives_value maxDepth) _ _ _ read

theorem fits_statements {fuel : ℕ} {s : List Char} {sts : List Statement}
    (done : statements fuel s = some sts) :
    ∀ st ∈ sts, st.Fits := by
  induction fuel generalizing s sts with
  | zero =>
    rw [statements.eq_def] at done
    split at done
    next =>
      cases done
      exact nofun
    next => cases done
    next same _ => cases same
  | succ fuel ih =>
    rw [statements.eq_def] at done
    split at done
    next =>
      cases done
      exact nofun
    next same _ => cases same
    next same _ =>
      cases same
      split at done
      next => exact ih done
      next =>
        obtain ⟨⟨st, s⟩, first, done⟩ := Option.bind_eq_some_iff.1 done
        obtain ⟨s, -, done⟩ := Option.bind_eq_some_iff.1 done
        obtain ⟨sts, rest, ⟨⟩⟩ := Option.bind_eq_some_iff.1 done
        exact List.forall_mem_cons.2 ⟨gives_statement _ _ _ first, ih rest⟩

/-- Every whole number in the table of a document fits. -/
theorem fits_of_read {s : String} {es : List (String × Value)} (read : read? s = some es) :
    ∀ e ∈ es, e.2.Fits := by
  obtain ⟨sts, split, made⟩ := Option.bind_eq_some_iff.1 read
  exact Statement.fits_assemble (fits_statements split) made

end Pursuit.Toml
