import Pursuit.Proofs.Binary.Identity
import Pursuit.Proofs.Toml.Document
import Pursuit.Settings.Codec

/-! What codecs read back from a document of which keys have been deleted. A document moves the
plain keys of a table to its front, so a record is read by its keys, one field after the other,
until all fields that are left of the written record have taken the places of the defaults. A record
that must be complete cannot be read without one of its keys, nor can whatever it stands in. -/
namespace Pursuit.Settings

open Toml (Value Deletion Keys IsBareKey withoutEntries withoutItems)

variable {α σ : Type} {depth : ℕ}

/-- A value is written neatly. Whatever is deleted from it, it is read back unless one of the
`required` keys is missing, and then gives what is `left` of it. Paths below it are at most `depth`
keys long. -/
structure Codec.Overlays (c : Codec α) (depth : ℕ) (x : α) (required : Keys)
    (left : Deletion → α) : Prop where
  neat : (c.write x).IsNeat depth
  lasts : ∀ gone, (c.write x).Lasts gone
  read : ∀ gone, c.read ((c.write x).without gone).readBack =
    if gone.hits required then none else some (left gone)

namespace Codec

variable {c : Codec α} {x : α} {xs : List α} {required required' : Keys} {left : Deletion → α}

theorem Overlays.of_eq (overlays : c.Overlays depth x required left) (same : required = required') :
    c.Overlays depth x required' left :=
  same ▸ overlays

theorem simple_overlays (simple : (c.write x).IsSimple)
    (read : c.read (c.write x).readBack = some x) :
    c.Overlays depth x [] fun _ => x := by
  refine ⟨.simple simple, fun gone => .plain simple.isPlain (simple.without gone), fun gone => ?_⟩
  rw [simple.without, read]
  rfl

theorem wide_overlays (x : Float) : wide.Overlays depth x [] fun _ => x :=
  simple_overlays trivial rfl

theorem narrow_overlays (x : Float32) : narrow.Overlays depth x [] fun _ => x :=
  simple_overlays trivial (congrArg some (Binary.narrow_widen x))

theorem text_overlays (s : String) : text.Overlays depth s [] fun _ => s :=
  simple_overlays trivial rfl

theorem word_overlays {n : UInt64} (small : n.toNat ≤ 0x7fffffffffffffff) :
    word.Overlays depth n [] fun _ => n := by
  refine simple_overlays ⟨Int.natCast_nonneg _, by exact_mod_cast small⟩ ?_
  have fits : (0 : Int) ≤ (n.toNat : Int) ∧ ((n.toNat : Int)).toNat < UInt64.size :=
    ⟨Int.natCast_nonneg _, n.toNat_lt_size⟩
  change (if _ then some _ else none) = _
  rw [if_pos fits, Int.toNat_natCast]
  exact congrArg some UInt64.ofNat_toNat

theorem mapM_read_without (each : ∀ x ∈ xs, c.Overlays depth x required fun _ => x)
    (gone : Deletion) (i : ℕ) :
    ((withoutItems gone i (xs.map c.write)).map Value.readBack).mapM c.read =
      if gone.hits (required.inItems i xs.length) then none else some xs := by
  induction xs generalizing i with
  | nil => rfl
  | cons x xs ih =>
    obtain ⟨first, each⟩ := List.forall_mem_cons.1 each
    rw [List.map_cons, withoutItems, List.map_cons, List.mapM_cons, first.read, ih each (i + 1),
      List.length_cons, Deletion.hits_inItems_succ]
    cases (gone.under (.item i)).hits required with
    | true => rfl
    | false => cases gone.hits (required.inItems (i + 1) xs.length) <;> rfl

theorem list_overlays (each : ∀ x ∈ xs, c.Overlays depth x required fun _ => x)
    (tables : ∀ x ∈ xs, ∃ es, c.write x = .table es) :
    c.list.Overlays depth xs (required.inItems 0 xs.length) fun _ => xs := by
  by_cases empty : xs = []
  · subst empty
    exact simple_overlays rfl rfl
  · have tables : Toml.Statement.isTables (xs.map c.write) :=
      Toml.isTables_of_forall (by simpa using empty) (by simpa using tables)
    refine ⟨.tables tables ?_, fun gone => .tables tables fun i v got => ?_, fun gone => ?_⟩
    · simpa using fun x mem => (each x mem).neat
    · obtain ⟨x, mem, rfl⟩ := List.mem_map.1 (List.mem_of_getElem? got)
      exact (each x mem).lasts _
    · change c.list.read (Value.list (withoutItems gone 0 (xs.map c.write))).readBack = _
      rw [Toml.readBack_list ((Toml.isTables_withoutItems ..).trans tables)]
      exact mapM_read_without each gone 0

end Codec

namespace Field

variable {fields : List (Field σ)} {s : σ} {required : Keys} {t u : Deletion → σ}

/-! ## Records -/

theorem keys_entries (fields : List (Field σ)) (s : σ) :
    ((entries fields s).map (·.1)).Sublist (fields.map (·.key)) := by
  induction fields with
  | nil => exact .slnil
  | cons f fields ih =>
    rw [entries, List.filterMap_cons]
    cases f.write s with
    | none => exact ih.cons _
    | some v => exact ih.cons_cons _

theorem lookup_of_not_mem {es : List (String × Value)} {k : String} (absent : k ∉ es.map (·.1)) :
    Toml.lookup es k = none := by
  rw [Toml.lookup, Option.map_eq_none_iff, List.find?_eq_none]
  exact fun e mem same => absent (List.mem_map.2 ⟨e, mem, eq_of_beq same⟩)

theorem lookup_entries (distinct : (fields.map (·.key)).Nodup) (s : σ) :
    ∀ f ∈ fields, Toml.lookup (entries fields s) f.key = f.write s := by
  induction fields with
  | nil => exact List.forall_mem_nil _
  | cons f fields ih =>
    rw [List.map_cons, List.nodup_cons] at distinct
    rw [entries, List.filterMap_cons]
    refine List.forall_mem_cons.2 ⟨?_, fun g mem => ?_⟩
    · cases f.write s with
      | none => exact lookup_of_not_mem fun mem => distinct.1 ((keys_entries fields s).subset mem)
      | some v => simp [Toml.lookup]
    · have other : f.key ≠ g.key := fun same => distinct.1 (same ▸ List.mem_map_of_mem mem)
      have rest := ih distinct.2 g mem
      cases f.write s with
      | none => exact rest
      | some v =>
        rw [← rest, Toml.lookup]
        exact congrArg _ (List.find?_cons_of_neg (by simpa using other))

/-- Fields are taken over from what is found under their keys. -/
theorem overlay_eq {es : List (String × Value)} {found : Field σ → Option Value}
    (agree : ∀ f ∈ fields, Toml.lookup es f.key = found f) (t : σ) :
    overlay fields es t = fields.foldlM (fun t f =>
      match found f with
      | some v => f.read v t
      | none => some t) t := by
  rw [overlay]
  induction fields generalizing t with
  | nil => rfl
  | cons f fields ih =>
    obtain ⟨first, agree⟩ := List.forall_mem_cons.1 agree
    rw [List.foldlM_cons, List.foldlM_cons, first]
    exact congrArg (Option.bind _) (funext fun t => ih agree t)

/-- One field of a written record of which keys have been deleted, read over another record. -/
def salvage (gone : Deletion) (s t : σ) (f : Field σ) : Option σ :=
  match gone.pick f.key
    ((f.write s).map fun v => (v.without (gone.under (.key f.key))).readBack) none with
  | some v => f.read v t
  | none => some t

theorem lookup_without (distinct : (fields.map (·.key)).Nodup) (gone : Deletion) (s : σ) :
    ∀ f ∈ fields,
    Toml.lookup (Toml.Node.toValues (Toml.Node.ofEntries (withoutEntries gone (entries fields s))))
        f.key =
      gone.pick f.key
        ((f.write s).map fun v => (v.without (gone.under (.key f.key))).readBack) none := by
  intro f mem
  have distinct' := (distinct.sublist (keys_entries fields s)).sublist
    (Toml.keys_withoutEntries gone _)
  rw [Toml.lookup_toValues distinct', Toml.lookup_withoutEntries, lookup_entries distinct s f mem,
    Deletion.pick]
  split
  · rfl
  · exact Option.map_map ..

theorem overlay_without (distinct : (fields.map (·.key)).Nodup) (gone : Deletion) (s t : σ) :
    overlay fields (Toml.Node.toValues
      (Toml.Node.ofEntries (withoutEntries gone (entries fields s)))) t =
      fields.foldlM (salvage gone s) t :=
  overlay_eq (lookup_without distinct gone s) t

/-- Fields, read one after the other from what is left of a written record `s`, turn the record `t`
into `u`. -/
inductive Overlays (depth : ℕ) (s : σ) :
    List (Field σ) → Keys → (Deletion → σ) → (Deletion → σ) → Prop
  | nil (t : Deletion → σ) : Overlays depth s [] [] t t
  | of {β : Type} {key : String} {c : Codec β} {get : σ → β} {set : σ → β → σ}
      {fields : List (Field σ)} {required others : Keys} {left : Deletion → β}
      {t u : Deletion → σ} (same : ∀ r, set r (get r) = r)
      (inside : c.Overlays depth (get s) required left)
      (rest : Overlays depth s fields others
        (fun gone => set (t gone) (gone.pick key (left (gone.under (.key key))) (get (t gone))))
        u) :
      Overlays depth s (.of key c get set :: fields) (required.after (.key key) ++ others) t u
  | optional {β : Type} {key : String} {c : Codec β} {get : σ → Option β} {set : σ → Option β → σ}
      {fields : List (Field σ)} {others : Keys} {t u : Deletion → σ} (same : ∀ r, set r (get r) = r)
      (blank : ∀ gone, get (t gone) = none)
      (inside : ∀ x, get s = some x → c.Overlays depth x [] fun _ => x)
      (rest : Overlays depth s fields others
        (fun gone => set (t gone) (gone.pick key (get s) none)) u) :
      Overlays depth s (.optional key c get set :: fields) others t u

theorem write_optional {key : String} {c : Codec α} {get : σ → Option α} {set : σ → Option α → σ} :
    (optional key c get set).write s = (get s).map c.write := rfl

theorem Overlays.foldlM_salvage (overlays : Overlays depth s fields required t u)
    (gone : Deletion) :
    fields.foldlM (salvage gone s) (t gone) =
      if gone.hits required then none else some (u gone) := by
  induction overlays with
  | nil => rfl
  | @of _ key c get set _ required _ _ t _ same inside _ ih =>
    rw [List.foldlM_cons, salvage, Deletion.hits_append, Deletion.hits_after_key]
    cases deleted : gone [] key with
    | true =>
      simp only [Deletion.pick, deleted, if_true, same] at ih
      simpa [Deletion.pick, Field.of, deleted] using ih
    | false =>
      have read := inside.read (gone.under (.key key))
      simp only [Deletion.pick, deleted] at ih
      cases missing : (gone.under (.key key)).hits required with
      | true => simp [Deletion.pick, Field.of, deleted, read, missing]
      | false => simpa [Deletion.pick, Field.of, deleted, read, missing] using ih
  | @optional _ key c get set _ _ t _ same blank inside _ ih =>
    have unchanged : set (t gone) none = t gone := by rw [← blank gone, same]
    rw [List.foldlM_cons, salvage]
    cases deleted : gone [] key with
    | true =>
      simp only [Deletion.pick, deleted, if_true, unchanged] at ih
      simpa [Deletion.pick, Field.optional, deleted] using ih
    | false =>
      simp only [Deletion.pick, deleted] at ih
      cases given : get s with
      | none => simpa [Deletion.pick, Field.optional, deleted, given, unchanged] using ih
      | some x =>
        have read := (inside x given).read (gone.under (.key key))
        simpa [Deletion.pick, Field.optional, deleted, given, read, Deletion.hits] using ih

theorem Overlays.forall_entries (overlays : Overlays depth s fields required t u) :
    ∀ e ∈ entries fields s, e.2.IsNeat depth ∧
      ∀ gone : Deletion, e.2.Lasts (gone.under (.key e.1)) := by
  induction overlays with
  | nil => exact List.forall_mem_nil _
  | of _ inside _ ih => exact List.forall_mem_cons.2 ⟨⟨inside.neat, fun _ => inside.lasts _⟩, ih⟩
  | @optional _ _ _ get _ _ _ _ _ _ _ inside _ ih =>
    rw [entries, List.filterMap_cons, write_optional]
    cases given : get s with
    | none => exact ih
    | some x =>
      exact List.forall_mem_cons.2 ⟨⟨(inside x given).neat, fun _ => (inside x given).lasts _⟩, ih⟩

end Field

namespace Codec

variable {fields : List (Field σ)} {s start : σ} {required : Keys} {u : Deletion → σ}

def AreKeys (fields : List (Field σ)) : Prop :=
  (fields.map (·.key)).Nodup ∧ ∀ f ∈ fields, IsBareKey f.key

theorem neat_entries (keys : AreKeys fields)
    (overlays : Field.Overlays depth s fields required (fun _ => start) u) :
    (Value.table (Field.entries fields s)).IsNeat (depth + 1) := by
  have sub := Field.keys_entries fields s
  refine .table (keys.1.sublist sub) (fun e mem => ?_) fun e mem =>
    (overlays.forall_entries e mem).1
  obtain ⟨f, field, same⟩ := List.mem_map.1 (sub.subset (List.mem_map_of_mem mem))
  exact same ▸ keys.2 f field

theorem record_overlays (keys : AreKeys fields)
    (header : Toml.Statement.hasHeader (Field.entries fields s))
    (overlays : Field.Overlays depth s fields required (fun _ => start) u) :
    (record fields start).Overlays (depth + 1) s required u := by
  refine ⟨neat_entries keys overlays,
    fun gone => .table (keys.1.sublist (Field.keys_entries fields s)) (.inl header) fun e mem =>
      (overlays.forall_entries e mem).2 gone, fun gone => ?_⟩
  change (record fields start).read
    (Value.table (withoutEntries gone (Field.entries fields s))).readBack = _
  rw [Toml.readBack_table]
  exact (Field.overlay_without keys.1 gone s start).trans (overlays.foldlM_salvage gone)

theorem complete_overlays (keys : AreKeys fields)
    (header : Toml.Statement.hasHeader (Field.entries fields s))
    (overlays : Field.Overlays depth s fields required (fun _ => start) u)
    (whole : ∀ f ∈ fields, (f.write s).isSome)
    (same : ∀ gone, (∀ f ∈ fields, gone [] f.key = false) → u gone = s) :
    (complete fields start).Overlays (depth + 1) s (fields.map (fun f => ([], f.key)) ++ required)
      fun _ => s := by
  refine ⟨neat_entries keys overlays,
    fun gone => .table (keys.1.sublist (Field.keys_entries fields s)) (.inl header) fun e mem =>
      (overlays.forall_entries e mem).2 gone, fun gone => ?_⟩
  have present : (fields.all fun f => (Toml.lookup (Toml.Node.toValues (Toml.Node.ofEntries
      (withoutEntries gone (Field.entries fields s)))) f.key).isSome) ↔
        (fields.any fun f => gone [] f.key) = false := by
    rw [List.all_eq_true, List.any_eq_false]
    refine forall₂_congr fun f mem => ?_
    rw [Field.lookup_without keys.1 gone s f mem, Deletion.pick]
    cases gone [] f.key with
    | true => simp
    | false => simpa using whole f mem
  have own : gone.hits (fields.map fun f => ([], f.key)) = fields.any fun f => gone [] f.key := by
    rw [Deletion.hits, List.any_map]
    rfl
  change (complete fields start).read
    (Value.table (withoutEntries gone (Field.entries fields s))).readBack = _
  rw [Toml.readBack_table, Deletion.hits_append, own]
  cases missing : fields.any fun f => gone [] f.key with
  | true => exact if_neg (by rw [present, missing]; decide)
  | false =>
    have kept := same gone fun f mem => by simpa using List.any_eq_false.1 missing f mem
    have read := (Field.overlay_without keys.1 gone s start).trans (overlays.foldlM_salvage gone)
    rw [kept] at read
    exact (if_pos (present.2 missing)).trans read

end Codec

end Pursuit.Settings
