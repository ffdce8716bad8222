import Pursuit.Proofs.Toml.Number
import Pursuit.Proofs.Toml.Quotation
import Pursuit.Toml.Printer
import Pursuit.Toml.Reader

/-! Statements of a document, written one after the other and read again. The keys are those that
need no quotes, and no value holds others. What is read stops where the rest of the text starts with
a character that cannot go on with it, so each lemma leaves the rest open. -/
namespace Pursuit.Toml

open Decimal (isDigit)

variable {rest : List Char}

/-! ## Words and white space -/

theorem takeWhile_stop {p : Char → Bool} (stop : ∀ c ∈ rest.head?, p c = false) :
    rest.takeWhile p = [] := by
  cases rest with
  | nil => rfl
  | cons c rest => exact List.takeWhile_cons_of_neg (by simpa using stop)

theorem dropWhile_stop {p : Char → Bool} (stop : ∀ c ∈ rest.head?, p c = false) :
    rest.dropWhile p = rest := by
  cases rest with
  | nil => rfl
  | cons c rest => exact List.dropWhile_cons_of_neg (by simpa using stop)

theorem isSpace_eq_false {c : Char} (space : c ≠ ' ') (tab : c ≠ '\t') : isSpace c = false := by
  simp [isSpace, space, tab]

theorem skipSpaces_of_head? (solid : ∀ c ∈ rest.head?, isSpace c = false) :
    skipSpaces rest = rest := dropWhile_stop solid

/-! ## Keys -/

structure IsBareKey (k : String) : Prop where
  nonempty : k.toList ≠ []
  bare : ∀ c ∈ k.toList, Quotation.isBare c

instance (k : String) : Decidable (IsBareKey k) :=
  decidable_of_iff (k.toList ≠ [] ∧ k.toList.all Quotation.isBare)
    ⟨fun h => ⟨h.1, List.all_eq_true.1 h.2⟩, fun h => ⟨h.nonempty, List.all_eq_true.2 h.bare⟩⟩

variable {k : String} {path : List String}

theorem writeKey_eq (bare : IsBareKey k) : writeKey k = k.toList := by
  rw [writeKey, if_pos]
  simpa [bare.nonempty] using bare.bare

theorem writeKey_eq_cons (bare : IsBareKey k) :
    ∃ c s, writeKey k = c :: s ∧ Quotation.isBare c := by
  obtain ⟨c, s, first⟩ := List.exists_cons_of_ne_nil bare.nonempty
  exact ⟨c, s, (writeKey_eq bare).trans first, bare.bare c (first ▸ List.mem_cons_self)⟩

theorem ne_of_isBare {c d : Char} (bare : Quotation.isBare c) (other : Quotation.isBare d = false) :
    c ≠ d := by
  rintro rfl
  rw [other] at bare
  cases bare

theorem isSpace_of_isBare {c : Char} (bare : Quotation.isBare c) : isSpace c = false :=
  isSpace_eq_false (ne_of_isBare bare (by decide)) (ne_of_isBare bare (by decide))

theorem key_writeKey (bare : IsBareKey k) (stop : ∀ c ∈ rest.head?, Quotation.isBare c = false) :
    key (writeKey k ++ rest) = some (k, rest) := by
  have front : (writeKey k ++ rest).takeWhile Quotation.isBare = k.toList := by
    rw [writeKey_eq bare, List.takeWhile_append_of_pos bare.bare, takeWhile_stop stop,
      List.append_nil]
  have back : (writeKey k ++ rest).dropWhile Quotation.isBare = rest := by
    rw [writeKey_eq bare, List.dropWhile_append_of_pos bare.bare, dropWhile_stop stop]
  obtain ⟨c, s, first, solid⟩ := writeKey_eq_cons bare
  have quote : c ≠ '"' := ne_of_isBare solid (by decide)
  have tick : c ≠ '\'' := ne_of_isBare solid (by decide)
  rw [first, List.cons_append] at front back ⊢
  rw [key.eq_def]
  split
  next same => exact absurd (List.cons.inj same).1 quote
  next same => exact absurd (List.cons.inj same).1 tick
  next => simp [front, back, bare.nonempty]

theorem part_writeKey (bare : IsBareKey k) (stop : ∀ c ∈ rest.head?, Quotation.isBare c = false) :
    (key (skipSpaces (writeKey k ++ rest))).map (fun (k, s) => (k, skipSpaces s)) =
      some (k, skipSpaces rest) := by
  have solid : ∀ c ∈ (writeKey k ++ rest).head?, isSpace c = false := by
    obtain ⟨c, s, first, solid⟩ := writeKey_eq_cons bare
    simpa [first] using isSpace_of_isBare solid
  rw [skipSpaces_of_head? solid, key_writeKey bare stop]
  rfl

/-! ## Paths -/

theorem writePath_cons_cons (k l : String) (path : List String) :
    writePath (k :: l :: path) = writeKey k ++ '.' :: writePath (l :: path) := by
  simp [writePath]

/-- A path that stands before an equals sign or in brackets without quotes. -/
structure IsBarePath (path : List String) : Prop where
  nonempty : path ≠ []
  bare : ∀ k ∈ path, IsBareKey k
  shallow : path.length ≤ maxDepth

theorem writePath_eq_cons (neat : IsBarePath path) :
    ∃ c s, writePath path = c :: s ∧ Quotation.isBare c := by
  obtain ⟨k, path, rfl⟩ := List.exists_cons_of_ne_nil neat.nonempty
  obtain ⟨c, s, first, solid⟩ := writeKey_eq_cons (neat.bare k List.mem_cons_self)
  cases path with
  | nil => exact ⟨c, s, by simpa [writePath] using first, solid⟩
  | cons l path => exact ⟨c, _, by rw [writePath_cons_cons, first]; rfl, solid⟩

theorem path_writePath (neat : IsBarePath path) (rest : List Char)
    (stop : ∀ c ∈ rest.head?, Quotation.isBare c = false)
    (last : (skipSpaces rest).head? ≠ some '.') :
    Toml.path (writePath path ++ rest) = some (path, skipSpaces rest) := by
  obtain ⟨nonempty, bare, shallow⟩ := neat
  rw [Toml.path]
  -- Each key takes one unit of fuel, and the path has no more keys than that.
  generalize maxDepth = fuel at shallow
  induction path generalizing fuel with
  | nil => exact absurd rfl nonempty
  | cons k path ih =>
    obtain ⟨first, bare⟩ := List.forall_mem_cons.1 bare
    obtain ⟨fuel, rfl⟩ : ∃ n, fuel = n + 1 := ⟨fuel - 1, by simp at shallow; omega⟩
    cases path with
    | nil =>
      have written : writePath [k] = writeKey k := by simp [writePath]
      rw [written, separated, part_writeKey first stop]
      cases after : skipSpaces rest with
      | nil => rfl
      | cons c s =>
        have other : c ≠ '.' := by simpa [after] using last
        simp [other]
    | cons l path =>
      have next := ih (by simp) bare fuel (by simpa using shallow)
      rw [writePath_cons_cons, List.append_assoc, List.cons_append, separated,
        part_writeKey first (by simp; decide)]
      have point : skipSpaces ('.' :: (writePath (l :: path) ++ rest)) =
          '.' :: (writePath (l :: path) ++ rest) := rfl
      simp [point, next]

/-! ## Values -/

/-- A value that is written after its key and holds no others. -/
def Value.IsSimple : Value → Prop
  | .flag _ | .float _ | .text _ => True
  | .integer n => 0 ≤ n ∧ n ≤ 0x7fffffffffffffff
  | .list items => items = []
  | .moment | .table _ => False

theorem value_of_number {v : Value} {s : List Char} (depth : ℕ)
    (read : (Moment.scan s).or (Number.scan s) = some (v, rest)) :
    value depth s = some (v, rest) ∧ ∀ c ∈ s.head?, isSpace c = false := by
  obtain ⟨c, r, rfl, start⟩ := eq_cons_of_number read
  have other {d : Char} (plain : isDigit d = false ∧ d ∉ Number.marks) : c ≠ d := by
    rintro rfl
    exact start.elim (by simp [plain.1]) plain.2
  have solid : isSpace c = false := isSpace_eq_false (other (by decide)) (other (by decide))
  have scalar : scalar (c :: r) = some (v, rest) := by
    rw [scalar.eq_def]
    split
    next same => exact absurd (List.cons.inj same).1 (other (by decide))
    next same => exact absurd (List.cons.inj same).1 (other (by decide))
    next same => exact absurd (List.cons.inj same).1 (other (by decide))
    next same => exact absurd (List.cons.inj same).1 (other (by decide))
    next => exact read
  refine ⟨?_, by simpa using solid⟩
  rw [value.eq_def]
  split
  next same => exact absurd (List.cons.inj same).1 (other (by decide))
  next same => exact absurd (List.cons.inj same).1 (other (by decide))
  next => exact scalar

theorem write_eq_cons (s : List Char) :
    ∃ c r, Quotation.write s = c :: r ∧ (c = '"' ∨ c = '\'') := by
  cases spelled : Quotation.spelling s <;>
    simp [Quotation.write, spelled, Quotation.Spelling.delimiter]

theorem value_text (depth : ℕ) (s : List Char) (rest : List Char) :
    value depth (Quotation.write s ++ '\n' :: rest) = some (.text (.ofList s), '\n' :: rest) := by
  have read := Quotation.read_write s rest
  obtain ⟨c, r, text, quote⟩ := write_eq_cons s
  rw [text, List.cons_append] at read ⊢
  obtain rfl | rfl := quote
  all_goals
    rw [value.eq_def]
    simp [scalar, read]

/-- The text of a value, which is read up to the end of its line. -/
structure Value.Reads (v : Value) (t : List Char) : Prop where
  write : v.write? = some t
  read (rest : List Char) : value maxDepth (t ++ '\n' :: rest) = some (v, '\n' :: rest)
  solid (rest : List Char) : ∀ c ∈ (t ++ '\n' :: rest).head?, isSpace c = false

theorem Value.reads_of_number {v : Value} {t : List Char} (write : v.write? = some t)
    (read : ∀ rest, (Moment.scan (t ++ '\n' :: rest)).or (Number.scan (t ++ '\n' :: rest)) =
      some (v, '\n' :: rest)) : v.Reads t :=
  ⟨write, fun rest => (value_of_number _ (read rest)).1,
    fun rest => (value_of_number 0 (read rest)).2⟩

theorem Value.reads_of_isSimple {v : Value} (simple : v.IsSimple) : ∃ t, v.Reads t := by
  cases v with
  | flag b => cases b <;> exact ⟨_, rfl, fun rest => rfl, fun rest => by simp; decide⟩
  | integer n =>
    obtain ⟨n, rfl⟩ := Int.eq_ofNat_of_zero_le simple.1
    have small : n ≤ 0x7fffffffffffffff := by exact_mod_cast simple.2
    refine ⟨(Nat.repr n).toList, reads_of_number ?_ (scan_natural small)⟩
    rw [Value.write?, if_pos ⟨by omega, simple.2⟩]
    rfl
  | float x => exact ⟨_, reads_of_number rfl (scan_wide x)⟩
  | text s =>
    refine ⟨_, rfl, fun rest => ?_, fun rest => ?_⟩
    · rw [value_text, String.ofList_toList]
    · obtain ⟨c, r, text, rfl | rfl⟩ := write_eq_cons s.toList <;> (rw [text]; simp; decide)
  | list items =>
    obtain rfl : items = [] := simple
    exact ⟨['[', ']'], rfl, fun rest => rfl, fun rest => by simp; decide⟩
  | moment => exact simple.elim
  | table es => exact simple.elim

/-! ## Statements -/

namespace Statement

def IsSimple : Statement → Prop
  | .header path | .item path => IsBarePath path
  | .assign path v => IsBarePath path ∧ v.IsSimple

structure Reads (st : Statement) (t : List Char) : Prop where
  write : st.write? = some (t ++ ['\n'])
  read (rest : List Char) : statement (t ++ '\n' :: rest) = some (st, '\n' :: rest)
  head : ∃ c s, t = c :: s ∧ (c = '[' ∨ Quotation.isBare c)

theorem reads_header (neat : IsBarePath path) :
    Reads (.header path) ('[' :: writePath path ++ [']']) := by
  refine ⟨by simp [write?], fun rest => ?_, ⟨_, _, rfl, .inl rfl⟩⟩
  have inside := path_writePath neat (']' :: '\n' :: rest) (by simp; decide)
    fun point => absurd (Option.some.inj point) (by decide)
  obtain ⟨c, s, first, solid⟩ := writePath_eq_cons neat
  have bracket : c ≠ '[' := ne_of_isBare solid (by decide)
  have text : '[' :: writePath path ++ [']'] ++ '\n' :: rest =
      '[' :: (writePath path ++ ']' :: '\n' :: rest) := by simp
  rw [text, statement.eq_def]
  split
  next s same =>
    rw [first] at same
    simp [bracket] at same
  next s other same =>
    obtain rfl := (List.cons.inj same).2
    rw [inside]
    rfl
  next single => exact (single _ rfl).elim

theorem reads_item (neat : IsBarePath path) :
    Reads (.item path) ('[' :: '[' :: writePath path ++ [']', ']']) := by
  refine ⟨by simp [write?], fun rest => ?_, ⟨_, _, rfl, .inl rfl⟩⟩
  have inside := path_writePath neat (']' :: ']' :: '\n' :: rest) (by simp; decide)
    fun point => absurd (Option.some.inj point) (by decide)
  have text : '[' :: '[' :: writePath path ++ [']', ']'] ++ '\n' :: rest =
      '[' :: '[' :: (writePath path ++ ']' :: ']' :: '\n' :: rest) := by simp
  rw [text, statement, inside]
  rfl

theorem reads_assign {v : Value} {t : List Char} (neat : IsBarePath path) (reads : v.Reads t) :
    Reads (.assign path v) (writePath path ++ ' ' :: '=' :: ' ' :: t) := by
  obtain ⟨c, s, first, bare⟩ := writePath_eq_cons neat
  refine ⟨by simp [write?, reads.write], fun rest => ?_, ⟨c, _, by rw [first]; rfl, .inr bare⟩⟩
  have text : writePath path ++ ' ' :: '=' :: ' ' :: t ++ '\n' :: rest =
      writePath path ++ ' ' :: '=' :: ' ' :: (t ++ '\n' :: rest) := by simp
  have before := path_writePath neat (' ' :: '=' :: ' ' :: (t ++ '\n' :: rest))
    (by simp; decide) fun point => absurd (Option.some.inj point) (by decide)
  have between : skipSpaces (' ' :: '=' :: ' ' :: (t ++ '\n' :: rest)) =
      '=' :: ' ' :: (t ++ '\n' :: rest) := rfl
  have after : skipSpaces (' ' :: (t ++ '\n' :: rest)) = t ++ '\n' :: rest :=
    skipSpaces_of_head? (reads.solid rest)
  have inside : assignment (value maxDepth) (writePath path ++ ' ' :: '=' :: ' ' ::
      (t ++ '\n' :: rest)) = some ((path, v), '\n' :: rest) := by
    rw [assignment, before, between]
    simp only [Option.bind_eq_bind, Option.bind_some]
    rw [after, reads.read]
    rfl
  have bracket : c ≠ '[' := ne_of_isBare bare (by decide)
  rw [text, statement.eq_def]
  split
  next same => exact absurd (List.cons.inj (first ▸ same)).1 bracket
  next same => exact absurd (List.cons.inj (first ▸ same)).1 bracket
  next =>
    rw [inside]
    rfl

theorem reads_of_isSimple {st : Statement} (simple : st.IsSimple) : ∃ t, st.Reads t := by
  cases st with
  | header path => exact ⟨_, reads_header simple⟩
  | item path => exact ⟨_, reads_item simple⟩
  | assign path v =>
    obtain ⟨t, reads⟩ := Value.reads_of_isSimple simple.2
    exact ⟨_, reads_assign simple.1 reads⟩

end Statement

/-! ## Documents -/

theorem statements_blank (fuel : ℕ) (rest : List Char) :
    statements (fuel + 1) ('\n' :: rest) = statements fuel rest := rfl

theorem statements_line {st : Statement} {t : List Char} (reads : st.Reads t) (fuel : ℕ)
    (rest : List Char) :
    statements (fuel + 1) (t ++ '\n' :: rest) = (statements fuel rest).map (st :: ·) := by
  have read := reads.read rest
  obtain ⟨c, s, rfl, first⟩ := reads.head
  have other {d : Char} (plain : d ≠ '[' ∧ Quotation.isBare d = false) : c ≠ d := by
    rintro rfl
    exact first.elim plain.1 (by simp [plain.2])
  have solid : isSpace c = false := isSpace_eq_false (other (by decide)) (other (by decide))
  have occupied : lineEnd? false (c :: s ++ '\n' :: rest) = none := by
    rw [List.cons_append, lineEnd?.eq_def]
    split
    next same => cases same
    next same => exact absurd (List.cons.inj same).1 (other (by decide))
    next same => exact absurd (List.cons.inj same).1 (other (by decide))
    next => contradiction
    next same => exact absurd (List.cons.inj same).1 (other (by decide))
    next same =>
      obtain ⟨rfl, rfl⟩ := List.cons.inj same
      exact if_neg (by simp [solid])
  have here : skipSpaces (c :: s ++ '\n' :: rest) = c :: s ++ '\n' :: rest :=
    skipSpaces_of_head? (by simpa using solid)
  rw [List.cons_append] at occupied here read ⊢
  rw [statements, occupied, here, read]
  · simp only [Option.bind_eq_bind, Option.bind_some]
    change (statements fuel rest).bind (fun sts => some (st :: sts)) = _
    exact Option.map_eq_bind.symm
  · exact List.cons_ne_nil _ _

/-- Statements after other text, and the empty lines before their headers. -/
theorem statements_writeRest {sts : List Statement} (simple : ∀ st ∈ sts, st.IsSimple) :
    ∃ t, Statement.writeRest? sts = some t ∧
      ∀ fuel, t.length ≤ fuel → statements fuel t = some sts := by
  induction sts with
  | nil => exact ⟨[], rfl, fun fuel _ => by cases fuel <;> rfl⟩
  | cons st sts ih =>
    obtain ⟨first, simple⟩ := List.forall_mem_cons.1 simple
    obtain ⟨t, reads⟩ := Statement.reads_of_isSimple first
    obtain ⟨rest, write, read⟩ := ih simple
    have whole (fuel : ℕ) (enough : (t ++ '\n' :: rest).length ≤ fuel) :
        statements fuel (t ++ '\n' :: rest) = some (st :: sts) := by
      rw [List.length_append, List.length_cons] at enough
      obtain ⟨fuel, rfl⟩ : ∃ n, fuel = n + 1 := ⟨fuel - 1, by omega⟩
      rw [statements_line reads, read fuel (by omega)]
      rfl
    cases kind : st.isAssign with
    | true =>
      refine ⟨t ++ '\n' :: rest, ?_, whole⟩
      simp [Statement.writeRest?, kind, reads.write, write]
    | false =>
      refine ⟨'\n' :: (t ++ '\n' :: rest), ?_, fun fuel enough => ?_⟩
      · simp [Statement.writeRest?, kind, reads.write, write]
      · rw [List.length_cons] at enough
        obtain ⟨fuel, rfl⟩ : ∃ n, fuel = n + 1 := ⟨fuel - 1, by omega⟩
        rw [statements_blank, whole fuel (by omega)]

theorem statements_writeAll {sts : List Statement} (simple : ∀ st ∈ sts, st.IsSimple) :
    ∃ t, Statement.writeAll? sts = some t ∧ skipMark t = t ∧ statements t.length t = some sts := by
  cases sts with
  | nil => exact ⟨[], rfl, rfl, rfl⟩
  | cons st sts =>
    obtain ⟨first, simple⟩ := List.forall_mem_cons.1 simple
    obtain ⟨t, reads⟩ := Statement.reads_of_isSimple first
    obtain ⟨rest, write, read⟩ := statements_writeRest simple
    refine ⟨t ++ '\n' :: rest, ?_, ?_, ?_⟩
    · simp [Statement.writeAll?, reads.write, write]
    · obtain ⟨c, s, rfl, first⟩ := reads.head
      have other : c ≠ '\ufeff' := by
        rintro rfl
        exact first.elim (by decide) (by decide)
      rw [List.cons_append, skipMark.eq_def]
      split
      next same => exact absurd (List.cons.inj same).1 other
      next => rfl
    · rw [List.length_append, List.length_cons, ← Nat.add_assoc, statements_line reads,
        read _ (by omega)]
      rfl

/-- One value that cannot be written is enough to have no text. -/
theorem writeRest?_eq_none {st : Statement} {sts : List Statement} (mem : st ∈ sts)
    (unwritten : st.write? = none) :
    Statement.writeRest? sts = none := by
  induction sts with
  | nil => cases mem
  | cons st' sts ih =>
    rw [Statement.writeRest?]
    obtain rfl | mem := List.mem_cons.1 mem
    · rw [unwritten]
      rfl
    · rw [ih mem]
      cases st'.write? <;> rfl

theorem writeAll?_eq_none {st : Statement} {sts : List Statement} (mem : st ∈ sts)
    (unwritten : st.write? = none) :
    Statement.writeAll? sts = none := by
  cases sts with
  | nil => cases mem
  | cons st' sts =>
    rw [Statement.writeAll?]
    obtain rfl | mem := List.mem_cons.1 mem
    · rw [unwritten]
      rfl
    · rw [writeRest?_eq_none mem unwritten]
      cases st'.write? <;> rfl

/-- A text in which some statements stand, one to a line. -/
def Holds (s : String) (sts : List Statement) : Prop :=
  statements (skipMark s.toList).length (skipMark s.toList) = some sts

theorem read?_of_holds {s : String} {sts : List Statement} (holds : Holds s sts) :
    read? s = Statement.assemble sts := by
  rw [read?, holds]
  rfl

theorem exists_holds {sts : List Statement} (simple : ∀ st ∈ sts, st.IsSimple) :
    ∃ t, Statement.writeAll? sts = some t ∧ Holds (.ofList t) sts := by
  obtain ⟨t, write, unmarked, read⟩ := statements_writeAll simple
  refine ⟨t, write, ?_⟩
  rw [Holds, String.toList_ofList, unmarked, read]

end Pursuit.Toml
