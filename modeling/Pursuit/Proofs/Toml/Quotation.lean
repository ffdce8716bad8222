import Mathlib.Logic.Basic
import Mathlib.Tactic.SplitIfs
import Pursuit.Toml.Quotation

/-! Strings of a document, written and read again in each of the four spellings. A string that goes
over several lines may hold up to two of its quotes in a row; the reader counts them together with
the three that end it. -/
namespace Pursuit.Toml.Quotation

variable {c : Char} {s rest : List Char}

/-! ## Single characters -/

theorem isVisible_of_not_control (plain : isControl c = false) (single : c ≠ '\n') :
    isVisible c := by
  simp [isControl, single] at plain
  simp [isVisible]
  by_cases tab : c = '\t'
  · exact .inl tab
  · have low : 32 ≤ c.toNat := Nat.not_lt.1 fun less => tab (plain.1 less)
    exact .inr ⟨low, plain.2⟩

theorem unicode_of_control (control : isControl c) : ∃ a b x y,
    unicode c = ['\\', 'u', a, b, x, y] ∧ scalar? [a, b, x, y] = some c := by
  have codes : ∀ n < 128, isControl (.ofNat n) →
      ((unicode (.ofNat n)).length = 6 ∧ (unicode (.ofNat n)).take 2 = ['\\', 'u']) ∧
      scalar? ((unicode (.ofNat n)).drop 2) = some (.ofNat n) := by decide +kernel
  have low : c.toNat < 128 := by simp [isControl] at control; omega
  obtain ⟨⟨six, mark⟩, code⟩ := codes c.toNat low (by rwa [Char.ofNat_toNat])
  rw [Char.ofNat_toNat] at six mark code
  match unicode c, six, mark, code with
  | [_, _, a, b, x, y], _, mark, code =>
    simp at mark
    exact ⟨a, b, x, y, by rw [mark.1, mark.2], code⟩

def shown (multiline : Bool) (c : Char) : List Char := (escape? multiline c).getD [c]

theorem escaped_cons (multiline : Bool) (quotes : Nat) (other : c ≠ '"') (s : List Char) :
    escaped multiline quotes (c :: s) = shown multiline c ++ escaped multiline 0 s := by
  rw [escaped, if_neg other, shown]
  cases escape? multiline c <;> rfl

/-- A character is shown as itself, as a backslash and a letter, or as a backslash and its code. -/
theorem shown_cases (multiline : Bool) (c : Char) :
    (shown multiline c = [c] ∧ c ≠ '\\' ∧ c ≠ '\r' ∧ (isVisible c ∨ multiline ∧ c = '\n')) ∨
    (∃ l, shown multiline c = ['\\', l] ∧ letter? l = some c) ∨
    ∃ a b x y, shown multiline c = ['\\', 'u', a, b, x, y] ∧ scalar? [a, b, x, y] = some c := by
  rw [shown, escape?]
  split_ifs with back tab newline multi feed ret slash control
  · exact .inr (.inl ⟨'b', rfl, congrArg some (by rw [← back, Char.ofNat_toNat])⟩)
  · exact .inr (.inl ⟨'t', rfl, congrArg some tab.symm⟩)
  · exact .inl ⟨rfl, by rw [newline]; decide, by rw [newline]; decide, .inr ⟨multi, newline⟩⟩
  · exact .inr (.inl ⟨'n', rfl, congrArg some newline.symm⟩)
  · exact .inr (.inl ⟨'f', rfl, congrArg some (by rw [← feed, Char.ofNat_toNat])⟩)
  · exact .inr (.inl ⟨'r', rfl, congrArg some ret.symm⟩)
  · exact .inr (.inl ⟨'\\', rfl, congrArg some slash.symm⟩)
  · exact .inr (.inr (unicode_of_control control))
  · exact .inl ⟨rfl, slash, ret,
      .inl (isVisible_of_not_control (by simpa using control) newline)⟩

/-! ## Basic strings -/

theorem basic_shown (other : c ≠ '"') (rest : List Char) :
    basic (shown false c ++ rest) = (basic rest).cons c := by
  obtain ⟨same, slash, -, visible⟩ | ⟨l, letter, known⟩ | ⟨a, b, x, y, code, known⟩ :=
    shown_cases false c
  · have visible : isVisible c := by simpa using visible
    rw [same, List.singleton_append]
    rw [basic.eq_def]
    split <;> simp_all
  · rw [letter]
    unfold letter? at known
    split at known <;> cases known <;> rfl
  · rw [code]
    change (scalar? [a, b, x, y]).bind (fun x => (basic rest).cons x) = _
    rw [known]
    rfl

theorem basic_escaped (s rest : List Char) :
    basic (escaped false 0 s ++ '"' :: rest) = some (s, rest) := by
  induction s with
  | nil => rfl
  | cons c s ih =>
    by_cases quote : c = '"'
    · subst quote
      change (basic (escaped false 0 s ++ '"' :: rest)).cons '"' = _
      rw [ih]
      rfl
    · rw [escaped_cons false 0 quote, List.append_assoc, basic_shown quote, ih]
      rfl

/-! ## Literal strings -/

theorem literal_append (visible : ∀ c ∈ s, isVisible c) (none : '\'' ∉ s) (rest : List Char) :
    literal (s ++ '\'' :: rest) = some (s, rest) := by
  induction s with
  | nil => rfl
  | cons c s ih =>
    rw [List.forall_mem_cons] at visible
    rw [List.mem_cons, not_or] at none
    have next := ih visible.2 none.2
    rw [List.cons_append, literal.eq_def]
    split <;> simp_all [Read.cons]

/-! ## Basic strings over several lines -/

theorem multilineBasic_shown (other : c ≠ '"') (rest : List Char) :
    multilineBasic .text (shown true c ++ rest) = (multilineBasic .text rest).cons c := by
  obtain ⟨same, slash, ret, visible⟩ | ⟨l, letter, known⟩ | ⟨a, b, x, y, code, known⟩ :=
    shown_cases true c
  · rw [same, List.singleton_append]
    by_cases newline : c = '\n'
    · rw [newline]; rfl
    have visible : isVisible c := by simpa [newline] using visible
    rw [multilineBasic.eq_def]
    split <;> simp_all
  · rw [letter]
    unfold letter? at known
    split at known <;> cases known <;> rfl
  · rw [code]
    change (scalar? [a, b, x, y]).bind (fun x => (multilineBasic .text rest).cons x) = _
    rw [known]
    rfl

/-- Fewer than three quotes in a row belong to the text. -/
theorem multilineBasic_quotes {q : Nat} (few : q ≤ 2) (apart : rest.head? ≠ some '"') :
    multilineBasic .text (List.replicate q '"' ++ rest) =
      (multilineBasic .text rest).map fun (s, r) => (List.replicate q '"' ++ s, r) := by
  match rest, q, few with
  | rest, 0, _ => simp
  | [], 1, _ => rfl
  | [], 2, _ => rfl
  | c :: rest, 1, _ =>
    rw [List.head?_cons, ne_eq, Option.some.injEq] at apart
    simp [multilineBasic, Read.cons, isVisible, apart]
  | c :: rest, 2, _ =>
    rw [List.head?_cons, ne_eq, Option.some.injEq] at apart
    simp [multilineBasic, Read.cons, isVisible, apart, Function.comp_def]

theorem head?_shown (multiline : Bool) (other : c ≠ '"') (rest : List Char) :
    (shown multiline c ++ rest).head? ≠ some '"' := by
  obtain ⟨same, -⟩ | ⟨l, letter, -⟩ | ⟨a, b, x, y, code, -⟩ := shown_cases multiline c
  · simp [same, other]
  · simp [letter]
  · simp [code]

/-- The quotes before a part of the text go with it: up to two may stand there without escapes, and
the writer has counted them. -/
theorem multilineBasic_escaped {q : Nat} (few : q ≤ 2) (s rest : List Char)
    (apart : rest.head? ≠ some '"') :
    multilineBasic .text
        (List.replicate q '"' ++ (escaped true q s ++ '"' :: '"' :: '"' :: rest)) =
      some (List.replicate q '"' ++ s, rest) := by
  induction s generalizing q with
  | nil =>
    match q, few, rest with
    | 0, _, [] | 1, _, [] | 2, _, [] => rfl
    | 0, _, c :: rest | 1, _, c :: rest | 2, _, c :: rest =>
      rw [List.head?_cons, ne_eq, Option.some.injEq] at apart
      simp [escaped, multilineBasic, apart]
  | cons c s ih =>
    by_cases quote : c = '"'
    · subst quote
      by_cases room : q < 2
      -- A quote without an escape joins those before it; after two of them comes an escape.
      · have one : escaped true q ('"' :: s) = '"' :: escaped true (q + 1) s := if_pos room
        have next := ih room
        rw [one, List.cons_append]
        simpa only [List.replicate_succ', List.append_assoc, List.singleton_append] using next
      · have full : q = 2 := by omega
        have one : escaped true q ('"' :: s) = '\\' :: '"' :: escaped true 0 s := if_neg room
        have next := ih (Nat.zero_le 2)
        rw [List.replicate_zero, List.nil_append, List.nil_append] at next
        rw [one, List.cons_append, multilineBasic_quotes few (by simp)]
        change Option.map _ ((multilineBasic .text (escaped true 0 s ++ _)).cons '"') = _
        rw [next]
        rfl
    · rw [escaped_cons true q quote, List.append_assoc,
        multilineBasic_quotes few (head?_shown true quote _), multilineBasic_shown quote]
      have next := ih (Nat.zero_le 2)
      rw [List.replicate_zero, List.nil_append, List.nil_append] at next
      rw [next]
      rfl

/-! ## Literal strings over several lines -/

/-- The length of the run of a character at the end of a text so far, and that of the longest. -/
def runs (q : Char) (n : Nat × Nat) (c : Char) : Nat × Nat :=
  if c = q then (n.1 + 1, max n.2 (n.1 + 1)) else (0, n.2)

theorem longestRun_eq (q : Char) (s : List Char) : longestRun q s = (s.foldl (runs q) (0, 0)).2 :=
  rfl

theorem le_runs (q : Char) (s : List Char) (n : Nat × Nat) : n.2 ≤ (s.foldl (runs q) n).2 := by
  induction s generalizing n with
  | nil => exact Nat.le_refl _
  | cons c s ih =>
    refine Nat.le_trans ?_ (ih (runs q n c))
    rw [runs]
    split
    · exact Nat.le_max_left ..
    · exact Nat.le_refl _

theorem not_mem_of_longestRun {q : Char} (none : longestRun q s = 0) : q ∉ s := by
  rw [longestRun_eq] at none
  induction s with
  | nil => exact List.not_mem_nil
  | cons c s ih =>
    rw [List.foldl_cons, runs] at none
    split at none
    · have := le_runs q s (1, 1)
      simp at none
      omega
    · rw [List.mem_cons, not_or]
      exact ⟨Ne.symm ‹_›, ih none⟩

theorem multilineLiteral_ticks {q : Nat} (few : q ≤ 2) (apart : rest.head? ≠ some '\'') :
    multilineLiteral (List.replicate q '\'' ++ rest) =
      (multilineLiteral rest).map fun (s, r) => (List.replicate q '\'' ++ s, r) := by
  match rest, q, few with
  | rest, 0, _ => simp
  | [], 1, _ => rfl
  | [], 2, _ => rfl
  | c :: rest, 1, _ =>
    rw [List.head?_cons, ne_eq, Option.some.injEq] at apart
    simp [multilineLiteral, Read.cons, isVisible, apart]
  | c :: rest, 2, _ =>
    rw [List.head?_cons, ne_eq, Option.some.injEq] at apart
    simp [multilineLiteral, Read.cons, isVisible, apart, Function.comp_def]

theorem multilineLiteral_cons (visible : isVisible c ∨ c = '\n') (other : c ≠ '\'')
    (rest : List Char) : multilineLiteral (c :: rest) = (multilineLiteral rest).cons c := by
  by_cases newline : c = '\n'
  · rw [newline]
    rfl
  · have visible : isVisible c := visible.resolve_right newline
    have ret : c ≠ '\r' := by
      rintro rfl
      exact absurd visible (by decide)
    rw [multilineLiteral.eq_def]
    split <;> simp_all

/-- `n` counts the ticks that stand before this part of the text. -/
theorem multilineLiteral_append {n : Nat × Nat} (few : n.1 ≤ 2)
    (visible : ∀ c ∈ s, isVisible c ∨ c = '\n') (short : (s.foldl (runs '\'') n).2 ≤ 2)
    (rest : List Char) (apart : rest.head? ≠ some '\'') :
    multilineLiteral (List.replicate n.1 '\'' ++ (s ++ '\'' :: '\'' :: '\'' :: rest)) =
      some (List.replicate n.1 '\'' ++ s, rest) := by
  induction s generalizing n with
  | nil =>
    match n, few, rest with
    | (0, _), _, [] | (1, _), _, [] | (2, _), _, [] => rfl
    | (0, _), _, c :: rest | (1, _), _, c :: rest | (2, _), _, c :: rest =>
      rw [List.head?_cons, ne_eq, Option.some.injEq] at apart
      simp [multilineLiteral, apart]
  | cons c s ih =>
    rw [List.forall_mem_cons] at visible
    rw [List.foldl_cons, runs] at short
    by_cases tick : c = '\''
    · subst tick
      rw [if_pos rfl] at short
      have seen : n.1 + 1 ≤ 2 :=
        Nat.le_trans (Nat.le_max_right ..) (Nat.le_trans (le_runs _ s (_, _)) short)
      have next := ih seen visible.2 short
      simpa only [List.replicate_succ', List.append_assoc, List.cons_append, List.nil_append]
        using next
    · rw [if_neg tick] at short
      have next := ih (Nat.zero_le 2) visible.2 short
      rw [List.replicate_zero, List.nil_append, List.nil_append] at next
      rw [List.cons_append, multilineLiteral_ticks few (by simpa using tick),
        multilineLiteral_cons visible.1 tick, next]
      rfl

/-! ## A string in the spelling it gets -/

theorem read_basic (single : ∀ r, rest ≠ '"' :: '"' :: r) : read ('"' :: rest) = basic rest := by
  rw [read.eq_def]
  split <;> simp_all [readLine]

theorem read_literal (single : ∀ r, rest ≠ '\'' :: '\'' :: r) :
    read ('\'' :: rest) = literal rest := by
  rw [read.eq_def]
  split <;> simp_all [readLine]

/-- The opening of a text with several lines ends with a line break, and that of any other text is
not followed by one. -/
theorem dropBreak_opening (s : List Char)
    (first : '\n' ∉ s → rest.head? ≠ some '\n' ∧ rest.head? ≠ some '\r') :
    dropBreak ((if s.contains '\n' then ['\n'] else []) ++ rest) = rest := by
  by_cases several : '\n' ∈ s
  · rw [if_pos (List.contains_iff_mem.2 several)]
    rfl
  · obtain ⟨newline, ret⟩ := first several
    rw [if_neg (mt List.contains_iff_mem.1 several), List.nil_append, dropBreak.eq_def]
    split <;> simp_all

theorem escaped_single (s rest r : List Char) :
    escaped false 0 s ++ '"' :: '\n' :: rest ≠ '"' :: '"' :: r := by
  cases s with
  | nil => simp [escaped]
  | cons c s =>
    intro same
    have first := congrArg List.head? same
    by_cases quote : c = '"'
    · subst quote
      simp [escaped] at first
    · rw [escaped_cons false 0 quote, List.append_assoc] at first
      exact head?_shown false quote _ first

theorem head?_escaped_multiline (single : '\n' ∉ s) (rest : List Char) :
    (escaped true 0 s ++ '"' :: rest).head? ≠ some '\n' ∧
      (escaped true 0 s ++ '"' :: rest).head? ≠ some '\r' := by
  cases s with
  | nil => simp [escaped]
  | cons c s =>
    by_cases quote : c = '"'
    · subst quote
      simp [escaped]
    · rw [escaped_cons true 0 quote]
      obtain ⟨same, -, ret, -⟩ | ⟨l, letter, -⟩ | ⟨a, b, x, y, code, -⟩ := shown_cases true c
      · have other : '\n' ≠ c := fun newline => single (by rw [newline]; exact List.mem_cons_self)
        simp [same, ret, other.symm]
      · simp [letter]
      · simp [code]

/-- What a text must be to be written without escapes. -/
theorem of_spelling : match spelling s with
    | .basic | .multilineBasic => True
    | .literal => (∀ c ∈ s, isControl c = false) ∧ '\n' ∉ s ∧ '\'' ∉ s
    | .multilineLiteral => (∀ c ∈ s, isControl c = false) ∧ longestRun '\'' s ≤ 2 := by
  rw [spelling]
  split_ifs with basic literal multilineBasic multilineLiteral lines
  · trivial
  · simp at literal
    exact ⟨literal.1.1, literal.1.2, not_mem_of_longestRun literal.2⟩
  · trivial
  · simpa using multilineLiteral
  · trivial
  · trivial

/-- A string at the end of its line is read as it was written. -/
theorem read_write (s rest : List Char) :
    read (write s ++ '\n' :: rest) = some (s, '\n' :: rest) := by
  have shape := of_spelling (s := s)
  have visible (plain : ∀ c ∈ s, isControl c = false) (c : Char) (mem : c ∈ s) :
      isVisible c ∨ c = '\n' :=
    or_iff_not_imp_right.2 (isVisible_of_not_control (plain c mem))
  cases spelled : spelling s with
  | basic =>
    have text : write s ++ '\n' :: rest = '"' :: (escaped false 0 s ++ '"' :: '\n' :: rest) := by
      simp [write, spelled, Spelling.delimiter, Spelling.isMultiline]
    rw [text, read_basic (escaped_single s rest), basic_escaped]
  | literal =>
    rw [spelled] at shape
    obtain ⟨plain, single, ticks⟩ := shape
    have text : write s ++ '\n' :: rest = '\'' :: (s ++ '\'' :: '\n' :: rest) := by
      simp [write, spelled, Spelling.delimiter, Spelling.isMultiline]
    have first (r : List Char) : s ++ '\'' :: '\n' :: rest ≠ '\'' :: '\'' :: r := by
      cases s with
      | nil => simp
      | cons c s =>
        intro same
        exact ticks ((List.cons.inj same).1 ▸ List.mem_cons_self)
    have visible : ∀ c ∈ s, isVisible c := fun c mem =>
      (visible plain c mem).resolve_right fun newline => single (newline ▸ mem)
    rw [text, read_literal first, literal_append visible ticks]
  | multilineBasic =>
    have text : write s ++ '\n' :: rest = '"' :: '"' :: '"' ::
        ((if s.contains '\n' then ['\n'] else []) ++
          (escaped true 0 s ++ '"' :: '"' :: '"' :: '\n' :: rest)) := by
      simp [write, spelled, Spelling.delimiter, Spelling.isMultiline]
    have inside := multilineBasic_escaped (Nat.zero_le 2) s ('\n' :: rest) (by simp)
    rw [text, read, dropBreak_opening s fun single => head?_escaped_multiline single _]
    exact inside
  | multilineLiteral =>
    rw [spelled] at shape
    obtain ⟨plain, short⟩ := shape
    have text : write s ++ '\n' :: rest = '\'' :: '\'' :: '\'' ::
        ((if s.contains '\n' then ['\n'] else []) ++
          (s ++ '\'' :: '\'' :: '\'' :: '\n' :: rest)) := by
      simp [write, spelled, Spelling.delimiter, Spelling.isMultiline]
    have inside := multilineLiteral_append (n := (0, 0)) (Nat.zero_le 2) (visible plain)
      short ('\n' :: rest) (by simp)
    have first (single : '\n' ∉ s) :
        (s ++ '\'' :: '\'' :: '\'' :: '\n' :: rest).head? ≠ some '\n' ∧
          (s ++ '\'' :: '\'' :: '\'' :: '\n' :: rest).head? ≠ some '\r' := by
      cases s with
      | nil => simp
      | cons c s =>
        have newline : c ≠ '\n' := fun same => single (by simp [same])
        have ret : c ≠ '\r' := by
          rintro rfl
          exact absurd (plain '\r' List.mem_cons_self) (by decide)
        simp [newline, ret]
    rw [text, read, dropBreak_opening s first]
    exact inside

end Pursuit.Toml.Quotation
