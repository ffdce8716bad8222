import Pursuit.Toml.Number
import Pursuit.Proofs.Decimal.Layout
import Pursuit.Proofs.Decimal.Reader

/-! Numbers of a document, written and read again. A number ends with its line, and no number that
is written looks like a date or a time. -/
namespace Pursuit.Toml

open Pursuit.Binary Pursuit.Decimal

variable {ds r : List Char} {c : Char}

/-! ## Digits -/

theorem digits_append (all : ∀ d ∈ ds, isDigit d) (stop : isDigit c = false) (joint : c ≠ '_') :
    Number.digits isDigit (ds ++ c :: r) = (ds, c :: r) := by
  induction ds with
  | nil =>
    rw [List.nil_append, Number.digits.eq_def]
    simp only [stop]
    rfl
  | cons d ds ih =>
    obtain ⟨first, rest⟩ := List.forall_mem_cons.1 all
    -- The next character is a digit or the one after them, and neither is an underscore.
    have unjoined (e : Char) (s : List Char) : ds ++ c :: r ≠ '_' :: e :: s := by
      intro same
      cases ds with
      | nil => exact joint (List.cons.inj same).1
      | cons d' ds =>
        have digit := rest d' List.mem_cons_self
        rw [(List.cons.inj same).1] at digit
        exact absurd digit (by decide)
    rw [List.cons_append, Number.digits, if_pos first, ih rest]
    exact unjoined

theorem digits?_append (nonempty : ds ≠ []) (all : ∀ d ∈ ds, isDigit d) (stop : isDigit c = false)
    (joint : c ≠ '_') : Number.digits? isDigit (ds ++ c :: r) = some (ds, c :: r) := by
  rw [Number.digits?, digits_append all stop joint]
  simp [nonempty]

/-! ## No date, no time -/

namespace Moment

theorem fixed?_digits {n v : ℕ} {s rest : List Char} (read : fixed? n s = some (v, rest)) :
    ∃ front, s = front ++ rest ∧ front.length = n ∧ ∀ d ∈ front, isDigit d := by
  rw [fixed?] at read
  split at read
  next holds =>
    obtain ⟨-, rfl⟩ := Prod.mk.inj (Option.some.inj read)
    exact ⟨s.take n, (List.take_append_drop n s).symm, holds.1, List.all_eq_true.1 holds.2⟩
  next => cases read

/-- After some of the digits at the start comes another one or what follows them, but no mark. -/
theorem mark?_of_fixed {n v : ℕ} {rest : List Char} {mark : Char} (all : ∀ d ∈ ds, isDigit d)
    (stop : isDigit c = false) (plain : isDigit mark = false) (unmarked : ds = [] ∨ c ≠ mark)
    (read : fixed? (n + 1) (ds ++ c :: r) = some (v, rest)) : mark? mark rest = none := by
  obtain ⟨front, same, count, digits⟩ := fixed?_digits read
  obtain ⟨inner, rfl, outer⟩ | ⟨inner, rfl, outer⟩ := List.append_eq_append_iff.1 same
  · cases inner with
    | nil =>
      obtain rfl : rest = c :: r := outer.symm
      refine if_neg (unmarked.resolve_left ?_)
      rintro rfl
      cases count
    | cons d inner =>
      obtain ⟨rfl, -⟩ := List.cons.inj outer
      have digit := digits c (by simp)
      rw [stop] at digit
      cases digit
  · rw [outer]
    cases inner with
    | nil =>
      refine if_neg (unmarked.resolve_left ?_)
      rw [List.append_nil]
      rintro rfl
      cases count
    | cons d inner =>
      refine if_neg ?_
      rintro rfl
      have digit := all d (by simp)
      rw [plain] at digit
      cases digit

theorem scan_eq_none (all : ∀ d ∈ ds, isDigit d) (stop : isDigit c = false)
    (unmarked : ds = [] ∨ c ≠ '-' ∧ c ≠ ':') : scan (ds ++ c :: r) = none := by
  have date : date? (ds ++ c :: r) = none := by
    rw [date?]
    cases read : fixed? 4 (ds ++ c :: r) with
    | none => rfl
    | some year =>
      have marked := mark?_of_fixed all stop (rfl : isDigit '-' = false)
        (unmarked.imp_right And.left) read
      simp [marked]
  have time : time? (ds ++ c :: r) = none := by
    rw [time?, two?]
    cases read : fixed? 2 (ds ++ c :: r) with
    | none => rfl
    | some hour =>
      have marked := mark?_of_fixed all stop (rfl : isDigit ':' = false)
        (unmarked.imp_right And.right) read
      simp only [Option.bind_eq_bind, Option.bind_some]
      split
      · simp [marked]
      · rfl
  rw [scan, date]
  dsimp only
  rw [time]
  rfl

end Moment

/-! ## Whole numbers and floats -/

namespace Number

/-- What a number other than a plain decimal may start with. -/
def marks : List Char := ['+', '-', 'i', 'n']

theorem not_mem_marks {d : Char} (digit : isDigit d) : d ∉ marks := by
  intro mark
  have plain : marks.all (!isDigit ·) := rfl
  have same := List.all_eq_true.1 plain d mark
  rw [digit] at same
  cases same

theorem scan_unmarked {d : Char} (unmarked : d ∉ marks)
    (decimally : d = '0' → r.head? ≠ some 'x' ∧ r.head? ≠ some 'o' ∧ r.head? ≠ some 'b') :
    scan (d :: r) = decimal false (d :: r) := by
  have other {e : Char} (mark : e ∈ marks) : d ≠ e := fun same => unmarked (same ▸ mark)
  have unsigned : spanSign (d :: r) = (false, d :: r) := by
    rw [spanSign.eq_def]
    split
    next same => exact absurd (List.cons.inj same).1 (other (by decide))
    next same => exact absurd (List.cons.inj same).1 (other (by decide))
    next => rfl
  rw [scan.eq_def]
  split
  next same =>
    obtain ⟨rfl, rfl⟩ := List.cons.inj same
    exact absurd rfl (decimally rfl).1
  next same =>
    obtain ⟨rfl, rfl⟩ := List.cons.inj same
    exact absurd rfl (decimally rfl).2.1
  next same =>
    obtain ⟨rfl, rfl⟩ := List.cons.inj same
    exact absurd rfl (decimally rfl).2.2
  next =>
    rw [unsigned]
    split
    next same => exact absurd (List.cons.inj (Prod.mk.inj same).2).1 (other (by decide))
    next same => exact absurd (List.cons.inj (Prod.mk.inj same).2).1 (other (by decide))
    next same =>
      obtain ⟨rfl, rfl⟩ := Prod.mk.inj same
      rfl

theorem scan_negative {d : Char} (digit : isDigit d) :
    scan ('-' :: d :: r) = decimal true (d :: r) := by
  have other {e : Char} (plain : isDigit e = false) : d ≠ e := by
    rintro rfl
    rw [plain] at digit
    cases digit
  have signed : spanSign ('-' :: d :: r) = (true, d :: r) := rfl
  rw [scan.eq_def]
  split
  next same => cases same
  next same => cases same
  next same => cases same
  next =>
    rw [signed]
    split
    next same => exact absurd (List.cons.inj (Prod.mk.inj same).2).1 (other rfl)
    next same => exact absurd (List.cons.inj (Prod.mk.inj same).2).1 (other rfl)
    next same =>
      obtain ⟨rfl, rfl⟩ := Prod.mk.inj same
      rfl

theorem decimal_positional {whole places : List Char} (positional : Positional whole places)
    {negative : Bool} {x : Float}
    (value : nearest negative (natOfDigits (whole ++ places)) (0 - places.length) = x)
    (bounded : (x == infinity) = false) (r : List Char) :
    decimal negative (whole ++ '.' :: (places ++ '\n' :: r)) = some (.float x, '\n' :: r) := by
  have single : ¬ (whole.head? = some '0' ∧ whole.length ≠ 1) := fun ⟨zero, many⟩ =>
    many (positional.no_zero_first zero)
  rw [decimal, digits?_append positional.whole_ne_nil positional.whole_digits rfl (by decide)]
  simp only [Option.bind_eq_bind, Option.bind_some]
  rw [if_neg single, places?, digits?_append positional.places_ne_nil positional.places_digits rfl
    (by decide)]
  simp only [Option.bind_some]
  have plain : exponent? ('\n' :: r) = some (none, '\n' :: r) := rfl
  have fraction : ¬ (places.isEmpty ∧ (none : Option ℤ).isNone) := by
    simp [positional.places_ne_nil]
  rw [plain, Option.bind_some, if_neg fraction]
  simp only [Option.getD_none, value, bounded]
  rfl

end Number

theorem eq_cons_of_number {v : Value} {s rest : List Char}
    (read : (Moment.scan s).or (Number.scan s) = some (v, rest)) :
    ∃ c r, s = c :: r ∧ (isDigit c ∨ c ∈ Number.marks) := by
  cases s with
  | nil =>
    have nothing : (Moment.scan []).or (Number.scan []) = none := by
      change Number.decimal false [] = none
      rw [Number.decimal, Number.digits?, Number.digits.eq_def]
      rfl
    rw [nothing] at read
    cases read
  | cons c r =>
    refine ⟨c, r, rfl, or_iff_not_imp_left.2 fun stop => ?_⟩
    by_contra unmarked
    have stop : isDigit c = false := by simpa using stop
    have timeless : Moment.scan (c :: r) = none :=
      Moment.scan_eq_none (List.forall_mem_nil _) stop (.inl rfl)
    have digitless : Number.digits isDigit (c :: r) = ([], c :: r) := by
      rw [Number.digits.eq_def]
      simp only [stop]
      rfl
    have decimally : c ≠ '0' := by
      rintro rfl
      cases stop
    rw [timeless, Option.none_or, Number.scan_unmarked unmarked fun zero => absurd zero decimally,
      Number.decimal, Number.digits?, digitless] at read
    cases read

theorem scan_natural {n : ℕ} (small : n ≤ 0x7fffffffffffffff) (r : List Char) :
    (Moment.scan ((Nat.repr n).toList ++ '\n' :: r)).or
      (Number.scan ((Nat.repr n).toList ++ '\n' :: r)) = some (.integer n, '\n' :: r) := by
  have value := natOfDigits_repr n
  have digits := digits_repr n
  have single : (Nat.repr n).toList.head? = some '0' → (Nat.repr n).toList.length = 1 := by
    obtain rfl | positive := Nat.eq_zero_or_pos n
    · exact fun _ => rfl
    · exact fun zero => absurd zero (head?_repr positive)
  obtain ⟨d, ds, text⟩ := List.exists_cons_of_ne_nil (repr_ne_nil n)
  rw [text] at value digits single ⊢
  have timeless : Moment.scan (d :: ds ++ '\n' :: r) = none :=
    Moment.scan_eq_none digits rfl (.inr (by decide))
  have unsigned : Number.scan (d :: ds ++ '\n' :: r) =
      Number.decimal false (d :: ds ++ '\n' :: r) := by
    refine Number.scan_unmarked (Number.not_mem_marks (digits d List.mem_cons_self)) fun zero => ?_
    obtain rfl : ds = [] := List.length_eq_zero_iff.1 (Nat.succ.inj (single (by rw [zero]; rfl)))
    exact ⟨by simp, by simp, by simp⟩
  have ordinary : ¬ ((d :: ds).head? = some '0' ∧ (d :: ds).length ≠ 1) := fun ⟨zero, many⟩ =>
    many (single zero)
  have whole : Number.places? ('\n' :: r) = some ([], '\n' :: r) := rfl
  have plain : Number.exponent? ('\n' :: r) = some (none, '\n' :: r) := rfl
  have fits : Number.integer? n = some (.integer n) := if_pos ⟨by omega, by exact_mod_cast small⟩
  rw [timeless, Option.none_or, unsigned, Number.decimal,
    digits?_append (List.cons_ne_nil d ds) digits rfl (by decide)]
  simp only [Option.bind_eq_bind, Option.bind_some]
  rw [if_neg ordinary, whole]
  simp only [Option.bind_some]
  rw [plain, Option.bind_some, if_pos ⟨rfl, rfl⟩]
  simp only [value, Bool.false_eq_true, if_false, fits]
  rfl

/-! ## Every wide float -/

theorem beq_infinity_of_finite {x : Float} (finite : x.toModel.unpack.isFinite) :
    (x == infinity) = false := by
  change (x.toModel.unpack.compare (.infinity .positive) == some .eq) = false
  cases unpacked : x.toModel.unpack with
  | notANumber | infinity =>
    rw [unpacked] at finite
    cases finite
  | zero s | finite s => cases s <;> rfl

theorem scan_positional {s : Float.Model.UnpackedFloat.Sign} {whole places : List Char}
    (positional : Positional whole places) {x : Float}
    (value : nearest (s == .negative) (natOfDigits (whole ++ places)) (0 - places.length) = x)
    (bounded : (x == infinity) = false) (r : List Char) :
    (Moment.scan (Layout.text.minus s ++ (whole ++ '.' :: (places ++ '\n' :: r)))).or
      (Number.scan (Layout.text.minus s ++ (whole ++ '.' :: (places ++ '\n' :: r)))) =
        some (.float x, '\n' :: r) := by
  have read := Number.decimal_positional positional value bounded r
  obtain ⟨d, w, rfl⟩ := List.exists_cons_of_ne_nil positional.whole_ne_nil
  have digit : isDigit d := positional.whole_digits d List.mem_cons_self
  cases s with
  | positive =>
    have timeless : Moment.scan (d :: w ++ '.' :: (places ++ '\n' :: r)) = none :=
      Moment.scan_eq_none positional.whole_digits rfl (.inr (by decide))
    rw [Layout.text.minus, List.nil_append, timeless, Option.none_or, ← read]
    refine Number.scan_unmarked (Number.not_mem_marks digit) fun zero => ?_
    -- A zero in front is the whole part, and the point follows.
    have single : (d :: w).length = 1 := positional.no_zero_first (by rw [zero]; rfl)
    obtain rfl : w = [] := List.length_eq_zero_iff.1 (Nat.succ.inj single)
    exact ⟨by simp, by simp, by simp⟩
  | negative =>
    have timeless : Moment.scan ([] ++ '-' :: (d :: w ++ '.' :: (places ++ '\n' :: r))) = none :=
      Moment.scan_eq_none (List.forall_mem_nil _) rfl (.inl rfl)
    rw [List.nil_append] at timeless
    rw [Layout.text.minus, List.singleton_append, timeless, Option.none_or, ← read]
    exact Number.scan_negative digit

theorem positional_wide {x : Float} (finite : x.toModel.unpack.isFinite) : ∃ s whole places,
    (Layout.toml.wide x).toList = Layout.text.minus s ++ (whole ++ '.' :: places) ∧
      Positional whole places ∧
      nearest (s == .negative) (natOfDigits (whole ++ places)) (0 - places.length) = x := by
  cases unpacked : x.toModel.unpack with
  | notANumber | infinity =>
    rw [unpacked] at finite
    cases finite
  | zero s =>
    refine ⟨s, ['0'], ['0'], ?_, ⟨by simp, by simp, by simp [isDigit_zero], by simp [isDigit_zero],
      fun _ => rfl⟩, ?_⟩
    · rw [Layout.wide, unpacked, Layout.text, String.toList_ofList]
      rfl
    · refine wide_eq_of_unpack_eq ?_
      rw [unpacked]
      cases s <;> rfl
  | finite s m e positive =>
    obtain ⟨canonical, room⟩ := canonical_of_unpack (F := .binary64) (by decide) unpacked
    have least : (-1074 : ℤ) ≤ e := canonical.least
    have most : e ≤ 971 := room
    have bits : m.log2 < 53 := (Nat.log2_lt positive.ne').2 canonical.small
    have has := shortest_has canonical positive (by decide) (by omega) (by omega) .up
    obtain ⟨nonzero, -⟩ := bounds_of_has canonical positive (canonical.lt_limit room) has
    obtain ⟨whole, places, laid, positional, same⟩ := magnitude_toml nonzero
    refine ⟨s, whole, places, ?_, positional, nearest_of_has unpacked ?_⟩
    · rw [Layout.wide, unpacked, Layout.text, String.toList_ofList]
      exact congrArg _ laid
    · rw [← same] at has
      exact has

/-- What is written for a wide float is read as that float. -/
theorem scan_wide (x : Float) (r : List Char) :
    (Moment.scan ((Layout.toml.wide x).toList ++ '\n' :: r)).or
      (Number.scan ((Layout.toml.wide x).toList ++ '\n' :: r)) = some (.float x, '\n' :: r) := by
  cases unpacked : x.toModel.unpack with
  | notANumber =>
    have text : Layout.toml.wide x = "nan" := by rw [Layout.wide, unpacked]; rfl
    have same : notANumber = x := wide_eq_of_unpack_eq (unpacked ▸ rfl)
    rw [text]
    exact congrArg (fun x => some (Value.float x, '\n' :: r)) same
  | infinity s =>
    cases s with
    | positive =>
      have text : Layout.toml.wide x = "inf" := by rw [Layout.wide, unpacked]; rfl
      have same : infinity = x := wide_eq_of_unpack_eq (unpacked ▸ rfl)
      rw [text]
      exact congrArg (fun x => some (Value.float x, '\n' :: r)) same
    | negative =>
      have text : Layout.toml.wide x = "-inf" := by rw [Layout.wide, unpacked]; rfl
      have same : -infinity = x := wide_eq_of_unpack_eq (unpacked ▸ rfl)
      rw [text]
      exact congrArg (fun x => some (Value.float x, '\n' :: r)) same
  | zero | finite =>
    have finite : x.toModel.unpack.isFinite := by rw [unpacked]; rfl
    obtain ⟨s, whole, places, text, positional, value⟩ := positional_wide finite
    have bounded := beq_infinity_of_finite finite
    rw [text, List.append_assoc, List.append_assoc]
    exact scan_positional positional value bounded r

end Pursuit.Toml
