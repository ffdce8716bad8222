import Mathlib.Data.List.TakeWhile
import Pursuit.Files.Path

/-! The path that another path lies in. Of the names of a path only those are steps that are neither
empty nor a dot, and the path that it lies in has the same steps but the last. -/
namespace Pursuit.Text

theorem split_ne_nil (c : Char) (s : List Char) : split c s ≠ [] := by
  cases s with
  | nil => exact List.cons_ne_nil _ _
  | cons d s =>
    rw [split]
    split_ifs
    · exact List.cons_ne_nil _ _
    · cases split c s <;> exact List.cons_ne_nil _ _

theorem split_append (c : Char) (s t : List Char) :
    split c (s ++ c :: t) = split c s ++ split c t := by
  induction s with
  | nil => simp [split]
  | cons d s ih =>
    rw [List.cons_append, split, split, ih]
    split_ifs
    · rfl
    · cases first : split c s with
      | nil => exact absurd first (split_ne_nil c s)
      | cons w ws => rfl

theorem split_of_not_mem {c : Char} {s : List Char} (none : c ∉ s) : split c s = [s] := by
  induction s with
  | nil => rfl
  | cons d s ih =>
    rw [List.mem_cons, not_or] at none
    rw [split, if_neg (Ne.symm none.1), ih none.2]

end Pursuit.Text

namespace Pursuit.Files

variable {s : List Char} {front : List String} {name : String}

/-- A name that leads on, not merely what stands between two slashes, nor a dot. -/
def IsStep (name : String) : Prop := name ≠ "" ∧ name ≠ "."

instance (name : String) : Decidable (IsStep name) := inferInstanceAs (Decidable (_ ∧ _))

def steps (names : List String) : List String := names.filter (IsStep ·)

theorem steps_append (names names' : List String) :
    steps (names ++ names') = steps names ++ steps names' :=
  List.filter_append ..

theorem steps_cons (step : IsStep name) (names : List String) :
    steps (name :: names) = name :: steps names :=
  List.filter_cons_of_pos (by simpa using step)

theorem steps_cons_of_not (blank : ¬ IsStep name) (names : List String) :
    steps (name :: names) = steps names :=
  List.filter_cons_of_neg (by simpa using blank)

theorem steps_singleton (step : IsStep name) : steps [name] = [name] := steps_cons step []

namespace Path

def steps (p : Path) : List String := Files.steps p.names

/-! ## Names of a text -/

def namesOf (s : List Char) : List String := (Text.split '/' s).map .ofList

theorem names_eq (p : Path) : p.names = namesOf p.text.toList := rfl

theorem namesOf_append (s t : List Char) : namesOf (s ++ '/' :: t) = namesOf s ++ namesOf t := by
  rw [namesOf, Text.split_append, List.map_append]
  rfl

theorem namesOf_of_not_mem (whole : '/' ∉ s) : namesOf s = [.ofList s] := by
  rw [namesOf, Text.split_of_not_mem whole]
  rfl

theorem steps_slash (s : List Char) :
    Files.steps (namesOf (s ++ ['/'])) = Files.steps (namesOf s) := by
  rw [namesOf_append, steps_append]
  exact List.append_nil _

theorem steps_slash_dot (s : List Char) :
    Files.steps (namesOf (s ++ ['/', '.'])) = Files.steps (namesOf s) := by
  rw [namesOf_append, steps_append]
  exact List.append_nil _

/-! ## The end of a text, backwards -/

theorem steps_trim (s : List Char) :
    Files.steps (namesOf (trim s).reverse) = Files.steps (namesOf s.reverse) := by
  fun_induction trim s with
  | case1 => rfl
  | case2 s _ ih => rw [ih, List.reverse_cons, steps_slash]
  | case3 s ih =>
    rw [ih, List.reverse_cons, List.reverse_cons, List.reverse_cons, List.append_assoc]
    exact (steps_slash _).trans (steps_slash_dot _).symm
  | case4 => rfl

theorem trim_suffix (s : List Char) : trim s <:+ s := by
  fun_induction trim s with
  | case1 => exact List.suffix_rfl
  | case2 s _ ih => exact ih.trans (List.suffix_cons _ _)
  | case3 s ih => exact ih.trans (List.suffix_cons _ _)
  | case4 => exact List.suffix_rfl

theorem getLast?_trim (s : List Char) : (trim s).getLast? = s.getLast? := by
  fun_induction trim s with
  | case1 => rfl
  | case2 s more ih =>
    rw [ih]
    cases s with
    | nil => exact (more rfl).elim
    | cons c s => rfl
  | case3 s ih => exact ih
  | case4 => rfl

theorem trim_trim (s : List Char) : trim (trim s) = trim s := by
  fun_induction trim s with
  | case1 => rw [trim]
  | case2 s _ ih => exact ih
  | case3 s ih => exact ih
  | case4 s root slash dot => rw [trim] <;> assumption

def isInside (c : Char) : Bool := c ≠ '/'

/-- A text, given backwards, that ends with a name. A dot is one only if nothing stands before
it. -/
structure IsNamed (s : List Char) : Prop where
  named : s.takeWhile isInside ≠ []
  undotted : s.takeWhile isInside = ['.'] → s.dropWhile isInside = []

theorem dropWhile_cases (s : List Char) :
    s.dropWhile isInside = [] ∨ ∃ r, s.dropWhile isInside = '/' :: r := by
  cases left : s.dropWhile isInside with
  | nil => exact .inl rfl
  | cons c r =>
    have stop := List.head?_dropWhile_not isInside s
    rw [left] at stop
    obtain rfl : c = '/' := by simpa [isInside] using stop
    exact .inr ⟨r, rfl⟩

theorem trim_cases (s : List Char) : trim s = [] ∨ trim s = ['/'] ∨ IsNamed (trim s) := by
  fun_induction trim s with
  | case1 => exact .inr (.inl rfl)
  | case2 s _ ih => exact ih
  | case3 s ih => exact ih
  | case4 s root slash dot =>
    by_cases empty : s = []
    · exact .inl empty
    refine .inr (.inr ⟨fun nameless => ?_, fun dotted => ?_⟩)
    · obtain ⟨c, r, rfl⟩ := List.exists_cons_of_ne_nil empty
      have other : c ≠ '/' := by
        rintro rfl
        exact slash r rfl
      have first : isInside c := by simpa [isInside] using other
      rw [List.takeWhile_cons_of_pos first] at nameless
      cases nameless
    · obtain none | ⟨r, left⟩ := dropWhile_cases s
      · exact none
      · refine (dot r ?_).elim
        rw [← List.takeWhile_append_dropWhile (p := isInside) (l := s), dotted, left]
        rfl

/-- Only a slash before it can have been dropped next to what is left. -/
theorem trim_split (s : List Char) :
    trim s = ['/'] ∨ s = trim s ∨ ∃ t, s = t ++ '/' :: trim s := by
  fun_induction trim s with
  | case1 => exact .inl rfl
  | case2 s _ ih =>
    obtain root | whole | ⟨t, rest⟩ := ih
    · exact .inl root
    · exact .inr (.inr ⟨[], congrArg _ whole⟩)
    · exact .inr (.inr ⟨'/' :: t, congrArg _ rest⟩)
  | case3 s ih =>
    obtain root | whole | ⟨t, rest⟩ := ih
    · exact .inl root
    · -- What is left begins with a slash only if it is one.
      obtain empty | root | ends := trim_cases ('/' :: s)
      · rw [empty] at whole
        cases whole
      · exact .inl root
      · rw [← whole] at ends
        exact absurd rfl ends.named
    · exact .inr (.inr ⟨'.' :: t, congrArg _ rest⟩)
  | case4 => exact .inr (.inl rfl)

theorem IsNamed.trim_eq (ends : IsNamed s) : trim s = s := by
  have inside := ends.named
  rw [trim]
  · rintro rfl
    exact inside rfl
  · rintro r rfl
    exact inside rfl
  · rintro r rfl
    cases ends.undotted rfl

def frontOf (s : List Char) : List String :=
  match s.dropWhile isInside with
  | [] => []
  | _ :: r => namesOf r.reverse

def lastOf (s : List Char) : String := .ofList (s.takeWhile isInside).reverse

theorem namesOf_reverse (s : List Char) : namesOf s.reverse = frontOf s ++ [lastOf s] := by
  have whole : '/' ∉ (s.takeWhile isInside).reverse := fun mem => by
    simpa [isInside] using List.mem_takeWhile_imp (List.mem_reverse.1 mem)
  have backwards : s.reverse =
      (s.dropWhile isInside).reverse ++ (s.takeWhile isInside).reverse := by
    rw [← List.reverse_append, List.takeWhile_append_dropWhile]
  rw [frontOf, lastOf, backwards]
  obtain left | ⟨r, left⟩ := dropWhile_cases s
  · rw [left, List.reverse_nil, List.nil_append, namesOf_of_not_mem whole]
    rfl
  · rw [left, List.reverse_cons, List.append_assoc, List.singleton_append, namesOf_append,
      namesOf_of_not_mem whole]

theorem steps_frontOf (s : List Char) :
    Files.steps (namesOf (trim (s.dropWhile isInside)).reverse) = Files.steps (frontOf s) := by
  rw [steps_trim, frontOf]
  obtain left | ⟨r, left⟩ := dropWhile_cases s
  · rw [left]
    rfl
  · rw [left, List.reverse_cons, steps_slash]

/-- Without what means nothing at its end, the front has the same names but for the last of them, or
none at all. -/
theorem names_frontOf (s : List Char) :
    namesOf (trim (s.dropWhile isInside)).reverse <+: frontOf s ∨
      ∀ name ∈ namesOf (trim (s.dropWhile isInside)).reverse, name = "" := by
  rw [frontOf]
  obtain left | ⟨r, left⟩ := dropWhile_cases s
  · rw [left]
    refine .inr ?_
    have nothing : trim [] = [] := by cbv
    rw [nothing]
    decide
  rw [left]
  dsimp only
  have blank (root : trim ('/' :: r) = ['/']) :
      ∀ name ∈ namesOf (trim ('/' :: r)).reverse, name = "" := by
    rw [root]
    decide
  obtain root | whole | ⟨t, rest⟩ := trim_split ('/' :: r)
  · exact .inr (blank root)
  · obtain empty | root | ends := trim_cases ('/' :: r)
    · rw [empty] at whole
      cases whole
    · exact .inr (blank root)
    · rw [← whole] at ends
      exact absurd rfl ends.named
  · refine .inl ?_
    cases t with
    | nil => exact (List.cons.inj rest).2 ▸ List.prefix_rfl
    | cons c t =>
      rw [List.cons_append] at rest
      have back := congrArg List.reverse (List.cons.inj rest).2
      rw [List.reverse_append, List.reverse_cons, List.append_assoc, List.singleton_append] at back
      rw [back, namesOf_append]
      exact List.prefix_append _ _

theorem frontOf_eq_nil : frontOf s = [] ↔ s.dropWhile isInside = [] := by
  rw [frontOf]
  obtain left | ⟨r, left⟩ := dropWhile_cases s
  · rw [left]
    exact iff_of_true rfl rfl
  · rw [left]
    refine iff_of_false (fun none => ?_) (List.cons_ne_nil _ _)
    exact Text.split_ne_nil _ _ (List.map_eq_nil_iff.1 none)

theorem lastOf_ne_empty : lastOf s ≠ "" ↔ s.takeWhile isInside ≠ [] := by
  rw [lastOf, Ne, ← String.ofList_nil, String.ofList_inj, List.reverse_eq_nil_iff]

theorem lastOf_eq_dot : lastOf s = "." ↔ s.takeWhile isInside = ['.'] := by
  have dot : "." = String.ofList ['.'].reverse := rfl
  rw [lastOf, dot, String.ofList_inj, List.reverse_inj]

/-! ## The path that a path lies in -/

variable {p q : Path}

def core (p : Path) : List Char := trim p.text.toList.reverse

theorem steps_core (p : Path) : Files.steps (namesOf p.core.reverse) = p.steps := by
  rw [core, steps_trim, List.reverse_reverse]
  rfl

theorem parent?_of_isNamed (ends : IsNamed p.core) :
    p.parent? = some ⟨.ofList (trim (p.core.dropWhile isInside)).reverse⟩ := by
  rw [core] at ends
  rw [parent?, core]
  split
  next empty => exact absurd (by rw [empty]; rfl) ends.named
  next root => exact absurd (by rw [root]; rfl) ends.named
  next => rfl

theorem parent?_eq_some (up : p.parent? = some q) :
    IsNamed p.core ∧ q.text.toList = (trim (p.core.dropWhile isInside)).reverse := by
  obtain empty | root | ends := trim_cases p.text.toList.reverse
  · rw [parent?, empty] at up
    cases up
  · rw [parent?, root] at up
    cases up
  · rw [parent?_of_isNamed ends] at up
    cases up
    exact ⟨ends, String.toList_ofList⟩

theorem steps_of_parent? (up : p.parent? = some q) : q.steps = Files.steps (frontOf p.core) := by
  obtain ⟨-, text⟩ := parent?_eq_some up
  rw [steps, names_eq, text, steps_frontOf]

theorem names_of_parent? (up : p.parent? = some q) :
    q.names <+: frontOf p.core ∨ ∀ name ∈ q.names, name = "" := by
  obtain ⟨-, text⟩ := parent?_eq_some up
  rw [names_eq, text]
  exact names_frontOf p.core

theorem text_of_parent? (up : p.parent? = some q) : q.text = "" ↔ frontOf p.core = [] := by
  obtain ⟨-, text⟩ := parent?_eq_some up
  rw [← String.toList_eq_nil_iff, text, List.reverse_eq_nil_iff, frontOf_eq_nil,
    ← List.getLast?_eq_none_iff, getLast?_trim, List.getLast?_eq_none_iff]

/-- A path has the steps of the path that it lies in and one more. Only a dot that stands alone has
none; it lies where the empty path does. -/
theorem steps_parent? (up : p.parent? = some q) :
    (∃ name, IsStep name ∧ p.steps = q.steps ++ [name]) ∨ p.steps = [] ∧ q.text = "" := by
  obtain ⟨ends, -⟩ := parent?_eq_some up
  rw [text_of_parent? up, steps_of_parent? up, ← steps_core, namesOf_reverse, steps_append]
  by_cases dot : lastOf p.core = "."
  · have alone := frontOf_eq_nil.2 (ends.undotted (lastOf_eq_dot.1 dot))
    exact .inr ⟨by rw [dot, alone]; rfl, alone⟩
  · have step : IsStep (lastOf p.core) := ⟨lastOf_ne_empty.2 ends.named, dot⟩
    exact .inl ⟨_, step, by rw [steps_singleton step]⟩

theorem isAbsolute_parent? (up : p.parent? = some q) : q.isAbsolute = p.isAbsolute := by
  obtain ⟨-, text⟩ := parent?_eq_some up
  have own : p.text.toList.head? = p.core.getLast? := by
    rw [core, getLast?_trim, List.getLast?_reverse]
  rw [isAbsolute, isAbsolute, text, own, List.head?_reverse, getLast?_trim]
  have whole : p.core = p.core.takeWhile isInside ++ p.core.dropWhile isInside :=
    List.takeWhile_append_dropWhile.symm
  obtain left | ⟨r, left⟩ := dropWhile_cases p.core
  · rw [left, List.append_nil] at whole
    have last : p.core.getLast? ≠ some '/' := by
      intro slash
      rw [whole] at slash
      simpa [isInside] using List.mem_takeWhile_imp (List.mem_of_getLast? slash)
    simp [left, last]
  · have last : p.core.getLast? = (p.core.dropWhile isInside).getLast? := by
      have ending := congrArg List.getLast? whole
      rw [List.getLast?_append, left, List.getLast?_cons, Option.some_or,
        ← List.getLast?_cons] at ending
      rw [ending, left]
    rw [last]

theorem prefix_parent? (up : p.parent? = some q) :
    q.text.toList <+: p.text.toList ∧ q.text.toList.length < p.text.toList.length := by
  obtain ⟨ends, text⟩ := parent?_eq_some up
  have outer : trim (p.core.dropWhile isInside) <:+ p.core.dropWhile isInside := trim_suffix _
  have inner : p.core.dropWhile isInside <:+ p.core := List.dropWhile_suffix _
  have whole : p.core <:+ p.text.toList.reverse := trim_suffix _
  constructor
  · rw [text, ← List.reverse_suffix, List.reverse_reverse]
    exact outer.trans (inner.trans whole)
  · have named := List.length_pos_iff.2 ends.named
    have split := congrArg List.length
      (List.takeWhile_append_dropWhile (p := isInside) (l := p.core))
    have shorter := outer.length_le
    have longer := whole.length_le
    rw [List.length_append] at split
    rw [List.length_reverse] at longer
    rw [text, List.length_reverse]
    omega

def IsTidy (p : Path) : Prop := p.core = p.text.toList.reverse

theorem isTidy_parent? (up : p.parent? = some q) : q.IsTidy := by
  obtain ⟨-, text⟩ := parent?_eq_some up
  rw [IsTidy, core, text, List.reverse_reverse, trim_trim]

theorem names_of_top (tidy : p.IsTidy) (top : p.parent? = none) : ∀ name ∈ p.names, name = "" := by
  rw [names_eq, ← List.reverse_reverse p.text.toList, ← tidy]
  obtain empty | root | ends := trim_cases p.text.toList.reverse
  · rw [core, empty]
    decide
  · rw [core, root]
    decide
  · rw [parent?_of_isNamed ends] at top
    cases top

theorem steps_of_top (top : p.parent? = none) : p.steps = [] := by
  rw [← steps_core]
  obtain empty | root | ends := trim_cases p.text.toList.reverse
  · rw [core, empty]
    rfl
  · rw [core, root]
    rfl
  · rw [parent?_of_isNamed ends] at top
    cases top

theorem names_of_isTidy (tidy : p.IsTidy) (up : p.parent? = some q) :
    ∃ front name, name ≠ "" ∧ p.names = front ++ [name] ∧ q.steps = Files.steps front ∧
      (q.names <+: front ∨ ∀ name ∈ q.names, name = "") := by
  obtain ⟨ends, -⟩ := parent?_eq_some up
  refine ⟨frontOf p.core, lastOf p.core, lastOf_ne_empty.2 ends.named, ?_, steps_of_parent? up,
    names_of_parent? up⟩
  rw [← namesOf_reverse, names_eq, tidy, List.reverse_reverse]

/-- A path that ends with a step lies where the names before it lead, in the empty path if there are
none. -/
theorem parent?_of_names (path : p.names = front ++ [name]) (step : IsStep name) :
    ∃ q, p.parent? = some q ∧ q.steps = Files.steps front ∧ (q.text = "" ↔ front = []) := by
  rw [names_eq, ← List.reverse_reverse p.text.toList, namesOf_reverse] at path
  obtain ⟨rfl, same⟩ := List.append_inj' path rfl
  obtain rfl : _ = name := by simpa using same
  have ends : IsNamed p.text.toList.reverse := by
    refine ⟨lastOf_ne_empty.1 step.1, fun dot => ?_⟩
    exact absurd (lastOf_eq_dot.2 dot) step.2
  have core : p.core = p.text.toList.reverse := ends.trim_eq
  have up := parent?_of_isNamed (core ▸ ends)
  exact ⟨_, up, by rw [steps_of_parent? up, core], by rw [text_of_parent? up, core]⟩

end Path

end Pursuit.Files
