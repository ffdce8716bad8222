import Mathlib.Data.List.DropRight
import Mathlib.Data.List.Find
import Pursuit.Files.Disk

/-! What is written to a file is read from it. A write changes one location, and every directory
stays one, so a path that could be followed before still leads to the same place. -/
namespace Pursuit.Files.Disk

variable {d : Disk} {l m : Location} {i : Item}

theorem item?_put (d : Disk) (l m : Location) (i : Item) :
    (d.put l i).item? m = if l = m then some i else d.item? m := by
  rw [item?, item?, put]
  by_cases same : l = m
  · rw [if_pos same, List.find?_cons_of_pos (by simpa using same)]
  · have others : (d.items.filter (·.1 != l)).find? (·.1 == m) = d.items.find? (·.1 == m) := by
      rw [List.find?_filter]
      refine List.find?_congr fun e _ => ?_
      by_cases here : e.1 = m
      · simp [here, Ne.symm same]
      · simp [here]
    rw [if_neg same, List.find?_cons_of_neg (by simpa using same), others]

section PutFile

variable (file : d.isDirectoryAt l = false) (access : Access) (content : ByteArray)

include file

theorem isDirectoryAt_put (m : Location) :
    (d.put l (.file access content)).isDirectoryAt m = d.isDirectoryAt m := by
  rw [isDirectoryAt, item?_put]
  split_ifs with same
  · rw [← same, file]
  · rfl

theorem allows_put (dir : d.isDirectoryAt m) (u : Use) :
    (d.put l (.file access content)).allows m u = d.allows m u := by
  have other : l ≠ m := by
    rintro rfl
    rw [file] at dir
    cases dir
  rw [allows, item?_put, if_neg other, allows]

/-- A file does not bar the way to anything that could be reached before. -/
theorem follow_put {start : Location} {names : List String} (led : d.follow start names = .ok m) :
    (d.put l (.file access content)).follow start names = .ok m := by
  induction names generalizing start with
  | nil => exact led
  | cons name names ih =>
    rw [follow] at led ⊢
    rw [isDirectoryAt_put file]
    by_cases dir : d.isDirectoryAt start
    · rw [if_pos dir] at led ⊢
      rw [allows_put file _ _ dir, item?_put]
      split_ifs at led ⊢
      all_goals first | exact ih led | contradiction
    · rw [if_neg dir] at led
      cases led

end PutFile

theorem follow_append (d : Disk) (start : Location) (names names' : List String) :
    d.follow start (names ++ names') = (d.follow start names).bind (d.follow · names') := by
  induction names generalizing start with
  | nil => rfl
  | cons name names ih =>
    rw [List.cons_append, follow, follow]
    split_ifs
    · exact ih start
    · exact ih start
    · exact ih start.dropLast
    · rfl
    · exact ih (start ++ [name])
    · rfl
    · rfl
    · rfl

/-- A path whose last name, which says more than a dot or two, belongs into a directory. -/
structure Leads (d : Disk) (p : Path) (l : Location) (name : String) : Prop where
  usable : usable p = .ok ()
  directory : d.isDirectoryAt l
  search : d.allows l .search
  named : ¬ (name = "" ∨ name = ".") ∧ name ≠ ".."
  front : ∃ names, p.names = names ++ [name] ∧ d.follow (d.start p) names = .ok l

section Core

variable {names : List String}

theorem last_of_core {last : String} (ends : (names.rdropWhile (· = "")).getLast? = some last) :
    last ≠ "" ∧ (names.rdropWhile (· = "")).dropLast ++ [last] ++ names.rtakeWhile (· = "") =
      names := by
  refine ⟨?_, by rw [List.dropLast_append_getLast? last ends, List.rdropWhile_append_rtakeWhile]⟩
  obtain ⟨nonempty, same⟩ := List.mem_getLast?_eq_getLast ends
  have real := List.rdropWhile_last_not _ _ nonempty
  simpa [← same] using real

theorem no_blanks_of_core (long : names.length ≤ (names.rdropWhile (· = "")).length) :
    names.rtakeWhile (· = "") = [] := by
  have whole := (List.rdropWhile_prefix (p := (· = "")) (l := names)).eq_of_length_le long
  have parts := List.rdropWhile_append_rtakeWhile (p := (· = "")) (l := names)
  rw [whole] at parts
  exact List.append_right_eq_self.1 parts

end Core

/-- A target is the last name of a path, from a directory, before as many slashes as there are. -/
theorem target_eq_some {p : Path} {name : String} {slash : Bool}
    (found : d.target p = .ok (some (l, name, slash))) :
    (usable p = .ok () ∧ d.isDirectoryAt l ∧ d.allows l .search ∧
      ¬ (name = "" ∨ name = ".") ∧ name ≠ "..") ∧ ∃ names blanks,
        p.names = names ++ [name] ++ blanks ∧ (∀ b ∈ blanks, b = "") ∧
          (slash = false → blanks = []) ∧ d.follow (d.start p) names = .ok l := by
  rw [target] at found
  cases use : usable p with
  | error e =>
    rw [use] at found
    cases found
  | ok =>
    rw [use] at found
    simp only [bind, Except.bind] at found
    have core : (p.names.reverse.dropWhile (· = "")).reverse = p.names.rdropWhile (· = "") := rfl
    rw [core] at found
    split at found
    next => cases found
    next last ends =>
      split at found
      next => cases found
      next place led =>
        split_ifs at found with dir search special
        · cases found
        · obtain ⟨rfl, rfl, rfl⟩ : place = l ∧ last = name ∧
              decide ((p.names.rdropWhile (· = "")).length < p.names.length) = slash := by
            simpa only [pure, Except.pure, Except.ok.injEq, Option.some.injEq, Prod.mk.injEq]
              using found
          obtain ⟨named, whole⟩ := last_of_core ends
          obtain ⟨undotted, down⟩ := not_or.1 special
          refine ⟨⟨rfl, dir, search, not_or.2 ⟨named, undotted⟩, down⟩, _,
            p.names.rtakeWhile (· = ""), whole.symm, ?_, fun short => ?_, led⟩
          · exact fun b mem => by simpa using List.mem_rtakeWhile_imp mem
          · exact no_blanks_of_core (Nat.not_lt.1 (of_decide_eq_false short))

theorem leads_of_target {p : Path} {name : String}
    (found : d.target p = .ok (some (l, name, false))) : d.Leads p l name := by
  obtain ⟨⟨use, dir, search, named⟩, names, blanks, path, -, short, led⟩ := target_eq_some found
  rw [short rfl, List.append_nil] at path
  exact ⟨use, dir, search, named, names, path, led⟩

/-- The access to a file, or to one that is made where none is. -/
def fileAccessAt (d : Disk) (l : Location) : Access :=
  match d.item? l with
  | some (.file access _) => access
  | _ => { mode := fileMode }

theorem of_write {d' : Disk} {p : Path} {content : ByteArray}
    (written : d.write p content = .ok d') :
    ∃ l name, d.Leads p l name ∧ tooLong name = false ∧ d.isDirectoryAt (l ++ [name]) = false ∧
      d' = d.put (l ++ [name]) (.file (d.fileAccessAt (l ++ [name])) content) := by
  rw [write] at written
  cases found : d.target p with
  | error e =>
    rw [found] at written
    cases written
  | ok place =>
    rw [found] at written
    simp only [bind, Except.bind] at written
    match place with
    | none => cases written
    | some (l, name, true) => cases written
    | some (l, name, false) =>
      have leads := leads_of_target found
      dsimp only at written
      rw [if_neg Bool.false_ne_true] at written
      split at written
      next => cases written
      next long =>
        refine ⟨l, name, leads, by simpa using long, ?_⟩
        rw [isDirectoryAt, fileAccessAt]
        split at written
        next none =>
          split_ifs at written
          cases written
          rw [none]
          exact ⟨rfl, rfl⟩
        next there =>
          split_ifs at written
          cases written
          rw [there]
          exact ⟨rfl, rfl⟩
        next => cases written

theorem fromUTF8?_toUTF8 (s : String) : String.fromUTF8? s.toUTF8 = some s := by
  unfold String.fromUTF8?
  rw [String.toUTF8_eq_toByteArray, dif_pos s.isValidUTF8]
  rfl

theorem Leads.locate_put {p : Path} {name : String} (leads : d.Leads p l name)
    (short : tooLong name = false) (file : d.isDirectoryAt (l ++ [name]) = false) (access : Access)
    (content : ByteArray) :
    (d.put (l ++ [name]) (.file access content)).locate p = .ok (l ++ [name]) := by
  obtain ⟨names, path, led⟩ := leads.front
  have place : (d.put (l ++ [name]) (.file access content)).item? (l ++ [name]) =
      some (.file access content) := by
    rw [item?_put, if_pos rfl]
  obtain ⟨some, undotted⟩ := not_or.1 leads.named.1
  rw [locate, leads.usable, path]
  change follow _ _ _ = _
  rw [follow_append]
  change ((d.put _ _).follow (d.start p) names).bind _ = _
  rw [follow_put file _ _ led]
  change follow _ l [name] = _
  rw [follow, if_pos (by rw [isDirectoryAt_put file, leads.directory]), if_neg some,
    if_pos (by rw [allows_put file _ _ leads.directory, leads.search]), if_neg undotted,
    if_neg leads.named.2, if_neg (by simp [short]), if_pos (by rw [place]; rfl), follow]

theorem pathExists_iff {p : Path} : d.pathExists p ↔ ∃ l, d.locate p = .ok l := by
  rw [pathExists]
  cases d.locate p with
  | error e => exact iff_of_false Bool.false_ne_true nofun
  | ok l => exact iff_of_true rfl ⟨l, rfl⟩

/-- A file is found and, if the user may read it, read as it was last written. -/
theorem read_write {d' : Disk} {p : Path} {s : String} (written : d.write p s.toUTF8 = .ok d') :
    ∃ l, d'.locate p = .ok l ∧
      d'.read p = if d'.allows l .read then .ok s else .error .accessDenied := by
  obtain ⟨l, name, leads, short, file, rfl⟩ := of_write written
  have there := leads.locate_put short file (d.fileAccessAt (l ++ [name])) s.toUTF8
  refine ⟨l ++ [name], there, ?_⟩
  rw [read, there, allows]
  simp only [bind, Except.bind]
  rw [item?_put, if_pos rfl]
  dsimp only [Item.access]
  rw [fromUTF8?_toUTF8]
  split_ifs <;> rfl

end Pursuit.Files.Disk
