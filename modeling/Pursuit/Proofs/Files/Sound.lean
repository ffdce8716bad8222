import Pursuit.Proofs.Files.Following

/-! Disks on which everything lies in a directory. Names that nothing bars lead to a directory
there, or something is missing. As long as directories are only made, or opened to the user, names
lead where they led before; and without going up they lead to nothing new that is not one of those
directories, unless a directory on the way was closed. -/
namespace Pursuit.Files.Disk

variable {d d' d'' : Disk} {l m : Location} {name : String} {names names' front : List String}
  {p : Path}
  {ls ls' : List Location}

/-- Everything on a disk lies in a directory, and relative paths start at one. -/
structure IsSound (d : Disk) : Prop where
  here : d.isDirectoryAt d.here
  outer : ∀ l name, (d.item? (l ++ [name])).isSome → d.isDirectoryAt l

def isFileAt (d : Disk) (l : Location) : Bool :=
  match d.item? l with
  | some (.file ..) => true
  | _ => false

theorem isDirectoryAt_iff :
    d.isDirectoryAt l ↔ ∃ access, d.item? l = some (.directory access) := by
  rw [isDirectoryAt]
  split
  next access there => exact iff_of_true rfl ⟨access, there⟩
  next other =>
    refine iff_of_false Bool.false_ne_true ?_
    rintro ⟨access, there⟩
    exact other access there

theorem isSome_of_isDirectoryAt (dir : d.isDirectoryAt l) : (d.item? l).isSome := by
  obtain ⟨access, there⟩ := isDirectoryAt_iff.1 dir
  rw [there]
  rfl

theorem isDirectoryAt_or (there : (d.item? l).isSome) : d.isDirectoryAt l ∨ d.isFileAt l := by
  rw [isDirectoryAt, isFileAt]
  obtain ⟨i, there⟩ := Option.isSome_iff_exists.1 there
  rw [there]
  cases i with
  | file => exact .inr rfl
  | directory => exact .inl rfl

theorem isFileAt_eq_false (dir : d.isDirectoryAt l) : d.isFileAt l = false := by
  obtain ⟨access, there⟩ := isDirectoryAt_iff.1 dir
  rw [isFileAt, there]

theorem isSound_of_items (here : d.isDirectoryAt d.here)
    (outer : ∀ e ∈ d.items, d.isDirectoryAt e.1.dropLast) :
    d.IsSound := by
  refine ⟨here, fun l name there => ?_⟩
  rw [item?] at there
  split at there
  next found =>
    have mem := outer _ (List.mem_of_find?_eq_some found)
    have place := List.find?_some found
    rwa [eq_of_beq place, List.dropLast_concat] at mem
  next => simp at there

namespace IsSound

variable (sound : d.IsSound)
include sound

theorem isDirectoryAt_of_below {t : List String} (below : t ≠ [])
    (there : (d.item? (l ++ t)).isSome) :
    d.isDirectoryAt l := by
  induction t using List.reverseRecOn with
  | nil => exact (below rfl).elim
  | append_singleton t name ih =>
    rw [← List.append_assoc] at there
    have dir := sound.outer _ _ there
    by_cases last : t = []
    · rwa [last, List.append_nil] at dir
    · exact ih last (isSome_of_isDirectoryAt dir)

theorem root : d.isDirectoryAt [] := by
  by_cases top : d.here = []
  · exact top ▸ sound.here
  · exact sound.isDirectoryAt_of_below top (isSome_of_isDirectoryAt sound.here)

theorem dropLast (dir : d.isDirectoryAt l) : d.isDirectoryAt l.dropLast := by
  obtain rfl | ⟨l, name, rfl⟩ := List.eq_nil_or_concat' l
  · exact dir
  · rw [List.dropLast_concat]
    exact sound.outer _ _ (isSome_of_isDirectoryAt dir)

theorem start (p : Path) : d.isDirectoryAt (d.start p) := by
  rw [Disk.start]
  split_ifs
  · exact sound.root
  · exact sound.here

theorem isSome_next (dir : d.isDirectoryAt l) (opens : d.Opens l name) :
    (d.item? (next l name)).isSome := by
  by_cases step : IsStep name
  · by_cases up : name = ".."
    · rw [up, next_up]
      exact isSome_of_isDirectoryAt (sound.dropLast dir)
    · rw [next_of_isStep step up]
      exact (opens.there step up).2
  · rw [next_of_not_isStep step]
    exact isSome_of_isDirectoryAt dir

end IsSound

/-! ## Names that can be followed once directories have been made -/

/-- No file stands at any place that names lead through, and no name is too long. -/
structure IsClear (d : Disk) (l : Location) (names : List String) : Prop where
  free : ∀ m ∈ passed l names, d.isFileAt m = false
  short : ∀ name ∈ names, tooLong name = false

instance (d : Disk) (l : Location) (names : List String) : Decidable (d.IsClear l names) :=
  decidable_of_iff (_ ∧ _) ⟨fun both => ⟨both.1, both.2⟩, fun clear => ⟨clear.free, clear.short⟩⟩

theorem isClear_append :
    d.IsClear l (front ++ names) ↔ d.IsClear l front ∧ d.IsClear (goal l front) names := by
  constructor
  · rintro ⟨free, short⟩
    exact ⟨⟨fun m mem => free m (mem_passed_append.2 (.inl mem)),
        fun s mem => short s (List.mem_append_left _ mem)⟩,
      ⟨fun m mem => free m (mem_passed_append.2 (.inr mem)),
        fun s mem => short s (List.mem_append_right _ mem)⟩⟩
  · rintro ⟨first, rest⟩
    exact ⟨fun m mem => (mem_passed_append.1 mem).elim (first.free m) (rest.free m),
      fun s mem => (List.mem_append.1 mem).elim (first.short s) (rest.short s)⟩

theorem isClear_cons :
    d.IsClear l (name :: names) ↔ d.isFileAt l = false ∧ tooLong name = false ∧
      d.IsClear (next l name) names := by
  constructor
  · rintro ⟨free, short⟩
    rw [List.forall_mem_cons] at short
    exact ⟨free l List.mem_cons_self, short.1,
      fun m mem => free m (List.mem_cons_of_mem _ mem), short.2⟩
  · rintro ⟨file, short, rest⟩
    exact ⟨List.forall_mem_cons.2 ⟨file, rest.free⟩, List.forall_mem_cons.2 ⟨short, rest.short⟩⟩

theorem isClear_steps : d.IsClear l (steps names) ↔ d.IsClear l names := by
  have short : (∀ s ∈ steps names, tooLong s = false) ↔ ∀ s ∈ names, tooLong s = false := by
    refine ⟨fun all s mem => ?_, fun all s mem => all s (List.mem_of_mem_filter mem)⟩
    by_cases step : IsStep s
    · exact all s (List.mem_filter.2 ⟨mem, by simpa using step⟩)
    · obtain rfl | rfl := not_isStep_iff.1 step <;> decide
  constructor
  · rintro ⟨free, all⟩
    exact ⟨fun m mem => free m (mem_passed_steps.2 mem), short.1 all⟩
  · rintro ⟨free, all⟩
    exact ⟨fun m mem => free m (mem_passed_steps.1 mem), short.2 all⟩

theorem isClear_congr (same : steps names = steps names') :
    d.IsClear l names ↔ d.IsClear l names' := by
  rw [← isClear_steps, same, isClear_steps]

/-- The user may search each directory on the way that is there, and make a directory in it if the
next is missing. -/
def IsOpen (d : Disk) : Location → List String → Prop
  | _, [] => True
  | l, name :: names =>
    ((d.item? l).isSome → (name ≠ "" → d.allows l .search) ∧
      ((d.item? (next l name)).isSome ∨ d.allows l .write)) ∧ d.IsOpen (next l name) names

instance decidableIsOpen (d : Disk) : ∀ l names, Decidable (d.IsOpen l names)
  | _, [] => inferInstanceAs (Decidable True)
  | l, name :: names =>
    have := decidableIsOpen d (next l name) names
    inferInstanceAs (Decidable (_ ∧ _))

theorem isOpen_append :
    d.IsOpen l (front ++ names) ↔ d.IsOpen l front ∧ d.IsOpen (goal l front) names := by
  induction front generalizing l with
  | nil => exact (and_iff_right trivial).symm
  | cons name front ih => rw [List.cons_append, IsOpen, IsOpen, ih, and_assoc, goal_cons]

/-- Clear and open names lead to a directory, or else something is missing. -/
theorem IsClear.reaches_or (clear : d.IsClear l names) (isOpen : d.IsOpen l names)
    (sound : d.IsSound) (dir : d.isDirectoryAt l) :
    d.Reaches l names ∨ d.follow l names = .error .notFound := by
  induction names generalizing l with
  | nil => exact .inl ⟨rfl, dir⟩
  | cons name names ih =>
    obtain ⟨-, short, clear⟩ := isClear_cons.1 clear
    obtain ⟨here, isOpen⟩ := isOpen
    obtain ⟨search, -⟩ := here (isSome_of_isDirectoryAt dir)
    by_cases opens : d.Opens l name
    · rw [Reaches, follow_cons_of_opens dir opens]
      refine ih clear isOpen ?_
      refine (isDirectoryAt_or (sound.isSome_next dir opens)).resolve_right fun file => ?_
      rw [clear.free _ (start_mem_passed _ names)] at file
      cases file
    · have missing : ¬ (IsStep name → name ≠ ".." →
          tooLong name = false ∧ (d.item? (l ++ [name])).isSome) :=
            fun there => opens ⟨search, there⟩
      simp only [not_forall, not_and] at missing
      obtain ⟨step, down, missing⟩ := missing
      rw [Disk.follow, if_pos dir, if_neg step.1, if_pos (search step.1), if_neg step.2,
        if_neg down, if_neg (by simp [short]), if_neg (missing short)]
      exact .inr rfl

/-! ## What stays as it was -/

/-- At a location is a directory with which the user may do anything. -/
def IsOurs (d : Disk) (l : Location) : Prop :=
  ∃ access, d.item? l = some (.directory access) ∧ access.isOwn ∧ ∀ u, access.allows u

theorem IsOurs.isDirectoryAt (ours : d.IsOurs l) : d.isDirectoryAt l := by
  obtain ⟨access, there, -⟩ := ours
  exact isDirectoryAt_iff.2 ⟨access, there⟩

theorem IsOurs.allows (ours : d.IsOurs l) (u : Use) : d.allows l u := by
  obtain ⟨access, there, -, all⟩ := ours
  rw [Disk.allows, there]
  exact all u

/-- At some of the locations `ls` directories may have been made, or opened to the user whose they
are. All else is as it was. -/
structure Grows (d : Disk) (ls : List Location) (d' : Disk) : Prop where
  here : d'.here = d.here
  item : ∀ l, d'.item? l = d.item? l ∨
    (d'.IsOurs l ∧ l ∈ ls) ∧ (d.isDirectoryAt l ∨ d.item? l = none)
  sound : d.IsSound → d'.IsSound

theorem isDirectoryAt_congr (same : d'.item? l = d.item? l) :
    d'.isDirectoryAt l = d.isDirectoryAt l := by
  rw [isDirectoryAt, same, isDirectoryAt]

theorem isFileAt_congr (same : d'.item? l = d.item? l) : d'.isFileAt l = d.isFileAt l := by
  rw [isFileAt, same, isFileAt]

namespace Grows

theorem refl (d : Disk) (ls : List Location) : d.Grows ls d := ⟨rfl, fun _ => .inl rfl, id⟩

variable (grows : d.Grows ls d')
include grows

theorem mono (part : ls ⊆ ls') : d.Grows ls' d' :=
  ⟨grows.here, fun l => (grows.item l).imp_right (.imp_left (.imp_right (part ·))), grows.sound⟩

theorem isDirectoryAt (dir : d.isDirectoryAt l) : d'.isDirectoryAt l := by
  obtain same | ⟨⟨ours, -⟩, -⟩ := grows.item l
  · rwa [isDirectoryAt_congr same]
  · exact ours.isDirectoryAt

theorem trans (grows' : d'.Grows ls d'') : d.Grows ls d'' := by
  refine ⟨grows'.here.trans grows.here, fun l => ?_, fun sound => grows'.sound (grows.sound sound)⟩
  obtain same' | ⟨new', before'⟩ := grows'.item l
  · obtain same | ⟨⟨ours, mem⟩, before⟩ := grows.item l
    · exact .inl (same'.trans same)
    · exact .inr ⟨⟨by rwa [IsOurs, same'], mem⟩, before⟩
  · obtain same | ⟨-, before⟩ := grows.item l
    · rw [same, isDirectoryAt_congr same] at before'
      exact .inr ⟨new', before'⟩
    · exact .inr ⟨new', before⟩

theorem isDirectoryAt_or_mem (dir : d'.isDirectoryAt l) :
    d.isDirectoryAt l ∨ d.item? l = none ∧ l ∈ ls := by
  obtain same | ⟨⟨-, mem⟩, before⟩ := grows.item l
  · rw [isDirectoryAt_congr same] at dir
    exact .inl dir
  · exact before.imp_right fun none => ⟨none, mem⟩

theorem isFileAt (l : Location) : d'.isFileAt l = d.isFileAt l := by
  obtain same | ⟨⟨ours, -⟩, dir | none⟩ := grows.item l
  · exact isFileAt_congr same
  · rw [isFileAt_eq_false ours.isDirectoryAt, isFileAt_eq_false dir]
  · rw [isFileAt_eq_false ours.isDirectoryAt, Disk.isFileAt, none]

theorem item?_of_isFileAt (file : d.isFileAt l) : d'.item? l = d.item? l := by
  obtain same | ⟨⟨ours, -⟩, -⟩ := grows.item l
  · exact same
  · rw [← grows.isFileAt, isFileAt_eq_false ours.isDirectoryAt] at file
    cases file

theorem allows {u : Use} (may : d.allows l u) : d'.allows l u := by
  obtain same | ⟨⟨ours, -⟩, -⟩ := grows.item l
  · rwa [Disk.allows, same]
  · exact ours.allows u

theorem isSome (there : (d.item? l).isSome) : (d'.item? l).isSome := by
  obtain same | ⟨⟨ours, -⟩, -⟩ := grows.item l
  · rwa [same]
  · exact isSome_of_isDirectoryAt ours.isDirectoryAt

theorem fileAccessAt (l : Location) : d'.fileAccessAt l = d.fileAccessAt l := by
  cases file : d.isFileAt l with
  | true => rw [Disk.fileAccessAt, grows.item?_of_isFileAt file, Disk.fileAccessAt]
  | false =>
    have file' := (grows.isFileAt l).trans file
    rw [Disk.isFileAt] at file file'
    rw [Disk.fileAccessAt, Disk.fileAccessAt]
    split <;> split <;> simp_all

theorem isClear_iff : d'.IsClear l names ↔ d.IsClear l names :=
  ⟨fun ⟨free, short⟩ => ⟨fun m mem => (grows.isFileAt m).symm.trans (free m mem), short⟩,
    fun ⟨free, short⟩ => ⟨fun m mem => (grows.isFileAt m).trans (free m mem), short⟩⟩

theorem opens (opens : d.Opens l name) : d'.Opens l name :=
  ⟨fun some => grows.allows (opens.search some),
    fun step down => (opens.there step down).imp_right grows.isSome⟩

theorem isOpen (isOpen : d.IsOpen l names) : d'.IsOpen l names := by
  induction names generalizing l with
  | nil => trivial
  | cons name names ih =>
    obtain ⟨here, rest⟩ := isOpen
    refine ⟨fun there => ?_, ih rest⟩
    obtain same | ⟨⟨ours, -⟩, -⟩ := grows.item l
    · obtain ⟨search, write⟩ := here (same ▸ there)
      exact ⟨fun some => grows.allows (search some), write.imp grows.isSome grows.allows⟩
    · exact ⟨fun _ => ours.allows _, .inr (ours.allows _)⟩

theorem follow (led : d.follow l names = .ok m) : d'.follow l names = .ok m := by
  induction names generalizing l with
  | nil => exact led
  | cons name names ih =>
    obtain ⟨dir, opens, led⟩ := follow_cons_eq_ok.1 led
    exact follow_cons_eq_ok.2 ⟨grows.isDirectoryAt dir, grows.opens opens, ih led⟩

theorem reaches (reaches : d.Reaches l names) : d'.Reaches l names :=
  reaches_of_follow (grows.follow reaches.1) (grows.isDirectoryAt reaches.2)

theorem start (p : Path) : d'.start p = d.start p := by rw [Disk.start, grows.here, Disk.start]

theorem locate (led : d.locate p = .ok l) : d'.locate p = .ok l := by
  obtain ⟨fine, led⟩ := follow_of_locate led
  rw [locate_eq fine, grows.start]
  exact grows.follow led

end Grows

theorem put_grows {access : Access} (own : access.isOwn) (all : ∀ u, access.allows u) (mem : l ∈ ls)
    (fits : d.isDirectoryAt l ∨ d.item? l = none ∧ d.isDirectoryAt l.dropLast) :
    d.Grows ls (d.put l (.directory access)) := by
  have item (m : Location) : (d.put l (.directory access)).item? m = d.item? m ∨
      ((d.put l (.directory access)).IsOurs m ∧ m ∈ ls) ∧
        (d.isDirectoryAt m ∨ d.item? m = none) := by
    by_cases same : l = m
    · subst same
      exact .inr ⟨⟨⟨access, by rw [item?_put, if_pos rfl], own, all⟩, mem⟩, fits.imp_right (·.1)⟩
    · rw [item?_put, if_neg same]
      exact .inl rfl
  have dirs {m : Location} (dir : d.isDirectoryAt m) :
      (d.put l (.directory access)).isDirectoryAt m := by
    obtain same | ⟨⟨ours, -⟩, -⟩ := item m
    · rwa [isDirectoryAt_congr same]
    · exact ours.isDirectoryAt
  refine ⟨rfl, item, fun sound => ⟨dirs sound.here, fun m name there => dirs ?_⟩⟩
  rw [item?_put] at there
  split_ifs at there with same
  · obtain dir | ⟨-, outer⟩ := fits
    · exact sound.outer m name (isSome_of_isDirectoryAt (same ▸ dir))
    · rwa [same, List.dropLast_concat] at outer
  · exact sound.outer m name there

end Pursuit.Files.Disk
