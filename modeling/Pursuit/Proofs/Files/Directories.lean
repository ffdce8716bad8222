import Pursuit.Proofs.Files.Sound

/-! Making the directories of a path. On a sound disk they can be made wherever no file is in the
way, no name is too long and no directory is closed to the user, and then they are there. Whether
they can be made or not, all else stays as it was. -/
namespace Pursuit.Files.Disk

variable {d d' : Disk} {l : Location} {name : String} {names front : List String} {p q : Path}
  {ls : List Location}

/-! ## Making one directory -/

theorem makeDirectory_eq_ok (made : d.makeDirectory p = .ok d') : ∃ l name slash,
    d.target p = .ok (some (l, name, slash)) ∧ tooLong name = false ∧ d.item? (l ++ [name]) = none ∧
      d' = d.put (l ++ [name]) (.directory { mode := openMode }) := by
  rw [makeDirectory] at made
  cases found : d.target p with
  | error e =>
    rw [found] at made
    cases made
  | ok place =>
    rw [found] at made
    simp only [bind, Except.bind] at made
    match place with
    | none => cases made
    | some (l, name, slash) =>
      dsimp only at made
      split_ifs at made with long there write
      cases made
      exact ⟨l, name, slash, rfl, by simpa using long, by simpa using there, rfl⟩

theorem steps_of_target {slash : Bool} (found : d.target p = .ok (some (l, name, slash))) :
    IsStep name ∧ ∃ names, p.steps = steps (names ++ [name]) ∧
      d.follow (d.start p) names = .ok l := by
  obtain ⟨⟨-, -, -, named, -⟩, names, blanks, path, blank, -, led⟩ := target_eq_some found
  have none : steps blanks = [] := List.filter_eq_nil_iff.2 fun b mem => by
    simp [IsStep, blank b mem]
  refine ⟨not_not.1 fun other => named (not_isStep_iff.1 other), names, ?_, led⟩
  rw [Path.steps, path, steps_append, none, List.append_nil]

/-- The locations that a path leads through once what means nothing has been left out. -/
def way (d : Disk) (p : Path) : List Location := passed (d.start p) p.steps

theorem allows_openMode (u : Use) : ({ mode := openMode } : Access).allows u := by
  cases u <;> decide

theorem makeDirectory_grows (made : d.makeDirectory p = .ok d') : d.Grows (d.way p) d' := by
  obtain ⟨l, name, slash, found, -, none, rfl⟩ := makeDirectory_eq_ok made
  obtain ⟨⟨-, dir, -, -, down⟩, -⟩ := target_eq_some found
  obtain ⟨step, names, path, led⟩ := steps_of_target found
  refine put_grows rfl allows_openMode ?_ (.inr ⟨none, by rwa [List.dropLast_concat]⟩)
  rw [way, path, mem_passed_steps, mem_passed_append, goal_of_follow led,
    ← next_of_isStep step down]
  exact .inr (goal_mem_passed l [name])

theorem ensureDirectory_grows (d : Disk) (p : Path) :
    d.Grows (d.way p) (d.ensureDirectory p).1 := by
  rw [ensureDirectory]
  split
  next made => exact makeDirectory_grows made
  next => exact .refl d _

/-! ## Making all directories of a path -/

theorem ensureAll_grows {ps : List Path} (part : ∀ q ∈ ps, d.way q ⊆ ls) :
    d.Grows ls (d.ensureAll ps).1 := by
  induction ps generalizing d with
  | nil => exact .refl d ls
  | cons q ps ih =>
    obtain ⟨first, rest⟩ := List.forall_mem_cons.1 part
    have last (d : Disk) (same : d.way q ⊆ ls) := (ensureDirectory_grows d q).mono same
    rw [ensureAll]
    split
    · have outer := ih rest
      split
      next made =>
        rw [made] at outer
        exact outer.trans (last _ (by rwa [way, outer.start]))
      next => exact outer
    · exact last d first

theorem mem_withAncestors {fuel : ℕ} (mem : q ∈ Path.withAncestors.go fuel p) :
    q.isAbsolute = p.isAbsolute ∧ q.steps <+: p.steps := by
  induction fuel generalizing p with
  | zero => cases mem
  | succ fuel ih =>
    rw [Path.withAncestors.go] at mem
    split at mem
    next => cases mem
    next r up =>
      obtain rfl | mem := List.mem_cons.1 mem
      · exact ⟨rfl, List.prefix_rfl⟩
      · obtain ⟨same, front⟩ := ih mem
        refine ⟨same.trans (Path.isAbsolute_parent? up), front.trans ?_⟩
        obtain ⟨name, -, longer⟩ | ⟨none, empty⟩ := Path.steps_parent? up
        · rw [longer]
          exact List.prefix_append _ _
        · have blank : r = ⟨""⟩ := congrArg Path.mk empty
          rw [none, blank]
          exact List.prefix_rfl

theorem start_congr (same : q.isAbsolute = p.isAbsolute) : d.start q = d.start p := by
  rw [start, same, start]

theorem ensureAncestors_grows (d : Disk) (p : Path) (fuel : ℕ) :
    d.Grows (d.way p) (d.ensureAll (Path.withAncestors.go fuel p)).1 := by
  refine ensureAll_grows fun q mem l on => ?_
  obtain ⟨same, t, path⟩ := mem_withAncestors mem
  rw [way, ← path, mem_passed_append, ← start_congr same]
  exact .inl on

theorem usable_iff : usable p = .ok () ↔
    Char.ofNat 0 ∉ p.text.toList ∧ p.text.utf8ByteSize < 4096 ∧ p.text ≠ "" := by
  rw [usable]
  split_ifs with zero long empty
  · exact iff_of_false nofun fun all => all.1 (by simpa using zero)
  · exact iff_of_false nofun fun all => absurd long (Nat.not_le.2 all.2.1)
  · exact iff_of_false nofun fun all => all.2.2 empty
  · exact iff_of_true rfl ⟨by simpa using zero, Nat.not_le.1 long, empty⟩

theorem usable_of_prefix (fine : usable p = .ok ()) (front : q.text.toList <+: p.text.toList)
    (some : q.text ≠ "") :
    usable q = .ok () := by
  obtain ⟨zero, short, -⟩ := usable_iff.1 fine
  refine usable_iff.2 ⟨fun mem => zero (front.subset mem), ?_, some⟩
  obtain ⟨rest, text⟩ := front
  have text : q.text ++ .ofList rest = p.text := by
    rw [← String.toList_inj, String.toList_append, String.toList_ofList, text]
  rw [← text, String.utf8ByteSize_append] at short
  omega

theorem target_of_names (fine : usable p = .ok ()) (path : p.names = front ++ [name])
    (named : name ≠ "") : d.target p = (d.follow (d.start p) front).bind fun l =>
      if d.isDirectoryAt l then
        if d.allows l .search then
          .ok (if name = "." ∨ name = ".." then none else some (l, name, false))
        else .error .accessDenied
      else .error .notADirectory := by
  have core : (p.names.reverse.dropWhile (· = "")).reverse = p.names := by
    rw [path]
    exact List.rdropWhile_concat_neg _ _ _ (by simpa using named)
  rw [target, fine]
  simp only [bind, Except.bind]
  rw [core, path, List.getLast?_concat, List.dropLast_concat]
  simp [pure, Except.pure, throw, throwThe, MonadExceptOf.throw]

theorem makeDirectory_of_missing (fine : usable p = .ok ()) (path : p.names = front ++ [name])
    (named : name ≠ "") {e : Fault} (missing : d.follow (d.start p) front = .error e) :
    d.makeDirectory p = .error e := by
  rw [makeDirectory, target_of_names fine path named, missing]
  rfl

theorem makeDirectory_of_clear (fine : usable p = .ok ()) (path : p.names = front ++ [name])
    (named : name ≠ "") (reaches : d.Reaches (d.start p) front)
    (clear : d.IsClear (goal (d.start p) front) [name])
    (isOpen : d.IsOpen (goal (d.start p) front) [name]) : d.makeDirectory p =
      if (name = "." ∨ name = "..") ∨ (d.item? (goal (d.start p) front ++ [name])).isSome then
        .error .alreadyExists
      else .ok (d.put (goal (d.start p) front ++ [name]) (.directory { mode := openMode })) := by
  obtain ⟨led, dir⟩ := reaches
  obtain ⟨search, write⟩ := isOpen.1 (isSome_of_isDirectoryAt dir)
  have target : d.target p = .ok (if name = "." ∨ name = ".." then none
      else some (goal (d.start p) front, name, false)) := by
    rw [target_of_names fine path named, led]
    exact (if_pos dir).trans (if_pos (search named))
  rw [makeDirectory, target]
  simp only [bind, Except.bind]
  by_cases special : name = "." ∨ name = ".."
  · rw [if_pos special, if_pos (.inl special)]
    rfl
  · rw [if_neg special]
    dsimp only
    rw [(isClear_cons.1 clear).2.1, if_neg Bool.false_ne_true]
    simp only [special, false_or]
    rw [not_or] at special
    rw [next_of_isStep ⟨named, special.1⟩ special.2] at write
    by_cases there : (d.item? (goal (d.start p) front ++ [name])).isSome
    · rw [if_pos there, if_pos there]
      rfl
    · rw [if_neg there, if_neg there, if_pos (write.resolve_left there)]
      rfl

theorem follow_concat (led : d.follow l front = .ok m) (dir : d.isDirectoryAt m)
    (opens : d.Opens m name) :
    d.follow l (front ++ [name]) = .ok (next m name) := by
  rw [follow_append, led]
  exact follow_cons_of_opens dir opens []

theorem reaches_put {m : Location} (led : d.follow l front = .ok m) (dir : d.isDirectoryAt m)
    (search : d.allows m .search) (step : IsStep name) (down : name ≠ "..")
    (short : tooLong name = false) {access : Access}
    (grows : d.Grows ls (d.put (m ++ [name]) (.directory access))) :
    (d.put (m ++ [name]) (.directory access)).Reaches l (front ++ [name]) := by
  have item : (d.put (m ++ [name]) (.directory access)).item? (m ++ [name]) =
      some (.directory access) := by
    rw [item?_put, if_pos rfl]
  have led' := follow_concat (grows.follow led) (grows.isDirectoryAt dir)
    ⟨fun _ => grows.allows search, fun _ _ => ⟨short, by rw [item]; rfl⟩⟩
  rw [next_of_isStep step down] at led'
  exact reaches_of_follow led' (by rw [isDirectoryAt, item])

theorem isDirectory_of_reaches (fine : usable p = .ok ())
    (reaches : d.Reaches (d.start p) p.names) : d.isDirectory p := by
  rw [isDirectory, locate_eq fine, reaches.1]
  exact reaches.2

/-- The directory of a path is there once it has been ensured, where the names before its last lead
to one. -/
theorem ensureDirectory_of_clear (sound : d.IsSound) (fine : usable p = .ok ())
    (path : p.names = front ++ [name]) (named : name ≠ "") (reaches : d.Reaches (d.start p) front)
    (clear : d.IsClear (d.start p) p.names) (isOpen : d.IsOpen (d.start p) p.names) :
    ∃ d', d.ensureDirectory p = (d', .ok ()) ∧ d'.Reaches (d.start p) p.names := by
  obtain ⟨-, last⟩ := isClear_append.1 (path ▸ clear)
  obtain ⟨-, openLast⟩ := isOpen_append.1 (path ▸ isOpen)
  have short : tooLong name = false := (isClear_cons.1 last).2.1
  have search := (openLast.1 (isSome_of_isDirectoryAt reaches.2)).1 named
  have made := makeDirectory_of_clear fine path named reaches last openLast
  obtain ⟨led, dir⟩ := reaches
  by_cases there :
      (name = "." ∨ name = "..") ∨ (d.item? (goal (d.start p) front ++ [name])).isSome
  · rw [if_pos there] at made
    have opens : d.Opens (goal (d.start p) front) name := ⟨fun _ => search,
      fun step down => ⟨short, there.resolve_left (not_or.2 ⟨step.2, down⟩)⟩⟩
    have led' := follow_concat led dir opens
    rw [← path] at led'
    have reaches :=
      (clear.reaches_or isOpen sound (sound.start p)).resolve_right (by rw [led']; nofun)
    refine ⟨d, ?_, reaches⟩
    rw [ensureDirectory, made]
    exact congrArg (d, ·) (if_pos (isDirectory_of_reaches fine reaches))
  · rw [if_neg there] at made
    simp only [not_or] at there
    obtain ⟨⟨undotted, down⟩, -⟩ := there
    have reaches := reaches_put led dir search ⟨named, undotted⟩ down short
      (makeDirectory_grows made)
    exact ⟨_, by rw [ensureDirectory, made], path ▸ reaches⟩

theorem reaches_of_blank (blank : ∀ name ∈ names, name = "") (dir : d.isDirectoryAt l) :
    d.Reaches l names := by
  induction names with
  | nil => exact ⟨rfl, dir⟩
  | cons name names ih =>
    obtain ⟨rfl, rest⟩ := List.forall_mem_cons.1 blank
    have opens : d.Opens l "" := ⟨fun some => absurd rfl some, fun step => absurd rfl step.1⟩
    obtain ⟨led, dir'⟩ := ih rest
    exact ⟨(follow_cons_of_opens dir opens names).trans led, dir'⟩

theorem isOpen_of_blank (blank : ∀ name ∈ names, name = "") : d.IsOpen l names := by
  induction names with
  | nil => trivial
  | cons name names ih =>
    obtain ⟨rfl, rest⟩ := List.forall_mem_cons.1 blank
    exact ⟨fun there => ⟨fun some => absurd rfl some, .inl there⟩, ih rest⟩

theorem isOpen_above (inner : names <+: front ∨ ∀ name ∈ names, name = "")
    (isOpen : d.IsOpen l front) : d.IsOpen l names := by
  obtain ⟨rest, rfl⟩ | blank := inner
  · exact (isOpen_append.1 isOpen).1
  · exact isOpen_of_blank blank

/-- The directory that has been reached can be searched for the last name. -/
theorem reaches_front (path : p.names = front ++ [name]) (named : name ≠ "")
    (isOpen : d.IsOpen l p.names) (outer : steps names = steps front)
    (reaches : d.Reaches l names) : d.Reaches l front := by
  have here := isSome_of_isDirectoryAt reaches.2
  rw [goal_congr outer] at here
  exact reaches.congr outer (((isOpen_append.1 (path ▸ isOpen)).2.1 here).1 named)

/-- Where nothing bars the way, all directories of a path can be made, and are there then. -/
theorem ensureAll_of_clear {fuel : ℕ} (sound : d.IsSound) (tidy : q.IsTidy)
    (long : q.text.toList.length ≤ fuel) (fine : usable p = .ok ())
    (part : q.text.toList <+: p.text.toList) (clear : d.IsClear (d.start q) q.names)
    (isOpen : d.IsOpen (d.start q) q.names) :
    ∃ d', d.ensureAll (Path.withAncestors.go fuel q) = (d', .ok ()) ∧
      d'.Reaches (d.start q) q.names := by
  induction fuel generalizing q with
  | zero =>
    have empty := List.eq_nil_of_length_eq_zero (Nat.le_zero.1 long)
    obtain rfl : q = ⟨""⟩ := congrArg Path.mk (String.toList_eq_nil_iff.1 empty)
    exact ⟨d, rfl, reaches_of_blank (by decide) (sound.start _)⟩
  | succ fuel ih =>
    rw [Path.withAncestors.go]
    split
    next top => exact ⟨d, rfl, reaches_of_blank (Path.names_of_top tidy top) (sound.start q)⟩
    next r up =>
      obtain ⟨front, name, named, path, outer, inner⟩ := Path.names_of_isTidy tidy up
      obtain ⟨shorter, less⟩ := Path.prefix_parent? up
      have nonempty : q.text ≠ "" := by
        intro empty
        rw [empty] at less
        cases less
      have usable := usable_of_prefix fine part nonempty
      have start : d.start r = d.start q := start_congr (Path.isAbsolute_parent? up)
      obtain ⟨clearFront, last⟩ := isClear_append.1 (path ▸ clear)
      obtain ⟨openFront, openLast⟩ := isOpen_append.1 (path ▸ isOpen)
      obtain reaches | missing := clearFront.reaches_or openFront sound (sound.start q)
      · have made := makeDirectory_of_clear usable path named reaches last openLast
        obtain ⟨d', ensured, reaches'⟩ :=
          ensureDirectory_of_clear sound usable path named reaches clear isOpen
        refine ⟨d', ?_, reaches'⟩
        rw [ensureAll, made]
        split_ifs <;> exact ensured
      · obtain ⟨d₁, made, reaches⟩ :=
          ih (Path.isTidy_parent? up) (by omega) (shorter.trans part)
            (start ▸ (isClear_congr outer).2 clearFront) (start ▸ isOpen_above inner openFront)
        have grows := ensureAncestors_grows d r fuel
        rw [made] at grows
        have clear₁ : d₁.IsClear (d₁.start q) q.names := by
          rw [grows.start]
          exact grows.isClear_iff.2 clear
        have open₁ : d₁.IsOpen (d₁.start q) q.names := by
          rw [grows.start]
          exact grows.isOpen isOpen
        rw [start, ← grows.start] at reaches
        have reaches := reaches_front path named open₁ outer reaches
        obtain ⟨d', ensured, reaches'⟩ :=
          ensureDirectory_of_clear (grows.sound sound) usable path named reaches clear₁ open₁
        rw [grows.start] at reaches'
        refine ⟨d', ?_, reaches'⟩
        rw [ensureAll, makeDirectory_of_missing usable path named missing, made]
        exact ensured

theorem makeDirectories_of_clear (sound : d.IsSound) (fine : usable p = .ok ())
    (up : p.parent? = some q) (clear : d.IsClear (d.start q) q.names)
    (isOpen : d.IsOpen (d.start q) q.names) :
    ∃ d', d.makeDirectories q = (d', .ok ()) ∧ d'.Reaches (d.start q) q.names :=
  ensureAll_of_clear sound (Path.isTidy_parent? up) (Nat.le_of_eq String.length_toList) fine
    (Path.prefix_parent? up).1 clear isOpen

/-! ## A directory that has been made -/

theorem isDirectory_of_makeDirectory (made : d.makeDirectory p = .ok d') : d'.isDirectory p := by
  have grows := makeDirectory_grows made
  obtain ⟨l, name, slash, found, short, -, rfl⟩ := makeDirectory_eq_ok made
  obtain ⟨⟨fine, dir, search, -, down⟩, -⟩ := target_eq_some found
  obtain ⟨step, front, path, led⟩ := steps_of_target found
  have place : goal (d.start p) p.names = l ++ [name] := by
    rw [goal_congr path, goal_append, goal_of_follow led, ← next_of_isStep step down]
    rfl
  have reaches := reaches_put led dir search step down short grows
  rw [← grows.start] at reaches
  refine isDirectory_of_reaches fine (reaches.congr path.symm ?_)
  rw [grows.start, place, allows, item?_put, if_pos rfl]
  exact allows_openMode .search

theorem isDirectory_of_ensureDirectory (made : d.ensureDirectory p = (d', .ok ())) :
    d'.isDirectory p := by
  rw [ensureDirectory] at made
  split at made
  next done =>
    cases made
    exact isDirectory_of_makeDirectory done
  next =>
    obtain ⟨rfl, done⟩ := Prod.mk.inj made
    split_ifs at done with dir
    exact dir

theorem isDirectoryAt_of_makeDirectories (sound : d.IsSound)
    (made : d.makeDirectories p = (d', .ok ())) (led : d'.locate p = .ok l) :
    d'.isDirectoryAt l := by
  cases up : p.parent? with
  | none =>
    have top : p.withAncestors = [] := by
      rw [Path.withAncestors]
      cases p.text.length with
      | zero => rfl
      | succ n => rw [Path.withAncestors.go, up]
    rw [makeDirectories, top] at made
    cases made
    have led := follow_steps (follow_of_locate led).2
    rw [← Path.steps, Path.steps_of_top up] at led
    cases led
    exact sound.start p
  | some r =>
    obtain ⟨n, long⟩ : ∃ n, p.text.length = n + 1 := by
      have less := (Path.prefix_parent? up).2
      rw [String.length_toList, String.length_toList] at less
      exact Nat.exists_eq_add_one.2 (Nat.zero_lt_of_lt less)
    have first : p.withAncestors = p :: Path.withAncestors.go n r := by
      rw [Path.withAncestors, long, Path.withAncestors.go, up]
    suffices isDir : d'.isDirectory p by
      rwa [isDirectory, led] at isDir
    rw [makeDirectories, first, ensureAll] at made
    split at made
    · split at made
      next => exact isDirectory_of_ensureDirectory made
      next failed => exact (failed _ made).elim
    · exact isDirectory_of_ensureDirectory made

theorem allows_ownerMode {access : Access} (own : access.isOwn) (u : Use) :
    { access with mode := ownerMode }.allows u := by
  have own : access.standing = .owner ∨ access.standing = .master := by
    simpa [Access.isOwn] using own
  obtain owner | master := own
  · rw [owner]
    cases u <;> decide
  · rw [master]
    cases u <;> decide

theorem setMode_eq {mode : BitVec 9} {access : Access} (led : d.locate p = .ok l)
    (there : d.item? l = some (.directory access)) : d.setMode p mode =
      if access.isOwn then .ok (d.put l (.directory { access with mode }))
      else .error .notOwner := by
  rw [setMode, led]
  simp only [bind, Except.bind]
  rw [there]
  rfl

end Pursuit.Files.Disk
