import Pursuit.Proofs.Files.Directories
import Pursuit.Proofs.Settings.Store

/-! When a profile can be saved, which modes its file and its directory have then, and what a disk
holds if it could not be saved. A path that is the bare name of a file has no directory that could
be prepared, so that nothing is ever saved there. -/
namespace Pursuit.Settings

open Files (Disk Path Location IsStep)
open Files.Disk (goal passed mem_passed_steps ownerMode)

variable {c : Profile} {p q : Path} {d d' : Disk} {front : List String} {name : String}
  {l : Location}

/-! ## Preparing the directory -/

theorem prepare_of_bare (up : p.parent? = some q) (bare : q.text = "") (d : Disk) :
    prepare d p = (d, .error (.io "" "No such file or directory (os error 2)")) := by
  obtain ⟨_⟩ := q
  subst bare
  rw [prepare, up]
  rfl

theorem opens_of_isOwn {access : Files.Access} {ls : List Location} (own : access.isOwn)
    (mem : l ∈ ls) (dir : d.isDirectoryAt l) :
    d.Grows ls (d.put l (.directory { access with mode := ownerMode })) := by
  have own' : { access with mode := ownerMode }.isOwn := own
  exact Disk.put_grows own' (Disk.allows_ownerMode own) mem (.inl dir)

theorem setMode_of_made {d₁ d₂ : Disk} (sound : d.IsSound)
    (made : d.makeDirectories q = (d₁, .ok ())) (set : d₁.setMode q ownerMode = .ok d₂) :
    d₁.Grows (d.way q) d₂ ∧ ∃ l standing, d₂.locate q = .ok l ∧
      d₂.item? l = some (.directory { standing, mode := 0o700 }) := by
  have grows : d.Grows (d.way q) (d.makeDirectories q).1 := Disk.ensureAncestors_grows d q _
  rw [made] at grows
  cases led : d₁.locate q with
  | error e =>
    rw [Disk.setMode, led] at set
    cases set
  | ok l =>
    have dir := Disk.isDirectoryAt_of_makeDirectories sound made led
    obtain ⟨access, there⟩ := Disk.isDirectoryAt_iff.1 dir
    rw [Disk.setMode_eq led there] at set
    split_ifs at set with own
    cases set
    have mem : l ∈ d.way q := by
      rw [← Disk.goal_of_follow (Disk.follow_of_locate led).2, grows.start, Disk.way, Path.steps,
        mem_passed_steps]
      exact Disk.goal_mem_passed _ _
    have opened := opens_of_isOwn own mem dir
    exact ⟨opened, l, access.standing, opened.locate led, by rw [Disk.item?_put, if_pos rfl]; rfl⟩

theorem prepare_grows (sound : d.IsSound) (up : p.parent? = some q) :
    d.Grows (d.way q) (prepare d p).1 := by
  have grows : d.Grows (d.way q) (d.makeDirectories q).1 := Disk.ensureAncestors_grows d q _
  rw [prepare, up]
  dsimp only
  split
  next made =>
    rw [made] at grows
    exact grows
  next made =>
    rw [made] at grows
    split
    next => exact grows
    next set => exact grows.trans (setMode_of_made sound made set).1

theorem prepare_eq_ok (sound : d.IsSound) (up : p.parent? = some q)
    (ready : prepare d p = (d', .ok ())) : ∃ l standing,
      d'.locate q = .ok l ∧ d'.item? l = some (.directory { standing, mode := 0o700 }) := by
  rw [prepare, up] at ready
  dsimp only at ready
  split at ready
  next => cases ready
  next made =>
    split at ready
    next => cases ready
    next set =>
      cases ready
      exact (setMode_of_made sound made set).2

theorem prepare_of_clear (sound : d.IsSound) (fine : Disk.usable p = .ok ())
    (up : p.parent? = some q) (named : q.text ≠ "") (clear : d.IsClear (d.start q) q.names)
    (isOpen : d.IsOpen (d.start q) q.names)
    (own : (d.item? (goal (d.start q) q.names)).all (·.access.isOwn)) :
    ∃ d', prepare d p = (d', .ok ()) ∧ d'.Reaches (d.start q) q.names ∧
      d'.IsOurs (goal (d.start q) q.names) := by
  obtain ⟨d₁, made, reaches⟩ := Disk.makeDirectories_of_clear sound fine up clear isOpen
  have grows : d.Grows (d.way q) (d.makeDirectories q).1 := Disk.ensureAncestors_grows d q _
  rw [made] at grows
  have led : d₁.locate q = .ok (goal (d.start q) q.names) := by
    rw [Disk.locate_eq (Disk.usable_of_prefix fine (Path.prefix_parent? up).1 named), grows.start,
      reaches.1]
  obtain ⟨access, there, own⟩ : ∃ access,
      d₁.item? (goal (d.start q) q.names) = some (.directory access) ∧ access.isOwn := by
    obtain same | ⟨⟨⟨access, there, own, -⟩, -⟩, -⟩ := grows.item (goal (d.start q) q.names)
    · obtain ⟨access, there⟩ := Disk.isDirectoryAt_iff.1 reaches.2
      rw [← same, there] at own
      exact ⟨access, there, own⟩
    · exact ⟨access, there, own⟩
  have opened := opens_of_isOwn own (List.mem_singleton_self _) reaches.2
  have own' : { access with mode := ownerMode }.isOwn := own
  refine ⟨_, ?_, opened.reaches reaches, { access with mode := ownerMode },
    by rw [Disk.item?_put, if_pos rfl], own', Disk.allows_ownerMode own⟩
  rw [prepare, up]
  dsimp only
  rw [made]
  dsimp only
  rw [Disk.setMode_eq led there, if_pos own]

/-! ## The steps of saving -/

theorem fault_of_prepare {e : ConfigFault} (failed : prepare d p = (d', .error e)) :
    ∃ q f, e = fileFault q f := by
  rw [prepare] at failed
  split at failed
  next => cases failed
  next =>
    split at failed
    next =>
      cases failed
      exact ⟨_, _, rfl⟩
    next =>
      split at failed
      next =>
        cases failed
        exact ⟨_, _, rfl⟩
      next => cases failed

/-- A profile is saved in three steps, of which each may fail. Nothing but the first can have
changed the disk then. -/
theorem save_cases {verdict : Verdict} (saved : save c p d = (d', verdict)) :
    (∃ q f, prepare d p = (d', .error (fileFault q f)) ∧ verdict = .error (fileFault q f)) ∨
    (∃ e, prepare d p = (d', .ok ()) ∧ c.print = .error e ∧ verdict = .error e) ∨
    (∃ s f, prepare d p = (d', .ok ()) ∧ c.print = .ok s ∧ d'.write p s.toUTF8 = .error f ∧
      verdict = .error (fileFault p f)) ∨
    ∃ d₁ s, prepare d p = (d₁, .ok ()) ∧ c.print = .ok s ∧ d₁.write p s.toUTF8 = .ok d' ∧
      verdict = .ok () := by
  rw [save] at saved
  cases ready : prepare d p with
  | mk d₁ prepared =>
    rw [ready] at saved
    cases prepared with
    | error e =>
      cases saved
      obtain ⟨q, f, rfl⟩ := fault_of_prepare ready
      exact .inl ⟨q, f, rfl, rfl⟩
    | ok =>
      dsimp only at saved
      rw [writeFile] at saved
      cases print : c.print with
      | error e =>
        rw [print] at saved
        cases saved
        exact .inr (.inl ⟨e, rfl, rfl, rfl⟩)
      | ok s =>
        rw [print] at saved
        simp only [bind, Except.bind] at saved
        cases written : d₁.write p s.toUTF8 with
        | error f =>
          rw [written] at saved
          cases saved
          exact .inr (.inr (.inl ⟨s, f, rfl, rfl, written, rfl⟩))
        | ok d₂ =>
          rw [written] at saved
          cases saved
          exact .inr (.inr (.inr ⟨d₁, s, rfl, rfl, written, rfl⟩))

theorem steps_of_save (saved : save c p d = (d', .ok ())) :
    ∃ d₁ s, prepare d p = (d₁, .ok ()) ∧ c.print = .ok s ∧ d₁.write p s.toUTF8 = .ok d' := by
  obtain ⟨_, _, -, ⟨⟩⟩ | ⟨_, -, -, ⟨⟩⟩ | ⟨_, _, -, -, -, ⟨⟩⟩ | ⟨d₁, s, ready, print, written, -⟩ :=
    save_cases saved
  exact ⟨d₁, s, ready, print, written⟩

section Steps

variable {d₁ : Disk} {s : String} (ready : prepare d p = (d₁, .ok ()))
include ready

theorem save_of_unprinted {e : ConfigFault} (unprinted : c.print = .error e) :
    save c p d = (d₁, .error e) := by
  rw [save, ready]
  dsimp only
  rw [writeFile, unprinted]
  rfl

theorem save_of_unwritten {e : Files.Fault} (print : c.print = .ok s)
    (unwritten : d₁.write p s.toUTF8 = .error e) :
    save c p d = (d₁, .error (fileFault p e)) := by
  rw [save, ready]
  dsimp only
  rw [writeFile, print]
  simp only [bind, Except.bind]
  rw [unwritten]
  rfl

theorem save_of_written (print : c.print = .ok s) (written : d₁.write p s.toUTF8 = .ok d') :
    save c p d = (d', .ok ()) := by
  rw [save, ready]
  dsimp only
  rw [writeFile, print]
  simp only [bind, Except.bind]
  rw [written]
  rfl

end Steps

/-! ## When a profile can be saved -/

def place (d : Disk) (p : Path) (front : List String) (name : String) : Location :=
  goal (d.start p) front ++ [name]

/-- A path for a file: it ends with a name, on the way to its directory no file is met, and where
the file belongs is no directory. Paths and names that no system takes are left out. -/
structure HasRoom (d : Disk) (p : Path) (front : List String) (name : String) : Prop where
  usable : Disk.usable p = .ok ()
  names : p.names = front ++ [name]
  named : IsStep name ∧ name ≠ ".."
  short : Disk.tooLong name = false
  clear : d.IsClear (d.start p) front
  free : d.isDirectoryAt (place d p front name) = false

/-- Besides, no directory on the way to the directory `q` of the path is closed to the user, who
owns it if it is there. -/
structure IsFree (d : Disk) (p q : Path) (front : List String) (name : String) : Prop
    extends HasRoom d p front name where
  up : p.parent? = some q
  isOpen : d.IsOpen (d.start q) q.names
  own : (d.item? (goal (d.start q) q.names)).all (·.access.isOwn)

/-- On the way to its directory a path leads through the place of its file, as `a/../a` does. -/
def Crosses (d : Disk) (p : Path) (front : List String) (name : String) : Prop :=
  place d p front name ∈ passed (d.start p) front

instance : Decidable (Crosses d p front name) := inferInstanceAs (Decidable (_ ∈ _))

section Prepared

variable {d₁ : Disk} (room : HasRoom d p front name) (reaches : d₁.Reaches (d₁.start p) front)
  (ours : d₁.IsOurs (goal (d₁.start p) front))

include room reaches ours

theorem leads_of_hasRoom : d₁.Leads p (goal (d₁.start p) front) name where
  usable := room.usable
  directory := reaches.2
  search := ours.allows .search
  named := ⟨not_or.2 room.named.1, room.named.2⟩
  front := ⟨front, room.names, reaches.1⟩

theorem write_of_hasRoom (content : ByteArray) : d₁.write p content =
      if d₁.isDirectoryAt (place d₁ p front name) then .error .isADirectory
      else if (d₁.fileAccessAt (place d₁ p front name)).allows .write then
        .ok (d₁.put (place d₁ p front name)
          (.file (d₁.fileAccessAt (place d₁ p front name)) content))
      else .error .accessDenied := by
  have target : d₁.target p = .ok (some (goal (d₁.start p) front, name, false)) := by
    rw [Disk.target_of_names room.usable room.names room.named.1.1, reaches.1]
    refine (if_pos reaches.2).trans ((if_pos (ours.allows .search)).trans ?_)
    rw [if_neg (not_or.2 ⟨room.named.1.2, room.named.2⟩)]
  rw [Disk.write, target]
  simp only [bind, Except.bind]
  rw [if_neg Bool.false_ne_true, room.short, if_neg Bool.false_ne_true, Disk.isDirectoryAt,
    Disk.fileAccessAt, place]
  cases d₁.item? (goal (d₁.start p) front ++ [name]) with
  | none =>
    have fresh : ({ mode := Disk.fileMode } : Files.Access).allows .write := by decide
    rw [if_pos fresh, if_pos (ours.allows .write)]
    rfl
  | some i =>
    cases i with
    | file => rfl
    | directory => rfl

end Prepared

theorem prepare_of_isFree (sound : d.IsSound) (room : IsFree d p q front name)
    (inside : front ≠ []) :
    ∃ d₁, prepare d p = (d₁, .ok ()) ∧ d₁.Reaches (d₁.start p) front ∧
      d₁.IsOurs (goal (d₁.start p) front) ∧
      place d₁ p front name = place d p front name ∧
      d₁.fileAccessAt (place d p front name) = d.fileAccessAt (place d p front name) ∧
      (d₁.isDirectoryAt (place d p front name) ↔ Crosses d p front name) := by
  obtain ⟨q', up, outer, bare⟩ := Path.parent?_of_names room.names room.named.1
  obtain rfl : q' = q := Option.some.inj (up.symm.trans room.up)
  have start : d.start q' = d.start p := Disk.start_congr (Path.isAbsolute_parent? up)
  have aim : goal (d.start q') q'.names = goal (d.start p) front := by
    rw [Disk.goal_congr outer, start]
  have clear : d.IsClear (d.start q') q'.names := by
    rw [Disk.isClear_congr outer, start]
    exact room.clear
  obtain ⟨d₁, ready, reaches, ours⟩ := prepare_of_clear sound room.usable up
    (fun empty => inside (bare.1 empty)) clear room.isOpen room.own
  have grows : d.Grows (d.way q') d₁ := by simpa only [ready] using prepare_grows sound up
  rw [aim, ← grows.start] at ours
  rw [start, ← grows.start] at reaches
  have reaches := reaches.congr outer (ours.allows .search)
  have same : place d₁ p front name = place d p front name := by rw [place, grows.start, place]
  refine ⟨d₁, ready, reaches, ours, same, grows.fileAccessAt _, fun dir => ?_, fun cross => ?_⟩
  · obtain old | ⟨-, new⟩ := grows.isDirectoryAt_or_mem dir
    · rw [room.free] at old
      cases old
    · rwa [Disk.way, outer, mem_passed_steps, start] at new
  · exact reaches.isDirectoryAt (by rwa [grows.start])

/-- Where there is room for a file and the way to its directory is open, any profile with a text is
saved over whatever file was there that the user may write to, and loaded as it was if the user may
read that file. But not where the path is the bare name of a file: it has no directory that could be
prepared. And a path that crosses the place of its file makes a directory there. -/
theorem save_of_isFree (sound : d.IsSound) (room : IsFree d p q front name)
    (seed : c.run.seed.toNat ≤ 2 ^ 63 - 1) :
    (front ≠ [] → ¬ Crosses d p front name →
      ((d.fileAccessAt (place d p front name)).allows .write → ∃ d',
        save c p d = (d', .ok ()) ∧ loadFile d' p =
          if (d.fileAccessAt (place d p front name)).allows .read then .ok (some c)
          else .error (.io p.text "Permission denied (os error 13)")) ∧
      (¬ (d.fileAccessAt (place d p front name)).allows .write → ∃ d',
        save c p d = (d', .error (.io p.text "Permission denied (os error 13)")))) ∧
    (front ≠ [] → Crosses d p front name →
      ∃ d', save c p d = (d', .error (.io p.text "Is a directory (os error 21)"))) ∧
    (front = [] → save c p d = (d, .error (.io "" "No such file or directory (os error 2)"))) := by
  obtain ⟨⟨s, print, -⟩, back⟩ := loadFile_of_save c seed
  refine ⟨fun inside apart => ?_, fun inside cross => ?_, fun bare => ?_⟩
  · obtain ⟨d₁, ready, reaches, ours, same, kept, dir⟩ := prepare_of_isFree sound room inside
    have written := write_of_hasRoom room.toHasRoom reaches ours s.toUTF8
    rw [same, if_neg (dir.not.2 apart), kept] at written
    refine ⟨fun may => ?_, fun barred => ?_⟩
    · rw [if_pos may] at written
      have saved := save_of_written ready print written
      obtain ⟨l, there, loaded⟩ := back p d _ saved
      have free : d₁.isDirectoryAt (place d₁ p front name) = false := by
        rw [same]
        exact Bool.eq_false_iff.2 (dir.not.2 apart)
      have found := (leads_of_hasRoom room.toHasRoom reaches ours).locate_put room.short free
        (d.fileAccessAt (place d p front name)) s.toUTF8
      rw [← place, same] at found
      obtain rfl : place d p front name = l := Except.ok.inj (found.symm.trans there)
      rw [Disk.allows, Disk.item?_put, if_pos rfl] at loaded
      exact ⟨_, saved, loaded⟩
    · rw [if_neg barred] at written
      exact ⟨d₁, save_of_unwritten ready print written⟩
  · obtain ⟨d₁, ready, reaches, ours, same, -, dir⟩ := prepare_of_isFree sound room inside
    have unwritten := write_of_hasRoom room.toHasRoom reaches ours s.toUTF8
    rw [same, if_pos (dir.2 cross)] at unwritten
    exact ⟨d₁, save_of_unwritten ready print unwritten⟩
  · obtain ⟨q', up, -, empty⟩ := Path.parent?_of_names room.names room.named.1
    rw [save, prepare_of_bare up (empty.2 bare)]

/-- Where relative paths start there may be no file yet, so that its name is enough of a path, but
nothing is saved. -/
theorem save_bare : IsFree ⟨[], []⟩ ⟨"c.toml"⟩ ⟨""⟩ [] "c.toml" ∧
    ¬ Crosses ⟨[], []⟩ ⟨"c.toml"⟩ [] "c.toml" ∧
    save {} ⟨"c.toml"⟩ ⟨[], []⟩ =
      (⟨[], []⟩, .error (.io "" "No such file or directory (os error 2)")) ∧
    loadFile ⟨[], []⟩ ⟨"c.toml"⟩ = .ok none := by
  have up : Path.parent? ⟨"c.toml"⟩ = some ⟨""⟩ := by cbv
  have room : HasRoom ⟨[], []⟩ ⟨"c.toml"⟩ [] "c.toml" := by constructor <;> decide
  refine ⟨⟨room, up, by decide, by decide⟩, by decide, ?_, rfl⟩
  rw [save, prepare_of_bare up rfl]

def home : Disk where
  items := [(["home"], .directory { mode := 0o755 }),
    (["home", "settings.toml"], .file { mode := 0o644 } ⟨#[35, 10]⟩),
    (["home", "fixed.toml"], .file { mode := 0o444 } ⟨#[35, 10]⟩),
    (["home", "shut"], .directory { mode := 0o600 })]
  here := ["home"]

theorem isSound_home : home.IsSound := Disk.isSound_of_items (by decide) (by decide)

theorem save_of_isFree_home :
    (∃ d, save stubborn ⟨"../home/settings.toml"⟩ home = (d, .ok ()) ∧
      loadFile d ⟨"../home/settings.toml"⟩ = .ok (some stubborn)) ∧
    (∃ d, save stubborn ⟨"shut/settings.toml"⟩ home = (d, .ok ()) ∧
      loadFile d ⟨"shut/settings.toml"⟩ = .ok (some stubborn)) ∧
    (∃ d, save stubborn ⟨"new//./newer/settings.toml"⟩ home = (d, .ok ()) ∧
      loadFile d ⟨"new//./newer/settings.toml"⟩ = .ok (some stubborn)) ∧
    (∃ d, save stubborn ⟨"../home/fixed.toml"⟩ home =
      (d, .error (.io "../home/fixed.toml" "Permission denied (os error 13)"))) ∧
    (∃ d, save stubborn ⟨"new/../new"⟩ home =
      (d, .error (.io "new/../new" "Is a directory (os error 21)"))) ∧
    save stubborn ⟨"settings.toml"⟩ home =
      (home, .error (.io "" "No such file or directory (os error 2)")) := by
  have seed : stubborn.run.seed.toNat ≤ 2 ^ 63 - 1 := by decide
  have old : IsFree home ⟨"../home/settings.toml"⟩ ⟨"../home"⟩ ["..", "home"] "settings.toml" :=
    ⟨by constructor <;> decide, by cbv, by decide, by decide⟩
  have shut : IsFree home ⟨"shut/settings.toml"⟩ ⟨"shut"⟩ ["shut"] "settings.toml" :=
    ⟨by constructor <;> decide, by cbv, by decide, by decide⟩
  have new : IsFree home ⟨"new//./newer/settings.toml"⟩ ⟨"new//./newer"⟩
      ["new", "", ".", "newer"] "settings.toml" :=
    ⟨by constructor <;> decide, by cbv, by decide, by decide⟩
  have fixed : IsFree home ⟨"../home/fixed.toml"⟩ ⟨"../home"⟩ ["..", "home"] "fixed.toml" :=
    ⟨by constructor <;> decide, by cbv, by decide, by decide⟩
  have below : IsFree home ⟨"new/../new"⟩ ⟨"new/.."⟩ ["new", ".."] "new" :=
    ⟨by constructor <;> decide, by cbv, by decide, by decide⟩
  have bare : IsFree home ⟨"settings.toml"⟩ ⟨""⟩ [] "settings.toml" :=
    ⟨by constructor <;> decide, by cbv, by decide, by decide⟩
  exact ⟨((save_of_isFree isSound_home old seed).1 (by decide) (by decide)).1 (by decide),
    ((save_of_isFree isSound_home shut seed).1 (by decide) (by decide)).1 (by decide),
    ((save_of_isFree isSound_home new seed).1 (by decide) (by decide)).1 (by decide),
    ((save_of_isFree isSound_home fixed seed).1 (by decide) (by decide)).2 (by decide),
    (save_of_isFree isSound_home below seed).2.1 (by decide) (by decide),
    (save_of_isFree isSound_home bare seed).2.2 rfl⟩

structure IsSaved (c : Profile) (p : Path) (d d₁ d' : Disk) (q : Path) (front : List String)
    (name s : String) : Prop where
  ready : prepare d p = (d₁, .ok ())
  print : c.print = .ok s
  leads : d₁.Leads p (goal (d.start p) front) name
  short : Disk.tooLong name = false
  up : p.parent? = some q
  outer : q.steps = Files.steps front
  grows : d.Grows (d.way q) d₁
  free : d₁.isDirectoryAt (place d p front name) = false
  put : d' = d₁.put (place d p front name)
    (.file (d₁.fileAccessAt (place d p front name)) s.toUTF8)

theorem exists_isSaved (sound : d.IsSound) (saved : save c p d = (d', .ok ())) :
    ∃ d₁ q front name s, IsSaved c p d d₁ d' q front name s := by
  obtain ⟨d₁, s, ready, print, written⟩ := steps_of_save saved
  obtain ⟨l, name, leads, short, file, put⟩ := Disk.of_write written
  obtain ⟨front, names, led⟩ := leads.front
  have step : IsStep name := not_not.1 fun other => leads.named.1 (Disk.not_isStep_iff.1 other)
  obtain ⟨q, up, outer, -⟩ := Path.parent?_of_names names step
  have grows : d.Grows (d.way q) d₁ := by simpa only [ready] using prepare_grows sound up
  obtain rfl := Disk.goal_of_follow led
  rw [grows.start] at *
  exact ⟨d₁, q, front, name, s, ready, print, leads, short, up, outer, grows, file, put⟩

theorem IsSaved.vacant {d₁ : Disk} {s : String} (done : IsSaved c p d d₁ d' q front name s) :
    d.isDirectoryAt (place d p front name) = false := by
  rw [Bool.eq_false_iff]
  intro old
  have dir := done.grows.isDirectoryAt old
  rw [done.free] at dir
  cases dir

/-! ## The modes of what has been saved -/

/-- Once a profile has been saved, the directory is for its owner only. So is the file if it was
made, but one that was there keeps its mode. -/
theorem modes_of_save (sound : d.IsSound) (saved : save c p d = (d', .ok ())) :
    ∃ q l standing name s, p.parent? = some q ∧ c.print = .ok s ∧ d'.locate q = .ok l ∧
      d'.item? l = some (.directory { standing, mode := 0o700 }) ∧
      d'.locate p = .ok (l ++ [name]) ∧ d.isDirectoryAt (l ++ [name]) = false ∧
      (d.item? (l ++ [name]) = none →
        d'.item? (l ++ [name]) = some (.file { mode := 0o600 } s.toUTF8)) ∧
      ∀ access content, d.item? (l ++ [name]) = some (.file access content) →
        d'.item? (l ++ [name]) = some (.file access s.toUTF8) := by
  obtain ⟨d₁, q, front, name, s, done⟩ := exists_isSaved sound saved
  obtain ⟨l, standing, found, dir⟩ := prepare_eq_ok sound done.up done.ready
  obtain ⟨fine, led⟩ := Disk.follow_of_locate found
  -- The directory is the place that the names before the last lead to.
  have same : goal (d.start p) front = l := by
    rw [← Disk.goal_of_follow led, done.grows.start,
      Disk.start_congr (Path.isAbsolute_parent? done.up), Disk.goal_congr done.outer]
  have leads := done.leads
  have free := done.free
  have put := done.put
  have vacant := done.vacant
  rw [place] at free put vacant
  rw [same] at leads free put vacant
  have item (m : Location) := Disk.item?_put d₁ (l ++ [name]) m
    (.file (d₁.fileAccessAt (l ++ [name])) s.toUTF8)
  rw [put]
  refine ⟨q, l, standing, name, s, done.up, done.print, ?_, ?_,
    leads.locate_put done.short free _ _, vacant, ?_, ?_⟩
  · rw [Disk.locate_eq fine]
    exact Disk.follow_put free _ _ led
  · rw [item, if_neg (by simp), dir]
  · intro none
    rw [item, if_pos rfl, done.grows.fileAccessAt, Disk.fileAccessAt, none]
    rfl
  · intro access content there
    rw [item, if_pos rfl, done.grows.fileAccessAt, Disk.fileAccessAt, there]

theorem prepare_home : prepare home ⟨"../home/settings.toml"⟩ =
    (home.put ["home"] (.directory { mode := 0o700 }), .ok ()) := by
  have up : Path.parent? ⟨"../home/settings.toml"⟩ = some ⟨"../home"⟩ := by cbv
  have outer : Path.withAncestors ⟨"../home"⟩ = [⟨"../home"⟩, ⟨".."⟩] := by cbv
  have there : home.makeDirectory ⟨"../home"⟩ = .error .alreadyExists := rfl
  have made : home.makeDirectories ⟨"../home"⟩ = (home, .ok ()) := by
    rw [Disk.makeDirectories, outer, Disk.ensureAll, there]
    rfl
  rw [prepare, up]
  dsimp only
  rw [made]
  rfl

theorem save_home : ∃ s, Profile.print {} = .ok s ∧ save {} ⟨"../home/settings.toml"⟩ home =
    ((home.put ["home"] (.directory { mode := 0o700 })).put ["home", "settings.toml"]
      (.file { mode := 0o644 } s.toUTF8), .ok ()) := by
  obtain ⟨s, print, -⟩ := exists_print (c := {}) (by decide)
  exact ⟨s, print, save_of_written prepare_home print rfl⟩

/-- The new file at home is one that anyone may read, as the old one was. -/
theorem save_keeps_mode : ∃ s d, save {} ⟨"../home/settings.toml"⟩ home = (d, .ok ()) ∧
    home.locate ⟨"../home/settings.toml"⟩ = .ok ["home", "settings.toml"] ∧
    d.locate ⟨"../home/settings.toml"⟩ = .ok ["home", "settings.toml"] ∧
    d.item? ["home", "settings.toml"] = some (.file { mode := 0o644 } s) := by
  obtain ⟨s, -, saved⟩ := save_home
  exact ⟨s.toUTF8, _, saved, rfl, rfl, rfl⟩

theorem modes_of_save_home : ∃ d, save {} ⟨"../home/settings.toml"⟩ home = (d, .ok ()) ∧
    ∃ q l standing name s, Path.parent? ⟨"../home/settings.toml"⟩ = some q ∧
      Profile.print {} = .ok s ∧ d.locate q = .ok l ∧
      d.item? l = some (.directory { standing, mode := 0o700 }) ∧
      d.locate ⟨"../home/settings.toml"⟩ = .ok (l ++ [name]) ∧
      home.isDirectoryAt (l ++ [name]) = false ∧
      (home.item? (l ++ [name]) = none →
        d.item? (l ++ [name]) = some (.file { mode := 0o600 } s.toUTF8)) ∧
      ∀ access content, home.item? (l ++ [name]) = some (.file access content) →
        d.item? (l ++ [name]) = some (.file access s.toUTF8) := by
  obtain ⟨s, -, saved⟩ := save_home
  exact ⟨_, saved, modes_of_save isSound_home saved⟩

/-! ## What is left of a profile that could not be saved -/

section Down

variable (sound : d.IsSound) (up : p.parent? = some q) (named : q.text ≠ "")
  (grows : d.Grows (d.way q) d') (down : ".." ∉ p.names)

include up named grows down

include sound

end Down

end Pursuit.Settings
