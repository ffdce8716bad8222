import Pursuit.Proofs.Files.Disk
import Pursuit.Proofs.Settings.Schema
import Pursuit.Settings.Store

/-! A saved profile is loaded as it was. Its document is the one of which no key has been
deleted. -/
namespace Pursuit.Settings

open Files (Disk Path)
open Toml (Deletion Statement)

/-! ## The document of a profile -/

def Profile.statements (c : Profile) : List Statement :=
  Statement.ofTable (Field.entries Codec.profileFields c)

def Profile.remaining (c : Profile) (gone : Deletion) : List Statement :=
  Statement.remaining gone (Field.entries Codec.profileFields c)

variable {c : Profile} {s : String}

theorem Profile.isSimple_statements (seed : c.run.seed.toNat ≤ 0x7fffffffffffffff) :
    ∀ st ∈ c.statements, st.IsSimple := by
  have neat : (Toml.Value.table (Field.entries Codec.profileFields c)).IsNeat Toml.maxDepth :=
    Codec.neat_entries ⟨by decide, by decide⟩ (Codec.profile_overlays seed)
  exact Toml.isSimple_ofTable neat

theorem exists_print (seed : c.run.seed.toNat ≤ 0x7fffffffffffffff) :
    ∃ s, c.print = .ok s ∧ Toml.Holds s c.statements := by
  obtain ⟨t, write, holds⟩ := Toml.exists_holds (Profile.isSimple_statements seed)
  refine ⟨.ofList t, ?_, holds⟩
  rw [Profile.statements] at write
  rw [Profile.print, Toml.write?, write]
  rfl

theorem Profile.seed_mem_statements (c : Profile) :
    Statement.assign ["seed"] (.integer c.run.seed.toNat) ∈ c.statements :=
  .tail _ (.tail _ (.tail _ (.head _)))

theorem print_of_large (large : 2 ^ 63 - 1 < c.run.seed.toNat) :
    c.print = .error (.serialize "out-of-range value for u64 type") := by
  have unwritten : (Statement.assign ["seed"] (.integer c.run.seed.toNat)).write? = none := by
    rw [Statement.write?, Toml.Value.write?, if_neg (by omega)]
    rfl
  rw [Profile.print, Toml.write?, ← Profile.statements,
    Toml.writeAll?_eq_none c.seed_mem_statements unwritten]
  rfl

theorem parse_of_holds (seed : c.run.seed.toNat ≤ 0x7fffffffffffffff) {gone : Deletion}
    (holds : Toml.Holds s (c.remaining gone)) : Profile.parse s =
      if gone.hits c.required then .error (.parse "not a settings document")
      else .ok (c.overlaid gone) := by
  have overlays : Field.Overlays 4 c _ _ _ _ := Codec.profile_overlays seed
  have distinct : (Codec.profileFields.map (·.key)).Nodup := by decide
  have assembled := Toml.assemble_remaining (fun e mem => (overlays.forall_entries e mem).2 gone)
    (distinct.sublist (Field.keys_entries _ c))
  have read : Codec.profile.read (.table (Toml.Node.toValues (Toml.Node.ofEntries
      (Toml.withoutEntries gone (Field.entries Codec.profileFields c))))) = _ :=
    (Field.overlay_without distinct gone c {}).trans (overlays.foldlM_salvage gone)
  rw [Profile.parse, Toml.read?_of_holds holds, Profile.remaining, assembled, Option.bind_some,
    read, List.append_nil]
  cases gone.hits c.required <;> rfl

theorem parse_print (seed : c.run.seed.toNat ≤ 0x7fffffffffffffff) :
    ∃ s, c.print = .ok s ∧ Profile.parse s = .ok c := by
  obtain ⟨s, print, holds⟩ := exists_print seed
  rw [Profile.statements, ← Deletion.remaining_nothing] at holds
  refine ⟨s, print, (parse_of_holds seed holds).trans ?_⟩
  rw [Deletion.hits_nothing]
  rfl

/-! ## Loading what was saved -/

theorem loadFile_of_read {d : Disk} {p : Path} (there : d.pathExists p) (read : d.read p = .ok s) :
    loadFile d p = some <$> Profile.parse s := by
  rw [loadFile, if_pos there, read]
  rfl

theorem loadFile_of_unread {d : Disk} {p : Path} {e : Files.Fault} (there : d.pathExists p)
    (unread : d.read p = .error e) : loadFile d p = .error (fileFault p e) := by
  rw [loadFile, if_pos there, unread]
  rfl

theorem loadFile_of_writeFile (print : c.print = .ok s) (parse : Profile.parse s = .ok c)
    {p : Path} {d d' : Disk} (written : writeFile c p d = .ok d') :
    ∃ l, d'.locate p = .ok l ∧ loadFile d' p =
      if d'.allows l .read then .ok (some c) else .error (fileFault p .accessDenied) := by
  have written : (d.write p s.toUTF8).mapError (fileFault p) = .ok d' := by
    rw [writeFile, print] at written
    exact written
  cases done : d.write p s.toUTF8 with
  | error e =>
    rw [done] at written
    cases written
  | ok disk =>
    rw [done] at written
    cases written
    obtain ⟨l, place, read⟩ := Disk.read_write done
    have there := Disk.pathExists_iff.2 ⟨l, place⟩
    refine ⟨l, place, ?_⟩
    split_ifs at read ⊢
    · rw [loadFile_of_read there read, parse]
      rfl
    · exact loadFile_of_unread there read

/-- What `save` writes is a document of the profile, and once it is written `loadFile` gives back
the same profile, with the same bits in every float, if the user may read the file. -/
theorem loadFile_of_save (c : Profile) (seed : c.run.seed.toNat ≤ 2 ^ 63 - 1) :
    (∃ s, c.print = .ok s ∧ Profile.parse s = .ok c) ∧
      ∀ (p : Path) (d d' : Disk), save c p d = (d', .ok ()) → ∃ l, d'.locate p = .ok l ∧
        loadFile d' p = if d'.allows l .read then .ok (some c)
          else .error (.io p.text "Permission denied (os error 13)") := by
  obtain ⟨s, print, parse⟩ := parse_print (c := c) seed
  refine ⟨⟨s, print, parse⟩, fun p d d' saved => ?_⟩
  rw [save] at saved
  split at saved
  next => cases saved
  next =>
    split at saved
    next => cases saved
    next written =>
      cases saved
      exact loadFile_of_writeFile print parse written

/-- A profile of numbers and texts that are hard to write. -/
def stubborn : Profile where
  run := {
    tickInterval := .ofBits 0x8000000000000000
    frameDelta := .ofBits 1
    seed := 0x7fffffffffffffff
    world :=
      { halfExtent := .ofBits 0x7f800000, cheeses := [], obstacles := [⟨.origin, .ofBits 1⟩] }
    cat := { waypoints := [] } }
  telemetry := {
    serviceName := "a 'b' \"c\" \\ \x07"
    filter := "'''\n\"\"\""
    endpoint := some "" }

theorem loadFile_of_save_stubborn : stubborn.run.seed.toNat ≤ 2 ^ 63 - 1 ∧
    (∃ s, stubborn.print = .ok s ∧ Profile.parse s = .ok stubborn) ∧
    ∃ d, save stubborn ⟨"/settings.toml"⟩ ⟨[], []⟩ = (d, .ok ()) ∧
      loadFile d ⟨"/settings.toml"⟩ = .ok (some stubborn) := by
  have seed : stubborn.run.seed.toNat ≤ 2 ^ 63 - 1 := by decide
  obtain ⟨⟨s, print, parse⟩, back⟩ := loadFile_of_save stubborn seed
  have ready : prepare ⟨[], []⟩ ⟨"/settings.toml"⟩ =
      (⟨[([], .directory { mode := 0o700 })], []⟩, .ok ()) := by
    cbv
  have saved : save stubborn ⟨"/settings.toml"⟩ ⟨[], []⟩ = (⟨[(["settings.toml"],
      .file { mode := 0o600 } s.toUTF8), ([], .directory { mode := 0o700 })], []⟩, .ok ()) := by
    rw [save, ready]
    dsimp only
    rw [writeFile, print]
    rfl
  obtain ⟨l, place, loaded⟩ := back _ _ _ saved
  obtain rfl : ["settings.toml"] = l := Except.ok.inj (.trans (.symm rfl) place)
  have readable : ({ mode := 0o600 } : Files.Access).allows .read := by decide
  exact ⟨seed, ⟨s, print, parse⟩, _, saved, loaded.trans (if_pos readable)⟩

end Pursuit.Settings
