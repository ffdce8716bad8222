import Pursuit.Proofs.Settings.Store

/-! Settings files from which keys or whole tables have been deleted. A key that is left has the
value that was written, and a deleted one the default of the record in which it stands, whatever
else is deleted. Only points and obstacles have no defaults: without one of their keys a file is not
a settings document. -/
namespace Pursuit.Settings

open Files (Disk Path)
open Toml (Deletion Statement)

/-- A document of a profile from which any keys, with all that is in them, have been deleted, in
whatever layout the statements that are left are written. If no key without a default is deleted
from a table that stays, the file loads, with the written value for every key that is left and the
default of its record for every other. If one is, the file is not a settings document. -/
theorem loadFile_remaining (c : Profile) (seed : c.run.seed.toNat ≤ 2 ^ 63 - 1) (gone : Deletion) :
    (∃ s, c.print = .ok s ∧ Toml.Holds s c.statements) ∧ (c.remaining gone).Sublist c.statements ∧
    (∃ t, Statement.writeAll? (c.remaining gone) = some t ∧
      Toml.Holds (.ofList t) (c.remaining gone)) ∧
    ∀ (d : Disk) (p : Path) (s : String), d.pathExists p → d.read p = .ok s →
      Toml.Holds s (c.remaining gone) →
      (gone.hits c.required = false → loadFile d p = .ok (some (c.overlaid gone))) ∧
      (gone.hits c.required → ∃ reason, loadFile d p = .error (.parse reason)) := by
  have part : (c.remaining gone).Sublist c.statements := Statement.remaining_sublist ..
  have simple : ∀ st ∈ c.remaining gone, st.IsSimple := fun st mem =>
    Profile.isSimple_statements seed st (part.subset mem)
  refine ⟨exists_print seed, part, Toml.exists_holds simple, ?_⟩
  intro d p s there read holds
  rw [loadFile_of_read there read, parse_of_holds seed holds]
  refine ⟨fun fine => ?_, fun spoiled => ⟨"not a settings document", ?_⟩⟩
  · rw [fine]
    rfl
  · rw [spoiled]
    rfl

/-- The tick interval is deleted, and all that is set for the cat but its waypoints; the mouse and
the telemetry are deleted as whole tables. -/
def trimmed : Deletion
  | [.key "simulation"], k => k == "tick_interval" || k == "mouse"
  | [.key "simulation", .key "cat"], k => k != "waypoints"
  | place, k => place.isEmpty && k == "telemetry"

def uncentred : Deletion
  | [.key "simulation", .key "world", .key "obstacles", .item 0, .key "center"], k => k == "y"
  | _, _ => false

theorem loadFile_remaining_stubborn : stubborn.run.seed.toNat ≤ 2 ^ 63 - 1 ∧
    (∃ s d, Toml.Holds s (stubborn.remaining trimmed) ∧ loadFile d ⟨"/settings.toml"⟩ = .ok (some {
      run := {
        frameDelta := stubborn.run.frameDelta
        seed := 0x7fffffffffffffff
        world := stubborn.run.world
        cat := { waypoints := [] } } })) ∧
    ∃ s d reason, Toml.Holds s (stubborn.remaining uncentred) ∧
      loadFile d ⟨"/settings.toml"⟩ = .error (.parse reason) := by
  have seed : stubborn.run.seed.toNat ≤ 2 ^ 63 - 1 := by decide
  have stored (s : String) :
      ∃ d : Disk, d.pathExists ⟨"/settings.toml"⟩ ∧ d.read ⟨"/settings.toml"⟩ = .ok s := by
    have written : Disk.write ⟨[], []⟩ ⟨"/settings.toml"⟩ s.toUTF8 =
        .ok ⟨[(["settings.toml"], .file { mode := 0o600 } s.toUTF8)], []⟩ := rfl
    have readable : ({ mode := 0o600 } : Files.Access).allows .read := by decide
    obtain ⟨l, place, read⟩ := Disk.read_write written
    obtain rfl : ["settings.toml"] = l := Except.ok.inj (.trans (.symm rfl) place)
    exact ⟨_, Disk.pathExists_iff.2 ⟨_, place⟩, read.trans (if_pos readable)⟩
  obtain ⟨-, -, ⟨t, -, holds⟩, loads⟩ := loadFile_remaining stubborn seed trimmed
  obtain ⟨-, -, ⟨t', -, holds'⟩, loads'⟩ := loadFile_remaining stubborn seed uncentred
  obtain ⟨d, there, read⟩ := stored (.ofList t)
  obtain ⟨d', there', read'⟩ := stored (.ofList t')
  obtain ⟨reason, spoiled⟩ := (loads' _ _ _ there' read' holds').2 (by decide)
  exact ⟨seed, ⟨_, d, holds, (loads _ _ _ there read holds).1 (by decide)⟩,
    _, d', reason, holds', spoiled⟩

end Pursuit.Settings
