import Pursuit.Proofs.Settings.Codec
import Pursuit.Settings.Schema

/-! What profiles are read back as from their documents, of which keys may have been deleted. Only
the seed may be too great for a whole number of a document, which has a sign. -/
namespace Pursuit.Settings

open Arena (Obstacle)
open Toml (Deletion Keys)

variable {depth : ℕ}

/-! ## What is left of settings -/

def WorldSettings.overlaid (w : WorldSettings) (gone : Deletion) : WorldSettings where
  halfExtent := gone.pick "half_extent" w.halfExtent ({} : WorldSettings).halfExtent
  cheeses := gone.pick "cheeses" w.cheeses ({} : WorldSettings).cheeses
  obstacles := gone.pick "obstacles" w.obstacles ({} : WorldSettings).obstacles

def CatSettings.overlaid (c : CatSettings) (gone : Deletion) : CatSettings where
  patrolSpeed := gone.pick "patrol_speed" c.patrolSpeed ({} : CatSettings).patrolSpeed
  chaseSpeed := gone.pick "chase_speed" c.chaseSpeed ({} : CatSettings).chaseSpeed
  viewRange := gone.pick "view_range" c.viewRange ({} : CatSettings).viewRange
  viewAngle := gone.pick "view_angle" c.viewAngle ({} : CatSettings).viewAngle
  attackRange := gone.pick "attack_range" c.attackRange ({} : CatSettings).attackRange
  stoppingDistance :=
    gone.pick "stopping_distance" c.stoppingDistance ({} : CatSettings).stoppingDistance
  spawn := gone.pick "spawn" c.spawn ({} : CatSettings).spawn
  waypoints := gone.pick "waypoints" c.waypoints ({} : CatSettings).waypoints

def MouseSettings.overlaid (m : MouseSettings) (gone : Deletion) : MouseSettings where
  speed := gone.pick "speed" m.speed ({} : MouseSettings).speed
  safeDistance := gone.pick "safe_distance" m.safeDistance ({} : MouseSettings).safeDistance
  escapeRadius := gone.pick "escape_radius" m.escapeRadius ({} : MouseSettings).escapeRadius
  wanderRadius := gone.pick "wander_radius" m.wanderRadius ({} : MouseSettings).wanderRadius
  stoppingDistance :=
    gone.pick "stopping_distance" m.stoppingDistance ({} : MouseSettings).stoppingDistance
  spawn := gone.pick "spawn" m.spawn ({} : MouseSettings).spawn
  escapeCenter := gone.pick "escape_center" m.escapeCenter ({} : MouseSettings).escapeCenter

def RunSettings.overlaid (r : RunSettings) (gone : Deletion) : RunSettings where
  tickInterval := gone.pick "tick_interval" r.tickInterval ({} : RunSettings).tickInterval
  frameDelta := gone.pick "frame_delta" r.frameDelta ({} : RunSettings).frameDelta
  seed := gone.pick "seed" r.seed ({} : RunSettings).seed
  world := gone.pick "world" (r.world.overlaid (gone.under (.key "world"))) ({} : RunSettings).world
  cat := gone.pick "cat" (r.cat.overlaid (gone.under (.key "cat"))) ({} : RunSettings).cat
  mouse := gone.pick "mouse" (r.mouse.overlaid (gone.under (.key "mouse"))) ({} : RunSettings).mouse

def TelemetrySettings.overlaid (t : TelemetrySettings) (gone : Deletion) : TelemetrySettings where
  serviceName := gone.pick "service_name" t.serviceName ({} : TelemetrySettings).serviceName
  filter := gone.pick "filter" t.filter ({} : TelemetrySettings).filter
  logFormat := gone.pick "log_format" t.logFormat ({} : TelemetrySettings).logFormat
  endpoint := gone.pick "otlp_endpoint" t.endpoint ({} : TelemetrySettings).endpoint

def Profile.overlaid (c : Profile) (gone : Deletion) : Profile where
  run := gone.pick "simulation" (c.run.overlaid (gone.under (.key "simulation"))) ({} : Profile).run
  telemetry := gone.pick "telemetry" (c.telemetry.overlaid (gone.under (.key "telemetry")))
    ({} : Profile).telemetry

/-! ## Keys without a default -/

def pointKeys : Keys := [([], "x"), ([], "y")]

def obstacleKeys : Keys := [([], "center"), ([], "radius")] ++ pointKeys.after (.key "center")

def WorldSettings.required (w : WorldSettings) : Keys :=
  (pointKeys.inItems 0 w.cheeses.length).after (.key "cheeses") ++
    (obstacleKeys.inItems 0 w.obstacles.length).after (.key "obstacles")

def CatSettings.required (c : CatSettings) : Keys :=
  pointKeys.after (.key "spawn") ++
    (pointKeys.inItems 0 c.waypoints.length).after (.key "waypoints")

def MouseSettings.required : Keys :=
  pointKeys.after (.key "spawn") ++ pointKeys.after (.key "escape_center")

def RunSettings.required (r : RunSettings) : Keys :=
  r.world.required.after (.key "world") ++ r.cat.required.after (.key "cat") ++
    MouseSettings.required.after (.key "mouse")

/-- The coordinates of all points of a profile, and the fields of all obstacles. -/
def Profile.required (c : Profile) : Keys := c.run.required.after (.key "simulation")

/-! ## Reading what is left -/

namespace Codec

theorem point_overlays (p : Point) : point.Overlays (depth + 1) p pointKeys fun _ => p :=
  complete_overlays ⟨by decide, by decide⟩ rfl
    (.of (fun _ => rfl) (narrow_overlays _) <| .of (fun _ => rfl) (narrow_overlays _) <| .nil _)
      (by simp [Field.of])
    (by simp +contextual [Deletion.pick, Field.of])

theorem points_overlays (ps : List Point) :
    point.list.Overlays (depth + 1) ps (pointKeys.inItems 0 ps.length) fun _ => ps :=
  list_overlays (fun p _ => point_overlays p) fun _ _ => ⟨_, rfl⟩

theorem obstacle_overlays (o : Obstacle) :
    obstacle.Overlays (depth + 2) o obstacleKeys fun _ => o :=
  complete_overlays ⟨by decide, by decide⟩ rfl
    (.of (fun _ => rfl) (point_overlays _) <| .of (fun _ => rfl) (narrow_overlays _) <| .nil _)
      (by simp [Field.of])
    (by simp +contextual [Deletion.pick, Field.of])

theorem world_overlays (w : WorldSettings) : world.Overlays (depth + 3) w w.required w.overlaid :=
  (record_overlays ⟨by decide, by decide⟩ rfl <|
    .of (fun _ => rfl) (narrow_overlays _) <| .of (fun _ => rfl) (points_overlays _) <|
    .of (fun _ => rfl) (list_overlays (fun o _ => obstacle_overlays o) fun _ _ => ⟨_, rfl⟩) <|
      .nil _).of_eq
    (by simp [WorldSettings.required, Keys.after])

theorem cat_overlays (c : CatSettings) : cat.Overlays (depth + 2) c c.required c.overlaid :=
  (record_overlays ⟨by decide, by decide⟩ rfl <|
    .of (fun _ => rfl) (narrow_overlays _) <| .of (fun _ => rfl) (narrow_overlays _) <|
    .of (fun _ => rfl) (narrow_overlays _) <| .of (fun _ => rfl) (narrow_overlays _) <|
    .of (fun _ => rfl) (narrow_overlays _) <| .of (fun _ => rfl) (narrow_overlays _) <|
    .of (fun _ => rfl) (point_overlays _) <| .of (fun _ => rfl) (points_overlays _) <| .nil _).of_eq
    (by simp [CatSettings.required, Keys.after])

theorem mouse_overlays (m : MouseSettings) :
    mouse.Overlays (depth + 2) m MouseSettings.required m.overlaid :=
  (record_overlays ⟨by decide, by decide⟩ rfl <|
    .of (fun _ => rfl) (narrow_overlays _) <| .of (fun _ => rfl) (narrow_overlays _) <|
    .of (fun _ => rfl) (narrow_overlays _) <| .of (fun _ => rfl) (narrow_overlays _) <|
    .of (fun _ => rfl) (narrow_overlays _) <| .of (fun _ => rfl) (point_overlays _) <|
    .of (fun _ => rfl) (point_overlays _) <| .nil _).of_eq
      (by simp [MouseSettings.required, Keys.after])

theorem run_overlays {r : RunSettings} (seed : r.seed.toNat ≤ 0x7fffffffffffffff) :
    run.Overlays (depth + 4) r r.required r.overlaid :=
  (record_overlays ⟨by decide, by decide⟩ rfl <|
    .of (fun _ => rfl) (wide_overlays _) <| .of (fun _ => rfl) (wide_overlays _) <|
    .of (fun _ => rfl) (word_overlays seed) <|
    .of (fun _ => rfl) (world_overlays _) <| .of (fun _ => rfl) (cat_overlays _) <|
    .of (fun _ => rfl) (mouse_overlays _) <| .nil _).of_eq
      (by simp [RunSettings.required, Keys.after])

theorem logFormat_overlays (f : LogFormat) : logFormat.Overlays depth f [] fun _ => f :=
  simple_overlays trivial (by cases f <;> rfl)

theorem telemetry_overlays (t : TelemetrySettings) :
    telemetry.Overlays (depth + 1) t [] t.overlaid :=
  record_overlays ⟨by decide, by decide⟩ rfl <|
    .of (fun _ => rfl) (text_overlays _) <| .of (fun _ => rfl) (text_overlays _) <|
    .of (fun _ => rfl) (logFormat_overlays _) <|
    .optional (fun _ => rfl) (fun _ => rfl) (fun _ _ => text_overlays _) <| .nil _

theorem profile_overlays {c : Profile} (seed : c.run.seed.toNat ≤ 0x7fffffffffffffff) :
    Field.Overlays (depth + 4) c profileFields (c.required ++ []) (fun _ => {}) c.overlaid :=
  .of (fun _ => rfl) (run_overlays seed) <| .of (fun _ => rfl) (telemetry_overlays _) <| .nil _

end Codec

end Pursuit.Settings
