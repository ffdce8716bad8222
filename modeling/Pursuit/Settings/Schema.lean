import Pursuit.Settings.Codec
import Pursuit.Settings.Profile

/-!
The keys of a settings document. Points and obstacles must be complete; everything else may be left
out and then has its default.
-/
namespace Pursuit.Settings

open Arena (Obstacle)

namespace Codec

def point : Codec Point := complete [
  .of "x" narrow (·.x) fun p x => { p with x },
  .of "y" narrow (·.y) fun p y => { p with y }] .origin

def obstacle : Codec Obstacle := complete [
  .of "center" point (·.center) fun o center => { o with center },
  .of "radius" narrow (·.radius) fun o radius => { o with radius }] ⟨.origin, .ofBits 0⟩

def world : Codec WorldSettings := record [
  .of "half_extent" narrow (·.halfExtent) fun w halfExtent => { w with halfExtent },
  .of "cheeses" point.list (·.cheeses) fun w cheeses => { w with cheeses },
  .of "obstacles" obstacle.list (·.obstacles) fun w obstacles => { w with obstacles }] {}

def cat : Codec CatSettings := record [
  .of "patrol_speed" narrow (·.patrolSpeed) fun c patrolSpeed => { c with patrolSpeed },
  .of "chase_speed" narrow (·.chaseSpeed) fun c chaseSpeed => { c with chaseSpeed },
  .of "view_range" narrow (·.viewRange) fun c viewRange => { c with viewRange },
  .of "view_angle" narrow (·.viewAngle) fun c viewAngle => { c with viewAngle },
  .of "attack_range" narrow (·.attackRange) fun c attackRange => { c with attackRange },
  .of "stopping_distance" narrow (·.stoppingDistance)
    fun c stoppingDistance => { c with stoppingDistance },
  .of "spawn" point (·.spawn) fun c spawn => { c with spawn },
  .of "waypoints" point.list (·.waypoints) fun c waypoints => { c with waypoints }] {}

def mouse : Codec MouseSettings := record [
  .of "speed" narrow (·.speed) fun m speed => { m with speed },
  .of "safe_distance" narrow (·.safeDistance) fun m safeDistance => { m with safeDistance },
  .of "escape_radius" narrow (·.escapeRadius) fun m escapeRadius => { m with escapeRadius },
  .of "wander_radius" narrow (·.wanderRadius) fun m wanderRadius => { m with wanderRadius },
  .of "stopping_distance" narrow (·.stoppingDistance)
    fun m stoppingDistance => { m with stoppingDistance },
  .of "spawn" point (·.spawn) fun m spawn => { m with spawn },
  .of "escape_center" point (·.escapeCenter) fun m escapeCenter => { m with escapeCenter }] {}

def run : Codec RunSettings := record [
  .of "tick_interval" wide (·.tickInterval) fun r tickInterval => { r with tickInterval },
  .of "frame_delta" wide (·.frameDelta) fun r frameDelta => { r with frameDelta },
  .of "seed" word (·.seed) fun r seed => { r with seed },
  .of "world" world (·.world) fun r world => { r with world },
  .of "cat" cat (·.cat) fun r cat => { r with cat },
  .of "mouse" mouse (·.mouse) fun r mouse => { r with mouse }] {}

/-- A format by its name, or as a table that has the name as its only key and nothing under it. -/
def logFormat : Codec LogFormat where
  read
    | .text s => named s
    | .table [(s, .table [])] => named s
    | .table [(s, .list [])] => named s
    | _ => none
  write f := .text f.text
where
  named (s : String) : Option LogFormat := [LogFormat.compact, .json].find? (·.text == s)

def telemetry : Codec TelemetrySettings := record [
  .of "service_name" text (·.serviceName) fun t serviceName => { t with serviceName },
  .of "filter" text (·.filter) fun t filter => { t with filter },
  .of "log_format" logFormat (·.logFormat) fun t logFormat => { t with logFormat },
  .optional "otlp_endpoint" text (·.endpoint) fun t endpoint => { t with endpoint }] {}

def profileFields : List (Field Profile) := [
  .of "simulation" run (·.run) fun p run => { p with run },
  .of "telemetry" telemetry (·.telemetry) fun p telemetry => { p with telemetry }]

def profile : Codec Profile := record profileFields {}

end Codec

end Pursuit.Settings
