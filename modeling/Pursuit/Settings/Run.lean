import Pursuit.Arena.World

/-!
The settings of a run and the check they must pass. Every field has a default. The check goes
through the numbers in a fixed order and reports the first that cannot be used.
-/
namespace Pursuit.Settings

open Pursuit.Arena (Obstacle)

structure WorldSettings where
  halfExtent : Float32 := 20.0
  cheeses : List Point := [.ofInts (-15) 12, .ofInts 14 (-14), .ofInts (-4) (-16)]
  obstacles : List Obstacle :=
    [⟨.ofInts 0 5, 2.0⟩, ⟨.ofInts (-8) (-6), 1.5⟩, ⟨.ofInts 9 (-4), 2.5⟩]
deriving BEq

structure CatSettings where
  patrolSpeed : Float32 := 5.0
  chaseSpeed : Float32 := 8.0
  viewRange : Float32 := 15.0
  /-- Full opening angle of the view cone in degrees. -/
  viewAngle : Float32 := 90.0
  attackRange : Float32 := 1.0
  stoppingDistance : Float32 := 0.5
  spawn : Point := .ofInts 10 10
  waypoints : List Point :=
    [.ofInts 10 10, .ofInts (-10) 10, .ofInts (-10) (-10), .ofInts 10 (-10)]
deriving BEq

structure MouseSettings where
  speed : Float32 := 6.0
  /-- The mouse flees while the cat is at most this far away. -/
  safeDistance : Float32 := 10.0
  escapeRadius : Float32 := 10.0
  wanderRadius : Float32 := 10.0
  stoppingDistance : Float32 := 0.5
  spawn : Point := .ofInts (-12) (-2)
  /-- Centre of the area the mouse runs to. -/
  escapeCenter : Point := .origin
deriving BEq

structure RunSettings where
  /-- Seconds between two ticks of an agent's tree. -/
  tickInterval : Float := 0.5
  /-- Seconds in one frame of a headless run. -/
  frameDelta : Float := 1.0 / 60.0
  seed : UInt64 := 7
  world : WorldSettings := {}
  cat : CatSettings := {}
  mouse : MouseSettings := {}
deriving BEq

/-! ## The check -/

abbrev Verdict := Except ConfigFault Unit

def positive (field : String) (x : Float32) : Verdict :=
  if x.isFinite ∧ .ofBits 0 < x then .ok ()
  else .error (.invalid field ("must be positive (got " ++ Decimal.Layout.plain.narrow x ++ ")"))

def nonNegative (field : String) (x : Float32) : Verdict :=
  if x.isFinite ∧ .ofBits 0 ≤ x then .ok ()
  else .error (.invalid field
    ("must be zero or positive (got " ++ Decimal.Layout.plain.narrow x ++ ")"))

def inside (halfExtent : Float32) (field : String) (p : Point) : Verdict :=
  if p.isWithin halfExtent then .ok ()
  else .error (.invalid field (p.text ++ " lies outside the world"))

def each {α : Type} (name suffix : String) (check : String → α → Verdict) (xs : List α) : Verdict :=
  xs.zipIdx.forM fun (x, i) => check (name ++ "[" ++ Nat.repr i ++ "]" ++ suffix) x

def WorldSettings.validate (w : WorldSettings) : Verdict := do
  positive "world.half_extent" w.halfExtent
  each "world.obstacles" ".radius" positive (w.obstacles.map (·.radius))
  each "world.cheeses" "" (inside w.halfExtent) w.cheeses

def CatSettings.validate (halfExtent : Float32) (c : CatSettings) : Verdict := do
  positive "cat.patrol_speed" c.patrolSpeed
  positive "cat.chase_speed" c.chaseSpeed
  positive "cat.view_range" c.viewRange
  positive "cat.attack_range" c.attackRange
  nonNegative "cat.stopping_distance" c.stoppingDistance
  if .ofBits 0 < c.viewAngle ∧ c.viewAngle ≤ 360.0 then .ok ()
  else .error (.invalid "cat.view_angle" "must be in (0, 360] degrees")
  inside halfExtent "cat.spawn" c.spawn
  each "cat.waypoints" "" (inside halfExtent) c.waypoints

def MouseSettings.validate (halfExtent : Float32) (m : MouseSettings) : Verdict := do
  positive "mouse.speed" m.speed
  nonNegative "mouse.safe_distance" m.safeDistance
  nonNegative "mouse.escape_radius" m.escapeRadius
  nonNegative "mouse.wander_radius" m.wanderRadius
  nonNegative "mouse.stopping_distance" m.stoppingDistance
  inside halfExtent "mouse.spawn" m.spawn

def RunSettings.validate (c : RunSettings) : Verdict := do
  if c.tickInterval.isFinite ∧ ¬ c.tickInterval < 0.0 then .ok ()
  else .error (.tickInterval c.tickInterval)
  if c.frameDelta.isFinite ∧ ¬ c.frameDelta ≤ 0.0 then .ok ()
  else .error (.invalid "frame_delta" "must be a positive number of seconds")
  c.world.validate
  c.cat.validate c.world.halfExtent
  c.mouse.validate c.world.halfExtent

end Pursuit.Settings
