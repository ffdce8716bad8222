import Pursuit.Proofs.Plane.Square
import Pursuit.Settings.Run

/-! What the check of the settings amounts to. Every number that it reads is finite in settings that
pass; it reads no centre, neither of an obstacle nor of the place a mouse escapes to. -/
namespace Pursuit.Settings

open Pursuit.Binary

/-! ## The single checks -/

theorem andThen_eq_ok_iff {first : Verdict} {rest : Unit → Verdict} :
    first >>= rest = .ok () ↔ first = .ok () ∧ rest () = .ok () := by
  cases first with
  | error e => exact iff_of_false nofun nofun
  | ok => exact (and_iff_right rfl).symm

theorem check_eq_ok_iff {p : Prop} [Decidable p] {e : ConfigFault} :
    (if p then .ok () else .error e : Verdict) = .ok () ↔ p := by
  split
  next holds => exact iff_of_true rfl holds
  next fails => exact iff_of_false nofun fails

theorem check_andThen_eq_ok_iff {p : Prop} [Decidable p] {e : ConfigFault} {rest : Unit → Verdict} :
    (if p then .ok () >>= rest else .error e >>= rest : Verdict) = .ok () ↔
      p ∧ rest () = .ok () := by
  split
  next holds => exact (and_iff_right holds).symm
  next fails => exact iff_of_false nofun fun both => fails both.1

def Positive (a : Float32) : Prop := a.isFinite ∧ .ofBits 0 < a

def NonNegative (a : Float32) : Prop := a.isFinite ∧ .ofBits 0 ≤ a

theorem positive_eq_ok_iff (field : String) (a : Float32) :
    positive field a = .ok () ↔ Positive a :=
  check_eq_ok_iff

theorem nonNegative_eq_ok_iff (field : String) (a : Float32) :
    nonNegative field a = .ok () ↔ NonNegative a := check_eq_ok_iff

theorem inside_eq_ok_iff (halfExtent : Float32) (field : String) (p : Point) :
    inside halfExtent field p = .ok () ↔ p.isWithin halfExtent := check_eq_ok_iff

theorem forM_eq_ok_iff {α : Type} {f : α → Verdict} {xs : List α} :
    xs.forM f = .ok () ↔ ∀ x ∈ xs, f x = .ok () := by
  induction xs with
  | nil => exact iff_of_true rfl (List.forall_mem_nil _)
  | cons x xs ih =>
    show (f x >>= fun _ => xs.forM f) = .ok () ↔ _
    rw [andThen_eq_ok_iff, ih, List.forall_mem_cons]

theorem each_eq_ok_iff {α : Type} {name suffix : String} {check : String → α → Verdict}
    {good : α → Prop} (single : ∀ field x, check field x = .ok () ↔ good x) {xs : List α} :
    each name suffix check xs = .ok () ↔ ∀ x ∈ xs, good x := by
  rw [each, forM_eq_ok_iff]
  constructor
  · intro passed x member
    obtain ⟨i, here⟩ := List.mem_iff_getElem?.1 member
    exact (single _ x).1 (passed (x, i) (List.mem_zipIdx_iff_getElem?.2 here))
  · rintro fine ⟨x, i⟩ numbered
    exact (single _ x).2 (fine x (List.fst_mem_of_mem_zipIdx numbered))

/-! ## The whole check -/

structure WorldSettings.Checked (w : WorldSettings) : Prop where
  halfExtent : Positive w.halfExtent
  radius : ∀ o ∈ w.obstacles, Positive o.radius
  cheeses : ∀ p ∈ w.cheeses, p.isWithin w.halfExtent

structure CatSettings.Checked (halfExtent : Float32) (c : CatSettings) : Prop where
  patrolSpeed : Positive c.patrolSpeed
  chaseSpeed : Positive c.chaseSpeed
  viewRange : Positive c.viewRange
  attackRange : Positive c.attackRange
  stoppingDistance : NonNegative c.stoppingDistance
  viewAngle : .ofBits 0 < c.viewAngle ∧ c.viewAngle ≤ 360.0
  spawn : c.spawn.isWithin halfExtent
  waypoints : ∀ p ∈ c.waypoints, p.isWithin halfExtent

structure MouseSettings.Checked (halfExtent : Float32) (m : MouseSettings) : Prop where
  speed : Positive m.speed
  safeDistance : NonNegative m.safeDistance
  escapeRadius : NonNegative m.escapeRadius
  wanderRadius : NonNegative m.wanderRadius
  stoppingDistance : NonNegative m.stoppingDistance
  spawn : m.spawn.isWithin halfExtent

structure RunSettings.Checked (c : RunSettings) : Prop where
  tickInterval : c.tickInterval.isFinite ∧ ¬ c.tickInterval < 0.0
  frameDelta : c.frameDelta.isFinite ∧ ¬ c.frameDelta ≤ 0.0
  world : c.world.Checked
  cat : c.cat.Checked c.world.halfExtent
  mouse : c.mouse.Checked c.world.halfExtent

theorem WorldSettings.validate_eq_ok_iff {w : WorldSettings} : w.validate = .ok () ↔ w.Checked := by
  rw [validate, andThen_eq_ok_iff, andThen_eq_ok_iff, positive_eq_ok_iff,
    each_eq_ok_iff positive_eq_ok_iff, each_eq_ok_iff (inside_eq_ok_iff _),
    List.forall_mem_map]
  exact ⟨fun ⟨extent, radius, cheeses⟩ => ⟨extent, radius, cheeses⟩,
    fun ⟨extent, radius, cheeses⟩ => ⟨extent, radius, cheeses⟩⟩

theorem CatSettings.validate_eq_ok_iff {halfExtent : Float32} {c : CatSettings} :
    c.validate halfExtent = .ok () ↔ c.Checked halfExtent := by
  simp only [validate, andThen_eq_ok_iff, check_andThen_eq_ok_iff, positive_eq_ok_iff,
    nonNegative_eq_ok_iff, inside_eq_ok_iff, each_eq_ok_iff (inside_eq_ok_iff _)]
  exact ⟨fun ⟨patrol, chase, range, attack, stopping, angle, spawn, waypoints⟩ =>
      ⟨patrol, chase, range, attack, stopping, angle, spawn, waypoints⟩,
    fun ⟨patrol, chase, range, attack, stopping, angle, spawn, waypoints⟩ =>
      ⟨patrol, chase, range, attack, stopping, angle, spawn, waypoints⟩⟩

theorem MouseSettings.validate_eq_ok_iff {halfExtent : Float32} {m : MouseSettings} :
    m.validate halfExtent = .ok () ↔ m.Checked halfExtent := by
  simp only [validate, andThen_eq_ok_iff, positive_eq_ok_iff, nonNegative_eq_ok_iff,
    inside_eq_ok_iff]
  exact ⟨fun ⟨speed, safe, escape, wander, stopping, spawn⟩ =>
      ⟨speed, safe, escape, wander, stopping, spawn⟩,
    fun ⟨speed, safe, escape, wander, stopping, spawn⟩ =>
      ⟨speed, safe, escape, wander, stopping, spawn⟩⟩

theorem RunSettings.validate_eq_ok_iff {c : RunSettings} : c.validate = .ok () ↔ c.Checked := by
  simp only [validate, andThen_eq_ok_iff, check_andThen_eq_ok_iff,
    WorldSettings.validate_eq_ok_iff, CatSettings.validate_eq_ok_iff,
    MouseSettings.validate_eq_ok_iff]
  exact ⟨fun ⟨interval, delta, world, cat, mouse⟩ => ⟨interval, delta, world, cat, mouse⟩,
    fun ⟨interval, delta, world, cat, mouse⟩ => ⟨interval, delta, world, cat, mouse⟩⟩

/-! ## Finite settings -/

def coordinates (ps : List Point) : List Float32 := ps.flatMap fun p => [p.x, p.y]

def WorldSettings.measures (w : WorldSettings) : List Float32 :=
  w.halfExtent :: w.obstacles.map (·.radius) ++ coordinates w.cheeses

def CatSettings.measures (c : CatSettings) : List Float32 :=
  [c.patrolSpeed, c.chaseSpeed, c.viewRange, c.viewAngle, c.attackRange, c.stoppingDistance] ++
    coordinates (c.spawn :: c.waypoints)

def MouseSettings.measures (m : MouseSettings) : List Float32 :=
  [m.speed, m.safeDistance, m.escapeRadius, m.wanderRadius, m.stoppingDistance] ++
    coordinates [m.spawn]

namespace RunSettings

/-- The narrow numbers, the centres apart. -/
def measures (c : RunSettings) : List Float32 :=
  c.world.measures ++ c.cat.measures ++ c.mouse.measures

/-- The coordinates of the places that obstacles stand at and of the one that a mouse escapes to. -/
def centers (c : RunSettings) : List Float32 :=
  coordinates (c.mouse.escapeCenter :: c.world.obstacles.map (·.center))

def AllFinite (c : RunSettings) : Prop :=
  c.tickInterval.isFinite ∧ c.frameDelta.isFinite ∧ ∀ a ∈ c.measures ++ c.centers, a.isFinite

end RunSettings

theorem coordinates_isFinite {ps : List Point} {halfExtent : Float32}
    (inside : ∀ p ∈ ps, p.isWithin halfExtent) : ∀ a ∈ coordinates ps, a.isFinite := by
  intro a member
  obtain ⟨p, given, coordinate⟩ := List.mem_flatMap.1 member
  have finite := inside p given
  rw [Point.isWithin, Point.isFinite, Bool.and_eq_true, Bool.and_eq_true,
    Bool.and_eq_true] at finite
  obtain ⟨⟨⟨x, y⟩, -⟩, -⟩ := finite
  simp only [List.mem_cons, List.not_mem_nil, or_false] at coordinate
  obtain rfl | rfl := coordinate
  · exact x
  · exact y

/-- The view angle is held between two numbers and needs no check of its own. -/
theorem isFinite_of_between {a b : Float32} {y : ℝ} (low : .ofBits 0 < a) (high : a ≤ b)
    (value : NarrowIs b y) : a.isFinite := by
  have zero : (Float32.ofBits 0).toModel.unpack = .zero .positive := rfl
  rw [lt_iff, zero] at low
  rw [le_iff] at high
  rw [narrow_isFinite_iff]
  obtain nan | ⟨s, infinite⟩ | finite := narrow_cases a
  · rw [nan] at low
    cases low
  · rw [infinite] at low high
    cases s with
    | negative => cases low
    | positive =>
      obtain ⟨t, unpacked, -⟩ | ⟨t, m, e, positive, unpacked, -⟩ := Denotes.cases value
      · rw [unpacked] at high
        cases high
      · rw [unpacked] at high
        cases high
  · exact finite

theorem WorldSettings.Checked.measures_isFinite {w : WorldSettings} (checked : w.Checked) :
    ∀ a ∈ w.measures, a.isFinite := by
  intro a member
  obtain (rfl | radius) | cheese := (List.mem_append.1 member).imp_left List.mem_cons.1
  · exact checked.halfExtent.1
  · obtain ⟨o, given, rfl⟩ := List.mem_map.1 radius
    exact (checked.radius o given).1
  · exact coordinates_isFinite checked.cheeses a cheese

theorem CatSettings.Checked.measures_isFinite {halfExtent : Float32} {c : CatSettings}
    (checked : c.Checked halfExtent) : ∀ a ∈ c.measures, a.isFinite := by
  obtain ⟨y, degrees⟩ : ∃ y, NarrowIs 360.0 y := narrow_isFinite_iff.1 (by decide +kernel)
  have angle := isFinite_of_between checked.viewAngle.1 checked.viewAngle.2 degrees
  have places := coordinates_isFinite (List.forall_mem_cons.2 ⟨checked.spawn, checked.waypoints⟩)
  refine List.forall_mem_append.2 ⟨?_, places⟩
  simp [checked.patrolSpeed.1, checked.chaseSpeed.1, checked.viewRange.1, angle,
    checked.attackRange.1, checked.stoppingDistance.1]

theorem MouseSettings.Checked.measures_isFinite {halfExtent : Float32} {m : MouseSettings}
    (checked : m.Checked halfExtent) : ∀ a ∈ m.measures, a.isFinite := by
  have places := coordinates_isFinite (List.forall_mem_singleton.2 checked.spawn)
  refine List.forall_mem_append.2 ⟨?_, places⟩
  simp [checked.speed.1, checked.safeDistance.1, checked.escapeRadius.1, checked.wanderRadius.1,
    checked.stoppingDistance.1]

namespace RunSettings

variable {c : RunSettings}

theorem Checked.recenter (checked : c.Checked) {obstacles : List Arena.Obstacle}
    (same : obstacles.map (·.radius) = c.world.obstacles.map (·.radius)) (escapeCenter : Point) :
    Checked { c with world.obstacles := obstacles, mouse.escapeCenter := escapeCenter } := by
  obtain ⟨interval, delta, ⟨extent, radius, cheeses⟩, cat, speed, safe, escape, wander, stopping,
    spawn⟩ := checked
  refine ⟨interval, delta, ⟨extent, ?_, cheeses⟩, cat, speed, safe, escape, wander, stopping, spawn⟩
  rw [← List.forall_mem_map (f := fun o : Arena.Obstacle => o.radius)] at radius ⊢
  rwa [same]

/-- In settings that pass their check every number is finite but for those of the centres. These are
not looked at: with others in their place, even with some that are not finite, the settings pass
too. -/
theorem validate_finite (valid : c.validate = .ok ()) :
    c.tickInterval.isFinite ∧ c.frameDelta.isFinite ∧ (∀ a ∈ c.measures, a.isFinite) ∧
    (c.AllFinite ↔ ∀ a ∈ c.centers, a.isFinite) ∧
    ∀ obstacles escapeCenter, obstacles.map (·.radius) = c.world.obstacles.map (·.radius) →
      validate { c with world.obstacles := obstacles, mouse.escapeCenter := escapeCenter } =
        .ok () := by
  have checked := validate_eq_ok_iff.1 valid
  have measured : ∀ a ∈ c.measures, a.isFinite :=
    List.forall_mem_append.2 ⟨List.forall_mem_append.2 ⟨checked.world.measures_isFinite,
      checked.cat.measures_isFinite⟩, checked.mouse.measures_isFinite⟩
  refine ⟨checked.tickInterval.1, checked.frameDelta.1, measured, ?_, fun obstacles center same =>
    validate_eq_ok_iff.2 (checked.recenter same center)⟩
  rw [AllFinite, and_iff_right checked.tickInterval.1, and_iff_right checked.frameDelta.1,
    List.forall_mem_append, and_iff_right measured]

theorem validate_finite_default :
    validate {} = .ok () ∧ AllFinite {} := by
  have valid : validate {} = .ok () := rfl
  obtain ⟨-, -, -, finite, -⟩ := validate_finite valid
  exact ⟨valid, finite.2 (by decide +kernel)⟩

/-- An obstacle that is nowhere, and a place to escape to that is no place. -/
def adrift : RunSettings where
  world := { obstacles := [⟨⟨.ofBits 0x7f800000, .ofBits 0⟩, 1.0⟩] }
  mouse := { escapeCenter := ⟨.ofBits 0x7fc00000, .ofBits 0⟩ }

theorem validate_adrift : adrift.validate = .ok () ∧ ¬ adrift.AllFinite := by
  refine ⟨rfl, fun finite => ?_⟩
  have center : (Float32.ofBits 0x7fc00000).isFinite :=
    finite.2.2 _ (List.mem_append_right _ List.mem_cons_self)
  exact absurd center (by decide +kernel)

end RunSettings

end Pursuit.Settings
