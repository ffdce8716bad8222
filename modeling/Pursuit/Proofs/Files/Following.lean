import Pursuit.Proofs.Files.Disk
import Pursuit.Proofs.Files.Path

/-! Where names lead on a disk, and which locations they pass. Names that are no steps do not matter
on the way to a directory that the user may search. -/
namespace Pursuit.Files.Disk

variable {d : Disk} {l m : Location} {name : String} {names names' front : List String} {p : Path}

/-! ## Following names -/

def next (l : Location) (name : String) : Location :=
  if IsStep name then if name = ".." then l.dropLast else l ++ [name] else l

/-- Where names lead to, whether or not something is there. -/
def goal (l : Location) (names : List String) : Location := names.foldl next l

theorem goal_cons : goal l (name :: names) = goal (next l name) names := rfl

theorem goal_append : goal l (front ++ names) = goal (goal l front) names := List.foldl_append

/-- A directory at a location is left by the name: the user may search the directory, and what the
name leads down to is there. -/
structure Opens (d : Disk) (l : Location) (name : String) : Prop where
  search : name ≠ "" → d.allows l .search
  there : IsStep name → name ≠ ".." → tooLong name = false ∧ (d.item? (l ++ [name])).isSome

theorem next_of_not_isStep (blank : ¬ IsStep name) : next l name = l := if_neg blank

theorem next_of_isStep (step : IsStep name) (down : name ≠ "..") : next l name = l ++ [name] := by
  rw [next, if_pos step, if_neg down]

theorem next_up : next l ".." = l.dropLast := by
  rw [next, if_pos (by decide), if_pos rfl]

theorem not_isStep_iff : ¬ IsStep name ↔ name = "" ∨ name = "." := by
  rw [IsStep, not_and_or, not_not, not_not]

theorem follow_cons_of_opens (dir : d.isDirectoryAt l) (opens : d.Opens l name)
    (names : List String) : d.follow l (name :: names) = d.follow (next l name) names := by
  rw [follow, if_pos dir]
  by_cases blank : name = ""
  · rw [if_pos blank, next_of_not_isStep (not_isStep_iff.2 (.inl blank))]
  rw [if_neg blank, if_pos (opens.search blank)]
  by_cases dot : name = "."
  · rw [if_pos dot, next_of_not_isStep (not_isStep_iff.2 (.inr dot))]
  rw [if_neg dot]
  by_cases up : name = ".."
  · rw [if_pos up, up, next_up]
  · obtain ⟨short, there⟩ := opens.there ⟨blank, dot⟩ up
    rw [if_neg up, if_neg (by simp [short]), if_pos there, next_of_isStep ⟨blank, dot⟩ up]

theorem follow_cons_eq_ok : d.follow l (name :: names) = .ok m ↔
    d.isDirectoryAt l ∧ d.Opens l name ∧ d.follow (next l name) names = .ok m := by
  constructor
  · intro led
    suffices both : d.isDirectoryAt l ∧ d.Opens l name by
      rw [follow_cons_of_opens both.1 both.2] at led
      exact ⟨both.1, both.2, led⟩
    rw [follow] at led
    split_ifs at led with dir blank search dot up long there
    · exact ⟨dir, fun some => absurd blank some, fun step => absurd blank step.1⟩
    · exact ⟨dir, fun _ => search, fun step => absurd dot step.2⟩
    · exact ⟨dir, fun _ => search, fun _ down => absurd up down⟩
    · exact ⟨dir, fun _ => search, fun _ _ => ⟨by simpa using long, there⟩⟩
  · rintro ⟨dir, opens, led⟩
    rw [follow_cons_of_opens dir opens, led]

theorem goal_of_follow (led : d.follow l names = .ok m) : goal l names = m := by
  induction names generalizing l with
  | nil =>
    cases led
    rfl
  | cons name names ih => exact ih (follow_cons_eq_ok.1 led).2.2

theorem isDirectoryAt_of_follow (led : d.follow l names = .ok m) (dir : d.isDirectoryAt m) :
    d.isDirectoryAt l := by
  cases names with
  | nil =>
    cases led
    exact dir
  | cons name names => exact (follow_cons_eq_ok.1 led).1

theorem follow_steps (led : d.follow l names = .ok m) : d.follow l (steps names) = .ok m := by
  induction names generalizing l with
  | nil => exact led
  | cons name names ih =>
    obtain ⟨dir, opens, led⟩ := follow_cons_eq_ok.1 led
    by_cases step : IsStep name
    · rw [steps_cons step]
      exact follow_cons_eq_ok.2 ⟨dir, opens, ih led⟩
    · rw [steps_cons_of_not step]
      rw [next_of_not_isStep step] at led
      exact ih led

/-- What is searched last is no less open than what is left on the way to it. -/
theorem search_of_steps (search : d.allows m .search) (led : d.follow l (steps names) = .ok m) :
    d.allows l .search := by
  cases rest : steps names with
  | nil =>
    rw [rest] at led
    cases led
    exact search
  | cons name rest' =>
    have step : IsStep name := by
      have mem : name ∈ steps names := rest ▸ List.mem_cons_self
      simpa using List.of_mem_filter mem
    rw [rest] at led
    exact (follow_cons_eq_ok.1 led).2.1.search step.1

/-- Names that are no steps do no harm on the way to a directory that the user may search. -/
theorem follow_of_steps (dir : d.isDirectoryAt m) (search : d.allows m .search)
    (led : d.follow l (steps names) = .ok m) : d.follow l names = .ok m := by
  induction names generalizing l with
  | nil => exact led
  | cons name names ih =>
    by_cases step : IsStep name
    · rw [steps_cons step, follow_cons_eq_ok] at led
      exact follow_cons_eq_ok.2 ⟨led.1, led.2.1, ih led.2.2⟩
    · rw [steps_cons_of_not step] at led
      have opens : d.Opens l name :=
        ⟨fun _ => search_of_steps search led, fun real => absurd real step⟩
      refine follow_cons_eq_ok.2 ⟨isDirectoryAt_of_follow led dir, opens, ?_⟩
      rw [next_of_not_isStep step]
      exact ih led

theorem goal_steps (l : Location) (names : List String) : goal l (steps names) = goal l names := by
  induction names generalizing l with
  | nil => rfl
  | cons name names ih =>
    by_cases step : IsStep name
    · rw [steps_cons step]
      exact ih (next l name)
    · rw [steps_cons_of_not step, ih, goal_cons, next_of_not_isStep step]

theorem goal_congr (same : steps names = steps names') : goal l names = goal l names' := by
  rw [← goal_steps, same, goal_steps]

/-! ## The locations on the way -/

/-- The locations that names lead through, from the first to the last. -/
def passed (l : Location) : List String → List Location
  | [] => [l]
  | name :: names => l :: passed (next l name) names

theorem start_mem_passed (l : Location) (names : List String) : l ∈ passed l names := by
  cases names <;> exact List.mem_cons_self

theorem mem_passed_append :
    m ∈ passed l (front ++ names) ↔ m ∈ passed l front ∨ m ∈ passed (goal l front) names := by
  induction front generalizing l with
  | nil =>
    refine ⟨.inr, fun either => either.elim (fun first => ?_) id⟩
    rw [List.mem_singleton.1 first]
    exact start_mem_passed l names
  | cons name front ih =>
    rw [List.cons_append, passed, passed, List.mem_cons, List.mem_cons, ih, or_assoc, goal_cons]

theorem goal_mem_passed (l : Location) (names : List String) : goal l names ∈ passed l names := by
  induction names generalizing l with
  | nil => exact List.mem_cons_self
  | cons name names ih => exact List.mem_cons_of_mem _ (ih (next l name))

theorem mem_passed_steps : m ∈ passed l (steps names) ↔ m ∈ passed l names := by
  induction names generalizing l with
  | nil => rfl
  | cons name names ih =>
    by_cases step : IsStep name
    · rw [steps_cons step, passed, passed, List.mem_cons, List.mem_cons, ih]
    · rw [steps_cons_of_not step, ih, passed, next_of_not_isStep step, List.mem_cons]
      exact ⟨.inr, fun either => either.elim (fun first => first ▸ start_mem_passed l names) id⟩

theorem locate_eq (fine : usable p = .ok ()) : d.locate p = d.follow (d.start p) p.names := by
  rw [locate, fine]
  rfl

theorem follow_of_locate (led : d.locate p = .ok l) :
    usable p = .ok () ∧ d.follow (d.start p) p.names = .ok l := by
  cases use : usable p with
  | error e =>
    rw [locate, use] at led
    cases led
  | ok => exact ⟨rfl, (locate_eq use).symm.trans led⟩

def Reaches (d : Disk) (l : Location) (names : List String) : Prop :=
  d.follow l names = .ok (goal l names) ∧ d.isDirectoryAt (goal l names)

theorem reaches_of_follow (led : d.follow l names = .ok m) (dir : d.isDirectoryAt m) :
    d.Reaches l names := by
  rw [Reaches, goal_of_follow led]
  exact ⟨led, dir⟩

/-- Every location on the way to a directory is one. -/
theorem Reaches.isDirectoryAt (reaches : d.Reaches l names) (mem : m ∈ passed l names) :
    d.isDirectoryAt m := by
  induction names generalizing l with
  | nil => exact List.mem_singleton.1 mem ▸ reaches.2
  | cons name names ih =>
    obtain ⟨here, -, led⟩ := follow_cons_eq_ok.1 reaches.1
    obtain rfl | mem := List.mem_cons.1 mem
    · exact here
    · exact ih ⟨led, reaches.2⟩ mem

/-- Names with the same steps lead to the same directory, if it can be searched. -/
theorem Reaches.congr (reaches : d.Reaches l names) (same : steps names = steps names')
    (search : d.allows (goal l names') .search) : d.Reaches l names' := by
  obtain ⟨led, dir⟩ := reaches
  rw [goal_congr same] at led dir
  exact ⟨follow_of_steps dir search (same ▸ follow_steps led), dir⟩

end Pursuit.Files.Disk
