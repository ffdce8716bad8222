import Mathlib.Data.Nat.Notation
import Pursuit.Random.Generator

/-! The words of a generator in a row. Within 2^64 of them no state of it comes back, so that
whoever draws leaves another generator behind. -/
namespace Pursuit.Random.Generator

variable {g : Generator}

def after (g : Generator) : ℕ → Generator
  | 0 => g
  | n + 1 => g.word.2.after n

theorem after_add (m n : ℕ) : g.after (m + n) = (g.after m).after n := by
  induction m generalizing g with
  | zero => rw [Nat.zero_add, after]
  | succ m ih => rw [Nat.succ_add, after, after, ih]

/-- Each word comes from the block at hand or begins the next one. -/
theorem after_blocks (n : ℕ) : ∃ blocks ≤ n, (g.after n).next = g.next + UInt64.ofNat blocks ∧
    (blocks = 0 → (g.after n).pending.length + n = g.pending.length) := by
  induction n generalizing g with
  | zero => exact ⟨0, Nat.le_refl 0, (UInt64.add_zero _).symm, fun _ => rfl⟩
  | succ n ih =>
    obtain ⟨blocks, le, next, left⟩ := ih (g := g.word.2)
    rw [after]
    cases words : g.pending with
    | nil =>
      have begun : g.word.2.next = g.next + 1 := by rw [word, words]
      refine ⟨blocks + 1, by omega, ?_, nofun⟩
      rw [next, begun, UInt64.add_assoc, UInt64.add_comm 1, UInt64.ofNat_add]
      rfl
    | cons w rest =>
      have kept : g.word.2 = { g with pending := rest } := by rw [word, words]
      rw [kept] at next left ⊢
      refine ⟨blocks, by omega, next, fun none => ?_⟩
      have whole : (Generator.after { g with pending := rest } n).pending.length + n =
          rest.length :=
        left none
      rw [List.length_cons]
      omega

theorem after_ne {n : ℕ} (some : 0 < n) (few : n < UInt64.size) : g.after n ≠ g := by
  intro same
  obtain ⟨blocks, le, next, left⟩ := g.after_blocks n
  rw [same] at next left
  have turn : UInt64.ofNat blocks = 0 := UInt64.left_eq_add.1 next
  have none : blocks = 0 := by
    have count := congrArg UInt64.toNat turn
    rwa [UInt64.toNat_ofNat_of_lt' (Nat.lt_of_le_of_lt le few)] at count
  have whole := left none
  omega

theorem point_snd (center : Point) (radius : Float32) : (g.point center radius).2 = g.after 2 := rfl

end Pursuit.Random.Generator
