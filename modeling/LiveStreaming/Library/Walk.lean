import Mathlib.Data.Fintype.EquivFin

/-!
# Walks in a finite space

A walk goes from place to place by a function that may have no next place. If there are finitely many places, a walk
comes to an end exactly if it is at no place twice.
-/

namespace LiveStreaming.Library.Walk

variable {α : Type*} (next : α → Option α) (start : α)

def path : Nat → Option α
  | 0 => some start
  | n + 1 => (path n).bind next

variable {next start}

theorem path_none {i : Nat} (ended : path next start i = none) (k : Nat) : path next start (i + k) = none := by
  induction k with
  | zero => exact ended
  | succ k ih => rw [← Nat.add_assoc, path, ih, Option.bind_none]

theorem path_repeats {i j : Nat} (same : path next start i = path next start j) (k : Nat) :
    path next start (i + k) = path next start (j + k) := by
  induction k with
  | zero => exact same
  | succ k ih => rw [← Nat.add_assoc, ← Nat.add_assoc, path, path, ih]

theorem path_goes_on {i j : Nat} (before : i < j) (there : path next start j ≠ none)
    (same : path next start i = path next start j) (n : Nat) : path next start n ≠ none := by
  induction n using Nat.strongRecOn with
  | ind n ih =>
    intro ended
    rcases Nat.le_total n j with early | late
    · have later := path_none ended (j - n)
      rw [Nat.add_sub_cancel' early] at later
      exact there later
    · have back := path_repeats same (n - j)
      rw [Nat.add_sub_cancel' late, ended] at back
      rcases Nat.eq_or_lt_of_le late with rfl | further
      · exact there ended
      · exact ih (i + (n - j)) (by omega) back

theorem ends_iff [Finite α] :
    (∃ n, path next start n = none) ↔
      ∀ i j, i < j → path next start j ≠ none → path next start i ≠ path next start j := by
  constructor
  · rintro ⟨n, ended⟩ i j before there same
    exact path_goes_on before there same n ended
  · intro fresh
    by_contra endless
    rw [not_exists] at endless
    choose place places using fun n => Option.ne_none_iff_exists'.mp (endless n)
    refine not_injective_infinite_finite place fun i j same => ?_
    have equal : path next start i = path next start j := by rw [places, places, same]
    rcases Nat.lt_trichotomy i j with before | rfl | after
    · exact absurd equal (fresh i j before (endless j))
    · rfl
    · exact absurd equal.symm (fresh j i after (endless i))

end LiveStreaming.Library.Walk
