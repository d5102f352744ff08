import Mathlib.Algebra.BigOperators.Intervals

/-!
# What waits for a server

Things come in and are served one at a time. How many wait is bounded if and only if no stretch of time brings in
much more than could be served in it, and little waits whenever the server stands still.
-/

namespace LiveStreaming.Library.Backlog
open Finset

variable {waiting arrives served : ℕ → ℕ} {idle : ℕ → Prop}

/-- What waits is what has waited before and has come in since, less what was served. -/
theorem balance_stretch (balance : ∀ n, waiting (n + 1) + served n = waiting n + arrives n) (m n : ℕ) :
    waiting (m + n) + ∑ k ∈ range n, served (m + k) = waiting m + ∑ k ∈ range n, arrives (m + k) := by
  induction n with
  | zero => rfl
  | succ n ih =>
    have step := balance (m + n)
    rw [sum_range_succ, sum_range_succ, ← Nat.add_assoc m]
    omega

theorem served_le (one : ∀ n, served n ≤ 1) (m n : ℕ) : ∑ k ∈ range n, served (m + k) ≤ n := by
  induction n with
  | zero => exact Nat.le_refl 0
  | succ n ih =>
    rw [sum_range_succ]
    exact Nat.add_le_add ih (one (m + n))

/-- The server has been at work since it last stood still, or from the beginning. -/
theorem since_idle (one : ∀ n, served n ≤ 1) (idles : ∀ n, served n = 0 → idle (n + 1)) (n : ℕ) :
    ∃ m k, n = m + k ∧ (m = 0 ∨ idle m) ∧ ∑ i ∈ range k, served (m + i) = k := by
  induction n with
  | zero => exact ⟨0, 0, rfl, .inl rfl, rfl⟩
  | succ n ih =>
    obtain ⟨m, k, rfl, begins, busy⟩ := ih
    rcases Nat.eq_zero_or_pos (served (m + k)) with none | some_
    · exact ⟨m + k + 1, 0, rfl, .inr (idles _ none), rfl⟩
    · have served_ := one (m + k)
      refine ⟨m, k + 1, rfl, begins, ?_⟩
      rw [sum_range_succ, busy]
      omega

theorem bounded_iff (balance : ∀ n, waiting (n + 1) + served n = waiting n + arrives n) (one : ∀ n, served n ≤ 1)
    (idles : ∀ n, served n = 0 → idle (n + 1)) :
    (∃ bound, ∀ n, waiting n ≤ bound) ↔
      ∃ bound, (∀ m n, ∑ k ∈ range n, arrives (m + k) ≤ n + bound) ∧ ∀ n, idle n → waiting n ≤ bound := by
  constructor
  · rintro ⟨bound, small⟩
    refine ⟨bound, fun m n => ?_, fun n _ => small n⟩
    have stretch := balance_stretch balance m n
    have most := served_le one m n
    have after := small (m + n)
    omega
  · rintro ⟨bound, stretches, still⟩
    refine ⟨waiting 0 + bound + bound, fun n => ?_⟩
    obtain ⟨m, k, rfl, begins, busy⟩ := since_idle one idles n
    have stretch := balance_stretch balance m k
    have more := stretches m k
    have before : waiting m ≤ waiting 0 + bound := by
      rcases begins with rfl | begins
      · exact Nat.le_add_right _ _
      · exact (still m begins).trans (Nat.le_add_left _ _)
    omega

end LiveStreaming.Library.Backlog
