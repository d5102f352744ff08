import Mathlib.Data.List.Basic
import Mathlib.Data.Nat.ModEq
import Mathlib.Logic.Function.Basic

/-!
# Circular arrays

The live part of a circular array is the `window` of consecutive slots from a front index.
The lemmas say how a window changes when a slot is written, when the front or the rear
advances, and when the slots behind a gap are moved down by one.
-/

namespace LiveStreaming.Library.Ring

variable {α : Type*} {cap : Nat}

/-- The `n` slots that follow `front`, wrapping at `cap`. -/
def window (cap : Nat) (slots : Nat → α) (front n : Nat) : List α :=
  (List.range n).map fun i => slots ((front + i) % cap)

@[simp] theorem length_window (slots : Nat → α) (front n : Nat) :
    (window cap slots front n).length = n := by
  simp [window]

theorem getElem_window (slots : Nat → α) (front n i : Nat) (within : i < (window cap slots front n).length) :
    (window cap slots front n)[i] = slots ((front + i) % cap) := by
  simp [window]

theorem window_succ (slots : Nat → α) (front n : Nat) :
    window cap slots front (n + 1) =
      slots (front % cap) :: window cap slots ((front + 1) % cap) n := by
  simp only [window, List.range_succ_eq_map, List.map_cons, List.map_map, Nat.add_zero]
  congr 1
  apply List.map_congr_left
  intro i _
  simp only [Function.comp, Nat.mod_add_mod]
  congr 2
  omega

theorem window_concat (slots : Nat → α) (front n : Nat) :
    window cap slots front (n + 1) =
      window cap slots front n ++ [slots ((front + n) % cap)] := by
  simp [window, List.range_succ]

theorem window_congr {f g : Nat → α} {front n : Nat}
    (agree : ∀ i, i < n → f ((front + i) % cap) = g ((front + i) % cap)) :
    window cap f front n = window cap g front n := by
  apply List.map_congr_left
  intro i member
  exact agree i (List.mem_range.mp member)

theorem offset_ne {front i j : Nat} (less : i < j) (bounded : j < i + cap) :
    (front + i) % cap ≠ (front + j) % cap := by
  intro same
  have divides := (Nat.modEq_iff_dvd' less.le).mp (Nat.ModEq.add_left_cancel' front same)
  have := Nat.le_of_dvd (by omega) divides
  omega

theorem window_update_rear (slots : Nat → α) (x : α) {front n : Nat} (room : n < cap) :
    window cap (Function.update slots ((front + n) % cap) x) front n = window cap slots front n := by
  apply window_congr
  intro i small
  exact Function.update_of_ne (offset_ne small (by omega)) _ _

theorem window_update_front (slots : Nat → α) (x : α) (front : Nat) {n : Nat} (room : n < cap) :
    window cap (Function.update slots (front % cap) x) ((front + 1) % cap) n =
      window cap slots ((front + 1) % cap) n := by
  apply window_congr
  intro i small
  rw [Nat.mod_add_mod, Nat.add_assoc]
  exact Function.update_of_ne (offset_ne (i := 0) (by omega) (by omega)).symm _ _

/-- Closing the gap at offset `k`: every later slot has moved down by one. -/
theorem window_eraseIdx {f g : Nat → α} {front n k : Nat} (inside : k < n)
    (before : ∀ i, i < k → g ((front + i) % cap) = f ((front + i) % cap))
    (moved : ∀ i, k ≤ i → i + 1 < n → g ((front + i) % cap) = f ((front + (i + 1)) % cap)) :
    window cap g front (n - 1) = (window cap f front n).eraseIdx k := by
  have same : (window cap g front (n - 1)).length = ((window cap f front n).eraseIdx k).length := by
    simp [List.length_eraseIdx, inside]
  refine List.ext_getElem same fun i left _ => ?_
  rw [length_window] at left
  rw [getElem_window, List.getElem_eraseIdx]
  split
  · next small => rw [getElem_window, before i small]
  · next large => rw [getElem_window, moved i (by omega) (by omega)]

/-- Each of `n` successive slots, starting at `pos`, takes the value of its successor. -/
def shiftDown (cap : Nat) : Nat → (Nat → α) → Nat → Nat → α
  | 0, slots, _ => slots
  | n + 1, slots, pos =>
    shiftDown cap n (Function.update slots pos (slots ((pos + 1) % cap))) ((pos + 1) % cap)

theorem shiftDown_outside {n : Nat} {slots : Nat → α} {front k j : Nat}
    (outside : ∀ i, i < n → j ≠ (front + (k + i)) % cap) :
    shiftDown cap n slots ((front + k) % cap) j = slots j := by
  induction n generalizing slots k with
  | zero => rfl
  | succ n ih =>
    have next : ((front + k) % cap + 1) % cap = (front + (k + 1)) % cap := by
      rw [Nat.mod_add_mod]; rfl
    rw [shiftDown, next, ih (k := k + 1)]
    · exact Function.update_of_ne (outside 0 (by omega)) _ _
    · intro i small
      have := outside (i + 1) (by omega)
      rwa [show k + 1 + i = k + (i + 1) by omega]

/-- A moved slot holds what its successor held, as long as the move has not come full circle. -/
theorem shiftDown_inside {n : Nat} (slots : Nat → α) (front k : Nat) {i : Nat} (small : i < n)
    (fits : n ≤ cap) (short : i + 1 < cap) :
    shiftDown cap n slots ((front + k) % cap) ((front + (k + i)) % cap) =
      slots ((front + (k + i + 1)) % cap) := by
  induction n generalizing slots k i with
  | zero => omega
  | succ n ih =>
    have next : ((front + k) % cap + 1) % cap = (front + (k + 1)) % cap := by
      rw [Nat.mod_add_mod]; rfl
    rw [shiftDown, next]
    cases i with
    | zero =>
      rw [shiftDown_outside (k := k + 1)]
      · simp
      · intro j less
        exact offset_ne (by omega) (by omega)
    | succ i =>
      rw [show k + (i + 1) = k + 1 + i by omega,
        ih (Function.update slots ((front + k) % cap) (slots ((front + (k + 1)) % cap))) (k + 1)
          (by omega) (by omega) (by omega)]
      exact Function.update_of_ne (offset_ne (by omega) (by omega)).symm _ _

end LiveStreaming.Library.Ring
