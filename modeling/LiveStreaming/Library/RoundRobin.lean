import Mathlib.Data.List.Rotate
import Mathlib.Data.List.Perm.Subperm

/-!
# Turns that go round

The places `0, …, n - 1` are scanned from a counter on, round the end, for the first that satisfies a condition,
and the counter is put behind it. The places that satisfy it form a queue: each turn is its head's, which goes to
its end.
-/

namespace LiveStreaming.Library.RoundRobin

/-- The places in the order of a scan that starts at `start`. -/
def order (n start : Nat) : List Nat := (List.range n).rotate start

variable {n start i : Nat} {pre post : List Nat} {p : Nat → Bool}

theorem length_order (n start : Nat) : (order n start).length = n := by
  rw [order, List.length_rotate, List.length_range]

theorem nodup_order (n start : Nat) : (order n start).Nodup := List.nodup_rotate.mpr List.nodup_range

theorem order_getElem? {k : Nat} (inside : k < n) : (order n start)[k]? = some ((k + start) % n) := by
  rw [order, List.getElem?_rotate (by rwa [List.length_range]), List.length_range,
    List.getElem?_range (Nat.mod_lt _ (by omega))]

theorem order_head (inside : start < n) : (order n start).head? = some start := by
  rw [List.head?_eq_getElem?, order_getElem? (Nat.zero_lt_of_lt inside), Nat.zero_add, Nat.mod_eq_of_lt inside]

/-- A scan from behind a place sees what was behind it first, and the place itself last. -/
theorem order_after (split : order n start = pre ++ i :: post) : order n ((i + 1) % n) = post ++ pre ++ [i] := by
  have length := congrArg List.length split
  rw [length_order, List.length_append, List.length_cons] at length
  have place := @order_getElem? n start pre.length (by omega)
  rw [split, List.getElem?_append_right (Nat.le_refl _), Nat.sub_self] at place
  have place : i = (pre.length + start) % n := Option.some.inj place
  have behind : order n ((i + 1) % n) = (order n start).rotate (pre.length + 1) := by
    rw [order, order, List.rotate_rotate, ← List.rotate_mod (List.range n) (start + (pre.length + 1)),
      List.length_range, place, Nat.mod_add_mod]
    congr 2
    omega
  rw [behind, split, List.append_cons, List.rotate_eq_drop_append_take, List.drop_left', List.take_left',
    List.append_assoc]
  · simp
  · simp
  · simp

theorem after_head (split : order n start = pre ++ i :: post) : (post ++ pre ++ [i]).head? = some ((i + 1) % n) := by
  have length := congrArg List.length split
  rw [length_order, List.length_append, List.length_cons] at length
  rw [← order_after split, List.head?_eq_getElem?, order_getElem? (by omega), Nat.zero_add, Nat.mod_mod]

/-- One turn, for those that satisfy the condition. -/
theorem filter_after (found : (order n start).find? p = some i) :
    (order n ((i + 1) % n)).filter p = ((order n start).filter p).rotate 1 := by
  obtain ⟨holds, pre, post, split, none⟩ := List.find?_eq_some_iff_append.mp found
  have empty : pre.filter p = [] := by
    rw [List.filter_eq_nil_iff]
    intro a member
    simpa using none a member
  rw [order_after split, split, List.filter_append, List.filter_append, List.filter_append, empty, List.append_nil,
    List.nil_append, List.filter_cons_of_pos holds, List.filter_cons_of_pos holds, List.filter_nil,
    List.rotate_cons_succ, List.rotate_zero]

/-- Whose turn the `k`-th is. -/
def turn {α : Type*} (l : List α) (k : Nat) : Option α := l[k % l.length]?

theorem turn_some {α : Type*} {l : List α} (filled : l ≠ []) (k : Nat) : ∃ a, turn l k = some a :=
  ⟨_, List.getElem?_eq_getElem (Nat.mod_lt _ (List.length_pos_iff.mpr filled))⟩

theorem head_rotate {α : Type*} (l : List α) (k : Nat) : (l.rotate k).head? = turn l k := by
  cases l with
  | nil => simp [turn]
  | cons a l =>
    have inside : k % (a :: l).length < (a :: l).length := Nat.mod_lt _ (Nat.zero_lt_succ _)
    rw [← List.rotate_mod, List.head?_rotate inside]
    rfl

theorem getElem?_rotate_turn {α : Type*} {l : List α} {j : Nat} (k : Nat) (inside : j < l.length) :
    (l.rotate k)[j]? = turn l (k + j) := by
  rw [List.getElem?_rotate inside, Nat.add_comm]
  rfl

/-- A whole round of turns is everyone's once. -/
theorem perm_turns {α : Type*} (l : List α) (k : Nat) :
    ((List.range l.length).map fun i => turn l (k + i)).Perm (l.map some) := by
  have row : (List.range l.length).map (fun i => turn l (k + i)) = (l.rotate k).map some := by
    apply List.ext_getElem?
    intro j
    rw [List.getElem?_map, List.getElem?_map]
    by_cases inside : j < l.length
    · rw [List.getElem?_range inside, Option.map_some, ← getElem?_rotate_turn k inside,
        List.getElem?_eq_getElem (by rwa [List.length_rotate]), Option.map_some]
    · rw [List.getElem?_eq_none (by rw [List.length_range]; omega),
        List.getElem?_eq_none (by rw [List.length_rotate]; omega), Option.map_none, Option.map_none]
  rw [row]
  exact (List.rotate_perm l k).map some

/-- A row of turns, by their places. -/
theorem take_rotate {α : Type*} {l : List α} (few : n ≤ l.length) (k : Nat) (d : α) :
    (l.rotate k).take n = (List.range n).map fun i => l.getD ((k + i) % l.length) d := by
  apply List.ext_getElem?
  intro i
  by_cases inside : i < n
  · have place : (k + i) % l.length < l.length := Nat.mod_lt _ (by omega)
    rw [List.getElem?_take_of_lt inside, getElem?_rotate_turn k (by omega), List.getElem?_map,
      List.getElem?_range inside, turn, Option.map_some, List.getD_eq_getElem?_getD, List.getElem?_eq_getElem place,
      Option.getD_some]
  · rw [List.getElem?_eq_none, List.getElem?_eq_none]
    · rw [List.length_map, List.length_range]
      omega
    · rw [List.length_take]
      omega

/-- As many turns in a row as there are candidates, all taken by candidates, are one turn each. -/
theorem perm_of_turns {α : Type*} {l candidates turns : List α} {k : Nat} (distinct : l.Nodup)
    (few : candidates.length ≤ l.length) (length : turns.length = candidates.length)
    (follow : ∀ j a, turns[j]? = some a → turn l (k + j) = some a)
    (taken : ∀ a ∈ turns, a ∈ candidates) : turns.Perm candidates := by
  have same : turns = (l.rotate k).take turns.length := by
    apply List.ext_getElem?
    intro j
    by_cases inside : j < turns.length
    · rw [List.getElem?_take_of_lt inside, getElem?_rotate_turn k (by omega),
        follow j turns[j] (List.getElem?_eq_getElem inside)]
      exact List.getElem?_eq_getElem inside
    · rw [List.getElem?_eq_none (Nat.not_lt.mp inside), List.getElem?_eq_none]
      rw [List.length_take]
      omega
  have nodup : turns.Nodup := by
    rw [same]
    exact (List.nodup_rotate.mpr distinct).sublist (List.take_sublist _ _)
  exact (List.subperm_of_subset nodup taken).perm_of_length_le length.ge

end LiveStreaming.Library.RoundRobin
