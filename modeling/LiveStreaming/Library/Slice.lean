import Mathlib.Data.List.Basic
import Mathlib.Data.List.Perm.Basic

/-!
# Parts of an array

The elements between two indices of a list, and what it means for a part of a list to be put in a new order while the
rest of it stays. Elements are moved one at a time, with one held aside: where it was there is a hole.
-/

namespace LiveStreaming.Library.Slice

variable {α : Type*} {l l' l'' : List α} {first middle last i : Nat} {a x : α}

/-- The elements from `first` to `last`, both included. -/
def slice (l : List α) (first last : Nat) : List α := (l.drop first).take (last + 1 - first)

theorem getElem?_slice (l : List α) (first last i : Nat) :
    (slice l first last)[i]? = if first + i ≤ last then l[first + i]? else none := by
  rw [slice, List.getElem?_take, List.getElem?_drop]
  by_cases inside : first + i ≤ last
  · rw [if_pos inside, if_pos (by omega)]
  · rw [if_neg inside, if_neg (by omega)]

theorem mem_slice : a ∈ slice l first last ↔ ∃ i, first ≤ i ∧ i ≤ last ∧ l[i]? = some a := by
  rw [List.mem_iff_getElem?]
  constructor
  · rintro ⟨i, found⟩
    rw [getElem?_slice] at found
    split at found
    · next inside => exact ⟨first + i, by omega, inside, found⟩
    · cases found
  · rintro ⟨i, start, stop, found⟩
    refine ⟨i - first, ?_⟩
    rw [getElem?_slice, if_pos (by omega), Nat.add_sub_cancel' start, found]

theorem slice_congr (same : ∀ i, first ≤ i → i ≤ last → l[i]? = l'[i]?) : slice l first last = slice l' first last := by
  apply List.ext_getElem?
  intro i
  rw [getElem?_slice, getElem?_slice]
  split
  · next inside => exact same _ (Nat.le_add_right _ _) inside
  · rfl

theorem slice_append (start : first ≤ middle) (stop : middle ≤ last) :
    slice l first last = slice l first middle ++ slice l (middle + 1) last := by
  unfold slice
  rw [show last + 1 - first = (middle + 1 - first) + (last + 1 - (middle + 1)) by omega, List.take_add, List.drop_drop,
    Nat.add_sub_cancel' (by omega)]

theorem slice_nil (past : last < first) : slice l first last = [] := by
  rw [slice, show last + 1 - first = 0 by omega, List.take_zero]

theorem slice_cons (found : l[first]? = some a) (inside : first ≤ last) :
    slice l first last = a :: slice l (first + 1) last := by
  obtain ⟨bound, value⟩ := List.getElem?_eq_some_iff.mp found
  unfold slice
  rw [show last + 1 - first = (last + 1 - (first + 1)) + 1 by omega, List.drop_eq_getElem_cons bound,
    List.take_succ_cons, value]

theorem slice_single (found : l[i]? = some a) : slice l i i = [a] := by
  rw [slice_cons found (Nat.le_refl i), slice_nil (Nat.lt_succ_self i)]

theorem length_slice (inside : last < l.length) : (slice l first last).length = last + 1 - first := by
  rw [slice, List.length_take, List.length_drop]
  omega

theorem slice_all (l : List α) : slice l 0 (l.length - 1) = l := by
  rw [slice, List.drop_zero, List.take_of_length_le (by omega)]

theorem slice_split (ordered : first ≤ last + 1) :
    l.take first ++ (slice l first last ++ l.drop (last + 1)) = l := by
  have rest : l.drop (last + 1) = (l.drop first).drop (last + 1 - first) := by
    rw [List.drop_drop, Nat.add_sub_cancel' ordered]
  rw [slice, rest, List.take_append_drop, List.take_append_drop]

/-- Put in a new order from `first` to `last`. -/
structure Rearranged (first last : Nat) (l l' : List α) : Prop where
  perm : l'.Perm l
  outside : ∀ i, i < first ∨ last < i → l'[i]? = l[i]?

theorem Rearranged.refl (l : List α) : Rearranged first last l l := ⟨List.Perm.refl _, fun _ _ => rfl⟩

theorem Rearranged.trans (one : Rearranged first last l l') (two : Rearranged first last l' l'') :
    Rearranged first last l l'' :=
  ⟨two.perm.trans one.perm, fun i off => (two.outside i off).trans (one.outside i off)⟩

theorem Rearranged.widen {start stop : Nat} (inner : Rearranged start stop l l') (front : first ≤ start)
    (back : stop ≤ last) : Rearranged first last l l' :=
  ⟨inner.perm, fun i off => inner.outside i (by omega)⟩

theorem take_eq (outside : ∀ i, i < first ∨ last < i → l'[i]? = l[i]?) : l'.take first = l.take first := by
  apply List.ext_getElem?
  intro i
  rw [List.getElem?_take, List.getElem?_take]
  split
  · next inside => exact outside i (.inl inside)
  · rfl

theorem drop_eq (outside : ∀ i, i < first ∨ last < i → l'[i]? = l[i]?) : l'.drop (last + 1) = l.drop (last + 1) := by
  apply List.ext_getElem?
  intro i
  rw [List.getElem?_drop, List.getElem?_drop]
  exact outside _ (.inr (by omega))

theorem Rearranged.slice_perm (moved : Rearranged first last l l') (ordered : first ≤ last + 1) :
    (slice l' first last).Perm (slice l first last) := by
  have perm := moved.perm
  rw [← @slice_split _ l' _ _ ordered, ← @slice_split _ l _ _ ordered, take_eq moved.outside, drop_eq moved.outside,
    List.perm_append_left_iff,
    List.perm_append_right_iff] at perm
  exact perm

theorem Rearranged.of_slice (outside : ∀ i, i < first ∨ last < i → l'[i]? = l[i]?)
    (perm : (slice l' first last).Perm (slice l first last)) (ordered : first ≤ last + 1) :
    Rearranged first last l l' := by
  refine ⟨?_, outside⟩
  rw [← @slice_split _ l' _ _ ordered, ← @slice_split _ l _ _ ordered, take_eq outside, drop_eq outside]
  exact (perm.append_right _).append_left _

/-- What holds of all elements of the part still does when they have been put in a new order. -/
theorem Rearranged.forall {P : α → Prop} (moved : Rearranged first last l l') (ordered : first ≤ last + 1)
    (all : ∀ i a, first ≤ i → i ≤ last → l[i]? = some a → P a) :
    ∀ i a, first ≤ i → i ≤ last → l'[i]? = some a → P a := by
  intro i a start stop found
  have member := (moved.slice_perm ordered).subset (mem_slice.mpr ⟨i, start, stop, found⟩)
  obtain ⟨j, start', stop', found'⟩ := mem_slice.mp member
  exact all j a start' stop' found'

/-! ### One element held aside -/

/-- Filling the hole from `m` and putting the element there is an exchange. -/
theorem set_set_hole {r m : Nat} {g : α} (inside : r < l.length) (found : l[m]? = some g) (x : α) :
    ((l.set r g).set m x).Perm (l.set r x) := by
  by_cases other : r = m
  · rw [other, List.set_set]
  · obtain ⟨bound, value⟩ := List.getElem?_eq_some_iff.mp found
    have exchanged := @List.set_set_perm _ (l.set r x) r m (by simpa using inside) (by simpa using bound)
    rw [List.getElem_set_self, List.getElem_set_ne other, value, List.set_set] at exchanged
    exact exchanged

end LiveStreaming.Library.Slice
