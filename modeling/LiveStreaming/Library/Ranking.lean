import Mathlib.Order.Lattice
import Mathlib.Data.List.Basic

/-!
# The largest elements of a list

A few elements of a list none of the others is larger than, kept from the smallest to the largest while the list grows.
-/

namespace LiveStreaming.Library.Ranking

variable {α : Type} [LinearOrder α] {w w' l l' r : List α} {low x : α} {j : Nat}

/-- From the largest element to the smallest. -/
def descending (l : List α) : List α := l.mergeSort fun a b => decide (b ≤ a)

theorem descending_perm (l : List α) : (descending l).Perm l := List.mergeSort_perm l _

theorem descending_pairwise (l : List α) : (descending l).Pairwise fun a b => b ≤ a := by
  have trans (a b c : α) (one : decide (b ≤ a) = true) (two : decide (c ≤ b) = true) : decide (c ≤ a) = true :=
    decide_eq_true (le_trans (of_decide_eq_true two) (of_decide_eq_true one))
  have total (a b : α) : (decide (b ≤ a) || decide (a ≤ b)) = true := by
    rw [Bool.or_eq_true, decide_eq_true_eq, decide_eq_true_eq]
    exact le_total b a
  exact (List.pairwise_mergeSort trans total l).imp of_decide_eq_true

theorem descending_unique (perm : l'.Perm l) (order : l'.Pairwise fun a b => b ≤ a) : descending l = l' :=
  List.Perm.eq_of_pairwise (fun _ _ _ _ less more => le_antisymm more less) (descending_pairwise l) order
    ((descending_perm l).trans perm.symm)

/-- From the smallest to the largest, elements that no other one of the list is larger than. -/
structure Largest (w l : List α) : Prop where
  order : w.Pairwise (· ≤ ·)
  others : ∃ rest, l.Perm (w ++ rest) ∧ ∀ a ∈ rest, ∀ b ∈ w, a ≤ b

theorem Largest.descending_eq (largest : Largest w l) : ∃ rest, descending l = w.reverse ++ rest := by
  obtain ⟨rest, perm, small⟩ := largest.others
  refine ⟨descending rest, descending_unique ?_ ?_⟩
  · exact ((List.reverse_perm w).append (descending_perm rest)).trans perm.symm
  · rw [List.pairwise_append, List.pairwise_reverse]
    refine ⟨largest.order, descending_pairwise rest, fun b member a member' => ?_⟩
    exact small a ((descending_perm rest).subset member') b (List.mem_reverse.mp member)

/-- The `j`-th of the largest, counted from the smallest of them. -/
theorem Largest.getElem? (largest : Largest w l) (inside : j < w.length) :
    (descending l)[w.length - 1 - j]? = w[j]? := by
  obtain ⟨rest, same⟩ := largest.descending_eq
  rw [same, List.getElem?_append_left (by rw [List.length_reverse]; omega), List.getElem?_reverse (by omega),
    show w.length - 1 - (w.length - 1 - j) = j by omega]

/-- The smallest of them comes out where their order is not known. -/
theorem Largest.least_le (largest : Largest w l) (perm : w'.Perm w) (member : x ∈ w') :
    ∃ least, (descending l)[w'.length - 1]? = some least ∧ least ≤ x := by
  cases w with
  | nil => cases perm.subset member
  | cons least r =>
    refine ⟨least, ?_, ?_⟩
    · rw [perm.length_eq]
      exact largest.getElem? (show 0 < (least :: r).length by rw [List.length_cons]; omega)
    · rcases List.mem_cons.mp (perm.subset member) with rfl | later
      · exact le_refl x
      · exact (List.pairwise_cons.mp largest.order).1 x later

theorem Largest.all (perm : w.Perm l) (order : w.Pairwise (· ≤ ·)) : Largest w l :=
  ⟨order, [], by rw [List.append_nil]; exact perm.symm, fun a member => by cases member⟩

/-- An element that is no larger than the smallest of them. -/
theorem Largest.ignore (largest : Largest (low :: r) l) (small : x ≤ low) : Largest (low :: r) (l ++ [x]) := by
  obtain ⟨rest, perm, below⟩ := largest.others
  refine ⟨largest.order, rest ++ [x], ?_, fun a member b member' => ?_⟩
  · rw [← List.append_assoc]
    exact perm.append_right [x]
  · rcases List.mem_append.mp member with member | member
    · exact below a member b member'
    · rw [List.mem_singleton.mp member]
      refine le_trans small ?_
      rcases List.mem_cons.mp member' with rfl | later
      · exact le_refl b
      · exact (List.pairwise_cons.mp largest.order).1 b later

/-- A larger one takes the place of the smallest. -/
theorem Largest.replace (largest : Largest (low :: r) l) (large : low ≤ x) (perm : w'.Perm (x :: r))
    (order : w'.Pairwise (· ≤ ·)) : Largest w' (l ++ [x]) := by
  obtain ⟨rest, perm', below⟩ := largest.others
  refine ⟨order, low :: rest, ?_, fun a member b member' => ?_⟩
  · calc l ++ [x]
      _ |>.Perm ((low :: r ++ rest) ++ [x]) := perm'.append_right [x]
      _ |>.Perm (x :: (low :: r ++ rest)) := List.perm_append_singleton x _
      _ |>.Perm (x :: (r ++ low :: rest)) := (List.perm_middle.symm).cons x
      _ |>.Perm (w' ++ low :: rest) := perm.symm.append_right _
  · have low_le : low ≤ b := by
      rcases List.mem_cons.mp (perm.subset member') with rfl | later
      · exact large
      · exact (List.pairwise_cons.mp largest.order).1 b later
    rcases List.mem_cons.mp member with rfl | other
    · exact low_le
    · exact le_trans (below a other low List.mem_cons_self) low_le

end LiveStreaming.Library.Ranking
