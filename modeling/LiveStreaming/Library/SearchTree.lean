import Mathlib.Order.Lattice
import Mathlib.Data.List.Basic
import Mathlib.Data.List.Pairwise

/-!
# Search trees

Binary trees, and the order of their keys from left to right.
-/

namespace LiveStreaming.Library.SearchTree

inductive KeyTree (α : Type) where
  | empty
  | node (left : KeyTree α) (value : α) (right : KeyTree α)
  deriving DecidableEq, Repr

variable {α : Type}

def KeyTree.keys : KeyTree α → List α
  | .empty => []
  | .node left value right => left.keys ++ value :: right.keys

variable [LinearOrder α] {left right t : KeyTree α} {value key : α}

/-- Every key is larger than those on its left. -/
def KeyTree.Ordered (t : KeyTree α) : Prop := t.keys.Pairwise (· < ·)

theorem ordered_node : (KeyTree.node left value right).Ordered ↔
    left.Ordered ∧ right.Ordered ∧ (∀ key ∈ left.keys, key < value) ∧ ∀ key ∈ right.keys, value < key := by
  unfold KeyTree.Ordered
  rw [KeyTree.keys, List.pairwise_append, List.pairwise_cons]
  constructor
  · rintro ⟨one, ⟨large, two⟩, small⟩
    exact ⟨one, two, fun key member => small key member value List.mem_cons_self, large⟩
  · rintro ⟨one, two, small, large⟩
    refine ⟨one, ⟨large, two⟩, fun key member key' member' => ?_⟩
    rcases List.mem_cons.mp member' with rfl | member'
    · exact small key member
    · exact lt_trans (small key member) (large key' member')

/-- A key that is larger than the root is on its right. -/
theorem mem_keys_right (ordered : (KeyTree.node left value right).Ordered) (more : value < key) :
    key ∈ (KeyTree.node left value right).keys ↔ key ∈ right.keys := by
  obtain ⟨_, _, small, _⟩ := ordered_node.mp ordered
  rw [KeyTree.keys, List.mem_append, List.mem_cons]
  constructor
  · rintro (onLeft | rfl | onRight)
    · exact absurd (small key onLeft) (lt_asymm more)
    · exact absurd more (lt_irrefl key)
    · exact onRight
  · exact fun onRight => .inr (.inr onRight)

theorem mem_keys_left (ordered : (KeyTree.node left value right).Ordered) (less : key < value) :
    key ∈ (KeyTree.node left value right).keys ↔ key ∈ left.keys := by
  obtain ⟨_, _, _, large⟩ := ordered_node.mp ordered
  rw [KeyTree.keys, List.mem_append, List.mem_cons]
  constructor
  · rintro (onLeft | rfl | onRight)
    · exact onLeft
    · exact absurd less (lt_irrefl key)
    · exact absurd (large key onRight) (lt_asymm less)
  · exact .inl

theorem filter_keys_right (ordered : (KeyTree.node left value right).Ordered) (more : value < key) :
    (KeyTree.node left value right).keys.filter (· ≠ key) = left.keys ++ value :: right.keys.filter (· ≠ key) := by
  obtain ⟨_, _, small, _⟩ := ordered_node.mp ordered
  rw [KeyTree.keys, List.filter_append, List.filter_cons_of_pos (by simp [ne_of_lt more]),
    List.filter_eq_self.mpr fun other member => decide_eq_true (ne_of_lt (lt_trans (small other member) more))]

theorem filter_keys_left (ordered : (KeyTree.node left value right).Ordered) (less : key < value) :
    (KeyTree.node left value right).keys.filter (· ≠ key) = left.keys.filter (· ≠ key) ++ value :: right.keys := by
  obtain ⟨_, _, _, large⟩ := ordered_node.mp ordered
  rw [KeyTree.keys, List.filter_append, List.filter_cons_of_pos (by simp [ne_of_gt less]),
    List.filter_eq_self.mpr fun other member => decide_eq_true (ne_of_gt (lt_trans less (large other member)))]

theorem filter_keys_root (ordered : (KeyTree.node left value right).Ordered) :
    (KeyTree.node left value right).keys.filter (· ≠ value) = left.keys ++ right.keys := by
  obtain ⟨_, _, small, large⟩ := ordered_node.mp ordered
  rw [KeyTree.keys, List.filter_append, List.filter_cons_of_neg (by simp),
    List.filter_eq_self.mpr fun other member => decide_eq_true (ne_of_lt (small other member)),
    List.filter_eq_self.mpr fun other member => decide_eq_true (ne_of_gt (large other member))]

end LiveStreaming.Library.SearchTree
