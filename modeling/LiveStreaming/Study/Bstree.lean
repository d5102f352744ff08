import LiveStreaming.Library.SearchTree
import Mathlib.Data.Int.Order.Basic

/-!
# Erasing from a search tree

The recursive `bstree<T>::erase( value, bstree )`, which is given a tree and returns what is left of it. A node with two
children gets the smallest value of its right subtree, which is erased there.
-/

namespace LiveStreaming.Study
open Library.SearchTree

variable {α : Type}

/-- The node with the smallest value: the last one of the walk to the left. -/
def Bstree.min : KeyTree α → KeyTree α
  | .empty => .empty
  | .node .empty value right => .node .empty value right
  | .node (.node left' value' right') _ _ => Bstree.min (.node left' value' right')

variable [LinearOrder α]

/-- `none` where a null pointer is followed. -/
def Bstree.erase (value : α) : KeyTree α → Option (KeyTree α)
  | .empty => some .empty
  | .node left root right =>
    if root < value then do
      let right ← Bstree.erase value right
      some (.node left root right)
    else if value < root then do
      let left ← Bstree.erase value left
      some (.node left root right)
    else if left ≠ .empty ∧ right ≠ .empty then
      match Bstree.min right with
      | .empty => none
      | .node _ smallest _ => do
        let right ← Bstree.erase smallest right
        some (.node left smallest right)
    else if left = .empty then some right
    else some left

variable {t left right : KeyTree α} {value root : α}

omit [LinearOrder α] in
theorem Bstree.min_spec (present : t ≠ .empty) :
    ∃ left smallest right rest, Bstree.min t = .node left smallest right ∧ t.keys = smallest :: rest := by
  induction t with
  | empty => exact absurd rfl present
  | node left root right ih =>
    cases left with
    | empty => exact ⟨.empty, root, right, right.keys, rfl, rfl⟩
    | node left' value' right' =>
      obtain ⟨l, smallest, r, rest, found, keys⟩ := ih (fun same => by cases same)
      exact ⟨l, smallest, r, rest ++ root :: right.keys, found, by rw [KeyTree.keys, keys]; rfl⟩

/-- By induction over the tree: the value is taken out of the keys, which keep their order. -/
theorem Bstree.erase_keys (ordered : t.Ordered) :
    ∃ t', Bstree.erase value t = some t' ∧ t'.keys = t.keys.filter (· ≠ value) := by
  induction t generalizing value with
  | empty => exact ⟨.empty, rfl, rfl⟩
  | node left root right ihLeft ihRight =>
    obtain ⟨orderedLeft, orderedRight, small, large⟩ := ordered_node.mp ordered
    rw [Bstree.erase]
    by_cases more : root < value
    · obtain ⟨right', erased, keys⟩ := ihRight orderedRight
      refine ⟨.node left root right', ?_, ?_⟩
      · rw [if_pos more, erased]
        rfl
      · rw [filter_keys_right ordered more, KeyTree.keys, keys]
    · rw [if_neg more]
      by_cases less : value < root
      · obtain ⟨left', erased, keys⟩ := ihLeft orderedLeft
        refine ⟨.node left' root right, ?_, ?_⟩
        · rw [if_pos less, erased]
          rfl
        · rw [filter_keys_left ordered less, KeyTree.keys, keys]
      · obtain rfl : value = root := le_antisymm (not_lt.mp more) (not_lt.mp less)
        rw [if_neg less, filter_keys_root ordered]
        by_cases both : left ≠ .empty ∧ right ≠ .empty
        · obtain ⟨l, smallest, r, rest, found, keys⟩ := Bstree.min_spec both.2
          obtain ⟨right', erased, keys'⟩ := @ihRight smallest orderedRight
          refine ⟨.node left smallest right', ?_, ?_⟩
          · rw [if_pos both, found]
            dsimp only
            rw [erased]
            rfl
          · have above := List.pairwise_cons.mp (keys ▸ orderedRight : (smallest :: rest).Pairwise (· < ·))
            rw [KeyTree.keys, keys', keys, List.filter_cons_of_neg (by simp),
              List.filter_eq_self.mpr fun other member => decide_eq_true (ne_of_gt (above.1 other member))]
        · rw [if_neg both]
          by_cases none_ : left = .empty
          · rw [if_pos none_, none_]
            exact ⟨right, rfl, rfl⟩
          · obtain rfl : right = .empty := by
              by_contra some_
              exact both ⟨none_, some_⟩
            rw [if_neg none_]
            exact ⟨left, rfl, (List.append_nil _).symm⟩

/-- By induction over the tree: a value that is not there is looked for, and nothing changes. -/
theorem Bstree.erase_absent (ordered : t.Ordered) (absent : value ∉ t.keys) : Bstree.erase value t = some t := by
  induction t with
  | empty => rfl
  | node left root right ihLeft ihRight =>
    obtain ⟨orderedLeft, orderedRight, _, _⟩ := ordered_node.mp ordered
    rw [KeyTree.keys, List.mem_append, List.mem_cons, not_or, not_or] at absent
    obtain ⟨absentLeft, other, absentRight⟩ := absent
    rw [Bstree.erase]
    by_cases more : root < value
    · rw [if_pos more, ihRight orderedRight absentRight]
      rfl
    · rw [if_neg more, if_pos (lt_of_le_of_ne (not_lt.mp more) other), ihLeft orderedLeft absentLeft]
      rfl

theorem Bstree.erase_erases (ordered : t.Ordered) (value : α) :
    ∃ t', Bstree.erase value t = some t' ∧ t'.Ordered ∧ (∀ key, key ∈ t'.keys ↔ key ∈ t.keys ∧ key ≠ value) ∧
      (value ∉ t.keys → t' = t) := by
  obtain ⟨t', erased, keys⟩ := @Bstree.erase_keys _ _ t value ordered
  refine ⟨t', erased, ?_, fun key => ?_, fun absent => ?_⟩
  · unfold KeyTree.Ordered
    rw [keys]
    exact List.Pairwise.filter _ ordered
  · rw [keys, List.mem_filter, decide_eq_true_eq]
  · rw [Bstree.erase_absent ordered absent] at erased
    exact (Option.some.inj erased).symm

theorem Bstree.erase_sample : ∃ t', Bstree.erase 2 (.node (.node .empty (1 : Int) .empty) 2 (.node .empty 3 .empty)) =
      some t' ∧ t'.Ordered ∧
    (∀ key, key ∈ t'.keys ↔
      key ∈ (KeyTree.node (.node .empty (1 : Int) .empty) 2 (.node .empty 3 .empty)).keys ∧ key ≠ 2) ∧
    (2 ∉ (KeyTree.node (.node .empty (1 : Int) .empty) 2 (.node .empty 3 .empty)).keys →
      t' = .node (.node .empty 1 .empty) 2 (.node .empty 3 .empty)) :=
  Bstree.erase_erases (by unfold KeyTree.Ordered; decide) 2

end LiveStreaming.Study
