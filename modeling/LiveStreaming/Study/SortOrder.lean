import Mathlib.Order.Lattice
import Mathlib.Data.List.Chain

/-!
# Ascending and descending

Every algorithm of `sorts<T>` has each of its comparisons twice, with `>` where `asc` is true and with `<` where it is
not.
-/

namespace LiveStreaming.Study

variable {α : Type} [LinearOrder α] {asc : Bool} {a b c : α}

def intMax : Nat := 2147483647

/-- `a > b` with `asc`, `a < b` without. -/
def exceeds (asc : Bool) (a b : α) : Bool := if asc then a > b else a < b

/-- The order that is asked for. -/
def InOrder (asc : Bool) (a b : α) : Prop := if asc then a ≤ b else a ≥ b

theorem inOrder_refl (asc : Bool) (a : α) : InOrder asc a a := by
  cases asc <;> exact le_refl a

theorem InOrder.trans (one : InOrder asc a b) (two : InOrder asc b c) : InOrder asc a c := by
  cases asc
  · exact le_trans two one
  · exact le_trans one two

theorem not_exceeds : ¬ exceeds asc a b ↔ InOrder asc a b := by
  cases asc <;> simp [exceeds, InOrder]

theorem inOrder_of_exceeds (more : exceeds asc a b) : InOrder asc b a := by
  cases asc
  · exact le_of_lt (of_decide_eq_true more)
  · exact le_of_lt (of_decide_eq_true more)

theorem exceeds_trans (one : exceeds asc a b) (two : exceeds asc b c) : exceeds asc a c := by
  cases asc
  · exact decide_eq_true (lt_trans (of_decide_eq_true one) (of_decide_eq_true two))
  · exact decide_eq_true (lt_trans (of_decide_eq_true two) (of_decide_eq_true one))

theorem ne_of_exceeds (more : exceeds asc a b) : a ≠ b := by
  rintro rfl
  exact not_exceeds.mpr (inOrder_refl asc a) more

theorem exceeds_of_inOrder (order : InOrder asc a b) (other : a ≠ b) : exceeds asc b a := by
  cases asc
  · exact decide_eq_true (lt_of_le_of_ne order (Ne.symm other))
  · exact decide_eq_true (lt_of_le_of_ne order other)

theorem pairwise_of_neighbours {l : List α}
    (neighbours : ∀ i a b, l[i]? = some a → l[i + 1]? = some b → InOrder asc a b) : l.Pairwise (InOrder asc) := by
  have : Trans (@InOrder α _ asc) (@InOrder α _ asc) (@InOrder α _ asc) := ⟨InOrder.trans⟩
  apply List.IsChain.pairwise
  rw [List.isChain_iff_getElem]
  intro i inside
  exact neighbours i _ _ (List.getElem?_eq_getElem _) (List.getElem?_eq_getElem _)

end LiveStreaming.Study
