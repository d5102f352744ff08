import Mathlib.Data.List.Basic

/-!
# Binary heaps

A list is a heap where every element stands above its two children. An element that is taken out leaves a hole,
which sinks until the element may stand in it.
-/

namespace LiveStreaming.Library.Heap

variable {α : Type*} {above : α → α → Prop} {l : List α} {first size hole : Nat} {x : α}

def IsChild (c p : Nat) : Prop := c = 2 * p + 1 ∨ c = 2 * p + 2

theorem IsChild.lt {c p : Nat} (child : IsChild c p) : p < c := by
  unfold IsChild at child
  omega

theorem IsChild.unique {c p q : Nat} (child : IsChild c p) (child' : IsChild c q) : p = q := by
  unfold IsChild at child child'
  omega

theorem isChild_parent {c : Nat} (positive : 0 < c) : IsChild c ((c - 1) / 2) := by
  unfold IsChild
  omega

/-- The elements from `first` on are in order with their children below `size`. -/
def HeapFrom (above : α → α → Prop) (l : List α) (first size : Nat) : Prop :=
  ∀ p c a b, first ≤ p → IsChild c p → c < size → l[p]? = some a → l[c]? = some b → above a b

/-- The same but for the hole, in which `x` may be put as far as what stands above it goes. -/
structure Sinking (above : α → α → Prop) (l : List α) (first size hole : Nat) (x : α) : Prop where
  except : ∀ p c a b, first ≤ p → p ≠ hole → c ≠ hole → IsChild c p → c < size → l[p]? = some a → l[c]? = some b →
    above a b
  into : ∀ p a, first ≤ p → IsChild hole p → l[p]? = some a → above a x
  grand : ∀ p c a b, first ≤ p → IsChild hole p → IsChild c hole → c < size → l[p]? = some a → l[c]? = some b →
    above a b

theorem HeapFrom.sinking (heap : HeapFrom above l (first + 1) size) (x : α) : Sinking above l first size first x where
  except := fun p c a b from_first other _ => heap p c a b (by omega)
  into := fun p _ from_first child => absurd child.lt (by omega)
  grand := fun p _ _ _ from_first child => absurd child.lt (by omega)

theorem getElem?_set_self_some {i : Nat} {g a : α} (found : (l.set i g)[i]? = some a) : a = g := by
  rw [List.getElem?_set_self'] at found
  obtain ⟨_, _, same⟩ := Option.map_eq_some_iff.mp found
  exact same.symm

/-- The hole sinks to the child that may stand above the other. -/
theorem Sinking.move {m : Nat} {g : α} (sinking : Sinking above l first size hole x) (child : IsChild m hole)
    (inside : m < size) (found : l[m]? = some g) (down : above g x)
    (chosen : ∀ c b, IsChild c hole → c < size → l[c]? = some b → above g b) (from_first : first ≤ hole) :
    Sinking above (l.set hole g) first size m x where
  except := by
    intro p c a b start otherParent otherChild isChild within parent below
    by_cases top : p = hole
    · subst top
      have value := getElem?_set_self_some parent
      rw [List.getElem?_set_ne (by have := isChild.lt; omega)] at below
      rw [value]
      exact chosen c b isChild within below
    · rw [List.getElem?_set_ne (Ne.symm top)] at parent
      by_cases bottom : c = hole
      · subst bottom
        rw [getElem?_set_self_some below]
        exact sinking.grand p m a g start isChild child inside parent found
      · rw [List.getElem?_set_ne (Ne.symm bottom)] at below
        exact sinking.except p c a b start top bottom isChild within parent below
  into := by
    intro p a _ isChild parent
    obtain rfl := isChild.unique child
    rw [getElem?_set_self_some parent]
    exact down
  grand := by
    intro p c a b _ isChild grandchild within parent below
    obtain rfl := isChild.unique child
    have deeper := child.lt
    have deepest := grandchild.lt
    rw [List.getElem?_set_ne (by omega)] at below
    rw [getElem?_set_self_some parent]
    exact sinking.except m c g b (by omega) (by omega) (by omega) grandchild within found below

theorem Sinking.stop (sinking : Sinking above l first size hole x)
    (settled : ∀ c b, IsChild c hole → c < size → l[c]? = some b → above x b) :
    HeapFrom above (l.set hole x) first size := by
  intro p c a b start isChild within parent below
  by_cases top : p = hole
  · subst top
    rw [List.getElem?_set_ne (by have := isChild.lt; omega)] at below
    rw [getElem?_set_self_some parent]
    exact settled c b isChild within below
  · rw [List.getElem?_set_ne (Ne.symm top)] at parent
    by_cases bottom : c = hole
    · subst bottom
      rw [getElem?_set_self_some below]
      exact sinking.into p a start isChild parent
    · rw [List.getElem?_set_ne (Ne.symm bottom)] at below
      exact sinking.except p c a b start top bottom isChild within parent below

/-- Changes at the root and behind the heap leave the rest of it in order. -/
theorem HeapFrom.replace {e : Nat} (heap : HeapFrom above l 0 (e + 1)) (a b : α) :
    HeapFrom above ((l.set e a).set 0 b) 1 e := by
  intro p c a' b' start isChild within parent below
  have deeper := isChild.lt
  rw [List.getElem?_set_ne (by omega), List.getElem?_set_ne (by omega)] at parent below
  exact heap p c a' b' (Nat.zero_le p) isChild (by omega) parent below

/-- The root stands above everything. -/
theorem HeapFrom.root (heap : HeapFrom above l 0 size) (refl : ∀ a, above a a)
    (trans : ∀ a b c, above a b → above b c → above a c) {i : Nat} {a b : α} (root : l[0]? = some a)
    (found : l[i]? = some b) (inside : i < size) : above a b := by
  induction i using Nat.strongRecOn generalizing b with
  | ind i ih =>
    rcases Nat.eq_zero_or_pos i with rfl | positive
    · rw [root] at found
      rw [← Option.some.inj found]
      exact refl a
    · have child := isChild_parent positive
      have below := child.lt
      obtain ⟨bound, _⟩ := List.getElem?_eq_some_iff.mp found
      have parent : l[(i - 1) / 2]? = some l[(i - 1) / 2] := List.getElem?_eq_getElem (by omega)
      exact trans _ _ _ (ih _ below parent (by omega)) (heap _ i _ b (Nat.zero_le _) child inside parent found)

end LiveStreaming.Library.Heap
