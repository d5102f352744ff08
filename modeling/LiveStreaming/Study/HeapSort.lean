import LiveStreaming.Library.Heap
import LiveStreaming.Library.Slice
import LiveStreaming.Study.SortOrder
import Mathlib.Data.List.Sort

/-!
# Heap sort

`sorts<T>::heap` makes the array a heap from its middle down and then takes the root out again and again, with an end
that shrinks. `create_heap` carries the element at the root aside while it moves children up.
-/

namespace LiveStreaming.Study
open Library Library.Heap Library.Slice

variable {α : Type} [LinearOrder α]

/-- Which of two children is moved up, and whether the root may stay above it. -/
def childBelow (asc : Bool) (left right : α) : Bool := if asc then left < right else left > right

def rootStays (asc : Bool) (root child : α) : Bool := if asc then root ≥ child else root ≤ child

/-- `min_max_index`, where there is a left child. -/
def minMaxIndex (asc : Bool) (buffer : List α) (leftChildIndex last : Nat) : Option Nat :=
  if leftChildIndex + 1 ≤ last then do
    let left ← buffer[leftChildIndex]?
    let right ← buffer[leftChildIndex + 1]?
    some (if childBelow asc left right then leftChildIndex + 1 else leftChildIndex)
  else some leftChildIndex

/-- The loop of `create_heap`. `none` where an index is outside the array or no `int`. -/
def createHeapLoop (asc : Bool) (root : α) (last : Nat) : Nat → Nat → List α → Option (List α)
  | 0, _, _ => none
  | fuel + 1, rootIndex, buffer =>
    if intMax < 2 * rootIndex + 1 then none
    else if 2 * rootIndex + 1 ≤ last then do
      let minMax ← minMaxIndex asc buffer (2 * rootIndex + 1) last
      let child ← buffer[minMax]?
      if rootStays asc root child then some (buffer.set rootIndex root)
      else createHeapLoop asc root last fuel minMax (buffer.set rootIndex child)
    else some (buffer.set rootIndex root)

/-- `end` is `last` here. Every turn moves the index up, so that the length of the array is enough turns. -/
def createHeap (asc : Bool) (buffer : List α) (rootIndex last : Nat) : Option (List α) := do
  let root ← buffer[rootIndex]?
  createHeapLoop asc root last buffer.length rootIndex buffer

/-- The exchange of the second loop of `heap`, and the new heap in front of `last`. -/
def extractRoot (asc : Bool) (buffer : List α) (last : Nat) : Option (List α) := do
  let temp ← buffer[last]?
  let first ← buffer[0]?
  createHeap asc ((buffer.set last first).set 0 temp) 0 (last - 1)

def heap (asc : Bool) (buffer : List α) : Option (List α) := do
  let bufferSize := buffer.length
  let built ← (List.range (bufferSize / 2 + 1)).reverse.foldlM
    (fun buffer root => createHeap asc buffer root (bufferSize - 1)) buffer
  (List.range' 1 (bufferSize - 1)).reverse.foldlM (extractRoot asc) built

/-- What is nearer to the end than another once all is sorted. -/
def above (asc : Bool) (a b : α) : Prop := if asc then b ≤ a else a ≤ b

/-- What a call of `create_heap` leaves: the elements in a new order, with nothing moved behind the end. -/
structure Settled (asc : Bool) (buffer settled : List α) (first last : Nat) : Prop where
  perm : settled.Perm buffer
  heap : HeapFrom (above asc) settled first (last + 1)
  behind : ∀ i, last < i → settled[i]? = buffer[i]?

/-- A heap up to `last`, and behind it what has been taken out, each element in its place. -/
structure Extracted (asc : Bool) (buffer : List α) (last : Nat) : Prop where
  heap : HeapFrom (above asc) buffer 0 (last + 1)
  placed : ∀ i b, last < i → buffer[i]? = some b → ∀ a ∈ buffer.take i, above asc b a

theorem Extracted.pairwise {asc : Bool} {buffer : List α} (extracted : Extracted asc buffer 0) :
    buffer.Pairwise fun a b => above asc b a := by
  rw [List.pairwise_iff_getElem]
  intro i j bound bound' before
  apply extracted.placed j _ (by omega) (List.getElem?_eq_getElem bound')
  rw [List.mem_iff_getElem]
  exact ⟨i, by simp only [List.length_take]; omega, by rw [List.getElem_take]⟩

end LiveStreaming.Study
