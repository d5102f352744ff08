import LiveStreaming.Library.Slice
import LiveStreaming.Study.SortOrder

/-!
# Shell sort

`sorts<T>::shell` sorts by insertion the elements that are `delta` apart, for smaller and smaller `delta`. While an
element is held aside, those in its way are moved up to the place it has left.
-/

namespace LiveStreaming.Study
open Library.Slice

variable {α : Type} [LinearOrder α]

/-- A store that does not leave the array. -/
def store (buffer : List α) (i : Int) (element : α) : Option (List α) :=
  if 0 ≤ i ∧ i < buffer.length then some (buffer.set i.toNat element) else none

/-- `while( sorted_last_index >= 0 && buffer[sorted_last_index] > cur_unsorted_value )` -/
def shiftUp (asc : Bool) (delta : Nat) (curUnsortedValue : α) : Nat → List α → Int → Option (List α × Int)
  | 0, _, _ => none
  | turns + 1, buffer, sortedLastIndex =>
    if sortedLastIndex ≥ 0 then do
      let element ← buffer[sortedLastIndex.toNat]?
      if exceeds asc element curUnsortedValue then do
        let buffer ← store buffer (sortedLastIndex + delta) element
        shiftUp asc delta curUnsortedValue turns buffer (sortedLastIndex - delta)
      else some (buffer, sortedLastIndex)
    else some (buffer, sortedLastIndex)

/-- The body of the `for` loop. -/
def insertAt (asc : Bool) (turns delta : Nat) (buffer : List α) (unsortedIndex : Nat) : Option (List α) := do
  let curUnsortedValue ← buffer[unsortedIndex]?
  let (buffer, sortedLastIndex) ← shiftUp asc delta curUnsortedValue turns buffer (unsortedIndex - delta)
  store buffer (sortedLastIndex + delta) curUnsortedValue

/-- `for( int unsorted_index = delta; unsorted_index < buffer_size; ++unsorted_index )` -/
def shellPass (asc : Bool) (delta : Nat) : Nat → List α → Nat → Option (List α)
  | 0, _, _ => none
  | turns + 1, buffer, unsortedIndex =>
    if unsortedIndex < buffer.length then do
      let buffer ← insertAt asc turns delta buffer unsortedIndex
      shellPass asc delta turns buffer (unsortedIndex + 1)
    else some buffer

/-- `while( delta > 0 )` -/
def shellLoop (asc : Bool) : Nat → List α → Nat → Option (List α)
  | 0, _, _ => none
  | turns + 1, buffer, delta =>
    if delta > 0 then do
      let buffer ← shellPass asc delta turns buffer delta
      shellLoop asc turns buffer (delta / 2)
    else some buffer

/-- With a bound on the turns of each loop. -/
def shell (asc : Bool) (turns : Nat) (buffer : List α) : Option (List α) :=
  shellLoop asc turns buffer (buffer.length / 2)

/-- The call returns, with no index outside the array, and the array is in order. -/
def ShellSorts (asc : Bool) (buffer : List α) : Prop :=
  ∃ turns sorted, shell asc turns buffer = some sorted ∧ sorted.Perm buffer ∧ sorted.Pairwise (InOrder asc)

/-! ### Insertion -/

variable {asc : Bool} {delta hole n turns : Nat} {value : α} {buffer original : List α}

/-- Of the first `n` elements, any two that are `delta` apart are in order. -/
def GapSorted (asc : Bool) (delta n : Nat) (buffer : List α) : Prop :=
  ∀ i a b, i + delta < n → buffer[i]? = some a → buffer[i + delta]? = some b → InOrder asc a b

/-- While `value` is held aside and its place is `hole`: the others are in order, the hole left out, and `value` belongs
below it. -/
structure Inserting (asc : Bool) (delta : Nat) (value : α) (original : List α) (n : Nat) (buffer : List α)
    (hole : Nat) : Prop where
  perm : (buffer.set hole value).Perm original
  inside : hole < buffer.length
  order : ∀ i a b, i + delta < n → i ≠ hole → i + delta ≠ hole → buffer[i]? = some a → buffer[i + delta]? = some b →
    InOrder asc a b
  across : ∀ i a b, i + delta = hole → hole + delta < n → buffer[i]? = some a → buffer[hole + delta]? = some b →
    InOrder asc a b
  above : ∀ b, hole + delta < n → buffer[hole + delta]? = some b → InOrder asc value b

theorem Inserting.shift {low : Nat} {a : α} (positive : 0 < delta)
    (inserting : Inserting asc delta value original n buffer (low + delta)) (found : buffer[low]? = some a)
    (more : exceeds asc a value) : Inserting asc delta value original n (buffer.set (low + delta) a) low where
  perm := (set_set_hole inserting.inside found value).trans inserting.perm
  inside := by
    have inside := inserting.inside
    rw [List.length_set]
    omega
  order := by
    intro i b c within other other' at_ at_'
    rw [List.getElem?_set_ne (by omega)] at at_'
    by_cases here : i = low + delta
    · rw [here, List.getElem?_set_self inserting.inside] at at_
      rw [here] at within at_'
      rw [← Option.some.inj at_]
      exact inserting.across low a c rfl within found at_'
    · rw [List.getElem?_set_ne (Ne.symm here)] at at_
      exact inserting.order i b c within here (by omega) at_ at_'
  across := by
    rintro i b c rfl within at_ at_'
    rw [List.getElem?_set_ne (by omega)] at at_
    rw [List.getElem?_set_self inserting.inside] at at_'
    rw [← Option.some.inj at_']
    exact inserting.order i b a (by omega) (by omega) (by omega) at_ found
  above := by
    intro b within at_
    rw [List.getElem?_set_self inserting.inside] at at_
    rw [← Option.some.inj at_]
    exact inOrder_of_exceeds more

/-- At its place the element is in order with those on either side. -/
theorem Inserting.insert (inserting : Inserting asc delta value original n buffer hole) (positive : 0 < delta)
    (below : ∀ i a, i + delta = hole → buffer[i]? = some a → ¬ exceeds asc a value) :
    GapSorted asc delta n (buffer.set hole value) := by
  intro i a b within at_ at_'
  by_cases here : i = hole
  · rw [here, List.getElem?_set_self inserting.inside] at at_
    rw [here, List.getElem?_set_ne (by omega)] at at_'
    rw [← Option.some.inj at_]
    exact inserting.above b (here ▸ within) at_'
  · rw [List.getElem?_set_ne (Ne.symm here)] at at_
    by_cases here' : i + delta = hole
    · rw [here', List.getElem?_set_self inserting.inside] at at_'
      rw [← Option.some.inj at_']
      exact not_exceeds.mp (below i a here' at_)
    · rw [List.getElem?_set_ne (Ne.symm here')] at at_'
      exact inserting.order i a b within here here' at_ at_'

/-- By induction on the bound: the loop ends at the place of the element that is held aside. -/
theorem shiftUp_inserts (positive : 0 < delta) (inserting : Inserting asc delta value original n buffer hole)
    (enough : hole < turns) :
    ∃ (buffer' : List α) (hole' : Nat),
      shiftUp asc delta value turns buffer (hole - delta) = some (buffer', (hole' : Int) - delta) ∧
      Inserting asc delta value original n buffer' hole' ∧
      ∀ i a, i + delta = hole' → buffer'[i]? = some a → ¬ exceeds asc a value := by
  induction turns generalizing buffer hole with
  | zero => omega
  | succ turns ih =>
    have inside := inserting.inside
    by_cases more : delta ≤ hole
    · obtain ⟨low, rfl⟩ : ∃ low, hole = low + delta := ⟨hole - delta, by omega⟩
      have below : ((low + delta : Nat) : Int) - delta = low := by omega
      have read : buffer[low]? = some buffer[low] := List.getElem?_eq_getElem (by omega)
      generalize buffer[low] = a at read
      rw [below, shiftUp, if_pos (Int.natCast_nonneg low), Int.toNat_natCast, read]
      dsimp only [Option.bind_eq_bind, Option.bind_some]
      by_cases greater : exceeds asc a value
      · obtain ⟨buffer', hole', rest, done⟩ := ih (inserting.shift positive read greater) (by omega)
        refine ⟨buffer', hole', ?_, done⟩
        rw [if_pos greater, store, if_pos (by omega), ← Int.natCast_add, Int.toNat_natCast]
        exact rest
      · refine ⟨buffer, low + delta, ?_, inserting, fun i b same found => ?_⟩
        · rw [if_neg greater, below]
        · obtain rfl : i = low := by omega
          rw [read] at found
          rw [← Option.some.inj found]
          exact greater
    · refine ⟨buffer, hole, ?_, inserting, fun i a same => by omega⟩
      rw [shiftUp, if_neg (by omega)]

theorem insertAt_inserts (positive : 0 < delta) (inside : n < buffer.length) (sorted : GapSorted asc delta n buffer)
    (enough : n < turns) :
    ∃ buffer', insertAt asc turns delta buffer n = some buffer' ∧ buffer'.Perm buffer ∧
      GapSorted asc delta (n + 1) buffer' := by
  have read : buffer[n]? = some buffer[n] := List.getElem?_eq_getElem inside
  have start : Inserting asc delta buffer[n] buffer (n + 1) buffer n :=
    { perm := by rw [List.set_getElem_self]
      inside := inside
      order := fun i a b within _ other at_ at_' => sorted i a b (by omega) at_ at_'
      across := fun i a b _ within => by omega
      above := fun b within => by omega }
  generalize buffer[n] = value at read start
  obtain ⟨buffer', hole, shifted, inserting, below⟩ := shiftUp_inserts positive start enough
  refine ⟨buffer'.set hole value, ?_, inserting.perm, inserting.insert positive below⟩
  rw [insertAt, read]
  dsimp only [Option.bind_eq_bind, Option.bind_some]
  rw [shifted]
  dsimp only [Option.bind_some]
  have inside' := inserting.inside
  rw [store, Int.sub_add_cancel, if_pos (by omega), Int.toNat_natCast]

/-! ### Passes -/

/-- A pass for any gap keeps the elements, and leaves those that are as far apart in order. -/
theorem shellPass_sorts (positive : 0 < delta) (sorted : GapSorted asc delta n buffer)
    (enough : 2 * buffer.length < n + turns) (below : n ≤ buffer.length) :
    ∃ buffer', shellPass asc delta turns buffer n = some buffer' ∧ buffer'.Perm buffer ∧
      GapSorted asc delta buffer.length buffer' := by
  induction turns generalizing buffer n with
  | zero => omega
  | succ turns ih =>
    by_cases going : n < buffer.length
    · obtain ⟨next, inserted, perm, sorted'⟩ := @insertAt_inserts _ _ asc delta n turns buffer positive going sorted
        (by omega)
      have length := perm.length_eq
      obtain ⟨buffer', rest, perm', done⟩ := ih sorted' (by omega) (by omega)
      refine ⟨buffer', ?_, perm'.trans perm, length ▸ done⟩
      rw [shellPass, if_pos going, inserted]
      exact rest
    · obtain rfl : n = buffer.length := by omega
      refine ⟨buffer, ?_, .refl _, sorted⟩
      rw [shellPass, if_neg going]

theorem pairwise_of_gapSorted (sorted : GapSorted asc 1 buffer.length buffer) : buffer.Pairwise (InOrder asc) :=
  pairwise_of_neighbours fun i a b at_ at_' => sorted i a b (List.getElem?_eq_some_iff.mp at_').1 at_ at_'

/-- By induction on the bound: every pass is for a smaller gap, and the last one for neighbours. -/
theorem shellLoop_sorts (positive : 0 < delta) (below : delta ≤ buffer.length)
    (enough : 2 * buffer.length + delta < turns) :
    ∃ sorted, shellLoop asc turns buffer delta = some sorted ∧ sorted.Perm buffer ∧ sorted.Pairwise (InOrder asc) := by
  induction turns generalizing buffer delta with
  | zero => omega
  | succ turns ih =>
    obtain ⟨buffer', pass, perm, gapSorted⟩ := @shellPass_sorts _ _ asc delta delta turns buffer positive
      (fun i a b within => by omega) (by omega) below
    have length := perm.length_eq
    rw [shellLoop, if_pos positive, pass, Option.bind_eq_bind, Option.bind_some]
    by_cases last : delta = 1
    · subst last
      refine ⟨buffer', ?_, perm, pairwise_of_gapSorted (length ▸ gapSorted)⟩
      obtain ⟨turns, rfl⟩ : ∃ n, turns = n + 1 := ⟨turns - 1, by omega⟩
      rw [shellLoop, if_neg (by decide)]
    · obtain ⟨sorted, rest, perm', order⟩ := @ih (delta / 2) buffer' (by omega) (by omega) (by omega)
      exact ⟨sorted, rest, perm'.trans perm, order⟩

theorem shell_sorts (asc : Bool) (buffer : List α) : ShellSorts asc buffer := by
  refine ⟨2 * buffer.length + buffer.length / 2 + 1, ?_⟩
  by_cases short : buffer.length / 2 = 0
  · refine ⟨buffer, ?_, .refl _, ?_⟩
    · rw [shell, shellLoop, short, if_neg (by decide)]
    · apply List.pairwise_iff_getElem.mpr
      intro i j inside inside' before
      omega
  · exact shellLoop_sorts (Nat.pos_of_ne_zero short) (by omega) (Nat.lt_succ_self _)

end LiveStreaming.Study
