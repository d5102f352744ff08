import LiveStreaming.Library.Slice
import LiveStreaming.Study.SortOrder
import Mathlib.Data.Int.Order.Basic

/-!
# Merge sort

`sorts<T>::merge` sorts the two halves of a part and merges them through one temporary array that all calls share.
The middle of a part is found from the sum of its ends, which is an `int`.
-/

namespace LiveStreaming.Study
open Library.Slice

variable {α : Type} [LinearOrder α]

/-- The temporary array in a merge step, with the slots of it that the step has used. -/
structure Merging (α : Type) where
  tmp : List α
  tmpIndex : Nat
  slots : List Nat

/-- `tmp[tmp_index++] = element;` -/
def Merging.put (m : Merging α) (element : α) : Option (Merging α) :=
  if m.tmpIndex < m.tmp.length then
    some { tmp := m.tmp.set m.tmpIndex element, tmpIndex := m.tmpIndex + 1, slots := m.slots ++ [m.tmpIndex] }
  else none

/-- `tmp[tmp_index++]` -/
def Merging.get (m : Merging α) : Option (α × Merging α) := do
  let element ← m.tmp[m.tmpIndex]?
  some (element, { m with tmpIndex := m.tmpIndex + 1, slots := m.slots ++ [m.tmpIndex] })

/-- `while( left <= mid && right <= end )` -/
def mergeRuns (asc : Bool) (buffer : List α) (mid last : Nat) :
    Nat → Merging α → Nat → Nat → Option (Merging α × Nat × Nat)
  | 0, _, _, _ => none
  | turns + 1, m, left, right =>
    if left ≤ mid ∧ right ≤ last then do
      let a ← buffer[left]?
      let b ← buffer[right]?
      if exceeds asc b a then do
        let m ← m.put a
        mergeRuns asc buffer mid last turns m (left + 1) right
      else do
        let m ← m.put b
        mergeRuns asc buffer mid last turns m left (right + 1)
    else some (m, left, right)

/-- `while( left <= mid ) tmp[tmp_index++] = buffer[left++];`, and the same for the right run. -/
def copyRun (buffer : List α) (stop : Nat) : Nat → Merging α → Nat → Option (Merging α)
  | 0, _, _ => none
  | turns + 1, m, i =>
    if i ≤ stop then do
      let element ← buffer[i]?
      let m ← m.put element
      copyRun buffer stop turns m (i + 1)
    else some m

/-- `while( begin <= end ) buffer[begin++] = tmp[tmp_index++];` -/
def copyBack (last : Nat) : Nat → List α → Merging α → Nat → Option (List α × Merging α)
  | 0, _, _, _ => none
  | turns + 1, buffer, m, i =>
    if i ≤ last then do
      let (element, m) ← m.get
      if i < buffer.length then copyBack last turns (buffer.set i element) m (i + 1) else none
    else some (buffer, m)

def mergeArray (asc : Bool) (turns : Nat) (buffer tmp : List α) (first mid last : Nat) :
    Option (List α × Merging α) := do
  let (m, left, right) ← mergeRuns asc buffer mid last turns { tmp, tmpIndex := 0, slots := [] } first (mid + 1)
  let m ← copyRun buffer mid turns m left
  let m ← copyRun buffer last turns m right
  copyBack last turns buffer { m with tmpIndex := 0 } first

/-- One call of `merge_array`, with the slots of the temporary array it used. -/
structure MergeStep where
  first : Nat
  last : Nat
  slots : List Nat

/-- The two arrays, and the merge steps so far. -/
structure Sorting (α : Type) where
  buffer : List α
  tmp : List α
  steps : List MergeStep

/-- `begin + end` is an `int`. There is a bound on the depth of the calls and on the turns of each loop. -/
def mergeSort (asc : Bool) : Nat → Sorting α → Nat → Nat → Option (Sorting α)
  | 0, _, _, _ => none
  | turns + 1, s, first, last =>
    if first < last then
      if intMax < first + last then none
      else do
        let mid := (first + last) / 2
        let s ← mergeSort asc turns s first mid
        let s ← mergeSort asc turns s (mid + 1) last
        let (buffer, m) ← mergeArray asc turns s.buffer s.tmp first mid last
        some { buffer, tmp := m.tmp, steps := s.steps ++ [{ first, last, slots := m.slots }] }
    else some s

/-- With what `new T[buffer_size]` has in its slots. -/
def merge (asc : Bool) (turns : Nat) (buffer : List α) (blank : Nat → α) : Option (Sorting α) :=
  if buffer.length = 0 then some { buffer, tmp := [], steps := [] }
  else
    mergeSort asc turns { buffer, tmp := (List.range buffer.length).map blank, steps := [] } 0 (buffer.length - 1)

/-- The call returns with the array in order, and no merge step has used more slots than it has elements. -/
def MergeSorts (asc : Bool) (buffer : List α) : Prop :=
  ∀ blank : Nat → α, ∃ turns s, merge asc turns buffer blank = some s ∧ s.buffer.Perm buffer ∧
    s.buffer.Pairwise (InOrder asc) ∧ ∀ step ∈ s.steps, ∀ slot ∈ step.slots, slot < step.last - step.first + 1

/-! ### Filling the temporary array -/

variable {asc : Bool} {buffer buffer' : List α} {m m' m'' : Merging α} {elements elements' : List α}
variable {first mid last left right i turns : Nat}

/-- The next slots hold these elements, and no others were used. -/
structure Fills (m : Merging α) (elements : List α) (m' : Merging α) : Prop where
  index : m'.tmpIndex = m.tmpIndex + elements.length
  size : m'.tmp.length = m.tmp.length
  stored : m'.tmp.take m'.tmpIndex = m.tmp.take m.tmpIndex ++ elements
  slots : ∀ slot ∈ m'.slots, slot ∈ m.slots ∨ slot < m'.tmpIndex

omit [LinearOrder α] in
theorem Fills.refl (m : Merging α) : Fills m [] m :=
  ⟨rfl, rfl, (List.append_nil _).symm, fun _ used => .inl used⟩

omit [LinearOrder α] in
theorem Fills.trans (one : Fills m elements m') (two : Fills m' elements' m'') :
    Fills m (elements ++ elements') m'' where
  index := by rw [two.index, one.index, List.length_append, Nat.add_assoc]
  size := two.size.trans one.size
  stored := by rw [two.stored, one.stored, List.append_assoc]
  slots := by
    intro slot used
    rcases two.slots slot used with used | used
    · rcases one.slots slot used with used | used
      · exact .inl used
      · have index := two.index
        exact .inr (by omega)
    · exact .inr used

omit [LinearOrder α] in
theorem put_fills (element : α) (room : m.tmpIndex < m.tmp.length) :
    ∃ m', m.put element = some m' ∧ Fills m [element] m' := by
  refine ⟨_, if_pos room, rfl, List.length_set, ?_, ?_⟩
  · dsimp only
    rw [List.take_succ_eq_append_getElem (by rwa [List.length_set]), List.take_set_of_le (Nat.le_refl _),
      List.getElem_set_self]
  · intro slot used
    rcases List.mem_append.mp used with used | used
    · exact .inl used
    · rw [List.mem_singleton.mp used]
      exact .inr (Nat.lt_succ_self _)

omit [LinearOrder α] in
theorem copyRun_fills {stop : Nat} (inside : stop < buffer.length) (ordered : i ≤ stop + 1)
    (room : m.tmpIndex + (stop + 1 - i) ≤ m.tmp.length) (enough : stop + 1 - i < turns) :
    ∃ m', copyRun buffer stop turns m i = some m' ∧ Fills m (slice buffer i stop) m' := by
  induction turns generalizing m i with
  | zero => omega
  | succ turns ih =>
    by_cases going : i ≤ stop
    · have read : buffer[i]? = some buffer[i] := List.getElem?_eq_getElem (by omega)
      obtain ⟨m', put, filled⟩ := put_fills buffer[i] (m := m) (by omega)
      have index := filled.index
      have size := filled.size
      rw [List.length_singleton] at index
      obtain ⟨m'', rest, filled'⟩ := ih (m := m') (i := i + 1) (by omega) (by omega) (by omega)
      refine ⟨m'', ?_, ?_⟩
      · rw [copyRun, if_pos going, read]
        dsimp only [Option.bind_eq_bind, Option.bind_some]
        rw [put]
        exact rest
      · rw [slice_cons read going]
        exact filled.trans filled'
    · refine ⟨m, ?_, ?_⟩
      · rw [copyRun, if_neg going]
      · rw [slice_nil (by omega)]
        exact .refl m

/-! ### One merge step -/

/-- The right run's element is taken unless the left one's comes strictly before it. -/
def merged (asc : Bool) (run run' : List α) : List α := List.merge run' run fun b a => !exceeds asc b a

theorem merged_perm (asc : Bool) (run run' : List α) : (merged asc run run').Perm (run ++ run') :=
  (List.merge_perm_append _).trans List.perm_append_comm

theorem merged_pairwise {run run' : List α} (order : run.Pairwise (InOrder asc))
    (order' : run'.Pairwise (InOrder asc)) : (merged asc run run').Pairwise (InOrder asc) := by
  have same (a b : α) : (!exceeds asc a b) = true ↔ InOrder asc a b := by
    rw [Bool.not_eq_true', ← Bool.not_eq_true, not_exceeds]
  have total (a b : α) : (!exceeds asc a b || !exceeds asc b a) = true := by
    rw [Bool.or_eq_true, same, same]
    by_cases more : exceeds asc a b
    · exact .inr (inOrder_of_exceeds more)
    · exact .inl (not_exceeds.mp more)
  have trans (a b c : α) (one : (!exceeds asc a b) = true) (two : (!exceeds asc b c) = true) :
      (!exceeds asc a c) = true := (same a c).mpr (((same a b).mp one).trans ((same b c).mp two))
  have done := List.pairwise_merge trans total run' run (order'.imp (same _ _).mpr) (order.imp (same _ _).mpr)
  exact done.imp (same _ _).mp

theorem mergeRuns_turn {a b : α} (going : left ≤ mid) (going' : right ≤ last) (read : buffer[left]? = some a)
    (read' : buffer[right]? = some b) :
    mergeRuns asc buffer mid last (turns + 1) m left right =
      if exceeds asc b a then (m.put a).bind fun m => mergeRuns asc buffer mid last turns m (left + 1) right
      else (m.put b).bind fun m => mergeRuns asc buffer mid last turns m left (right + 1) := by
  rw [mergeRuns, if_pos ⟨going, going'⟩, read]
  dsimp only [Option.bind_eq_bind, Option.bind_some]
  rw [read']
  rfl

/-- The loop ends with one of the runs used up, and what it has stored is the front of the merge of both. -/
theorem mergeRuns_fills (inside : last < buffer.length) (halves : mid < last)
    (front : left ≤ mid + 1) (back : right ≤ last + 1)
    (room : m.tmpIndex + (mid + 1 - left) + (last + 1 - right) ≤ m.tmp.length)
    (enough : (mid + 1 - left) + (last + 1 - right) < turns) :
    ∃ m' left' right' done, mergeRuns asc buffer mid last turns m left right = some (m', left', right') ∧
      Fills m done m' ∧ left ≤ left' ∧ left' ≤ mid + 1 ∧ right ≤ right' ∧ right' ≤ last + 1 ∧
      done.length = (left' - left) + (right' - right) ∧
      done ++ slice buffer left' mid ++ slice buffer right' last =
        merged asc (slice buffer left mid) (slice buffer right last) := by
  induction turns generalizing m left right with
  | zero => omega
  | succ turns ih =>
    by_cases going : left ≤ mid ∧ right ≤ last
    · obtain ⟨going, going'⟩ := going
      have read : buffer[left]? = some buffer[left] := List.getElem?_eq_getElem (by omega)
      have read' : buffer[right]? = some buffer[right] := List.getElem?_eq_getElem (by omega)
      generalize buffer[left] = a at read
      generalize buffer[right] = b at read'
      rw [mergeRuns_turn going going' read read', slice_cons read going, slice_cons read' going', merged, List.cons_merge_cons]
      by_cases less : exceeds asc b a
      · obtain ⟨m₁, put, filled⟩ := put_fills a (m := m) (by omega)
        have index := filled.index
        have size := filled.size
        rw [List.length_singleton] at index
        obtain ⟨m', left', right', done, rest, filled', low, high, low', high', length, same⟩ :=
          @ih m₁ (left + 1) right (by omega) back (by omega) (by omega)
        refine ⟨m', left', right', a :: done, ?_, filled.trans filled', by omega, high, low', high', ?_, ?_⟩
        · rw [if_pos less, put]
          exact rest
        · rw [List.length_cons]
          omega
        · rw [if_neg (by rw [less]; decide), List.cons_append, List.cons_append, same, merged, slice_cons read' going']
      · obtain ⟨m₁, put, filled⟩ := put_fills b (m := m) (by omega)
        have index := filled.index
        have size := filled.size
        rw [List.length_singleton] at index
        obtain ⟨m', left', right', done, rest, filled', low, high, low', high', length, same⟩ :=
          @ih m₁ left (right + 1) front (by omega) (by omega) (by omega)
        refine ⟨m', left', right', b :: done, ?_, filled.trans filled', low, high, by omega, high', ?_, ?_⟩
        · rw [if_neg less, put]
          exact rest
        · rw [List.length_cons]
          omega
        · rw [if_pos (by rw [(Bool.not_eq_true _).mp less]; rfl), List.cons_append, List.cons_append, same, merged,
            slice_cons read going]
    · refine ⟨m, left, right, [], ?_, .refl m, Nat.le_refl _, front, Nat.le_refl _, back, ?_, ?_⟩
      · rw [mergeRuns, if_neg going]
      · rw [Nat.sub_self, Nat.sub_self, List.length_nil]
      · rw [List.nil_append, merged]
        by_cases first : mid < left
        · rw [slice_nil first, List.nil_append, List.merge_right]
        · rw [@slice_nil _ buffer right last (by omega), List.append_nil, List.nil_merge]

omit [LinearOrder α] in
/-- From `i` on the buffer gets what is in the slots, one after the other. -/
theorem copyBack_copies (inside : last < buffer.length) (ordered : i ≤ last + 1)
    (room : m.tmpIndex + (last + 1 - i) ≤ m.tmp.length) (enough : last + 1 - i < turns) :
    ∃ buffer' m', copyBack last turns buffer m i = some (buffer', m') ∧ buffer'.length = buffer.length ∧
      m'.tmp = m.tmp ∧ (∀ slot ∈ m'.slots, slot ∈ m.slots ∨ slot < m.tmpIndex + (last + 1 - i)) ∧
      (∀ j, i ≤ j → j ≤ last → buffer'[j]? = m.tmp[m.tmpIndex + (j - i)]?) ∧
      ∀ j, j < i ∨ last < j → buffer'[j]? = buffer[j]? := by
  induction turns generalizing buffer m i with
  | zero => omega
  | succ turns ih =>
    by_cases going : i ≤ last
    · have read : m.tmp[m.tmpIndex]? = some m.tmp[m.tmpIndex] := List.getElem?_eq_getElem (by omega)
      generalize m.tmp[m.tmpIndex] = element at read
      obtain ⟨buffer', m', rest, length, tmp, slots, copied, kept⟩ :=
        @ih (buffer.set i element) { m with tmpIndex := m.tmpIndex + 1, slots := m.slots ++ [m.tmpIndex] } (i + 1)
          (by rw [List.length_set]; exact inside) (by omega) (by dsimp only; omega) (by omega)
      refine ⟨buffer', m', ?_, by rw [length, List.length_set], tmp, fun slot used => ?_, fun j low high => ?_,
        fun j off => ?_⟩
      · rw [copyBack, if_pos going, Merging.get, read]
        dsimp only [Option.bind_eq_bind, Option.bind_some]
        rw [if_pos (by omega)]
        exact rest
      · rcases slots slot used with used | used
        · rcases List.mem_append.mp used with used | used
          · exact .inl used
          · rw [List.mem_singleton.mp used]
            exact .inr (by omega)
        · dsimp only at used
          exact .inr (by omega)
      · by_cases here : j = i
        · rw [here, kept i (.inl (by omega)), List.getElem?_set_self (by omega), Nat.sub_self, Nat.add_zero, read]
        · rw [copied j (by omega) high]
          dsimp only
          rw [show m.tmpIndex + 1 + (j - (i + 1)) = m.tmpIndex + (j - i) by omega]
      · rw [kept j (by omega), List.getElem?_set_ne (by omega)]
    · refine ⟨buffer, m, ?_, rfl, rfl, fun slot used => .inl used, fun j low high => by omega, fun j _ => rfl⟩
      rw [copyBack, if_neg going]

theorem mergeArray_merges {tmp : List α} (halves : first ≤ mid) (apart : mid < last) (inside : last < buffer.length)
    (room : last < tmp.length) (enough : last + 1 - first < turns) :
    ∃ buffer' m', mergeArray asc turns buffer tmp first mid last = some (buffer', m') ∧
      m'.tmp.length = tmp.length ∧ (∀ slot ∈ m'.slots, slot < last - first + 1) ∧
      slice buffer' first last = merged asc (slice buffer first mid) (slice buffer (mid + 1) last) ∧
      ∀ i, i < first ∨ last < i → buffer'[i]? = buffer[i]? := by
  obtain ⟨m₁, left, right, done, runs, filled₁, low, high, low', high', length, same⟩ :=
    @mergeRuns_fills _ _ asc buffer ⟨tmp, 0, []⟩ mid last first (mid + 1) turns inside apart (by omega) (by omega)
      (by dsimp only; omega) (by omega)
  have index₁ := filled₁.index
  have size₁ := filled₁.size
  dsimp only at index₁ size₁
  obtain ⟨m₂, leftRun, filled₂⟩ := @copyRun_fills _ buffer m₁ left turns mid (by omega) high (by omega) (by omega)
  have index₂ := filled₂.index
  have size₂ := filled₂.size
  rw [length_slice (by omega)] at index₂
  obtain ⟨m₃, rightRun, filled₃⟩ := @copyRun_fills _ buffer m₂ right turns last inside high' (by omega) (by omega)
  have index₃ := filled₃.index
  have size₃ := filled₃.size
  rw [length_slice inside] at index₃
  obtain ⟨buffer', m', back, length', tmp', slots, copied, kept⟩ :=
    @copyBack_copies _ buffer { m₃ with tmpIndex := 0 } last first turns inside (by omega) (by dsimp only; omega)
      (by omega)
  have filled := (filled₁.trans filled₂).trans filled₃
  have stored := filled.stored
  rw [same, List.take_zero, List.nil_append] at stored
  refine ⟨buffer', m', ?_, ?_, fun slot used => ?_, ?_, kept⟩
  · rw [mergeArray, runs]
    dsimp only [Option.bind_eq_bind, Option.bind_some]
    rw [leftRun, Option.bind_some, rightRun, Option.bind_some]
    exact back
  · rw [tmp']
    dsimp only
    omega
  · rcases slots slot used with used | used
    · rcases filled.slots slot used with used | used
      · cases used
      · omega
    · dsimp only at used
      omega
  · rw [← stored]
    apply List.ext_getElem?
    intro i
    rw [getElem?_slice, List.getElem?_take]
    by_cases within : first + i ≤ last
    · rw [if_pos within, if_pos (by omega), copied _ (by omega) within, Nat.zero_add, Nat.add_sub_cancel_left]
    · rw [if_neg within, if_neg (by omega)]

/-! ### All calls -/

/-- What a call for a part leaves. -/
structure Merged (asc : Bool) (first last : Nat) (s s' : Sorting α) : Prop where
  rearranged : Rearranged first last s.buffer s'.buffer
  order : (slice s'.buffer first last).Pairwise (InOrder asc)
  size : s'.tmp.length = s.tmp.length
  slots : ∀ step ∈ s'.steps, step ∈ s.steps ∨ ∀ slot ∈ step.slots, slot < step.last - step.first + 1

/-- By induction on the depth: the two halves are sorted one after the other, and merged then. -/
theorem mergeSort_sorts {s : Sorting α} (ordered : first ≤ last) (inside : last < s.buffer.length)
    (room : last < s.tmp.length) (small : last ≤ 1073741824) (enough : last + 2 - first < turns) :
    ∃ s', mergeSort asc turns s first last = some s' ∧ Merged asc first last s s' := by
  induction turns generalizing s first last with
  | zero => omega
  | succ turns ih =>
    by_cases going : first < last
    · have fits : ¬ intMax < first + last := by
        unfold intMax
        omega
      obtain ⟨mid, middle⟩ : ∃ mid, mid = (first + last) / 2 := ⟨_, rfl⟩
      obtain ⟨s₁, firstHalf, done₁⟩ := @ih first mid s (by omega) (by omega) (by omega) (by omega) (by omega)
      have length₁ := done₁.rearranged.perm.length_eq
      have size₁ := done₁.size
      obtain ⟨s₂, secondHalf, done₂⟩ := @ih (mid + 1) last s₁ (by omega) (by omega) (by omega) small (by omega)
      have length₂ := done₂.rearranged.perm.length_eq
      have size₂ := done₂.size
      obtain ⟨buffer', m', step, size₃, slots, same, kept⟩ :=
        @mergeArray_merges _ _ asc s₂.buffer first mid last turns s₂.tmp (by omega) (by omega) (by omega) (by omega)
          (by omega)
      have order₁ : (slice s₂.buffer first mid).Pairwise (InOrder asc) := by
        rw [slice_congr fun i _ within => done₂.rearranged.outside i (.inl (by omega))]
        exact done₁.order
      have merging : Rearranged first last s₂.buffer buffer' := by
        refine .of_slice kept ?_ (by omega)
        rw [same, @slice_append _ s₂.buffer first mid last (by omega) (by omega)]
        exact merged_perm asc _ _
      have moved := ((done₁.rearranged.widen (Nat.le_refl _) (by omega)).trans
        (done₂.rearranged.widen (by omega) (Nat.le_refl _))).trans merging
      refine ⟨{ buffer := buffer', tmp := m'.tmp, steps := s₂.steps ++ [{ first, last, slots := m'.slots }] }, ?_,
        moved, ?_, ?_, ?_⟩
      · rw [mergeSort, if_pos going, if_neg fits, ← middle]
        dsimp only [Option.bind_eq_bind]
        rw [firstHalf]
        dsimp only [Option.bind_some]
        rw [secondHalf]
        dsimp only [Option.bind_some]
        rw [step]
        rfl
      · dsimp only
        rw [same]
        exact merged_pairwise order₁ done₂.order
      · dsimp only
        omega
      · intro step made
        rcases List.mem_append.mp made with made | made
        · rcases done₂.slots step made with made | good
          · exact done₁.slots step made
          · exact .inr good
        · rw [List.mem_singleton.mp made]
          exact .inr slots
    · refine ⟨s, ?_, .refl _, ?_, rfl, fun step made => .inl made⟩
      · rw [mergeSort, if_neg going]
      · obtain rfl : first = last := by omega
        rw [slice_single (List.getElem?_eq_getElem inside)]
        exact List.pairwise_singleton _ _

/-- By induction on the depth: the right halves all end at `last`, and the sum is too large for the last of them. -/
theorem mergeSort_overflows {s : Sorting α} (apart : first < last) (large : 1073741825 ≤ last) :
    mergeSort asc turns s first last = none := by
  induction turns generalizing s first with
  | zero => rfl
  | succ turns ih =>
    rw [mergeSort, if_pos apart]
    by_cases more : intMax < first + last
    · rw [if_pos more]
    · rw [if_neg more]
      unfold intMax at more
      dsimp only [Option.bind_eq_bind]
      rw [Option.bind_eq_none_iff]
      intro s₁ _
      rw [ih (by omega), Option.bind_none]

/-! ### Which arrays are sorted -/

/-- An array is sorted exactly where the sum of two of its indices is an `int`. -/
theorem mergeSorts_iff (asc : Bool) (buffer : List α) : MergeSorts asc buffer ↔ buffer.length ≤ 1073741825 := by
  constructor
  · intro sorts
    by_contra large
    obtain ⟨turns, s, ended, _⟩ := sorts fun _ => buffer[0]
    rw [merge, if_neg (by omega), mergeSort_overflows (by omega) (by omega)] at ended
    cases ended
  · intro small blank
    by_cases empty : buffer.length = 0
    · refine ⟨0, _, if_pos empty, .refl _, ?_, fun step made => by cases made⟩
      rw [List.length_eq_zero_iff.mp empty]
      exact List.Pairwise.nil
    · obtain ⟨s, ended, done⟩ := @mergeSort_sorts _ _ asc 0 (buffer.length - 1) (buffer.length + 2)
        { buffer, tmp := (List.range buffer.length).map blank, steps := [] } (by omega) (by dsimp only; omega)
        (by rw [List.length_map, List.length_range]; omega) (by omega) (by omega)
      have length := done.rearranged.perm.length_eq
      have order := done.order
      dsimp only at length
      rw [← length, slice_all] at order
      refine ⟨buffer.length + 2, s, ?_, done.rearranged.perm, order, fun step made => ?_⟩
      · rw [merge, if_neg empty]
        exact ended
      · rcases done.slots step made with made | good
        · cases made
        · exact good

theorem mergeSorts_refuted : ¬ MergeSorts true (List.replicate 1073741826 (0 : Int)) := by
  intro sorts
  have small := (mergeSorts_iff true _).mp sorts
  rw [List.length_replicate] at small
  omega

end LiveStreaming.Study
