import LiveStreaming.Library.Ranking
import LiveStreaming.Library.Slice
import LiveStreaming.Study.SortOrder
import Mathlib.Data.Int.Order.Basic

/-!
# The k largest

`with_all_sort_select_k_max` sorts the whole array, `with_k_sort_select_k_max` the first `k` elements only, and then
puts each larger element among them. A `break` in the wrong loop ends the sorting of these where the first two are in
order, and an element that goes in further back moves its neighbour to the front, and not the second smallest.
-/

namespace LiveStreaming.Study
open Library.Ranking Library.Slice

/-- Two neighbours that stand the wrong way round change places, and `is_sorted` is reset. -/
def exchange (asc : Bool) (buffer : List Int) (isSorted : Bool) (j : Nat) : Option (List Int × Bool) := do
  let a ← buffer[j]?
  let b ← buffer[j + 1]?
  if exceeds asc a b then some ((buffer.set (j + 1) a).set j b, false) else some (buffer, isSorted)

/-- `for( j=0; j < size-i-1; ++j )`, with the turns that are left. -/
def bubblePass (asc : Bool) : Nat → List Int → Bool → Nat → Option (List Int × Bool)
  | 0, buffer, isSorted, _ => some (buffer, isSorted)
  | left + 1, buffer, isSorted, j => do
    let (buffer, isSorted) ← exchange asc buffer isSorted j
    bubblePass asc left buffer isSorted (j + 1)

/-- `for( i=0; i < size-1; ++i )`, with the turns that are left. -/
def bubbleRounds (asc : Bool) (size : Nat) : Nat → List Int → Bool → Nat → Option (List Int)
  | 0, buffer, _, _ => some buffer
  | left + 1, buffer, isSorted, i => do
    let (buffer, isSorted) ← bubblePass asc (size - i - 1) buffer isSorted 0
    if isSorted then some buffer else bubbleRounds asc size left buffer isSorted (i + 1)

def withAllSortSelectKMax (data : List Int) (k : Nat) : Option Int :=
  if data.length < k then some (-1)
  else do
    let data ← bubbleRounds false data.length (data.length - 1) data true 0
    if k = 0 then none else data[k - 1]?

/-- `for( j=0; j < k-1-i; ++j )`, which ends where `is_sorted` has not been reset. -/
def windowPass : Nat → List Int → Bool → Nat → Option (List Int × Bool)
  | 0, kBuffer, isSorted, _ => some (kBuffer, isSorted)
  | left + 1, kBuffer, isSorted, j => do
    let (kBuffer, isSorted) ← exchange true kBuffer isSorted j
    if isSorted then some (kBuffer, isSorted) else windowPass left kBuffer isSorted (j + 1)

/-- `for( i=0; i < k-1; ++i )` -/
def sortWindow (k : Nat) : Nat → List Int → Bool → Nat → Option (List Int)
  | 0, kBuffer, _, _ => some kBuffer
  | left + 1, kBuffer, isSorted, i => do
    let (kBuffer, isSorted) ← windowPass (k - 1 - i) kBuffer isSorted 0
    sortWindow k left kBuffer isSorted (i + 1)

/-- `for( i=1; i < k; ++i ) if( data_buffer[index] < k_buffer[i] ) break;` -/
def findPlace (value : Int) (kBuffer : List Int) : Nat → Nat → Option Nat
  | 0, i => some i
  | left + 1, i => do
    let element ← kBuffer[i]?
    if value < element then some i else findPlace value kBuffer left (i + 1)

/-- What the loop does with an element behind the first `k`. -/
def replaceSmallest (k : Nat) (kBuffer : List Int) (value : Int) : Option (List Int) := do
  let smallest ← kBuffer[0]?
  if value ≤ smallest then some kBuffer
  else do
    let i ← findPlace value kBuffer (k - 1) 1
    let below ← kBuffer[i - 1]?
    some ((kBuffer.set 0 below).set (i - 1) value)

/-- `for( index = 0; index < size; ++index )` -/
def selectLoop (data : List Int) (k : Nat) : Nat → List Int → Bool → Nat → Option (List Int)
  | 0, kBuffer, _, _ => some kBuffer
  | left + 1, kBuffer, first, index => do
    let value ← data[index]?
    if index < k then
      if index < kBuffer.length then selectLoop data k left (kBuffer.set index value) first (index + 1) else none
    else do
      let kBuffer ← if first then sortWindow k (k - 1) kBuffer true 0 else some kBuffer
      let kBuffer ← replaceSmallest k kBuffer value
      selectLoop data k left kBuffer false (index + 1)

/-- With what `malloc` leaves in the buffer. -/
def withKSortSelectKMax (data : List Int) (k : Nat) (blank : Nat → Int) : Option Int :=
  if data.length < k then some (-1)
  else if k = data.length then withAllSortSelectKMax data k
  else do
    let kBuffer ← selectLoop data k data.length ((List.range k).map blank) true 0
    kBuffer[0]?

/-- Both functions return the same value, which is the `k`-th largest element. -/
def SelectsKMax (data : List Int) (k : Nat) : Prop :=
  ∀ blank, ∃ kMax, withAllSortSelectKMax data k = some kMax ∧ withKSortSelectKMax data k blank = some kMax ∧
    (descending data)[k - 1]? = some kMax

/-! ### Bubble sort -/

variable {asc : Bool} {buffer buffer' data kBuffer : List Int} {isSorted : Bool} {j k left size i : Nat} {value : Int}

theorem exchange_spec (asc : Bool) (isSorted : Bool) (inside : j + 1 < buffer.length) :
    ∃ buffer' isSorted' top, exchange asc buffer isSorted j = some (buffer', isSorted') ∧
      Rearranged j (j + 1) buffer buffer' ∧ buffer'[j + 1]? = some top ∧
      (∀ a, buffer[j]? = some a → InOrder asc a top) ∧ (∀ a, buffer'[j]? = some a → InOrder asc a top) ∧
      (isSorted' = true → isSorted = true ∧ buffer' = buffer) := by
  have read : buffer[j]? = some buffer[j] := List.getElem?_eq_getElem (by omega)
  have read' : buffer[j + 1]? = some buffer[j + 1] := List.getElem?_eq_getElem inside
  generalize buffer[j] = a at read
  generalize buffer[j + 1] = b at read'
  have start : exchange asc buffer isSorted j =
      if exceeds asc a b then some ((buffer.set (j + 1) a).set j b, false) else some (buffer, isSorted) := by
    rw [exchange, read]
    dsimp only [Option.bind_eq_bind, Option.bind_some]
    rw [read']
    rfl
  rw [start]
  by_cases more : exceeds asc a b
  · rw [if_pos more]
    have swapped : ((buffer.set (j + 1) a).set j b).Perm (buffer.set (j + 1) b) := set_set_hole inside read b
    refine ⟨_, false, a, rfl, ⟨?_, fun i off => ?_⟩, ?_, fun c at_ => ?_, fun c at_ => ?_, fun same => ?_⟩
    · have same : buffer.set (j + 1) b = buffer := by
        obtain ⟨_, value⟩ := List.getElem?_eq_some_iff.mp read'
        rw [← value, List.set_getElem_self]
      rw [same] at swapped
      exact swapped
    · rw [List.getElem?_set_ne (by omega), List.getElem?_set_ne (by omega)]
    · rw [List.getElem?_set_ne (by omega), List.getElem?_set_self inside]
    · rw [read] at at_
      rw [← Option.some.inj at_]
      exact inOrder_refl asc a
    · rw [List.getElem?_set_self (by rw [List.length_set]; omega)] at at_
      rw [← Option.some.inj at_]
      exact inOrder_of_exceeds more
    · cases same
  · rw [if_neg more]
    have order : ∀ c, buffer[j]? = some c → InOrder asc c b := fun c at_ => by
      rw [read] at at_
      rw [← Option.some.inj at_]
      exact not_exceeds.mp more
    exact ⟨buffer, isSorted, b, rfl, .refl _, read', order, order, fun same => ⟨same, rfl⟩⟩

/-- None of the first `n` elements belongs behind one that stands at the `n`-th place or later. -/
def SettledFrom (asc : Bool) (n : Nat) (buffer : List Int) : Prop :=
  ∀ p q a b, p < q → n ≤ q → buffer[p]? = some a → buffer[q]? = some b → InOrder asc a b

/-- A pass takes the element that belongs last to the end, and finds out whether all neighbours were in order. -/
theorem bubblePass_spec (inside : j + left < buffer.length)
    (top : ∀ i a b, i < j → buffer[i]? = some a → buffer[j]? = some b → InOrder asc a b) :
    ∃ buffer' isSorted', bubblePass asc left buffer isSorted j = some (buffer', isSorted') ∧
      Rearranged 0 (j + left) buffer buffer' ∧
      (∀ i a b, i < j + left → buffer'[i]? = some a → buffer'[j + left]? = some b → InOrder asc a b) ∧
      (isSorted' = true → isSorted = true ∧ buffer' = buffer ∧
        ∀ i a b, j ≤ i → i < j + left → buffer[i]? = some a → buffer[i + 1]? = some b → InOrder asc a b) := by
  induction left generalizing buffer isSorted j with
  | zero => exact ⟨buffer, isSorted, rfl, .refl _, top, fun kept => ⟨kept, rfl, fun i a b low high => by omega⟩⟩
  | succ left ih =>
    obtain ⟨next, isSorted₁, last, turn, moved, at_last, before, swapped, same⟩ :=
      exchange_spec asc isSorted (show j + 1 < buffer.length by omega)
    have length := moved.perm.length_eq
    obtain ⟨buffer', isSorted', rest, moved', top', same'⟩ := @ih next isSorted₁ (j + 1) (by omega) (by
      intro i a b low at_ at_'
      rw [at_last] at at_'
      rw [← Option.some.inj at_']
      by_cases here : i = j
      · exact swapped a (here ▸ at_)
      · rw [moved.outside i (.inl (by omega))] at at_
        have inner : buffer[j]? = some buffer[j] := List.getElem?_eq_getElem (by omega)
        exact (top i a _ (by omega) at_ inner).trans (before _ inner))
    rw [show j + 1 + left = j + (left + 1) by omega] at moved' top' same'
    refine ⟨buffer', isSorted', ?_, (moved.widen (Nat.zero_le j) (by omega)).trans moved', top', fun kept => ?_⟩
    · rw [bubblePass, turn]
      exact rest
    · obtain ⟨kept', sameRest, order⟩ := same' kept
      obtain ⟨kept'', rfl⟩ := same kept'
      refine ⟨kept'', sameRest, fun i a b low high at_ at_' => ?_⟩
      by_cases here : i = j
      · rw [here] at at_ at_'
        rw [at_last] at at_'
        rw [← Option.some.inj at_']
        exact before a at_
      · exact order i a b (by omega) high at_ at_'

theorem SettledFrom.pass {n : Nat} (settled : SettledFrom asc (n + 1) buffer) (moved : Rearranged 0 n buffer buffer')
    (top : ∀ i a b, i < n → buffer'[i]? = some a → buffer'[n]? = some b → InOrder asc a b) :
    SettledFrom asc n buffer' := by
  intro p q a b before low at_ at_'
  by_cases here : q = n
  · exact top p a b (by omega) at_ (here ▸ at_')
  · rw [moved.outside q (.inr (by omega))] at at_'
    by_cases inside : p ≤ n
    · refine moved.forall (P := fun a => InOrder asc a b) (by omega) (fun i c _ within found => ?_) p a (Nat.zero_le p)
        inside at_
      exact settled i q c b (by omega) (by omega) found at_'
    · rw [moved.outside p (.inr (by omega))] at at_
      exact settled p q a b before (by omega) at_ at_'

/-- By induction on the rounds that are left: each settles one element more, and they end where all are in order. -/
theorem bubbleRounds_sorts (size_ : size = buffer.length) (turns : i + left + 1 = size)
    (settled : SettledFrom asc (left + 1) buffer) :
    ∃ sorted, bubbleRounds asc size left buffer isSorted i = some sorted ∧ sorted.Perm buffer ∧
      sorted.Pairwise (InOrder asc) := by
  induction left generalizing buffer isSorted i with
  | zero =>
    exact ⟨buffer, rfl, .refl _, pairwise_of_neighbours fun i a b => settled i (i + 1) a b (by omega) (by omega)⟩
  | succ left ih =>
    obtain ⟨next, isSorted', pass, moved, top, same⟩ := @bubblePass_spec asc buffer isSorted 0 (left + 1) (by omega)
      (fun i a b low => by omega)
    rw [Nat.zero_add] at moved top same
    rw [bubbleRounds, show size - i - 1 = left + 1 by omega, pass]
    dsimp only [Option.bind_eq_bind, Option.bind_some]
    by_cases ordered : isSorted' = true
    · obtain ⟨_, rfl, order⟩ := same ordered
      refine ⟨next, if_pos ordered, .refl _, pairwise_of_neighbours fun i a b at_ at_' => ?_⟩
      by_cases high : i < left + 1
      · exact order i a b (Nat.zero_le i) high at_ at_'
      · exact settled i (i + 1) a b (by omega) (by omega) at_ at_'
    · rw [if_neg ordered]
      have length := moved.perm.length_eq
      obtain ⟨sorted, rest, perm, order⟩ := @ih next isSorted' (i + 1) (by omega) (by omega) (settled.pass moved top)
      exact ⟨sorted, rest, perm.trans moved.perm, order⟩

theorem withAllSortSelectKMax_eq (positive : 1 ≤ k) (below : k ≤ data.length) :
    withAllSortSelectKMax data k = (descending data)[k - 1]? := by
  obtain ⟨sorted, rounds, perm, order⟩ := @bubbleRounds_sorts false data true (data.length - 1) data.length 0 rfl
    (by omega) (fun p q a b _ high _ at_' => by
      have inside := (List.getElem?_eq_some_iff.mp at_').1
      omega)
  rw [withAllSortSelectKMax, if_neg (by omega), rounds]
  dsimp only [Option.bind_eq_bind, Option.bind_some]
  rw [if_neg (by omega), descending_unique perm order]

/-! ### The first k elements -/

theorem exchange_reset {isSorted' : Bool} (turn : exchange asc buffer false j = some (buffer', isSorted')) :
    isSorted' = false := by
  unfold exchange at turn
  obtain ⟨a, _, turn⟩ := Option.bind_eq_some_iff.mp turn
  obtain ⟨b, _, turn⟩ := Option.bind_eq_some_iff.mp turn
  split at turn
  · exact (Prod.mk.inj (Option.some.inj turn)).2.symm
  · exact (Prod.mk.inj (Option.some.inj turn)).2.symm

/-- With `is_sorted` reset the `break` is never reached. -/
theorem windowPass_reset : windowPass left kBuffer false j = bubblePass true left kBuffer false j := by
  induction left generalizing kBuffer j with
  | zero => rfl
  | succ left ih =>
    rw [windowPass, bubblePass]
    apply Option.bind_congr
    rintro ⟨next, isSorted'⟩ turn
    obtain rfl := exchange_reset turn
    exact ih

theorem sortWindow_reset (size_ : k = kBuffer.length) (turns : i + left + 1 = k) :
    sortWindow k left kBuffer false i = bubbleRounds true k left kBuffer false i := by
  induction left generalizing kBuffer i with
  | zero => rfl
  | succ left ih =>
    obtain ⟨next, isSorted', pass, moved, _, same⟩ := @bubblePass_spec true kBuffer false 0 (left + 1) (by omega)
      (fun i a b low => by omega)
    have length := moved.perm.length_eq
    have reset : isSorted' = false := by
      by_contra kept
      cases (same (Bool.of_not_eq_false kept)).1
    subst reset
    rw [sortWindow, bubbleRounds, windowPass_reset, show k - 1 - i = left + 1 by omega,
      show k - i - 1 = left + 1 by omega, pass]
    exact ih (by omega) (by omega)

theorem windowPass_break (first : ∀ a b, kBuffer[0]? = some a → kBuffer[1]? = some b → ¬ exceeds true a b)
    (inside : left < kBuffer.length) : windowPass left kBuffer true 0 = some (kBuffer, true) := by
  cases left with
  | zero => rfl
  | succ left =>
    have read : kBuffer[0]? = some kBuffer[0] := List.getElem?_eq_getElem (by omega)
    have read' : kBuffer[1]? = some kBuffer[1] := List.getElem?_eq_getElem (by omega)
    have turn : exchange true kBuffer true 0 = some (kBuffer, true) := by
      rw [exchange, read]
      dsimp only [Option.bind_eq_bind, Option.bind_some]
      rw [read']
      exact if_neg (first _ _ read read')
    rw [windowPass, turn]
    rfl

/-- Where the first two are in order, the window is left as it is. -/
theorem sortWindow_break (first : ∀ a b, kBuffer[0]? = some a → kBuffer[1]? = some b → ¬ exceeds true a b)
    (size_ : k = kBuffer.length) (turns : i + left + 1 ≤ k) : sortWindow k left kBuffer true i = some kBuffer := by
  induction left generalizing i with
  | zero => rfl
  | succ left ih =>
    rw [sortWindow, windowPass_break first (by omega)]
    exact ih (by omega)

/-- Where the first two are not, the `break` is not reached either. -/
theorem sortWindow_swap {a b : Int} (at_ : kBuffer[0]? = some a) (at_' : kBuffer[1]? = some b)
    (more : exceeds true a b) (size_ : left + 2 = kBuffer.length) :
    sortWindow (left + 2) (left + 1) kBuffer true 0 = bubbleRounds true (left + 2) (left + 1) kBuffer true 0 := by
  have turn : exchange true kBuffer true 0 = some ((kBuffer.set 1 a).set 0 b, false) := by
    rw [exchange, at_]
    dsimp only [Option.bind_eq_bind, Option.bind_some]
    rw [at_']
    exact if_pos more
  have same : windowPass (left + 1) kBuffer true 0 = bubblePass true (left + 1) kBuffer true 0 := by
    rw [windowPass, bubblePass, turn]
    exact windowPass_reset
  obtain ⟨next, isSorted', pass, moved, _, ordered⟩ := @bubblePass_spec true kBuffer true 0 (left + 1) (by omega)
    (fun i a b low => by omega)
  have length := moved.perm.length_eq
  have reset : isSorted' = false := by
    by_contra kept
    obtain ⟨_, _, order⟩ := ordered (Bool.of_not_eq_false kept)
    exact not_exceeds.mpr (order 0 a b (Nat.le_refl 0) (by omega) at_ at_') more
  subst reset
  rw [sortWindow, bubbleRounds, show left + 2 - 1 - 0 = left + 1 by omega, show left + 2 - 0 - 1 = left + 1 by omega,
    same, pass]
  exact sortWindow_reset (by omega) (by omega)

/-- The first `k` elements get sorted: they are in order already, or the first two are not. -/
def WindowSorted (data : List Int) (k : Nat) : Prop :=
  (∃ a b, data[0]? = some a ∧ data[1]? = some b ∧ b < a) ∨ (data.take k).Pairwise (· ≤ ·)

theorem sortWindow_sorts (positive : 1 ≤ k) (below : k ≤ data.length) (window : WindowSorted data k) :
    ∃ w, sortWindow k (k - 1) (data.take k) true 0 = some w ∧ w.Perm (data.take k) ∧ w.Pairwise (· ≤ ·) := by
  have size_ : k = (data.take k).length := by
    rw [List.length_take]
    omega
  by_cases first : ∀ a b, (data.take k)[0]? = some a → (data.take k)[1]? = some b → ¬ exceeds true a b
  · refine ⟨data.take k, sortWindow_break first size_ (by omega), .refl _, ?_⟩
    rcases window with ⟨a, b, at_, at_', more⟩ | order
    · by_cases one : k = 1
      · rw [one, List.pairwise_iff_getElem]
        intro i j inside inside' before
        rw [List.length_take] at inside'
        omega
      · refine absurd (decide_eq_true more) (first a b ?_ ?_)
        · rw [List.getElem?_take_of_lt (by omega), at_]
        · rw [List.getElem?_take_of_lt (by omega), at_']
    · exact order
  · obtain ⟨a, first⟩ := not_forall.mp first
    obtain ⟨b, first⟩ := not_forall.mp first
    obtain ⟨at_, first⟩ := Classical.not_imp.mp first
    obtain ⟨at_', more⟩ := Classical.not_imp.mp first
    have inside := (List.getElem?_eq_some_iff.mp at_').1
    obtain ⟨left, rfl⟩ : ∃ left, k = left + 2 := ⟨k - 2, by omega⟩
    rw [show left + 2 - 1 = left + 1 from rfl, sortWindow_swap at_ at_' (not_not.mp more) size_]
    exact bubbleRounds_sorts size_ (by omega) fun p q a b _ high _ found => by
      have inside' := (List.getElem?_eq_some_iff.mp found).1
      omega

/-! ### The other elements -/

theorem findPlace_spec {w : List Int} (turns : i + left = w.length) :
    ∃ place, findPlace value w left i = some place ∧ i ≤ place ∧ place ≤ w.length ∧
      (∀ q a, i ≤ q → q < place → w[q]? = some a → a ≤ value) ∧ ∀ a, w[place]? = some a → value < a := by
  induction left generalizing i with
  | zero =>
    refine ⟨i, rfl, Nat.le_refl i, by omega, fun q a low high => by omega, fun a at_ => ?_⟩
    have inside := (List.getElem?_eq_some_iff.mp at_).1
    omega
  | succ left ih =>
    have read : w[i]? = some w[i] := List.getElem?_eq_getElem (by omega)
    generalize w[i] = element at read
    have turn : findPlace value w (left + 1) i =
        if value < element then some i else findPlace value w left (i + 1) := by
      rw [findPlace, read]
      rfl
    rw [turn]
    by_cases less : value < element
    · refine ⟨i, if_pos less, Nat.le_refl i, by omega, fun q a low high => by omega, fun a at_ => ?_⟩
      rw [read] at at_
      rw [← Option.some.inj at_]
      exact less
    · obtain ⟨place, found, low, high, passed, halted⟩ := @ih (i + 1) (by omega)
      rw [if_neg less]
      refine ⟨place, found, by omega, high, fun q a from_ within at_ => ?_, halted⟩
      by_cases here : q = i
      · rw [here, read] at at_
        rw [← Option.some.inj at_]
        exact Int.not_lt.mp less
      · exact passed q a (by omega) within at_

/-- None but the second smallest is at most `value`, the smallest left out and those equal to the second left out. -/
def OnlySecond (w : List Int) (value : Int) : Prop :=
  ∀ q a b, 1 ≤ q → w[q]? = some a → w[1]? = some b → a ≤ value → a = b

theorem replaceSmallest_ignores {w : List Int} {low : Int} (first : w[0]? = some low) (small : value ≤ low) :
    replaceSmallest k w value = some w := by
  rw [replaceSmallest, first]
  exact if_pos small

theorem le_of_ascending {w : List Int} {a b : Int} {p q : Nat} (order : w.Pairwise (· ≤ ·)) (before : p ≤ q)
    (at_ : w[p]? = some a) (at_' : w[q]? = some b) : a ≤ b := by
  by_cases here : p = q
  · rw [here, at_'] at at_
    exact le_of_eq (Option.some.inj at_).symm
  · obtain ⟨inside, rfl⟩ := List.getElem?_eq_some_iff.mp at_
    obtain ⟨inside', rfl⟩ := List.getElem?_eq_some_iff.mp at_'
    exact List.pairwise_iff_getElem.mp order p q inside inside' (by omega)

/-- The value at its place, and what was there in front, where only the second smallest could be it. -/
theorem replaced_pairwise {w : List Int} {below : Int} {p : Nat} (order : w.Pairwise (· ≤ ·))
    (read : w[p]? = some below) (passed : ∀ q a, 1 ≤ q → q < p + 1 → w[q]? = some a → a ≤ value)
    (halted : ∀ a, w[p + 1]? = some a → value < a) (only : OnlySecond w value) :
    ((w.set 0 below).set p value).Pairwise (· ≤ ·) := by
  have inside := (List.getElem?_eq_some_iff.mp read).1
  refine @pairwise_of_neighbours Int _ true _ fun i a b at_ at_' => ?_
  by_cases here : i = p
  · rw [here, List.getElem?_set_self (by rw [List.length_set]; omega)] at at_
    rw [here, List.getElem?_set_ne (by omega), List.getElem?_set_ne (by omega)] at at_'
    rw [← Option.some.inj at_]
    exact le_of_lt (halted b at_')
  · rw [List.getElem?_set_ne (Ne.symm here)] at at_
    by_cases next : i + 1 = p
    · rw [next, List.getElem?_set_self (by rw [List.length_set]; omega)] at at_'
      rw [← Option.some.inj at_']
      by_cases front : i = 0
      · rw [front, List.getElem?_set_self (by omega)] at at_
        exact passed p a (by omega) (by omega) (at_ ▸ read)
      · rw [List.getElem?_set_ne (by omega)] at at_
        exact passed i a (by omega) (by omega) at_
    · rw [List.getElem?_set_ne (Ne.symm next), List.getElem?_set_ne (by omega)] at at_'
      by_cases front : i = 0
      · rw [front, List.getElem?_set_self (by omega)] at at_
        rw [front] at at_'
        have small : below ≤ value := passed p below (by omega) (by omega) read
        rw [← Option.some.inj at_]
        exact le_of_eq (only p below b (by omega) read at_' small)
      · rw [List.getElem?_set_ne (by omega)] at at_
        exact le_of_ascending order (Nat.le_succ i) at_ at_'

/-- Otherwise the second smallest stays where it is, behind what is put in front. -/
theorem replaced_second {w : List Int} {below : Int} {p : Nat} (order : w.Pairwise (· ≤ ·))
    (read : w[p]? = some below) (halted : ∀ a, w[p + 1]? = some a → value < a) (other : ¬ OnlySecond w value) :
    0 < p ∧ ∃ b, b ∈ (w.set 0 below).set p value ∧ b < below := by
  unfold OnlySecond at other
  push Not at other
  obtain ⟨q, a, b, from_, at_, at_', small, apart⟩ := other
  have past : q ≠ 1 := by
    rintro rfl
    rw [at_] at at_'
    exact apart (Option.some.inj at_')
  have inside := (List.getElem?_eq_some_iff.mp at_).1
  have within : q ≤ p := by
    by_contra beyond
    have behind : w[p + 1]? = some w[p + 1] := List.getElem?_eq_getElem (by omega)
    have more := halted _ behind
    have less := le_of_ascending order (show p + 1 ≤ q by omega) behind at_
    omega
  have less : b ≤ a := le_of_ascending order from_ at_' at_
  have less' : a ≤ below := le_of_ascending order within at_ read
  refine ⟨by omega, b, List.mem_iff_getElem?.mpr ⟨1, ?_⟩, by omega⟩
  rw [List.getElem?_set_ne (by omega), List.getElem?_set_ne (by omega), at_']

theorem replaceSmallest_replaces {w : List Int} {low : Int} (order : w.Pairwise (· ≤ ·)) (size_ : w.length = k)
    (first : w[0]? = some low) (large : low < value) :
    ∃ w', replaceSmallest k w value = some w' ∧ w'.Perm (w.set 0 value) ∧
      (OnlySecond w value → w'.Pairwise (· ≤ ·)) ∧
      (¬ OnlySecond w value → ∃ a b, w'[0]? = some a ∧ b ∈ w' ∧ b < a) := by
  have positive := (List.getElem?_eq_some_iff.mp first).1
  obtain ⟨place, found, low_, high, passed, halted⟩ := @findPlace_spec (w.length - 1) 1 value w (by omega)
  obtain ⟨p, rfl⟩ : ∃ p, place = p + 1 := ⟨place - 1, by omega⟩
  have read : w[p]? = some w[p] := List.getElem?_eq_getElem (by omega)
  generalize w[p] = below at read
  refine ⟨(w.set 0 below).set p value, ?_, set_set_hole positive read value,
    replaced_pairwise order read passed halted, fun other => ?_⟩
  · rw [replaceSmallest, first]
    dsimp only [Option.bind_eq_bind, Option.bind_some]
    rw [if_neg (by omega), ← size_, found]
    dsimp only [Option.bind_some]
    rw [Nat.add_sub_cancel, read]
    rfl
  · obtain ⟨behind, b, member, less⟩ := replaced_second order read halted other
    refine ⟨below, b, ?_, member, less⟩
    rw [List.getElem?_set_ne (by omega), List.getElem?_set_self positive]

/-! ### The loop -/

theorem selectLoop_copies {count : Nat} (turns : i + count = k) (below : k ≤ data.length) (size_ : kBuffer.length = k)
    (copied : kBuffer.take i = data.take i) :
    selectLoop data k (count + left) kBuffer true i = selectLoop data k left (data.take k) true k := by
  induction count generalizing kBuffer i with
  | zero =>
    obtain rfl : i = k := by omega
    rw [← copied, List.take_of_length_le (by omega), Nat.zero_add]
  | succ count ih =>
    have read : data[i]? = some data[i] := List.getElem?_eq_getElem (by omega)
    rw [show count + 1 + left = count + left + 1 by omega, selectLoop, read]
    dsimp only [Option.bind_eq_bind, Option.bind_some]
    rw [if_pos (by omega), if_pos (by omega)]
    refine ih (by omega) (by rw [List.length_set]; exact size_) ?_
    rw [List.take_succ_eq_append_getElem (by rw [List.length_set]; omega), List.take_set_of_le (Nat.le_refl i),
      List.getElem_set_self, copied, List.take_succ_eq_append_getElem (by omega)]

/-- Before the `m`-th element the window, once it is sorted, has the `k` largest of those so far. -/
def Windowed (data : List Int) (k : Nat) (kBuffer : List Int) (first : Bool) (m : Nat) : Prop :=
  ∃ w, (if first then sortWindow k (k - 1) kBuffer true 0 else some kBuffer) = some w ∧ w.length = k ∧
    Largest w (data.take m)

/-- The element at `m` is no larger than the `k`-th largest before it, or the elements before the `k`-th largest that
are no larger than it are all equal. -/
def Kept (data : List Int) (k m : Nat) : Prop :=
  ∀ value, data[m]? = some value → (∃ low, (descending (data.take m))[k - 1]? = some low ∧ value ≤ low) ∨
    ∀ j a b, j ≤ k - 2 → (descending (data.take m))[j]? = some a → (descending (data.take m))[k - 2]? = some b →
      a ≤ value → a = b

theorem kept_iff {w : List Int} {m : Nat} {low : Int} (largest : Largest w (data.take m)) (size_ : w.length = k)
    (first : w[0]? = some low) (read : data[m]? = some value) (large : low < value) :
    Kept data k m ↔ OnlySecond w value := by
  have positive := (List.getElem?_eq_some_iff.mp first).1
  have same {q : Nat} (inside : q < k) : (descending (data.take m))[k - 1 - q]? = w[q]? := by
    rw [← size_]
    exact largest.getElem? (size_ ▸ inside)
  constructor
  · intro kept q a b from_ at_ at_' small
    have inside := (List.getElem?_eq_some_iff.mp at_).1
    rcases kept value read with ⟨low', last, small'⟩ | rest
    · have least : (descending (data.take m))[k - 1]? = w[0]? := @same 0 (by omega)
      rw [least, first] at last
      have equal := Option.some.inj last
      omega
    · refine rest (k - 1 - q) a b (by omega) ?_ ?_ small
      · rw [same (by omega), at_]
      · rw [show k - 2 = k - 1 - 1 by omega, same (by omega), at_']
  · intro only value' read'
    obtain rfl := Option.some.inj (read.symm.trans read')
    refine .inr fun j a b within at_ at_' small => ?_
    by_cases one : k = 1
    · rw [show j = k - 2 by omega, at_'] at at_
      exact (Option.some.inj at_).symm
    · refine only (k - 1 - j) a b (by omega) ?_ ?_ small
      · rw [← same (by omega), show k - 1 - (k - 1 - j) = j by omega, at_]
      · rw [← same (by omega), show k - 1 - 1 = k - 2 by omega, at_']

theorem selectLoop_turn {first : Bool} {m : Nat} {w w' : List Int} (read : data[m]? = some value) (behind : k ≤ m)
    (prepared : (if first then sortWindow k (k - 1) kBuffer true 0 else some kBuffer) = some w)
    (replaced : replaceSmallest k w value = some w') (left : Nat) :
    selectLoop data k (left + 1) kBuffer first m = selectLoop data k left w' false (m + 1) := by
  rw [selectLoop, read]
  dsimp only [Option.bind_eq_bind, Option.bind_some]
  rw [if_neg (by omega)]
  cases first with
  | true =>
    rw [if_pos rfl] at prepared ⊢
    rw [prepared, Option.bind_some, replaced]
    rfl
  | false =>
    obtain rfl := Option.some.inj prepared
    rw [if_neg Bool.false_ne_true, replaced]
    rfl

/-- What one turn behind the first `k` elements does. -/
theorem Windowed.step {first : Bool} {m : Nat} (windowed : Windowed data k kBuffer first m)
    (read : data[m]? = some value) (behind : k ≤ m) (positive : 1 ≤ k) :
    ∃ w', (∀ left, selectLoop data k (left + 1) kBuffer first m = selectLoop data k left w' false (m + 1)) ∧
      (Kept data k m → Windowed data k w' false (m + 1)) ∧
      (¬ Kept data k m → ∃ a b, w'[0]? = some a ∧ (descending (data.take (m + 1)))[k - 1]? = some b ∧ b < a) := by
  obtain ⟨w, prepared, size_, largest⟩ := windowed
  obtain ⟨inside, value_⟩ := List.getElem?_eq_some_iff.mp read
  have longer : data.take (m + 1) = data.take m ++ [value] := by
    rw [List.take_succ_eq_append_getElem inside, value_]
  cases w with
  | nil =>
    rw [List.length_nil] at size_
    omega
  | cons low r =>
    have front : (low :: r)[0]? = some low := rfl
    by_cases small : value ≤ low
    · have last : (descending (data.take m))[k - 1]? = some low := by
        rw [← size_]
        exact largest.getElem? (show 0 < (low :: r).length by omega)
      refine ⟨low :: r, selectLoop_turn read behind prepared (replaceSmallest_ignores front small), fun _ => ?_, fun lost => ?_⟩
      · exact ⟨low :: r, rfl, size_, longer ▸ largest.ignore small⟩
      · refine absurd (fun value' read' => .inl ⟨low, last, ?_⟩) lost
        rw [← Option.some.inj (read.symm.trans read')]
        exact small
    · have large := Int.not_le.mp small
      obtain ⟨w', replaced, perm, sorted, unsorted⟩ :=
        replaceSmallest_replaces largest.order size_ front large
      have length := perm.length_eq
      rw [List.set_cons_zero] at perm
      rw [List.length_set] at length
      refine ⟨w', selectLoop_turn read behind prepared replaced, fun kept => ?_, fun lost => ?_⟩
      · have order := sorted ((kept_iff largest size_ front read large).mp kept)
        exact ⟨w', rfl, length.trans size_, longer ▸ largest.replace (le_of_lt large) perm order⟩
      · obtain ⟨a, b, at_, member, less⟩ := unsorted fun only =>
          lost ((kept_iff largest size_ front read large).mpr only)
        -- the true window has the same elements, in order
        have order : (descending w').reverse.Pairwise (· ≤ ·) := List.pairwise_reverse.mpr (descending_pairwise w')
        have perm' : (descending w').reverse.Perm w' := (List.reverse_perm _).trans (descending_perm w')
        have truly := largest.replace (le_of_lt large) (perm'.trans perm) order
        obtain ⟨c, last, least⟩ := truly.least_le perm'.symm member
        rw [length, size_, ← longer] at last
        exact ⟨a, c, at_, last, Int.lt_of_le_of_lt least less⟩

/-- By induction on the turns: while each element is kept, the window has the `k` largest. -/
theorem Windowed.run {first : Bool} {m count : Nat} (windowed : Windowed data k kBuffer first m) (behind : k ≤ m)
    (positive : 1 ≤ k) (inside : m + count ≤ data.length) (kept : ∀ i, m ≤ i → i < m + count → Kept data k i) :
    ∃ kBuffer' first', Windowed data k kBuffer' first' (m + count) ∧ ∀ left,
      selectLoop data k (count + left) kBuffer first m = selectLoop data k left kBuffer' first' (m + count) := by
  induction count generalizing kBuffer first m with
  | zero => exact ⟨kBuffer, first, windowed, fun left => by rw [Nat.zero_add, Nat.add_zero]⟩
  | succ count ih =>
    have read : data[m]? = some data[m] := List.getElem?_eq_getElem (by omega)
    obtain ⟨w', turn, stays, _⟩ := windowed.step read behind positive
    obtain ⟨kBuffer', first', done, rest⟩ := ih (stays (kept m (Nat.le_refl m) (by omega))) (by omega) (by omega)
      (fun i low high => kept i (by omega) (by omega))
    rw [show m + 1 + count = m + (count + 1) by omega] at done rest
    refine ⟨kBuffer', first', done, fun left => ?_⟩
    rw [show count + 1 + left = count + left + 1 by omega, turn]
    exact rest left

/-- With the elements before the last one kept, the value is right exactly where the last one is kept, too. -/
theorem withKSortSelectKMax_last {n : Nat} (positive : 1 ≤ k) (below : k ≤ n) (size_ : data.length = n + 1)
    (window : WindowSorted data k) (kept : ∀ m, k ≤ m → m < n → Kept data k m) (blank : Nat → Int) :
    withKSortSelectKMax data k blank = (descending data)[k - 1]? ↔ Kept data k n := by
  obtain ⟨w, sorted, perm, order⟩ := sortWindow_sorts positive (show k ≤ data.length by omega) window
  have length := perm.length_eq
  rw [List.length_take] at length
  have windowed : Windowed data k (data.take k) true k :=
    ⟨w, sorted, by omega, .all perm order⟩
  obtain ⟨kBuffer, first, windowed', run⟩ := @Windowed.run _ _ _ _ k (n - k) windowed (Nat.le_refl k) positive
    (by omega) (fun i low high => kept i low (by omega))
  have read : data[n]? = some data[n] := List.getElem?_eq_getElem (by omega)
  rw [show k + (n - k) = n by omega] at windowed' run
  obtain ⟨w', turn, stays, lost⟩ := windowed'.step read below positive
  have all : data.take (n + 1) = data := by rw [← size_, List.take_length]
  have result : withKSortSelectKMax data k blank = w'[0]? := by
    have copied := @selectLoop_copies data ((List.range k).map blank) k (n - k + 1) 0 k (Nat.zero_add k) (by omega)
      (by rw [List.length_map, List.length_range]) rfl
    rw [withKSortSelectKMax, if_neg (by omega), if_neg (by omega),
      show data.length = k + (n - k + 1) by omega, copied, run, turn]
    rfl
  rw [result]
  by_cases fits : Kept data k n
  · refine ⟨fun _ => fits, fun _ => ?_⟩
    obtain ⟨w'', same, size', largest⟩ := stays fits
    obtain rfl := Option.some.inj same
    have least : (descending (data.take (n + 1)))[w'.length - 1]? = w'[0]? :=
      largest.getElem? (show 0 < w'.length by omega)
    rw [all, size'] at least
    exact least.symm
  · refine ⟨fun right => ?_, fun fits' => absurd fits' fits⟩
    obtain ⟨a, b, at_, at_', less⟩ := lost fits
    rw [all] at at_'
    rw [at_, at_'] at right
    have equal := Option.some.inj right
    omega

/-! ### Which arrays are served -/

theorem selectsKMax_iff (positive : 1 ≤ k) (below : k ≤ data.length) :
    SelectsKMax data k ↔ ∀ blank, withKSortSelectKMax data k blank = (descending data)[k - 1]? := by
  have inside : k - 1 < (descending data).length := by
    rw [(descending_perm data).length_eq]
    omega
  have all := withAllSortSelectKMax_eq positive below
  constructor
  · intro selects blank
    obtain ⟨kMax, _, fast, largest⟩ := selects blank
    exact fast.trans largest.symm
  · intro right blank
    have found := List.getElem?_eq_getElem inside
    exact ⟨_, all.trans found, (right blank).trans found, found⟩

theorem selectsKMax_all (positive : 1 ≤ k) (all : k = data.length) : SelectsKMax data k := by
  rw [selectsKMax_iff positive (by omega)]
  intro blank
  rw [withKSortSelectKMax, if_neg (by omega), if_pos all]
  exact withAllSortSelectKMax_eq positive (by omega)

theorem WindowSorted.take {n : Nat} (window : WindowSorted data k) (below : k < n) (positive : 1 ≤ k) :
    WindowSorted (data.take n) k := by
  rcases window with ⟨a, b, at_, at_', more⟩ | order
  · refine .inl ⟨a, b, ?_, ?_, more⟩
    · rw [List.getElem?_take_of_lt (by omega), at_]
    · rw [List.getElem?_take_of_lt (by omega), at_']
  · refine .inr ?_
    rw [List.take_take, Nat.min_eq_left (by omega)]
    exact order

theorem kept_take {n m : Nat} (before : m < n) : Kept (data.take n) k m ↔ Kept data k m := by
  unfold Kept
  rw [List.getElem?_take_of_lt before, List.take_take, Nat.min_eq_left (by omega)]

/-- No other one is at the second place from the end. -/
theorem kept_of_le_two (few : k ≤ 2) (m : Nat) : Kept data k m := by
  refine fun value _ => .inr fun j a b within at_ at_' _ => ?_
  rw [show j = k - 2 by omega, at_'] at at_
  exact (Option.some.inj at_).symm

theorem selectsKMax_take {n : Nat} (positive : 1 ≤ k) (below : k ≤ n) (inside : n < data.length)
    (window : WindowSorted data k) (kept : ∀ m, k ≤ m → m < n → Kept data k m) :
    SelectsKMax (data.take (n + 1)) k ↔ Kept data k n := by
  have size_ : (data.take (n + 1)).length = n + 1 := by
    rw [List.length_take]
    omega
  have last := withKSortSelectKMax_last positive below size_ (window.take (by omega) positive)
    (fun m low high => (kept_take (by omega)).mpr (kept m low high))
  rw [kept_take (Nat.lt_succ_self n)] at last
  rw [selectsKMax_iff positive (by omega)]
  constructor
  · intro right
    exact (last fun _ => 0).mp (right fun _ => 0)
  · intro fits blank
    exact (last blank).mpr fits

/-- The two functions agree where the window is sorted and every later element is kept. While the window is sorted,
that is also what it takes to be right on the array and on every beginning of it. -/
theorem selectsKMax_where_kept (data : List Int) {k : Nat} (positive : 1 ≤ k) (below : k ≤ data.length) :
    (k = data.length ∨ WindowSorted data k ∧ (∀ m, k ≤ m → m < data.length → Kept data k m) → SelectsKMax data k) ∧
    (WindowSorted data k → ((∀ n, k ≤ n → n ≤ data.length → SelectsKMax (data.take n) k) ↔
      ∀ m, k ≤ m → m < data.length → Kept data k m)) := by
  have serves (n : Nat) (low : k ≤ n) (high : n ≤ data.length) (window : WindowSorted data k)
      (kept : ∀ m, k ≤ m → m < data.length → Kept data k m) : SelectsKMax (data.take n) k := by
    by_cases first : k = n
    · apply selectsKMax_all positive
      rw [List.length_take]
      omega
    · obtain ⟨n, rfl⟩ : ∃ m, n = m + 1 := ⟨n - 1, by omega⟩
      exact (selectsKMax_take positive (by omega) high window fun m low high => kept m low (by omega)).mpr
        (kept n (by omega) high)
  constructor
  · rintro (all | ⟨window, kept⟩)
    · exact selectsKMax_all positive all
    · have whole := serves data.length below (Nat.le_refl _) window kept
      rwa [List.take_length] at whole
  · refine fun window => ⟨fun right m low high => ?_, fun kept n low high => serves n low high window kept⟩
    -- the first element that is not kept would make the value wrong
    induction m using Nat.strongRecOn with
    | _ m ih =>
      exact (selectsKMax_take positive low high window fun i low' less => ih i less low' (by omega)).mp
        (right (m + 1) (by omega) high)

theorem selectsKMax_sample : SelectsKMax [4, 1, 3, 5] 2 :=
  (selectsKMax_where_kept [4, 1, 3, 5] (by decide) (by decide)).1
    (.inr ⟨.inl ⟨4, 1, rfl, rfl, by decide⟩, fun m _ _ => kept_of_le_two (by decide) m⟩)

/-- The last element goes in behind the other two, and the second largest of the window comes to the front. -/
theorem selectsKMax_refuted : ¬ SelectsKMax [3, 2, 1, 10] 3 := by
  intro selects
  obtain ⟨kMax, all, fast, _⟩ := selects fun _ => 0
  have two : withAllSortSelectKMax [3, 2, 1, 10] 3 = some 2 := by decide
  have three : withKSortSelectKMax [3, 2, 1, 10] 3 (fun _ => 0) = some 3 := by decide
  rw [two] at all
  rw [three] at fast
  exact absurd (all.trans fast.symm) (by decide)

end LiveStreaming.Study
