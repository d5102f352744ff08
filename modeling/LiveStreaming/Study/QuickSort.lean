import LiveStreaming.Library.Slice
import LiveStreaming.Study.SortOrder
import Mathlib.Data.List.Sort

/-!
# Quick sort

`sorts<T>::obtain_middle_key_pos` holds the first element of a part aside and moves two cursors towards each other,
and `sorts<T>::quick` sorts what it leaves on either side. Where another element of the part is equal to the one held
aside the cursors come to a halt before they meet.
-/

namespace LiveStreaming.Study
open Library.Slice

variable {α : Type} [LinearOrder α]

/-- `while( buffer[end] > the_middle_key && ( begin < end )) --end;` -/
def endDown (asc : Bool) (key : α) (buffer : List α) (first : Nat) : Nat → Option Nat
  | 0 => do
    let _ ← buffer[0]?
    some 0
  | last + 1 => do
    let element ← buffer[last + 1]?
    if exceeds asc element key && first < last + 1 then endDown asc key buffer first last else some (last + 1)

/-- `while( buffer[begin] < the_middle_key && ( begin < end )) ++begin;` -/
def beginUp (asc : Bool) (key : α) (buffer : List α) (last : Nat) : Nat → Nat → Option Nat
  | 0, _ => none
  | turns + 1, first => do
    let element ← buffer[first]?
    if exceeds asc key element && first < last then beginUp asc key buffer last turns (first + 1) else some first

/-- The loop of `obtain_middle_key_pos`, with a bound on its turns. -/
def partitionLoop (asc : Bool) (key : α) : Nat → List α → Nat → Nat → Option (List α × Nat)
  | 0, _, _, _ => none
  | turns + 1, buffer, first, last =>
    if first < last then do
      let last ← endDown asc key buffer first last
      let element ← buffer[last]?
      let buffer := buffer.set first element
      let first ← beginUp asc key buffer last (last + 1) first
      let element ← buffer[first]?
      partitionLoop asc key turns (buffer.set last element) first last
    else some (buffer.set first key, first)

def obtainMiddleKeyPos (asc : Bool) (turns : Nat) (buffer : List α) (first last : Int) : Option (List α × Int) :=
  if first ≥ last ∨ first < 0 ∨ last < 0 then some (buffer, -1)
  else do
    let key ← buffer[first.toNat]?
    let (buffer, middle) ← partitionLoop asc key turns buffer first.toNat last.toNat
    some (buffer, middle)

/-- What an `int` of 32 bits makes of a sum. -/
def asInt (n : Int) : Int := n.bmod 4294967296

/-- With a bound on the depth of the calls and on the turns of each. -/
def quick (asc : Bool) : Nat → List α → Int → Int → Option (List α)
  | 0, _, _, _ => none
  | turns + 1, buffer, first, last =>
    if first < last then do
      let (buffer, middlePos) ← obtainMiddleKeyPos asc turns buffer first last
      if middlePos = -1 then some buffer
      else do
        let buffer ← quick asc turns buffer first middlePos
        quick asc turns buffer (asInt (middlePos + 1)) last
    else some buffer

/-- The call returns with the part in order and the rest of the array as it was. -/
def QuickSorts (asc : Bool) (buffer : List α) (first last : Int32) : Prop :=
  ∃ turns sorted, quick asc turns buffer first.toInt last.toInt = some sorted ∧
    (slice sorted first.toInt.toNat last.toInt.toNat).Perm (slice buffer first.toInt.toNat last.toInt.toNat) ∧
    (slice sorted first.toInt.toNat last.toInt.toNat).Pairwise (InOrder asc) ∧
    ∀ i, i < first.toInt.toNat ∨ last.toInt.toNat < i → sorted[i]? = buffer[i]?

/-! ### The cursors -/

variable {asc : Bool} {key : α} {buffer original : List α} {first last start stop turns : Nat}

/-- The right cursor stops at an element that may stand on the left, or where the left one is. -/
theorem endDown_spec (ordered : first ≤ last) (inside : last < buffer.length) :
    ∃ next, endDown asc key buffer first last = some next ∧ first ≤ next ∧ next ≤ last ∧
      (∀ i a, next < i → i ≤ last → buffer[i]? = some a → exceeds asc a key) ∧
      (next = first ∨ ∀ a, buffer[next]? = some a → ¬ exceeds asc a key) := by
  induction last with
  | zero =>
    refine ⟨0, ?_, ordered, Nat.le_refl 0, fun i a past within => by omega, .inl (by omega)⟩
    rw [endDown, List.getElem?_eq_getElem inside]
    rfl
  | succ last ih =>
    have read : buffer[last + 1]? = some buffer[last + 1] := List.getElem?_eq_getElem inside
    rw [endDown, read, Option.bind_eq_bind, Option.bind_some]
    generalize buffer[last + 1] = element at read
    split
    · next passes =>
      obtain ⟨more, apart⟩ := Bool.and_eq_true_iff.mp passes
      have apart := of_decide_eq_true apart
      obtain ⟨next, found, low, high, behind, halted⟩ := ih (by omega) (by omega)
      refine ⟨next, found, low, by omega, fun i a past within at_ => ?_, halted⟩
      by_cases here : i = last + 1
      · rw [here, read] at at_
        rw [← Option.some.inj at_]
        exact more
      · exact behind i a past (by omega) at_
    · next halts =>
      refine ⟨last + 1, rfl, ordered, Nat.le_refl _, fun i a past within => by omega, ?_⟩
      by_cases apart : first < last + 1
      · refine .inr fun a at_ more => halts ?_
        rw [read] at at_
        rw [Option.some.inj at_, more, decide_eq_true apart]
        rfl
      · exact .inl (by omega)

theorem beginUp_spec (ordered : first ≤ last) (inside : last < buffer.length) (enough : last < first + turns) :
    ∃ next, beginUp asc key buffer last turns first = some next ∧ first ≤ next ∧ next ≤ last ∧
      (∀ i a, first ≤ i → i < next → buffer[i]? = some a → exceeds asc key a) ∧
      (next = last ∨ ∀ a, buffer[next]? = some a → ¬ exceeds asc key a) := by
  induction turns generalizing first with
  | zero => omega
  | succ turns ih =>
    have read : buffer[first]? = some buffer[first] := List.getElem?_eq_getElem (by omega)
    rw [beginUp, read, Option.bind_eq_bind, Option.bind_some]
    generalize buffer[first] = element at read
    split
    · next passes =>
      obtain ⟨more, apart⟩ := Bool.and_eq_true_iff.mp passes
      have apart := of_decide_eq_true apart
      obtain ⟨next, found, low, high, ahead, halted⟩ := @ih (first + 1) (by omega) (by omega)
      refine ⟨next, found, by omega, high, fun i a from_ within at_ => ?_, halted⟩
      by_cases here : i = first
      · rw [here, read] at at_
        rw [← Option.some.inj at_]
        exact more
      · exact ahead i a (by omega) within at_
    · next halts =>
      refine ⟨first, rfl, Nat.le_refl _, ordered, fun i a from_ within => by omega, ?_⟩
      by_cases apart : first < last
      · refine .inr fun a at_ more => halts ?_
        rw [read] at at_
        rw [Option.some.inj at_, more, decide_eq_true apart]
        rfl
      · exact .inl (by omega)

/-! ### The partition -/

/-- Between two turns: the hole is at the left cursor, and what the cursors have passed stands on its side. -/
structure Parting (asc : Bool) (key : α) (original : List α) (start stop : Nat) (buffer : List α)
    (first last : Nat) : Prop where
  perm : (buffer.set first key).Perm original
  outside : ∀ i, i < start ∨ stop < i → buffer[i]? = original[i]?
  front : ∀ i a, start ≤ i → i < first → buffer[i]? = some a → exceeds asc key a
  back : ∀ i a, last < i → i ≤ stop → buffer[i]? = some a → exceeds asc a key
  low : start ≤ first
  ordered : first ≤ last
  high : last ≤ stop
  inside : stop < buffer.length

/-- No element but the one held aside is equal to it. -/
def Apart (key : α) (start stop : Nat) (buffer : List α) (first : Nat) : Prop :=
  ∀ i, start ≤ i → i ≤ stop → i ≠ first → buffer[i]? ≠ some key

omit [LinearOrder α] in
theorem Apart.move {r m : Nat} {g : α} (apart : Apart key start stop buffer r) (found : buffer[m]? = some g)
    (from_ : start ≤ m) (to_ : m ≤ stop) : Apart key start stop (buffer.set r g) m := by
  intro i low high other same
  by_cases here : i = r
  · rw [here, List.getElem?_set_self'] at same
    obtain ⟨_, _, value⟩ := Option.map_eq_some_iff.mp same
    apply apart m from_ to_ (by omega)
    rw [found]
    exact congrArg some value
  · rw [List.getElem?_set_ne (Ne.symm here)] at same
    exact apart i low high here same

/-- One turn stores an element of the right side at the left cursor, and one of the left side at the right cursor. -/
theorem Parting.exchange {v w : α} {first' last' : Nat}
    (parting : Parting asc key original start stop buffer first last) (from_ : first ≤ last') (to_ : last' ≤ last)
    (read : buffer[last']? = some v) (from' : first ≤ first') (to' : first' ≤ last')
    (read' : (buffer.set first v)[first']? = some w)
    (behind : ∀ i a, last' < i → i ≤ last → buffer[i]? = some a → exceeds asc a key)
    (ahead : ∀ i a, first ≤ i → i < first' → (buffer.set first v)[i]? = some a → exceeds asc key a) :
    Parting asc key original start stop ((buffer.set first v).set last' w) first' last' := by
  have inside := parting.inside
  have low := parting.low
  have high := parting.high
  have hole : ((buffer.set first v).set last' key).Perm (buffer.set first key) :=
    set_set_hole (by omega) read key
  have hole' : (((buffer.set first v).set last' w).set first' key).Perm ((buffer.set first v).set last' key) :=
    set_set_hole (by rw [List.length_set]; omega) read' key
  have kept (i : Nat) (other : i ≠ first) (other' : i ≠ last') :
      ((buffer.set first v).set last' w)[i]? = buffer[i]? := by
    rw [List.getElem?_set_ne (Ne.symm other'), List.getElem?_set_ne (Ne.symm other)]
  refine ⟨(hole'.trans hole).trans parting.perm, ?_, ?_, ?_, by omega, to', by omega, ?_⟩
  · intro i off
    rw [kept i (by omega) (by omega)]
    exact parting.outside i off
  · intro i a from₀ within at_
    by_cases passed : i < first
    · rw [kept i (by omega) (by omega)] at at_
      exact parting.front i a from₀ passed at_
    · rw [List.getElem?_set_ne (by omega)] at at_
      exact ahead i a (by omega) within at_
  · intro i a past within at_
    rw [kept i (by omega) (by omega)] at at_
    by_cases passed : i ≤ last
    · exact behind i a past passed at_
    · exact parting.back i a (by omega) within at_
  · rw [List.length_set, List.length_set]
    exact inside

/-- One turn. Where no other element is equal the cursors get nearer to each other. -/
theorem partitionLoop_turn (parting : Parting asc key original start stop buffer first last) (going : first < last) :
    ∃ buffer' first' last', Parting asc key original start stop buffer' first' last' ∧
      (∀ turns, partitionLoop asc key (turns + 1) buffer first last =
        partitionLoop asc key turns buffer' first' last') ∧
      (Apart key start stop buffer first →
        Apart key start stop buffer' first' ∧ last' - first' < last - first) := by
  have inside := parting.inside
  have low := parting.low
  have high := parting.high
  obtain ⟨last', down, from_, to_, behind, halted⟩ :=
    @endDown_spec _ _ asc key buffer first last parting.ordered (by omega)
  have read : buffer[last']? = some buffer[last'] := List.getElem?_eq_getElem (by omega)
  generalize buffer[last'] = v at read
  obtain ⟨first', up, from', to', ahead, halted'⟩ :=
    @beginUp_spec _ _ asc key (buffer.set first v) first last' (last' + 1) from_
      (by rw [List.length_set]; omega) (by omega)
  obtain ⟨w, read'⟩ : ∃ w, (buffer.set first v)[first']? = some w :=
    ⟨_, List.getElem?_eq_getElem (by rw [List.length_set]; omega)⟩
  refine ⟨(buffer.set first v).set last' w, first', last',
    parting.exchange from_ to_ read from' to' read' behind ahead, ?_, ?_⟩
  · intro turns
    rw [partitionLoop, if_pos going, down]
    dsimp only [Option.bind_eq_bind, Option.bind_some]
    rw [read]
    dsimp only [Option.bind_some]
    rw [up]
    dsimp only [Option.bind_some]
    rw [read']
    rfl
  · intro apart
    have apart' := apart.move read (by omega) (by omega)
    refine ⟨apart'.move read' (by omega) (by omega), ?_⟩
    by_cases down' : last' = last
    · -- the right cursor has not moved, so that its element goes to the left, where it is passed
      have smaller : exceeds asc key v := by
        have halts : ¬ exceeds asc v key := halted.resolve_left (by omega) v read
        refine exceeds_of_inOrder (not_exceeds.mp halts) fun same => ?_
        exact apart last' (by omega) (by omega) (by omega) (same ▸ read)
      have passed : first' ≠ first := by
        intro same
        refine halted'.resolve_left (by omega) v ?_ smaller
        rw [same, List.getElem?_set_self (by omega)]
      omega
    · omega

/-! ### Where the cursors meet -/

/-- Every element is on its side of the one that was held aside. -/
structure Parted (asc : Bool) (key : α) (original : List α) (start stop : Nat) (buffer : List α)
    (middle : Nat) : Prop where
  rearranged : Rearranged start stop original buffer
  found : buffer[middle]? = some key
  front : ∀ i a, start ≤ i → i < middle → buffer[i]? = some a → exceeds asc key a
  back : ∀ i a, middle < i → i ≤ stop → buffer[i]? = some a → exceeds asc a key
  low : start ≤ middle
  high : middle ≤ stop

theorem Parting.parted (parting : Parting asc key original start stop buffer first last) (met : ¬ first < last) :
    Parted asc key original start stop (buffer.set first key) first := by
  have inside := parting.inside
  have ordered := parting.ordered
  have low := parting.low
  have high := parting.high
  refine ⟨⟨parting.perm, fun i off => ?_⟩, List.getElem?_set_self (by omega), fun i a from_ within at_ => ?_,
    fun i a past within at_ => ?_, low, by omega⟩
  · rw [List.getElem?_set_ne (by omega)]
    exact parting.outside i off
  · rw [List.getElem?_set_ne (by omega)] at at_
    exact parting.front i a from_ within at_
  · rw [List.getElem?_set_ne (by omega)] at at_
    exact parting.back i a (by omega) within at_

theorem Parting.of_first (found : original[start]? = some key) (ordered : start ≤ stop)
    (inside : stop < original.length) : Parting asc key original start stop original start stop where
  perm := by
    obtain ⟨_, value⟩ := List.getElem?_eq_some_iff.mp found
    rw [← value, List.set_getElem_self]
  outside := fun _ _ => rfl
  front := fun i a from_ within => by omega
  back := fun i a past within => by omega
  low := Nat.le_refl _
  ordered := ordered
  high := Nat.le_refl _
  inside := inside

/-- By induction on the turns: a loop that ends has parted the elements. -/
theorem partitionLoop_parted {parted : List α} {middle : Nat}
    (parting : Parting asc key original start stop buffer first last)
    (ended : partitionLoop asc key turns buffer first last = some (parted, middle)) :
    Parted asc key original start stop parted middle := by
  induction turns generalizing buffer first last with
  | zero => cases ended
  | succ turns ih =>
    by_cases going : first < last
    · obtain ⟨buffer', first', last', parting', turn, _⟩ := partitionLoop_turn parting going
      rw [turn] at ended
      exact ih parting' ended
    · rw [partitionLoop, if_neg going] at ended
      obtain ⟨rfl, rfl⟩ := Prod.mk.inj (Option.some.inj ended)
      exact parting.parted going

theorem partitionLoop_ends (parting : Parting asc key original start stop buffer first last)
    (apart : Apart key start stop buffer first) (enough : last - first < turns) :
    ∃ parted middle, partitionLoop asc key turns buffer first last = some (parted, middle) := by
  induction turns generalizing buffer first last with
  | zero => omega
  | succ turns ih =>
    by_cases going : first < last
    · obtain ⟨buffer', first', last', parting', turn, nearer⟩ := partitionLoop_turn parting going
      obtain ⟨apart', less⟩ := nearer apart
      rw [turn]
      exact ih parting' apart' (by omega)
    · rw [partitionLoop, if_neg going]
      exact ⟨_, _, rfl⟩

/-! ### The calls -/

theorem asInt_small {n : Int} (low : 0 ≤ n) (small : n ≤ intMax) : asInt n = n := by
  unfold intMax at small
  unfold asInt
  rw [Int.bmod_eq_of_le] <;> omega

/-- A part of at most one element, and one that begins behind its end or below the first element. -/
theorem quick_nothing {first last : Int} (small : last ≤ first ∨ first < 0) :
    quick asc (turns + 1) buffer first last = some buffer := by
  rw [quick]
  by_cases going : first < last
  · rw [if_pos going, obtainMiddleKeyPos, if_pos (.inr (.inl (by omega)))]
    rfl
  · rw [if_neg going]

/-- Behind the middle: the sum is no larger than an `int`, or it is below zero then. -/
theorem quick_behind {middle : Nat} (end_ : middle = last) (small : last ≤ intMax) :
    quick asc (turns + 1) buffer (asInt (middle + 1)) last = some buffer := by
  apply quick_nothing
  by_cases fits : middle + 1 ≤ intMax
  · rw [asInt_small (by omega) (by omega)]
    omega
  · right
    unfold intMax at fits small
    unfold asInt
    rw [show (middle : Int) + 1 = 2147483648 by omega]
    decide

theorem quick_step (going : first < last) (inside : last < buffer.length) :
    quick asc (turns + 1) buffer first last =
      (partitionLoop asc buffer[first] turns buffer first last).bind fun parted =>
        (quick asc turns parted.1 first parted.2).bind fun sorted =>
          quick asc turns sorted (asInt (parted.2 + 1)) last := by
  rw [quick, if_pos (by omega), obtainMiddleKeyPos, if_neg (by omega), Int.toNat_natCast, Int.toNat_natCast,
    List.getElem?_eq_getElem (by omega)]
  dsimp only [Option.bind_eq_bind, Option.bind_some]
  rw [Option.bind_assoc]
  apply Option.bind_congr
  rintro ⟨parted, middle⟩ _
  dsimp only [Option.bind_some]
  rw [if_neg (by omega)]

/-- Before another, strictly. -/
def Before (asc : Bool) (a b : α) : Prop := exceeds asc b a

/-- What a call leaves: its part in strict order. -/
structure Quickened (asc : Bool) (original : List α) (first last : Nat) (sorted : List α) : Prop where
  rearranged : Rearranged first last original sorted
  strict : (slice sorted first last).Pairwise (Before asc)

/-- The two halves, the middle being the last element of the left one. -/
theorem Parted.quickened {parted left sorted : List α} {middle : Nat}
    (parting : Parted asc key original start stop parted middle) (first : Quickened asc parted start middle left)
    (second : middle = stop ∧ sorted = left ∨ middle < stop ∧ Quickened asc left (middle + 1) stop sorted) :
    Quickened asc original start stop sorted := by
  have low := parting.low
  have high := parting.high
  have moved := parting.rearranged.trans (first.rearranged.widen (Nat.le_refl _) high)
  rcases second with ⟨rfl, rfl⟩ | ⟨less, second⟩
  · exact ⟨moved, first.strict⟩
  · refine ⟨moved.trans (second.rearranged.widen (by omega) (Nat.le_refl _)), ?_⟩
    have same : slice sorted start middle = slice left start middle :=
      slice_congr fun i _ within => second.rearranged.outside i (.inl (by omega))
    rw [slice_append low high, same, List.pairwise_append]
    refine ⟨first.strict, second.strict, fun a member b member' => ?_⟩
    obtain ⟨i, from_, to_, found⟩ := mem_slice.mp member
    obtain ⟨j, from', to', found'⟩ := mem_slice.mp member'
    have small : exceeds asc key a ∨ a = key := by
      refine first.rearranged.forall (P := fun a => exceeds asc key a ∨ a = key) (by omega)
        (fun i a from_ to_ at_ => ?_) i a from_ to_ found
      by_cases here : i = middle
      · rw [here, parting.found] at at_
        exact .inr (Option.some.inj at_).symm
      · exact .inl (parting.front i a from_ (by omega) at_)
    have large : exceeds asc b key := by
      refine second.rearranged.forall (P := fun b => exceeds asc b key) (by omega) (fun i b from_ to_ at_ => ?_) j b
        from' to' found'
      rw [first.rearranged.outside i (.inr (by omega))] at at_
      exact parting.back i b (by omega) to_ at_
    rcases small with less | rfl
    · exact exceeds_trans large less
    · exact large

/-- By induction on the depth: a call that returns leaves its part in strict order. -/
theorem quick_sound {sorted : List α} (ordered : first ≤ last) (inside : last < buffer.length) (small : last ≤ intMax)
    (ended : quick asc turns buffer first last = some sorted) : Quickened asc buffer first last sorted := by
  induction turns generalizing buffer first last sorted with
  | zero => cases ended
  | succ turns ih =>
    by_cases going : first < last
    · rw [quick_step going inside] at ended
      obtain ⟨⟨parted, middle⟩, parting, ended⟩ := Option.bind_eq_some_iff.mp ended
      obtain ⟨left, first_, ended⟩ := Option.bind_eq_some_iff.mp ended
      dsimp only at first_ ended
      have done := partitionLoop_parted
        (Parting.of_first (List.getElem?_eq_getElem (by omega)) ordered inside) parting
      have low := done.low
      have high := done.high
      have size := done.rearranged.perm.length_eq
      have half := ih low (by omega) (by omega) first_
      refine done.quickened half ?_
      by_cases end_ : middle = last
      · left
        cases turns with
        | zero => cases ended
        | succ turns =>
          rw [quick_behind end_ small] at ended
          exact ⟨end_, (Option.some.inj ended).symm⟩
      · right
        have next : asInt (middle + 1) = (middle + 1 : Nat) := asInt_small (by omega) (by omega)
        rw [next] at ended
        have size' := half.rearranged.perm.length_eq
        exact ⟨by omega, ih (by omega) (by omega) small ended⟩
    · obtain rfl : first = last := by omega
      rw [quick_nothing (.inl (Int.le_refl _))] at ended
      obtain rfl := Option.some.inj ended
      refine ⟨.refl _, ?_⟩
      rw [slice_single (List.getElem?_eq_getElem inside)]
      exact List.pairwise_singleton _ _

/-! ### Parts of different elements -/

omit [LinearOrder α] in
theorem apart_of_nodup (found : buffer[start]? = some key) (nodup : (slice buffer start stop).Nodup) :
    Apart key start stop buffer start := by
  intro i low high other same
  obtain ⟨k, rfl⟩ : ∃ k, i = start + k := ⟨i - start, by omega⟩
  have at_ : (slice buffer start stop)[k]? = some key := by rw [getElem?_slice, if_pos high, same]
  have at_' : (slice buffer start stop)[0]? = some key := by
    rw [getElem?_slice, if_pos (by omega), Nat.add_zero, found]
  have inside := (List.getElem?_eq_some_iff.mp at_).1
  have equal := (List.nodup_iff_getElem?_ne_getElem?.mp nodup) 0 k (by omega) inside
  exact equal (at_'.trans at_.symm)

theorem partition_ends (ordered : first ≤ last) (inside : last < buffer.length)
    (nodup : (slice buffer first last).Nodup) (enough : last - first < turns) :
    ∃ parted middle, partitionLoop asc buffer[first] turns buffer first last = some (parted, middle) ∧
      Parted asc buffer[first] buffer first last parted middle := by
  have found : buffer[first]? = some buffer[first] := List.getElem?_eq_getElem (by omega)
  have parting : Parting asc buffer[first] buffer first last buffer first last := .of_first found ordered inside
  obtain ⟨parted, middle, ended⟩ := partitionLoop_ends parting (apart_of_nodup found nodup) enough
  exact ⟨parted, middle, ended, partitionLoop_parted parting ended⟩

/-- Both calls of `quick`, where the middle is not the last element. -/
theorem halves_end {parted : List α} {middle : Nat}
    (shorter : ∀ {buffer : List α} {first last : Nat}, last - first < stop - start → first ≤ last →
      last < buffer.length → last ≤ intMax → (slice buffer first last).Nodup →
      ∃ sorted, quick asc turns buffer first last = some sorted)
    (parting : Parted asc key original start stop parted middle) (less : middle < stop)
    (inside : stop < original.length) (small : stop ≤ intMax) (nodup : (slice original start stop).Nodup) :
    ∃ sorted, ((quick asc turns parted start middle).bind fun left =>
      quick asc turns left (asInt (middle + 1)) stop) = some sorted := by
  have low := parting.low
  have high := parting.high
  have size := parting.rearranged.perm.length_eq
  have nodup' := (parting.rearranged.slice_perm (by omega)).nodup_iff.mpr nodup
  rw [slice_append low high] at nodup'
  obtain ⟨left, first⟩ := @shorter parted start middle (by omega) low (by omega) (by omega)
    (List.Nodup.of_append_left nodup')
  have half := quick_sound low (by omega) (by omega) first
  have size' := half.rearranged.perm.length_eq
  have same : slice left (middle + 1) stop = slice parted (middle + 1) stop :=
    slice_congr fun i from_ _ => half.rearranged.outside i (.inr (by omega))
  obtain ⟨sorted, second⟩ := @shorter left (middle + 1) stop (by omega) (by omega) (by omega) small
    (by rw [same]; exact List.Nodup.of_append_right nodup')
  have next : asInt (middle + 1) = (middle + 1 : Nat) := asInt_small (by omega) (by omega)
  rw [first, Option.bind_some, next]
  exact ⟨sorted, second⟩

/-- The greatest element goes to the end, so that the next call for the same part has another one as its middle. -/
theorem Parted.middle_lt {parted again : List α} {key' : α} {middle : Nat}
    (parting : Parted asc key original start stop parted stop) (apart : start < stop)
    (first : parted[start]? = some key') (next : Parted asc key' parted start stop again middle) : middle < stop := by
  have high := next.high
  have less : exceeds asc key key' := parting.front start key' (Nat.le_refl _) apart first
  by_contra reached
  obtain rfl : middle = stop := by omega
  have member : key ∈ slice again start middle :=
    (next.rearranged.slice_perm (by omega)).symm.subset (mem_slice.mpr ⟨middle, by omega, Nat.le_refl _, parting.found⟩)
  obtain ⟨i, from_, to_, found⟩ := mem_slice.mp member
  by_cases here : i = middle
  · rw [here, next.found] at found
    exact ne_of_exceeds less (Option.some.inj found).symm
  · have more := next.front i key from_ (by omega) found
    exact ne_of_exceeds (exceeds_trans less more) rfl

/-- By induction on the length of the part, which the second call for it at the latest divides. -/
theorem quick_ends (ordered : first ≤ last) (inside : last < buffer.length) (small : last ≤ intMax)
    (nodup : (slice buffer first last).Nodup) (enough : 2 * (last - first) + 1 < turns) :
    ∃ sorted, quick asc turns buffer first last = some sorted := by
  obtain ⟨d, size⟩ : ∃ d, d = last - first := ⟨_, rfl⟩
  induction d using Nat.strongRecOn generalizing buffer first last turns with
  | _ d ih =>
    obtain ⟨turns, rfl⟩ : ∃ n, turns = n + 1 := ⟨turns - 1, by omega⟩
    by_cases going : first < last
    · obtain ⟨parted, middle, ended, parting⟩ := @partition_ends _ _ asc buffer first last turns ordered inside nodup
        (by omega)
      have length := parting.rearranged.perm.length_eq
      have nodup' := (parting.rearranged.slice_perm (by omega)).nodup_iff.mpr nodup
      have high := parting.high
      rw [quick_step going inside, ended, Option.bind_some]
      dsimp only
      by_cases end_ : middle = last
      · subst end_
        obtain ⟨turns, rfl⟩ : ∃ n, turns = n + 1 := ⟨turns - 1, by omega⟩
        obtain ⟨again, next, ended', parting'⟩ := @partition_ends _ _ asc parted first middle turns ordered (by omega)
          nodup' (by omega)
        have less := parting.middle_lt going (List.getElem?_eq_getElem (by omega)) parting'
        obtain ⟨left, both⟩ := @halves_end _ _ asc _ parted first middle turns _ _
          (fun shorter ordered inside small nodup => ih _ (by omega) ordered inside small nodup (by omega) rfl)
          parting' less (by omega) small nodup'
        rw [quick_step going (by omega), ended', Option.bind_some, both, Option.bind_some, quick_behind rfl small]
        exact ⟨left, rfl⟩
      · exact halves_end (fun shorter ordered inside small nodup =>
          ih _ (by omega) ordered inside small nodup (by omega) rfl) parting (by omega) inside small nodup
    · exact ⟨buffer, quick_nothing (.inl (by omega))⟩

/-! ### Which parts are sorted -/

theorem Quickened.nodup {sorted : List α} (done : Quickened asc buffer first last sorted) (ordered : first ≤ last) :
    (slice buffer first last).Nodup := by
  rw [← (done.rearranged.slice_perm (by omega)).nodup_iff]
  exact done.strict.imp fun less => (ne_of_exceeds less).symm

/-- A part is sorted exactly where its elements are different from one another. On any other the call does not
return. -/
theorem quickSorts_iff (asc : Bool) (buffer : List α) {first last : Int32} (positive : 0 ≤ first)
    (ordered : first ≤ last) (inside : last.toInt < buffer.length) :
    QuickSorts asc buffer first last ↔ (slice buffer first.toInt.toNat last.toInt.toNat).Nodup := by
  have low : 0 ≤ first.toInt := Int32.le_iff_toInt_le.mp positive
  have between : first.toInt ≤ last.toInt := Int32.le_iff_toInt_le.mp ordered
  have greatest : last.toInt < 2147483648 := Int32.toInt_lt last
  obtain ⟨n, start⟩ := Int.eq_ofNat_of_zero_le low
  obtain ⟨m, stop⟩ := Int.eq_ofNat_of_zero_le (Int.le_trans low between)
  unfold QuickSorts
  rw [start] at between ⊢
  rw [stop] at between inside greatest ⊢
  have small : m ≤ intMax := by
    unfold intMax
    omega
  simp only [Int.toNat_natCast]
  constructor
  · rintro ⟨turns, sorted, ended, _⟩
    exact (quick_sound (by omega) (by omega) small ended).nodup (by omega)
  · intro nodup
    obtain ⟨sorted, ended⟩ := @quick_ends _ _ asc buffer n m (2 * (m - n) + 2) (by omega) (by omega) small nodup
      (by omega)
    have done := quick_sound (by omega) (by omega) small ended
    exact ⟨_, sorted, ended, done.rearranged.slice_perm (by omega), done.strict.imp inOrder_of_exceeds,
      done.rearranged.outside⟩

theorem quickSorts_sample : QuickSorts true [(9 : Nat), 3, 1, 2, 0] 1 3 :=
  (quickSorts_iff true [9, 3, 1, 2, 0] (by decide) (by decide) (by decide)).mpr (by decide)

theorem quickSorts_refuted : ¬ QuickSorts true [(1 : Nat), 1] 0 1 := by
  rintro ⟨turns, sorted, ended, _⟩
  have done := @quick_sound _ _ true [(1 : Nat), 1] 0 1 turns sorted (by decide) (by decide) (by decide) ended
  exact absurd (done.nodup (by decide)) (by decide)

end LiveStreaming.Study
