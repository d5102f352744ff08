import LiveStreaming.Study.SelectionProblem
import LiveStreaming.Study.ShellSort

/-!
# The plain sorts

`sorts<T>` has the bubble sort, the insertion sort and the selection sort beside the fast ones. The insertion sort is
one pass of the shell sort, for neighbours. `sorts_agree` and `bubble_agrees` show that they leave the same array.
-/

namespace LiveStreaming.Study
open Library.Slice

variable {α : Type} [LinearOrder α]

/-- `is_sorted` is set once, before the rounds. -/
def bubble (asc : Bool) (buffer : List Int) : Option (List Int) :=
  bubbleRounds asc buffer.length (buffer.length - 1) buffer true 0

/-- With a bound on the turns of each loop. -/
def insert (asc : Bool) (turns : Nat) (buffer : List α) : Option (List α) := shellPass asc 1 turns buffer 1

/-- `for( int i_index = o_index+1; i_index < buffer_size; ++i_index )`, with the turns that are left. -/
def findMinMax (asc : Bool) (buffer : List α) : Nat → Nat → Nat → Option Nat
  | 0, _, minMaxIndex => some minMaxIndex
  | left + 1, iIndex, minMaxIndex => do
    let extreme ← buffer[minMaxIndex]?
    let element ← buffer[iIndex]?
    findMinMax asc buffer left (iIndex + 1) (if exceeds asc extreme element then iIndex else minMaxIndex)

/-- `for( int o_index=0; o_index < buffer_size-1; ++o_index )`, with the turns that are left. -/
def selectRounds (asc : Bool) : Nat → List α → Nat → Option (List α)
  | 0, buffer, _ => some buffer
  | left + 1, buffer, oIndex => do
    let minMaxIndex ← findMinMax asc buffer (buffer.length - (oIndex + 1)) (oIndex + 1) oIndex
    if minMaxIndex = oIndex then selectRounds asc left buffer (oIndex + 1)
    else do
      let tmp ← buffer[oIndex]?
      let extreme ← buffer[minMaxIndex]?
      selectRounds asc left ((buffer.set oIndex extreme).set minMaxIndex tmp) (oIndex + 1)

def select (asc : Bool) (buffer : List α) : Option (List α) := selectRounds asc (buffer.length - 1) buffer 0

variable {asc : Bool} {buffer sorted sorted' : List α} {n left i m : Nat}

/-- Nothing that stands behind one of the first `n` elements belongs before it. -/
def SettledTo (asc : Bool) (n : Nat) (buffer : List α) : Prop :=
  ∀ p q a b, p < q → p < n → buffer[p]? = some a → buffer[q]? = some b → InOrder asc a b

/-- By induction on the turns: the element found so far belongs before all that were looked at. -/
theorem findMinMax_spec {first : Nat} (within : i + left = buffer.length) (inside : m < i) (low : first ≤ m)
    (before : ∀ q a b, first ≤ q → q < i → buffer[m]? = some a → buffer[q]? = some b → InOrder asc a b) :
    ∃ m', findMinMax asc buffer left i m = some m' ∧ m' < buffer.length ∧ first ≤ m' ∧
      ∀ q a b, first ≤ q → buffer[m']? = some a → buffer[q]? = some b → InOrder asc a b := by
  induction left generalizing i m with
  | zero =>
    refine ⟨m, rfl, by omega, low, fun q a b high at_ at_' => ?_⟩
    have bound := (List.getElem?_eq_some_iff.mp at_').1
    exact before q a b high (by omega) at_ at_'
  | succ left ih =>
    have read : buffer[m]? = some buffer[m] := List.getElem?_eq_getElem (by omega)
    have read' : buffer[i]? = some buffer[i] := List.getElem?_eq_getElem (by omega)
    generalize buffer[m] = extreme at read
    generalize buffer[i] = element at read'
    have turn : findMinMax asc buffer (left + 1) i m =
        findMinMax asc buffer left (i + 1) (if exceeds asc extreme element then i else m) := by
      rw [findMinMax, read]
      dsimp only [Option.bind_eq_bind, Option.bind_some]
      rw [read']
      rfl
    rw [turn]
    by_cases more : exceeds asc extreme element
    · rw [if_pos more]
      apply ih (by omega) (by omega) (by omega)
      intro q a b high below at_ at_'
      rw [read'] at at_
      obtain rfl := Option.some.inj at_
      by_cases here : q = i
      · rw [here, read'] at at_'
        rw [← Option.some.inj at_']
        exact inOrder_refl asc element
      · exact (inOrder_of_exceeds more).trans (before q extreme b high (by omega) read at_')
    · rw [if_neg more]
      apply ih (by omega) (by omega) low
      intro q a b high below at_ at_'
      by_cases here : q = i
      · rw [here, read'] at at_'
        rw [read] at at_
        rw [← Option.some.inj at_, ← Option.some.inj at_']
        exact not_exceeds.mp more
      · exact before q a b high (by omega) at_ at_'

/-- The element that belongs first among those behind the first `n` takes its place. -/
theorem SettledTo.exchange {a b : α} (settled : SettledTo asc n buffer) (at_ : buffer[n]? = some a)
    (at_' : buffer[m]? = some b) (other : n < m)
    (extreme : ∀ q c, n ≤ q → buffer[q]? = some c → InOrder asc b c) :
    SettledTo asc (n + 1) ((buffer.set n b).set m a) := by
  have inside := (List.getElem?_eq_some_iff.mp at_).1
  have inside' := (List.getElem?_eq_some_iff.mp at_').1
  -- What stands at `q` stood behind the first `n` before.
  have moved : ∀ q c, n ≤ q → ((buffer.set n b).set m a)[q]? = some c → ∃ q', n ≤ q' ∧ buffer[q']? = some c := by
    intro q c high found
    by_cases last : q = m
    · rw [last, List.getElem?_set_self (by rw [List.length_set]; exact inside')] at found
      exact ⟨n, le_rfl, by rw [at_, found]⟩
    · rw [List.getElem?_set_ne (Ne.symm last)] at found
      by_cases first : q = n
      · rw [first, List.getElem?_set_self inside] at found
        exact ⟨m, Nat.le_of_lt other, by rw [at_', found]⟩
      · rw [List.getElem?_set_ne (Ne.symm first)] at found
        exact ⟨q, high, found⟩
  intro p q c d before low found found'
  by_cases here : p = n
  · rw [here, List.getElem?_set_ne (by omega), List.getElem?_set_self inside] at found
    rw [← Option.some.inj found]
    obtain ⟨q', high, found'⟩ := moved q d (by omega) found'
    exact extreme q' d high found'
  · rw [List.getElem?_set_ne (by omega), List.getElem?_set_ne (by omega)] at found
    by_cases high : n ≤ q
    · obtain ⟨q', high, found'⟩ := moved q d high found'
      exact settled p q' c d (by omega) (by omega) found found'
    · rw [List.getElem?_set_ne (by omega), List.getElem?_set_ne (by omega)] at found'
      exact settled p q c d before (by omega) found found'

/-- By induction on the rounds that are left. -/
theorem selectRounds_sorts (turns : n + left + 1 = buffer.length) (settled : SettledTo asc n buffer) :
    ∃ sorted, selectRounds asc left buffer n = some sorted ∧ sorted.Perm buffer ∧ sorted.Pairwise (InOrder asc) := by
  induction left generalizing buffer n with
  | zero =>
    refine ⟨buffer, rfl, .refl _, pairwise_of_neighbours fun i a b at_ at_' => ?_⟩
    have bound := (List.getElem?_eq_some_iff.mp at_').1
    exact settled i (i + 1) a b (by omega) (by omega) at_ at_'
  | succ left ih =>
    obtain ⟨m, found, inside, low, extreme⟩ := @findMinMax_spec _ _ asc buffer (buffer.length - (n + 1)) (n + 1) n n
      (by omega) (by omega) le_rfl (fun q a b high below at_ at_' => by
        obtain rfl : q = n := by omega
        rw [at_] at at_'
        rw [← Option.some.inj at_']
        exact inOrder_refl asc a)
    have read : buffer[n]? = some buffer[n] := List.getElem?_eq_getElem (by omega)
    have read' : buffer[m]? = some buffer[m] := List.getElem?_eq_getElem inside
    have exchanged : ((buffer.set n buffer[m]).set m buffer[n]).Perm buffer := List.set_set_perm (by omega) inside
    generalize buffer[n] = a at read exchanged
    generalize buffer[m] = b at read' exchanged
    rw [selectRounds, found]
    dsimp only [Option.bind_eq_bind, Option.bind_some]
    by_cases here : m = n
    · subst here
      rw [if_pos rfl]
      apply ih (by omega)
      intro p q c d before below at_ at_'
      by_cases last : p = m
      · exact extreme q c d (by omega) (last ▸ at_) at_'
      · exact settled p q c d before (by omega) at_ at_'
    · rw [if_neg here, read, Option.bind_some, read', Option.bind_some]
      have length := exchanged.length_eq
      obtain ⟨sorted, rest, perm, order⟩ := @ih ((buffer.set n b).set m a) (n + 1) (by omega)
        (settled.exchange read read' (by omega) fun q c high at_ => extreme q b c high read' at_)
      exact ⟨sorted, rest, perm.trans exchanged, order⟩

theorem select_sorts (asc : Bool) (buffer : List α) :
    ∃ sorted, select asc buffer = some sorted ∧ sorted.Perm buffer ∧ sorted.Pairwise (InOrder asc) := by
  cases buffer with
  | nil => exact ⟨[], rfl, .refl _, .nil⟩
  | cons a rest =>
    apply selectRounds_sorts
    · rw [List.length_cons]
      omega
    · intro p q a b _ below
      omega

theorem insert_sorts (asc : Bool) (buffer : List α) :
    ∃ turns sorted, insert asc turns buffer = some sorted ∧ sorted.Perm buffer ∧ sorted.Pairwise (InOrder asc) := by
  cases buffer with
  | nil => exact ⟨1, [], rfl, .refl _, .nil⟩
  | cons a rest =>
    obtain ⟨sorted, pass, perm, order⟩ := @shellPass_sorts _ _ asc 1 1 (2 * (a :: rest).length) (a :: rest) (by decide)
      (fun i b c within => by omega) (by omega) (by rw [List.length_cons]; omega)
    exact ⟨_, sorted, pass, perm, pairwise_of_gapSorted (perm.length_eq ▸ order)⟩

theorem bubble_sorts (asc : Bool) (buffer : List Int) :
    ∃ sorted, bubble asc buffer = some sorted ∧ sorted.Perm buffer ∧ sorted.Pairwise (InOrder asc) := by
  cases buffer with
  | nil => exact ⟨[], rfl, .refl _, .nil⟩
  | cons a rest =>
    apply bubbleRounds_sorts rfl
    · rw [List.length_cons]
      omega
    · intro p q a b _ high _ at_'
      have inside := (List.getElem?_eq_some_iff.mp at_').1
      rw [List.length_cons] at inside high
      omega

/-- Only one arrangement of the elements is in order. -/
theorem sorted_unique (perm : sorted.Perm sorted') (order : sorted.Pairwise (InOrder asc))
    (order' : sorted'.Pairwise (InOrder asc)) : sorted = sorted' := by
  apply List.Perm.eq_of_pairwise _ order order' perm
  intro a b _ _ one two
  cases asc with
  | true => exact le_antisymm one two
  | false => exact le_antisymm two one

/-- The shell sort, by its loop over the gaps. -/
theorem shell_returns (asc : Bool) (buffer : List α) :
    ∃ turns sorted, shell asc turns buffer = some sorted ∧ sorted.Perm buffer ∧ sorted.Pairwise (InOrder asc) := by
  by_cases short : buffer.length / 2 = 0
  · refine ⟨1, buffer, ?_, .refl _, ?_⟩
    · rw [shell, shellLoop, short, if_neg (by decide)]
    · apply List.pairwise_iff_getElem.mpr
      intro i j inside inside' before
      omega
  · exact ⟨_, shellLoop_sorts (Nat.pos_of_ne_zero short) (by omega) (Nat.lt_succ_self _)⟩

theorem sorts_agree (asc : Bool) (buffer : List α) :
    ∃ sorted, sorted.Perm buffer ∧ sorted.Pairwise (InOrder asc) ∧ select asc buffer = some sorted ∧
      (∃ turns, insert asc turns buffer = some sorted) ∧ ∃ turns, shell asc turns buffer = some sorted := by
  obtain ⟨sorted, selected, perm, order⟩ := select_sorts asc buffer
  obtain ⟨turns, inserted, insert_returns, perm₁, order₁⟩ := insert_sorts asc buffer
  obtain ⟨turns', shelled, shell_returns, perm₂, order₂⟩ := shell_returns asc buffer
  obtain rfl := sorted_unique (perm₁.trans perm.symm) order₁ order
  obtain rfl := sorted_unique (perm₂.trans perm.symm) order₂ order
  exact ⟨_, perm, order, selected, ⟨turns, insert_returns⟩, turns', shell_returns⟩

/-- For `int`, so does the bubble sort. -/
theorem bubble_agrees (asc : Bool) (buffer : List Int) : bubble asc buffer = select asc buffer := by
  obtain ⟨sorted, bubbled, perm, order⟩ := bubble_sorts asc buffer
  obtain ⟨sorted', selected, perm', order'⟩ := select_sorts asc buffer
  rw [bubbled, selected, sorted_unique (perm.trans perm'.symm) order order']

end LiveStreaming.Study
