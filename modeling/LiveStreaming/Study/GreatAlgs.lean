import LiveStreaming.Library.SegmentSum
import LiveStreaming.Library.Slice
import LiveStreaming.Study.SortOrder
import Mathlib.Algebra.Order.Ring.Int

/-!
# The largest sum of a subsequence

Two functions of one name: `max_subsequence_sum( nums, n )` goes through the array once and has no `return`,
`max_subsequence_sum( nums, left, right )` divides it. Its left border is scanned downwards with an index that is never
below zero.
-/

namespace LiveStreaming.Study
open Library.SegmentSum Library.Slice

/-- A sum of two `int`s that is one. -/
def plus (a b : Int) : Option Int := if -2147483648 ≤ a + b ∧ a + b ≤ intMax then some (a + b) else none

/-- `for( size_t index = 0; index < n; ++index )`, with the turns that are left. -/
def maxSubSumLoop (nums : List Int) : Nat → Int → Int → Nat → Option Int
  | 0, maxSubSum, _, _ => some maxSubSum
  | left + 1, maxSubSum, sum, index => do
    let element ← nums[index]?
    let sum ← plus sum element
    if sum > maxSubSum then maxSubSumLoop nums left sum sum (index + 1)
    else maxSubSumLoop nums left maxSubSum (if sum < 0 then 0 else sum) (index + 1)

/-- What `max_sub_sum` is when the function ends. It is not returned. -/
def linearMaxSubSum (nums : List Int) : Option Int := maxSubSumLoop nums nums.length 0 0 0

def sizeMax : Nat := 18446744073709551615

/-- `for( size_t index = mid; index >= left; --index )` -/
def leftBorderLoop (nums : List Int) (left : Nat) : Nat → Int → Int → Nat → Option Int
  | 0, _, _, _ => none
  | turns + 1, sum, maxLeftBorderSum, index =>
    if index ≥ left then do
      let element ← nums[index]?
      let sum ← plus sum element
      leftBorderLoop nums left turns sum (if sum > maxLeftBorderSum then sum else maxLeftBorderSum)
        (if index = 0 then sizeMax else index - 1)
    else some maxLeftBorderSum

/-- `for( size_t index = mid+1; index <= right; ++index )` -/
def rightBorderLoop (nums : List Int) (right : Nat) : Nat → Int → Int → Nat → Option Int
  | 0, _, _, _ => none
  | turns + 1, sum, maxRightBorderSum, index =>
    if index ≤ right then do
      let element ← nums[index]?
      let sum ← plus sum element
      rightBorderLoop nums right turns sum (if sum > maxRightBorderSum then sum else maxRightBorderSum) (index + 1)
    else some maxRightBorderSum

/-- With a bound on the depth of the calls and on the turns of each loop. No array is so long that `left+right` is not a
`size_t`. -/
def maxSubsequenceSum (nums : List Int) : Nat → Nat → Nat → Option Int
  | 0, _, _ => none
  | turns + 1, left, right =>
    if left = right then do
      let element ← nums[left]?
      some (if element < 0 then 0 else element)
    else do
      let mid := (left + right) / 2
      let maxLeftSum ← maxSubsequenceSum nums turns left mid
      let maxRightSum ← maxSubsequenceSum nums turns (mid + 1) right
      let maxLeftBorderSum ← leftBorderLoop nums left turns 0 0 mid
      let maxRightBorderSum ← rightBorderLoop nums right turns 0 0 (mid + 1)
      let sum ← plus maxLeftBorderSum maxRightBorderSum
      let sum := if sum > maxLeftSum then sum else maxLeftSum
      some (if sum > maxRightSum then sum else maxRightSum)

/-- The sum of every part is an `int`. -/
def SumsFit (nums : List Int) : Prop := ∀ s, s <:+: nums → -2147483648 ≤ s.sum ∧ s.sum ≤ intMax

/-- The call for a part returns its largest sum. -/
def FindsBestSum (nums : List Int) (left right : Nat) : Prop :=
  ∃ turns best, maxSubsequenceSum nums turns left right = some best ∧ BestSum (slice nums left right) best

/-- The call for the whole array returns its largest sum, which is what the other function computes. -/
def MaxSumsAgree (nums : List Int) : Prop :=
  ∃ turns best, maxSubsequenceSum nums turns 0 (nums.length - 1) = some best ∧ BestSum nums best ∧
    linearMaxSubSum nums = some best

/-! ### The running sum -/

variable {nums s done whole : List Int} {a b best sum border : Int} {index left right turns : Nat}

theorem SumsFit.plus (fit : SumsFit nums) (part : s <:+: nums) (same : a + b = s.sum) : plus a b = some s.sum := by
  rw [Study.plus, same, if_pos (fit s part)]

theorem bestSum_nonneg (largest : BestSum s best) : 0 ≤ best := largest.bound [] ⟨[], s, rfl⟩

/-- By induction on the turns: `max_sub_sum` is the largest sum so far, and `sum` the largest one that ends here. -/
theorem maxSubSumLoop_best (fit : SumsFit nums) (turns_ : index + left = nums.length)
    (largest : BestSum (nums.take index) best) (atEnd : BestEnd (nums.take index) sum) :
    ∃ best', maxSubSumLoop nums left best sum index = some best' ∧ BestSum nums best' := by
  induction left generalizing best sum index with
  | zero =>
    rw [show index = nums.length by omega, List.take_length] at largest
    exact ⟨best, rfl, largest⟩
  | succ left ih =>
    have inside : index < nums.length := by omega
    have read : nums[index]? = some nums[index] := List.getElem?_eq_getElem inside
    have longer : nums.take (index + 1) = nums.take index ++ [nums[index]] := List.take_succ_eq_append_getElem inside
    generalize nums[index] = x at read longer
    have added : plus sum x = some (sum + x) := by
      obtain ⟨t, here, total⟩ := atEnd.reached
      have part : t ++ [x] <:+: nums := by
        refine List.IsInfix.trans ?_ (List.take_prefix (index + 1) nums).isInfix
        rw [longer]
        exact (List.suffix_append_inj_of_length_eq rfl).mpr ⟨here, rfl⟩ |>.isInfix
      have same : sum + x = (t ++ [x]).sum := by rw [List.sum_append, total, List.sum_singleton]
      rw [fit.plus part same, same]
    have nonneg := bestSum_nonneg largest
    have ends := atEnd.concat x
    have larger := largest.concat ends
    rw [← longer] at ends larger
    have turn : maxSubSumLoop nums (left + 1) best sum index =
        if sum + x > best then maxSubSumLoop nums left (sum + x) (sum + x) (index + 1)
        else maxSubSumLoop nums left best (if sum + x < 0 then 0 else sum + x) (index + 1) := by
      rw [maxSubSumLoop, read]
      dsimp only [Option.bind_eq_bind, Option.bind_some]
      rw [added]
      rfl
    rw [turn]
    by_cases more : sum + x > best
    · rw [if_pos more]
      rw [show max (max 0 (sum + x)) best = sum + x by omega] at larger
      rw [show max 0 (sum + x) = sum + x by omega] at ends
      exact ih (by omega) larger ends
    · rw [if_neg more]
      rw [show max (max 0 (sum + x)) best = best by omega] at larger
      rw [show max 0 (sum + x) = if sum + x < 0 then 0 else sum + x by split <;> omega] at ends
      exact ih (by omega) larger ends

theorem linearMaxSubSum_best (fit : SumsFit nums) : ∃ best, linearMaxSubSum nums = some best ∧ BestSum nums best :=
  maxSubSumLoop_best fit (Nat.zero_add _) bestSum_nil bestEnd_nil

/-! ### The borders -/

/-- With `left` zero the index never gets below it. -/
theorem leftBorderLoop_never : leftBorderLoop nums 0 turns sum border index = none := by
  induction turns generalizing sum border index with
  | zero => rfl
  | succ turns ih =>
    rw [leftBorderLoop, if_pos (Nat.zero_le index)]
    dsimp only [Option.bind_eq_bind]
    rw [Option.bind_eq_none_iff]
    intro element _
    rw [Option.bind_eq_none_iff]
    intro sum' _
    exact ih

theorem slice_within (nums : List Int) (left right : Nat) : slice nums left right <:+: nums :=
  (List.take_prefix _ _).isInfix.trans (List.drop_suffix _ _).isInfix

theorem slice_concat {x : Int} (read : nums[index]? = some x) (inside : left ≤ index) (positive : 0 < left) :
    slice nums left index = slice nums left (index - 1) ++ [x] := by
  by_cases first : left = index
  · rw [first, slice_single read, slice_nil (by omega), List.nil_append]
  · rw [@slice_append _ nums left (index - 1) index (by omega) (by omega), Nat.sub_add_cancel (by omega),
      slice_single read]

/-- By induction on the turns: what has been scanned is the end of the left half, and the border its largest end. -/
theorem leftBorderLoop_best (fit : SumsFit nums) (positive : 0 < left) (inside : index < nums.length)
    (within : left ≤ index + 1) (enough : index + 1 - left < turns) (part : whole <:+: nums)
    (scanned : slice nums left index ++ done = whole) (largest : BestEnd done border) :
    ∃ best, leftBorderLoop nums left turns done.sum border index = some best ∧ BestEnd whole best := by
  induction turns generalizing done border index with
  | zero => omega
  | succ turns ih =>
    rw [leftBorderLoop]
    by_cases going : index ≥ left
    · have read : nums[index]? = some nums[index] := List.getElem?_eq_getElem inside
      generalize nums[index] = x at read
      rw [slice_concat read going positive, List.append_assoc, List.singleton_append] at scanned
      have added : plus done.sum x = some (x :: done).sum :=
        fit.plus (List.IsInfix.trans ⟨slice nums left (index - 1), [], by rw [List.append_nil]; exact scanned⟩ part)
          (by rw [List.sum_cons, Int.add_comm])
      have longer := largest.cons x
      rw [← List.sum_cons] at longer
      have next : (if (x :: done).sum > border then (x :: done).sum else border) = max (x :: done).sum border := by
        split <;> omega
      rw [if_pos going, read]
      dsimp only [Option.bind_eq_bind, Option.bind_some]
      rw [added]
      dsimp only [Option.bind_some]
      rw [next, if_neg (by omega)]
      exact ih (by omega) (by omega) (by omega) scanned longer
    · rw [if_neg going]
      rw [slice_nil (by omega), List.nil_append] at scanned
      exact ⟨border, rfl, scanned ▸ largest⟩

theorem rightBorderLoop_best (fit : SumsFit nums) (inside : right < nums.length) (within : index ≤ right + 1)
    (enough : right + 1 - index < turns) (part : whole <:+: nums) (scanned : done ++ slice nums index right = whole)
    (largest : BestFront done border) :
    ∃ best, rightBorderLoop nums right turns done.sum border index = some best ∧ BestFront whole best := by
  induction turns generalizing done border index with
  | zero => omega
  | succ turns ih =>
    rw [rightBorderLoop]
    by_cases going : index ≤ right
    · have read : nums[index]? = some nums[index] := List.getElem?_eq_getElem (by omega)
      generalize nums[index] = x at read
      rw [slice_cons read going, ← List.singleton_append, ← List.append_assoc] at scanned
      have total : (done ++ [x]).sum = done.sum + x := by rw [List.sum_append, List.sum_singleton]
      have added : plus done.sum x = some (done ++ [x]).sum :=
        fit.plus (List.IsInfix.trans ⟨[], slice nums (index + 1) right, scanned⟩ part) total.symm
      have longer := largest.concat x
      rw [← total] at longer
      have next : (if (done ++ [x]).sum > border then (done ++ [x]).sum else border) =
          max (done ++ [x]).sum border := by
        split <;> omega
      rw [if_pos going, read]
      dsimp only [Option.bind_eq_bind, Option.bind_some]
      rw [added]
      dsimp only [Option.bind_some]
      rw [next]
      exact ih (by omega) (by omega) scanned longer
    · rw [if_neg going]
      rw [slice_nil (by omega), List.append_nil] at scanned
      exact ⟨border, rfl, scanned ▸ largest⟩

/-! ### The calls -/

theorem bestSum_single (x : Int) : BestSum [x] (if x < 0 then 0 else x) := by
  have largest := bestSum_nil.concat ((@bestEnd_nil Int _).concat x)
  rw [show (if x < 0 then 0 else x) = max (max 0 (0 + x)) 0 by split <;> omega]
  exact largest

theorem maxSubsequenceSum_single (inside : left < nums.length) :
    ∃ best, maxSubsequenceSum nums (turns + 1) left left = some best ∧ BestSum (slice nums left left) best := by
  have read : nums[left]? = some nums[left] := List.getElem?_eq_getElem inside
  generalize nums[left] = x at read
  refine ⟨if x < 0 then 0 else x, ?_, ?_⟩
  · rw [maxSubsequenceSum, if_pos rfl, read]
    rfl
  · rw [slice_single read]
    exact bestSum_single x

/-- By induction on the depth: the largest sum is that of a half, or of two borders that meet. -/
theorem maxSubsequenceSum_best (fit : SumsFit nums) (positive : 0 < left) (ordered : left ≤ right)
    (inside : right < nums.length) (enough : right - left + 1 < turns) :
    ∃ best, maxSubsequenceSum nums turns left right = some best ∧ BestSum (slice nums left right) best := by
  induction turns generalizing left right with
  | zero => omega
  | succ turns ih =>
    by_cases single : left = right
    · subst single
      exact maxSubsequenceSum_single inside
    · obtain ⟨mid, middle⟩ : ∃ mid, mid = (left + right) / 2 := ⟨_, rfl⟩
      obtain ⟨maxLeft, leftHalf, bestLeft⟩ := @ih left mid positive (by omega) (by omega) (by omega)
      obtain ⟨maxRight, rightHalf, bestRight⟩ := @ih (mid + 1) right (by omega) (by omega) inside (by omega)
      obtain ⟨leftBorder, leftScan, bestEnd⟩ := leftBorderLoop_best fit positive (show mid < nums.length by omega)
        (show left ≤ mid + 1 by omega) (show mid + 1 - left < turns by omega) (slice_within nums left mid)
        (List.append_nil _) bestEnd_nil
      obtain ⟨rightBorder, rightScan, bestFront⟩ := rightBorderLoop_best fit inside (show mid + 1 ≤ right + 1 by omega)
        (show right + 1 - (mid + 1) < turns by omega) (slice_within nums (mid + 1) right)
        (List.nil_append _) bestFront_nil
      have whole := bestLeft.append bestRight bestEnd bestFront
      rw [← @slice_append _ nums left mid right (by omega) (by omega)] at whole
      have joined : plus leftBorder rightBorder = some (leftBorder + rightBorder) := by
        obtain ⟨s, here, total⟩ := bestEnd.reached
        obtain ⟨s', here', total'⟩ := bestFront.reached
        have part : s ++ s' <:+: nums := by
          refine List.IsInfix.trans ?_ (slice_within nums left right)
          rw [@slice_append _ nums left mid right (by omega) (by omega)]
          exact List.infix_append_iff.mpr (.inr (.inr ⟨s, s', rfl, here, here'⟩))
        have same : leftBorder + rightBorder = (s ++ s').sum := by rw [List.sum_append, total, total']
        rw [fit.plus part same, same]
      refine ⟨_, ?_, whole⟩
      rw [maxSubsequenceSum, if_neg single, ← middle]
      dsimp only [Option.bind_eq_bind]
      rw [leftHalf, Option.bind_some, rightHalf, Option.bind_some]
      rw [List.sum_nil] at leftScan rightScan
      rw [leftScan, Option.bind_some, rightScan, Option.bind_some, joined, Option.bind_some]
      congr 1
      split <;> split <;> omega

/-! ### Which calls return -/

/-- A call for more than one element from the first one on scans its left border for ever. -/
theorem maxSubsequenceSum_never (more : 0 < right) : maxSubsequenceSum nums turns 0 right = none := by
  cases turns with
  | zero => rfl
  | succ turns =>
    rw [maxSubsequenceSum, if_neg (by omega)]
    dsimp only [Option.bind_eq_bind]
    rw [Option.bind_eq_none_iff]
    intro maxLeft _
    rw [Option.bind_eq_none_iff]
    intro maxRight _
    rw [leftBorderLoop_never, Option.bind_none]

theorem findsBestSum_iff (fit : SumsFit nums) (ordered : left ≤ right) (inside : right < nums.length) :
    FindsBestSum nums left right ↔ left = right ∨ 0 < left := by
  constructor
  · rintro ⟨turns, best, returned, _⟩
    by_contra other
    obtain rfl : left = 0 := by omega
    rw [maxSubsequenceSum_never (by omega)] at returned
    cases returned
  · intro returns
    by_cases single : left = right
    · subst single
      exact ⟨1, maxSubsequenceSum_single inside⟩
    · exact ⟨right - left + 2, maxSubsequenceSum_best fit (by omega) ordered inside (by omega)⟩

/-- For the whole array the call returns exactly where there is one element. -/
theorem maxSumsAgree_iff (nonempty : nums ≠ []) (fit : SumsFit nums) : MaxSumsAgree nums ↔ nums.length = 1 := by
  have positive := List.length_pos_iff.mpr nonempty
  have calls := @findsBestSum_iff nums 0 (nums.length - 1) fit (Nat.zero_le _) (by omega)
  unfold FindsBestSum at calls
  rw [slice_all] at calls
  constructor
  · rintro ⟨turns, best, returned, largest, _⟩
    have single := calls.mp ⟨turns, best, returned, largest⟩
    omega
  · intro single
    obtain ⟨turns, best, returned, largest⟩ := calls.mpr (.inl (by omega))
    obtain ⟨best', computed, largest'⟩ := linearMaxSubSum_best fit
    exact ⟨turns, best, returned, largest, largest.unique largest' ▸ computed⟩

theorem maxSumsAgree_sample : MaxSumsAgree [5] := by
  refine (maxSumsAgree_iff (by decide) fun s part => ?_).mpr rfl
  rcases List.infix_cons_iff.mp part with front | rest
  · rcases List.prefix_cons_iff.mp front with rfl | ⟨t, rfl, rest⟩
    · decide
    · rw [List.prefix_nil.mp rest]
      decide
  · rw [List.infix_nil.mp rest]
    decide

theorem maxSumsAgree_refuted : ¬ MaxSumsAgree [1, 2] := by
  rintro ⟨turns, best, returned, _⟩
  rw [maxSubsequenceSum_never (by decide)] at returned
  cases returned

end LiveStreaming.Study
