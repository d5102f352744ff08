import LiveStreaming.FlvMux.VideoTag
import LiveStreaming.Library.BitString

/-!
# The bit reader

`bs_t` is a pointer into a string of bytes with the number of bits that are left of its byte. `bs_read` puts its result
together from the rest of that byte, whole bytes and the front of the last one.
-/

namespace LiveStreaming.HappyHls
open Library.BitString Library.Masks

/-- The bytes from `p_start` to `p_end`, with `p` counted from the first one. -/
@[ext] structure BsT where
  bytes : List UInt8
  p : Nat
  iLeft : Nat
  positive : 0 < iLeft
  inByte : iLeft ≤ 8

def bsInit (bytes : List UInt8) : BsT := ⟨bytes, 0, 8, by decide, by decide⟩

/-- `s->p++; s->i_left = 8;` -/
def BsT.nextByte (s : BsT) : BsT := ⟨s.bytes, s.p + 1, 8, by decide, by decide⟩

/-- `s->i_left -= i_count;`, with the next byte where none is left. -/
def BsT.skip (s : BsT) (iCount : Nat) : BsT :=
  if left : s.iLeft - iCount = 0 then s.nextByte
  else ⟨s.bytes, s.p, s.iLeft - iCount, by omega, Nat.le_trans (Nat.sub_le _ _) s.inByte⟩

def iMask (count : Nat) : UInt32 :=
  [0x00, 0x01, 0x03, 0x07, 0x0f, 0x1f, 0x3f, 0x7f, 0xff, 0x1ff, 0x3ff, 0x7ff, 0xfff, 0x1fff, 0x3fff, 0x7fff, 0xffff,
    0x1ffff, 0x3ffff, 0x7ffff, 0xfffff, 0x1fffff, 0x3fffff, 0x7fffff, 0xffffff, 0x1ffffff, 0x3ffffff, 0x7ffffff,
    0xfffffff, 0x1fffffff, 0x3fffffff, 0x7fffffff, 0xffffffff].getD count 0

/-- `while( i_count > 0 )`, with the bits of `i_result`. -/
def bsReadLoop (s : BsT) (iCount : Nat) (iResult : UInt32) : UInt32 × BsT :=
  if iCount = 0 then (iResult, s)
  else
    match _ : s.bytes[s.p]? with
    | none => (iResult, s)
    | some byte =>
      if iCount ≤ s.iLeft then
        (iResult ||| ((byte.toUInt32 >>> UInt32.ofNat (s.iLeft - iCount)) &&& iMask iCount), s.skip iCount)
      else
        bsReadLoop s.nextByte (iCount - s.iLeft)
          (iResult ||| ((byte.toUInt32 &&& iMask s.iLeft) <<< UInt32.ofNat (iCount - s.iLeft)))
termination_by s.bytes.length - s.p
decreasing_by
  have inside := (List.getElem?_eq_some_iff.mp ‹s.bytes[s.p]? = some _›).1
  simp only [BsT.nextByte]
  omega

def bsRead (s : BsT) (iCount : Nat) : Int32 × BsT :=
  let (iResult, s) := bsReadLoop s iCount 0
  (iResult.toInt32, s)

def bsRead1 (s : BsT) : UInt32 × BsT :=
  match s.bytes[s.p]? with
  | none => (0, s)
  | some byte => ((byte.toUInt32 >>> UInt32.ofNat (s.iLeft - 1)) &&& 0x01, s.skip 1)

/-- `while( bs_read1( s ) == 0 && s->p < s->p_end && i < 32 )` -/
def bsReadUeLoop (s : BsT) (i : Nat) : Nat × BsT :=
  let (bit, s) := bsRead1 s
  if bit = 0 ∧ s.p < s.bytes.length ∧ i < 32 then bsReadUeLoop s (i + 1) else (i, s)
termination_by 32 - i

/-- `1 << 32` is `1` on the machine. -/
def bsReadUe (s : BsT) : Int32 × BsT :=
  let (i, s) := bsReadUeLoop s 0
  let (value, s) := bsRead s i
  (((1 : UInt32) <<< UInt32.ofNat i).toInt32 - 1 + value, s)

/-! ### Positions -/

/-- The reader at a bit of the string. -/
def BsT.at (bytes : List UInt8) (pos : Nat) : BsT := ⟨bytes, pos / 8, 8 - pos % 8, by omega, by omega⟩

/-- The number of bits before the reader's place. -/
def BsT.pos (s : BsT) : Nat := 8 * s.p + (8 - s.iLeft)

theorem at_pos (s : BsT) : BsT.at s.bytes s.pos = s := by
  have some_ := s.positive
  have few := s.inByte
  apply BsT.ext
  · rfl
  · show (8 * s.p + (8 - s.iLeft)) / 8 = s.p
    omega
  · show 8 - (8 * s.p + (8 - s.iLeft)) % 8 = s.iLeft
    omega

variable {bytes : List UInt8} {pos n : Nat} {byte : UInt8}

theorem bsInit_eq (bytes : List UInt8) : bsInit bytes = BsT.at bytes 0 := rfl

theorem nextByte_at (bytes : List UInt8) (pos : Nat) :
    (BsT.at bytes pos).nextByte = BsT.at bytes (pos + (8 - pos % 8)) := by
  apply BsT.ext
  · rfl
  · show pos / 8 + 1 = (pos + (8 - pos % 8)) / 8
    omega
  · show 8 = 8 - (pos + (8 - pos % 8)) % 8
    omega

theorem skip_at (fits : n ≤ 8 - pos % 8) : (BsT.at bytes pos).skip n = BsT.at bytes (pos + n) := by
  unfold BsT.skip
  by_cases none_ : (BsT.at bytes pos).iLeft - n = 0
  · have end_ : 8 - pos % 8 - n = 0 := none_
    rw [dif_pos none_, nextByte_at, show 8 - pos % 8 = n by omega]
  · have inside : ¬ 8 - pos % 8 - n = 0 := none_
    rw [dif_neg none_]
    apply BsT.ext
    · rfl
    · show pos / 8 = (pos + n) / 8
      omega
    · show 8 - pos % 8 - n = 8 - (pos + n) % 8
      omega

/-! ### Parts of a byte -/

theorem iMask_eq (small : n ≤ 8) : (iMask n).toNat = 2 ^ n - 1 := by
  have all : ∀ n < 9, (iMask n).toNat = 2 ^ n - 1 := by decide
  exact all n (by omega)

/-- The first `n` of the `left` lowest bits. -/
theorem toNat_part {left : Nat} (fits : n ≤ left) (inByte : left ≤ 8) :
    ((byte.toUInt32 >>> UInt32.ofNat (left - n)) &&& iMask n).toNat = ofBits ((bits left byte.toNat).take n) := by
  have cut : bits left byte.toNat = bits n (byte.toNat / 2 ^ (left - n)) ++ bits (left - n) byte.toNat := by
    rw [← bits_add, Nat.add_sub_cancel' fits]
  have shift : (UInt32.ofNat (left - n)).toNat % 32 = left - n := by
    rw [UInt32.toNat_ofNat']
    omega
  rw [UInt32.toNat_and, iMask_eq (by omega), UInt32.toNat_shiftRight, shift, UInt8.toNat_toUInt32,
    Nat.and_two_pow_sub_one_eq_mod, Nat.shiftRight_eq_div_pow, cut, List.take_left' (length_bits _ _), ofBits_bits]

/-- All of the `left` lowest bits, moved up. -/
theorem toNat_rest {left up : Nat} (inByte : left ≤ 8) (small : left + up ≤ 32) (some_ : 0 < left) :
    ((byte.toUInt32 &&& iMask left) <<< UInt32.ofNat up).toNat = ofBits (bits left byte.toNat) * 2 ^ up := by
  have shift : (UInt32.ofNat up).toNat % 32 = up := by
    rw [UInt32.toNat_ofNat']
    omega
  have below : byte.toNat % 2 ^ left * 2 ^ up < 2 ^ 32 := by
    calc byte.toNat % 2 ^ left * 2 ^ up
      _ < 2 ^ left * 2 ^ up := Nat.mul_lt_mul_of_pos_right (Nat.mod_lt _ (Nat.two_pow_pos _)) (Nat.two_pow_pos _)
      _ = 2 ^ (left + up) := (Nat.pow_add _ _ _).symm
      _ ≤ 2 ^ 32 := Nat.pow_le_pow_right (by decide) small
  rw [UInt32.toNat_shiftLeft, shift, UInt32.toNat_and, iMask_eq inByte, UInt8.toNat_toUInt32,
    Nat.and_two_pow_sub_one_eq_mod, Nat.shiftLeft_eq, Nat.mod_eq_of_lt below, ofBits_bits]

/-- A result with what is left of the byte below it. -/
theorem toNat_or_rest {left up above : Nat} {iResult : UInt32} (high : iResult.toNat = above * 2 ^ (left + up))
    (inByte : left ≤ 8) (small : left + up ≤ 32) (some_ : 0 < left) :
    (iResult ||| ((byte.toUInt32 &&& iMask left) <<< UInt32.ofNat up)).toNat =
      (above * 2 ^ left + ofBits (bits left byte.toNat)) * 2 ^ up := by
  have below := ofBits_lt (bits left byte.toNat)
  rw [length_bits] at below
  have fits : ofBits (bits left byte.toNat) * 2 ^ up < 2 ^ (left + up) := by
    rw [Nat.pow_add]
    exact Nat.mul_lt_mul_of_pos_right below (Nat.two_pow_pos up)
  rw [UInt32.toNat_or, toNat_rest inByte small some_, high, or_below above fits, Nat.pow_add]
  ring

/-! ### Reads -/

theorem bsReadLoop_end (ended : bytes[pos / 8]? = none) (iResult : UInt32) :
    bsReadLoop (BsT.at bytes pos) n iResult = (iResult, BsT.at bytes pos) := by
  have there : (BsT.at bytes pos).bytes[(BsT.at bytes pos).p]? = none := ended
  rw [bsReadLoop]
  split
  · rfl
  · split
    · rfl
    · next found =>
      rw [there] at found
      cases found

theorem bsReadLoop_turn (found : bytes[pos / 8]? = some byte) (some_ : 0 < n) (iResult : UInt32) :
    bsReadLoop (BsT.at bytes pos) n iResult =
      if n ≤ 8 - pos % 8 then
        (iResult ||| ((byte.toUInt32 >>> UInt32.ofNat (8 - pos % 8 - n)) &&& iMask n), BsT.at bytes (pos + n))
      else bsReadLoop (BsT.at bytes (pos + (8 - pos % 8))) (n - (8 - pos % 8))
        (iResult ||| ((byte.toUInt32 &&& iMask (8 - pos % 8)) <<< UInt32.ofNat (n - (8 - pos % 8)))) := by
  have there : (BsT.at bytes pos).bytes[(BsT.at bytes pos).p]? = some byte := found
  have left : (BsT.at bytes pos).iLeft = 8 - pos % 8 := rfl
  rw [bsReadLoop, if_neg (by omega)]
  split
  · next ended =>
    rw [there] at ended
    cases ended
  · next found =>
    obtain rfl := Option.some.inj (there.symm.trans found)
    rw [left, nextByte_at]
    by_cases fits : n ≤ 8 - pos % 8
    · rw [if_pos fits, if_pos fits, skip_at fits]
    · rw [if_neg fits, if_neg fits]

/-- By induction on the bits that are asked for: `iResult` has those before them, in their places. Bits that are missing
are zeros. -/
theorem bsReadLoop_spec {above : Nat} {iResult : UInt32} (high : iResult.toNat = above * 2 ^ n)
    (small : (above + 1) * 2 ^ n ≤ 2 ^ 32) (inside : pos ≤ 8 * bytes.length) :
    ∃ result, bsReadLoop (BsT.at bytes pos) n iResult = (result, BsT.at bytes (min (pos + n) (8 * bytes.length))) ∧
      result.toNat = iResult.toNat + ofBits (front n ((bitsOf bytes).drop pos)) := by
  induction n using Nat.strong_induction_on generalizing pos above iResult with
  | h n ih =>
    rcases Nat.eq_zero_or_pos n with rfl | some_
    · refine ⟨iResult, ?_, rfl⟩
      rw [bsReadLoop, if_pos rfl, Nat.add_zero, Nat.min_eq_left inside]
    · have narrow : n ≤ 32 := by
        refine (Nat.pow_le_pow_iff_right Nat.one_lt_two).mp (Nat.le_trans ?_ small)
        exact Nat.le_mul_of_pos_left _ (Nat.succ_pos above)
      cases found : bytes[pos / 8]? with
      | none =>
        have last : pos = 8 * bytes.length := by
          have past := List.getElem?_eq_none_iff.mp found
          omega
        have empty : (bitsOf bytes).drop pos = [] := drop_bitsOf_end (by omega)
        refine ⟨iResult, ?_, by rw [empty, ofBits_front_nil, Nat.add_zero]⟩
        rw [bsReadLoop_end found, show min (pos + n) (8 * bytes.length) = pos by omega]
      | some byte =>
        have there := (List.getElem?_eq_some_iff.mp found).1
        rw [bsReadLoop_turn found some_, drop_bitsOf found]
        by_cases fits : n ≤ 8 - pos % 8
        · have below : ofBits ((bits (8 - pos % 8) byte.toNat).take n) < 2 ^ n := by
            have length := ofBits_lt ((bits (8 - pos % 8) byte.toNat).take n)
            rwa [List.length_take, length_bits, Nat.min_eq_left fits] at length
          rw [if_pos fits, front_append_left (by rw [length_bits]; exact fits)]
          refine ⟨_, by rw [show min (pos + n) (8 * bytes.length) = pos + n by omega], ?_⟩
          rw [UInt32.toNat_or, toNat_part fits (by omega), high, or_below above below]
        · obtain ⟨left, rest⟩ : ∃ left, left = 8 - pos % 8 := ⟨_, rfl⟩
          obtain ⟨more, rfl⟩ : ∃ more, n = left + more := ⟨n - left, by omega⟩
          rw [if_neg fits, ← rest, Nat.add_sub_cancel_left]
          have next := @toNat_or_rest byte left more above iResult high (by omega) narrow (by omega)
          have below := ofBits_lt (bits left byte.toNat)
          rw [length_bits] at below
          have room : (above * 2 ^ left + ofBits (bits left byte.toNat) + 1) * 2 ^ more ≤ 2 ^ 32 := by
            calc (above * 2 ^ left + ofBits (bits left byte.toNat) + 1) * 2 ^ more
              _ ≤ (above + 1) * 2 ^ left * 2 ^ more := by
                refine Nat.mul_le_mul_right _ ?_
                rw [Nat.add_mul, Nat.one_mul]
                omega
              _ = (above + 1) * 2 ^ (left + more) := by rw [Nat.mul_assoc, ← Nat.pow_add]
              _ ≤ 2 ^ 32 := small
          obtain ⟨result, run, value⟩ := @ih more (by omega) (pos + left) _ _ next room (by omega)
          refine ⟨result, ?_, ?_⟩
          · rw [run, Nat.add_assoc]
          · have whole := front_append (bits left byte.toNat) ((bitsOf bytes).drop (pos + left)) more
            rw [length_bits] at whole
            rw [value, next, whole, ofBits_append, length_front, high, Nat.pow_add]
            ring

/-! ### The list of bits -/

/-- The reader of a string of bytes has `rest` before it. -/
def StandsBefore (bytes : List UInt8) (s : BsT) (rest : List Bool) : Prop :=
  ∃ pos ≤ 8 * bytes.length, s = BsT.at bytes pos ∧ rest = (bitsOf bytes).drop pos

variable {s : BsT} {rest : List Bool}

theorem stands_at (inside : pos ≤ 8 * bytes.length) : StandsBefore bytes (BsT.at bytes pos) ((bitsOf bytes).drop pos) :=
  ⟨pos, inside, rfl, rfl⟩

theorem stands_min (pos : Nat) :
    StandsBefore bytes (BsT.at bytes (min pos (8 * bytes.length))) ((bitsOf bytes).drop pos) := by
  refine ⟨_, Nat.min_le_right _ _, rfl, ?_⟩
  rcases Nat.le_total pos (8 * bytes.length) with inside | outside
  · rw [Nat.min_eq_left inside]
  · rw [Nat.min_eq_right outside, drop_bitsOf_end outside, drop_bitsOf_end (Nat.le_refl _)]

/-- What is before the reader says where it is. -/
theorem StandsBefore.eq_at (stands : StandsBefore bytes s rest) :
    s = BsT.at bytes (8 * bytes.length - rest.length) := by
  obtain ⟨pos, inside, rfl, rfl⟩ := stands
  rw [List.length_drop, length_bitsOf, Nat.sub_sub_self inside]

theorem ofNat_shift (n : Nat) (b : Bool) :
    (UInt32.ofNat n <<< 1 ||| if b then 1 else 0) = UInt32.ofNat (n * 2 ^ [b].length + ofBits [b]) := by
  apply UInt32.toNat_inj.mp
  have bit : (if b then (1 : UInt32) else 0).toNat = ofBits [b] := by
    cases b <;> rfl
  have small : ofBits [b] < 2 ^ 1 := ofBits_lt [b]
  have shift : (UInt32.ofNat n <<< 1).toNat = n % 2 ^ 31 * 2 ^ 1 := by
    rw [UInt32.toNat_shiftLeft, UInt32.toNat_ofNat', Nat.shiftLeft_eq]
    show n % 2 ^ 32 * 2 ^ 1 % 2 ^ 32 = n % 2 ^ 31 * 2 ^ 1
    omega
  rw [UInt32.toNat_or, bit, shift, or_below _ small, UInt32.toNat_ofNat', List.length_singleton]
  omega

theorem listRead_eq (n : Nat) (rest : List Bool) :
    FlvMux.bsRead n rest = (UInt32.ofNat (ofBits (front n rest)), rest.drop n) := by
  refine Prod.ext ?_ rfl
  induction n with
  | zero => rfl
  | succ n ih =>
    have step : (FlvMux.bsRead (n + 1) rest).1 =
        (FlvMux.bsRead n rest).1 <<< 1 ||| (if rest.getD n false then 1 else 0) := by
      rw [FlvMux.bsRead, List.range_succ, List.foldl_append]
      rfl
    have last : front (n + 1) rest = front n rest ++ [rest.getD n false] := by
      rw [front, List.range_succ, List.map_append]
      rfl
    rw [step, ih, last, ofBits_append]
    exact ofNat_shift _ _

theorem bsRead_stands (narrow : n ≤ 32) (stands : StandsBefore bytes s rest) :
    ∃ s', bsRead s n = ((FlvMux.bsRead n rest).1.toInt32, s') ∧ StandsBefore bytes s' (FlvMux.bsRead n rest).2 := by
  obtain ⟨pos, inside, rfl, rfl⟩ := stands
  have small : (0 + 1) * 2 ^ n ≤ 2 ^ 32 := by
    rw [Nat.zero_add, Nat.one_mul]
    exact Nat.pow_le_pow_right (by decide) narrow
  have high : (0 : UInt32).toNat = 0 * 2 ^ n := (Nat.zero_mul _).symm
  obtain ⟨result, run, value⟩ := bsReadLoop_spec high small inside
  have same : result = (FlvMux.bsRead n ((bitsOf bytes).drop pos)).1 := by
    apply UInt32.toNat_inj.mp
    have below := ofBits_lt (front n ((bitsOf bytes).drop pos))
    rw [length_front] at below
    rw [value, listRead_eq, UInt32.toNat_ofNat', Nat.mod_eq_of_lt (by omega)]
    exact Nat.zero_add _
  refine ⟨_, by rw [bsRead, run, same], ?_⟩
  rw [listRead_eq, List.drop_drop]
  exact stands_min _

theorem bsRead1_stands (stands : StandsBefore bytes s rest) :
    ∃ s', bsRead1 s = (if rest.getD 0 false then 1 else 0, s') ∧ StandsBefore bytes s' rest.tail := by
  obtain ⟨pos, inside, rfl, rfl⟩ := stands
  have tail : ((bitsOf bytes).drop pos).tail = (bitsOf bytes).drop (pos + 1) := List.tail_drop
  rw [tail]
  cases found : bytes[pos / 8]? with
  | none =>
    have there : (BsT.at bytes pos).bytes[(BsT.at bytes pos).p]? = none := found
    have past := List.getElem?_eq_none_iff.mp found
    have empty : (bitsOf bytes).drop pos = [] := drop_bitsOf_end (by omega)
    refine ⟨BsT.at bytes pos, by rw [bsRead1, there, empty]; rfl, pos, inside, rfl, ?_⟩
    rw [empty, drop_bitsOf_end (by omega)]
  | some byte =>
    have there : (BsT.at bytes pos).bytes[(BsT.at bytes pos).p]? = some byte := found
    have within := (List.getElem?_eq_some_iff.mp found).1
    refine ⟨BsT.at bytes (pos + 1), ?_, stands_at (by omega)⟩
    rw [bsRead1, there]
    show (_, (BsT.at bytes pos).skip 1) = _
    rw [skip_at (by omega)]
    refine Prod.ext ?_ rfl
    apply UInt32.toNat_inj.mp
    refine (@toNat_part 1 byte (8 - pos % 8) (by omega) (by omega)).trans ?_
    rw [drop_bitsOf found, show 8 - pos % 8 = 7 - pos % 8 + 1 by omega, bits_succ]
    obtain ⟨bit, same⟩ : ∃ bit, bit = byte.toNat.testBit (7 - pos % 8) := ⟨_, rfl⟩
    rw [← same]
    show ofBits [bit] = (if bit then (1 : UInt32) else 0).toNat
    cases bit <;> rfl

theorem StandsBefore.p_lt (stands : StandsBefore bytes s rest) : s.p < s.bytes.length ↔ rest ≠ [] := by
  obtain ⟨pos, inside, rfl, rfl⟩ := stands
  have length : ((bitsOf bytes).drop pos).length = 8 * bytes.length - pos := by
    rw [List.length_drop, length_bitsOf]
  rw [← List.length_pos_iff, length]
  show pos / 8 < bytes.length ↔ _
  omega

/-- By induction on the bits before the reader. -/
theorem bsReadUeLoop_stands {i : Nat} (few : i ≤ 32) (stands : StandsBefore bytes s rest) :
    ∃ s', bsReadUeLoop s i = ((FlvMux.countZeros rest i).1, s') ∧ StandsBefore bytes s' (FlvMux.countZeros rest i).2 ∧
      (FlvMux.countZeros rest i).1 ≤ 32 := by
  induction rest generalizing s i with
  | nil =>
    obtain ⟨s', read, stands'⟩ := bsRead1_stands stands
    refine ⟨s', ?_, stands', few⟩
    rw [bsReadUeLoop, read]
    exact if_neg fun more => stands'.p_lt.mp more.2.1 rfl
  | cons bit rest ih =>
    obtain ⟨s', read, stands'⟩ := bsRead1_stands stands
    cases bit with
    | true =>
      refine ⟨s', ?_, stands', few⟩
      rw [bsReadUeLoop, read]
      exact if_neg fun more => absurd more.1 (show ¬ (1 : UInt32) = 0 by decide)
    | false =>
      by_cases more : rest ≠ [] ∧ i < 32
      · have next : FlvMux.countZeros (false :: rest) i = FlvMux.countZeros rest (i + 1) := if_pos more
        obtain ⟨s'', run, stands'', few'⟩ := ih more.2 stands'
        refine ⟨s'', ?_, by rw [next]; exact stands'', by rw [next]; exact few'⟩
        rw [bsReadUeLoop, read, next]
        exact (if_pos ⟨rfl, stands'.p_lt.mpr more.1, more.2⟩).trans run
      · have last : FlvMux.countZeros (false :: rest) i = (i, rest) := if_neg more
        refine ⟨s', ?_, by rw [last]; exact stands', by rw [last]; exact few⟩
        rw [bsReadUeLoop, read, last]
        exact if_neg fun again => more ⟨stands'.p_lt.mp again.2.1, again.2.2⟩

theorem bsReadUe_stands (stands : StandsBefore bytes s rest) :
    ∃ s', bsReadUe s = ((FlvMux.bsReadUe rest).1.toInt32, s') ∧ StandsBefore bytes s' (FlvMux.bsReadUe rest).2 := by
  obtain ⟨s', zeros, stands', few⟩ := bsReadUeLoop_stands (Nat.zero_le 32) stands
  obtain ⟨s'', read, stands''⟩ := bsRead_stands few stands'
  refine ⟨s'', ?_, stands''⟩
  rw [bsReadUe, zeros]
  show (_ - 1 + (bsRead s' (FlvMux.countZeros rest 0).1).1, (bsRead s' (FlvMux.countZeros rest 0).1).2) = _
  rw [read]
  refine Prod.ext ?_ rfl
  rw [FlvMux.bsReadUe, UInt32.toInt32_add, UInt32.toInt32_sub]
  rfl

/-- The type of a slice, as it is found from the list of its bits. -/
theorem sliceType_eq (n : FlvMux.Nalu) :
    (bsReadUe (bsReadUe (bsInit ((n.buf.take n.len).drop 1))).2).1 = n.sliceType.toInt32 := by
  obtain ⟨s', first, stands⟩ := bsReadUe_stands (stands_at (Nat.zero_le (8 * ((n.buf.take n.len).drop 1).length)))
  obtain ⟨s'', second, _⟩ := bsReadUe_stands stands
  rw [bsInit_eq, first]
  show (bsReadUe s').1 = _
  rw [second]
  rfl

/-! ### Codes -/

theorem countZeros_replicate (k : Nat) (tail : List Bool) {i : Nat} (few : i + k ≤ 32) :
    FlvMux.countZeros (List.replicate k false ++ true :: tail) i = (i + k, tail) := by
  induction k generalizing i with
  | zero => rfl
  | succ k ih =>
    have more : List.replicate k false ++ true :: tail ≠ [] ∧ i < 32 := ⟨by simp, by omega⟩
    rw [List.replicate_succ, List.cons_append]
    refine (if_pos more).trans ?_
    rw [ih (by omega), Nat.add_assoc, Nat.add_comm 1 k]

theorem log_lt {value : Nat} (small : value < 2 ^ 31 - 1) : Nat.log 2 (value + 1) < 31 :=
  Nat.log_lt_of_lt_pow (Nat.succ_ne_zero value) (by omega)

theorem listReadUe_expGolomb {value : Nat} (small : value < 2 ^ 31 - 1) (tail : List Bool) :
    FlvMux.bsReadUe (expGolomb value ++ tail) = (UInt32.ofNat value, tail) := by
  have few := log_lt small
  have behind := ofBits_behind value
  have zeros : FlvMux.countZeros (expGolomb value ++ tail) 0 =
      (Nat.log 2 (value + 1), bits (Nat.log 2 (value + 1)) (value + 1) ++ tail) := by
    rw [expGolomb_eq, List.append_assoc, List.cons_append, countZeros_replicate _ _ (by omega), Nat.zero_add]
  have read : FlvMux.bsRead (Nat.log 2 (value + 1)) (bits (Nat.log 2 (value + 1)) (value + 1) ++ tail) =
      (UInt32.ofNat (ofBits (bits (Nat.log 2 (value + 1)) (value + 1))), tail) := by
    rw [listRead_eq, front_append_left (Nat.le_of_eq (length_bits _ _).symm), List.drop_left' (length_bits _ _),
      List.take_of_length_le (Nat.le_of_eq (length_bits _ _))]
  rw [FlvMux.bsReadUe, zeros]
  show (_ - 1 + (FlvMux.bsRead _ _).1, (FlvMux.bsRead _ _).2) = _
  rw [read]
  refine Prod.ext ?_ rfl
  have power : (1 : UInt32) <<< UInt32.ofNat (Nat.log 2 (value + 1)) =
      UInt32.ofNat (2 ^ Nat.log 2 (value + 1) - 1) + 1 := by
    have small : 2 ^ Nat.log 2 (value + 1) < 2 ^ 32 := Nat.pow_lt_pow_right (by decide) (by omega)
    have some_ : 0 < 2 ^ Nat.log 2 (value + 1) := Nat.two_pow_pos _
    have shift : (UInt32.ofNat (Nat.log 2 (value + 1))).toNat % 32 = Nat.log 2 (value + 1) := by
      rw [UInt32.toNat_ofNat']
      omega
    apply UInt32.toNat_inj.mp
    rw [UInt32.toNat_shiftLeft, shift, UInt32.toNat_one, Nat.one_shiftLeft, UInt32.toNat_add, UInt32.toNat_ofNat',
      UInt32.toNat_one]
    omega
  show (1 : UInt32) <<< UInt32.ofNat (Nat.log 2 (value + 1)) - 1 + _ = _
  rw [power, UInt32.add_sub_cancel, ← UInt32.ofNat_add, behind]

theorem bsRead_at (narrow : n ≤ 32) (inside : pos + n ≤ 8 * bytes.length) :
    ∃ result, bsRead (BsT.at bytes pos) n = (result, BsT.at bytes (pos + n)) ∧
      result.toUInt32.toNat = ofBits (((bitsOf bytes).drop pos).take n) := by
  obtain ⟨s', read, stands⟩ := bsRead_stands narrow (stands_at (show pos ≤ 8 * bytes.length by omega))
  rw [listRead_eq] at read stands
  have below := ofBits_lt (front n ((bitsOf bytes).drop pos))
  have whole : front n ((bitsOf bytes).drop pos) = ((bitsOf bytes).drop pos).take n :=
    front_eq_take (by rw [List.length_drop, length_bitsOf]; omega)
  rw [length_front] at below
  refine ⟨(UInt32.ofNat (ofBits (front n ((bitsOf bytes).drop pos)))).toInt32, ?_, ?_⟩
  · rw [read, stands.eq_at, List.length_drop, List.length_drop, length_bitsOf,
      show 8 * bytes.length - (8 * bytes.length - pos - n) = pos + n by omega]
  · rw [UInt32.toUInt32_toInt32, UInt32.toNat_ofNat', whole]
    rw [whole] at below
    exact Nat.mod_eq_of_lt (Nat.lt_of_lt_of_le below (Nat.pow_le_pow_right (by decide) narrow))

theorem bsReadUe_at {value : Nat} (small : value < 2 ^ 31 - 1) (code : expGolomb value <+: (bitsOf bytes).drop pos) :
    ∃ result, bsReadUe (BsT.at bytes pos) = (result, BsT.at bytes (pos + (expGolomb value).length)) ∧
      result.toInt = value := by
  obtain ⟨tail, whole⟩ := code
  have length := congrArg List.length whole
  have some_ := length_expGolomb value
  rw [List.length_append, List.length_drop, length_bitsOf] at length
  obtain ⟨s', read, stands⟩ := bsReadUe_stands (stands_at (show pos ≤ 8 * bytes.length by omega))
  rw [← whole, listReadUe_expGolomb small] at read stands
  refine ⟨(UInt32.ofNat value).toInt32, ?_, ?_⟩
  · rw [read, stands.eq_at,
      show 8 * bytes.length - tail.length = pos + (expGolomb value).length by omega]
  · rw [UInt32.toInt32_ofNat']
    exact Int32.toInt_ofNat_of_lt (by omega)

/-- From any place, a reader reads the bits before it, and a code as its number. -/
theorem bsReads (s : BsT) :
    (∀ n ≤ 32, s.pos + n ≤ 8 * s.bytes.length →
      ∃ result, bsRead s n = (result, BsT.at s.bytes (s.pos + n)) ∧
        result.toUInt32.toNat = ofBits (((bitsOf s.bytes).drop s.pos).take n)) ∧
    ∀ value < 2 ^ 31 - 1, expGolomb value <+: (bitsOf s.bytes).drop s.pos →
      ∃ result, bsReadUe s = (result, BsT.at s.bytes (s.pos + (expGolomb value).length)) ∧ result.toInt = value := by
  constructor
  · intro n narrow inside
    have read := bsRead_at narrow inside
    rwa [at_pos] at read
  · intro value small code
    have read := bsReadUe_at small code
    rwa [at_pos] at read

end LiveStreaming.HappyHls
