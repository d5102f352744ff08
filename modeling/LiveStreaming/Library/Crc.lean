/-!
# Cyclic redundancy checks

A register of any width takes the message bit by bit, the first bit at its top. Feeding is linear
in the register and the message together (`feed_xor`), and a register that is fed its own top bits
only moves up (`feed_topBits`). A table of `n` bits at a time (`feed_table`) and the remainder zero
of a message with its own check (`crc_self`) follow from these two.
-/

namespace LiveStreaming.Library.Crc

variable {w : Nat} (poly : BitVec w)

/-- One bit of the message: the register moves up, and the polynomial is added where a one leaves. -/
def step (r : BitVec w) (bit : Bool) : BitVec w :=
  if r.msb ^^ bit then (r <<< 1) ^^^ poly else r <<< 1

def feed (r : BitVec w) (bits : List Bool) : BitVec w :=
  bits.foldl (step poly) r

/-- The `n` highest bits of a word, the highest first. -/
def topBits (r : BitVec w) (n : Nat) : List Bool :=
  (List.range n).map r.getMsbD

def byteBits (byte : UInt8) : List Bool :=
  topBits byte.toBitVec 8

def zeros (n : Nat) : List Bool :=
  List.replicate n false

@[simp] theorem length_topBits (r : BitVec w) (n : Nat) : (topBits r n).length = n := by
  rw [topBits, List.length_map, List.length_range]

theorem topBits_succ (r : BitVec w) (n : Nat) : topBits r (n + 1) = topBits r n ++ [r.getMsbD n] := by
  rw [topBits, List.range_succ, List.map_append]
  rfl

theorem feed_append (r : BitVec w) (s t : List Bool) : feed poly r (s ++ t) = feed poly (feed poly r s) t :=
  List.foldl_append

theorem step_msb (r : BitVec w) : step poly r r.msb = r <<< 1 := by
  rw [step, Bool.xor_self]
  exact if_neg Bool.false_ne_true

theorem step_xor (a b : BitVec w) (s t : Bool) :
    step poly (a ^^^ b) (s ^^ t) = step poly a s ^^^ step poly b t := by
  have bit : ((a ^^^ b).msb ^^ (s ^^ t)) = ((a.msb ^^ s) ^^ (b.msb ^^ t)) := by
    rw [BitVec.msb_xor]
    cases a.msb <;> cases b.msb <;> cases s <;> cases t <;> rfl
  rw [step, step, step, bit, BitVec.shiftLeft_xor_distrib]
  cases a.msb ^^ s <;> cases b.msb ^^ t
  · rfl
  · exact BitVec.xor_assoc _ _ _
  · change _ = _ ^^^ poly ^^^ b <<< 1
    rw [BitVec.xor_assoc _ poly, BitVec.xor_comm poly, ← BitVec.xor_assoc]
    rfl
  · change _ = _ ^^^ poly ^^^ (b <<< 1 ^^^ poly)
    rw [BitVec.xor_assoc _ poly, BitVec.xor_comm poly, BitVec.xor_assoc _ poly, BitVec.xor_self,
      BitVec.xor_zero]
    rfl

theorem feed_xor (a b : BitVec w) {s t : List Bool} (same : s.length = t.length) :
    feed poly (a ^^^ b) (List.zipWith (· ^^ ·) s t) = feed poly a s ^^^ feed poly b t := by
  induction s generalizing a b t with
  | nil =>
    rw [List.length_nil, eq_comm, List.length_eq_zero_iff] at same
    rw [same]
    rfl
  | cons bit s ih =>
    cases t with
    | nil => exact absurd same (Nat.succ_ne_zero _)
    | cons bit' t =>
      have rest := ih (step poly a bit) (step poly b bit') (Nat.succ.inj same)
      rw [← step_xor] at rest
      exact rest

theorem zipWith_zeros (s : List Bool) : List.zipWith (· ^^ ·) (zeros s.length) s = s := by
  induction s with
  | nil => rfl
  | cons bit s ih =>
    rw [List.length_cons, zeros, List.replicate_succ, List.zipWith_cons_cons, Bool.false_xor]
    exact congrArg _ ih

/-- A register that is fed its own top bits never takes the polynomial. -/
theorem feed_topBits (r : BitVec w) (n : Nat) : feed poly r (topBits r n) = r <<< n := by
  induction n with
  | zero => rw [BitVec.shiftLeft_zero]; rfl
  | succ n ih =>
    have top : r.getMsbD n = (r <<< n).msb := by
      rw [BitVec.msb, BitVec.getMsbD_shiftLeft, Nat.zero_add]
    rw [topBits_succ, feed_append, ih, top]
    exact (step_msb poly _).trans (BitVec.shiftLeft_add r n 1).symm

/-- The word of the table for what is at the top of the register. -/
def entry (n : Nat) (index : BitVec w) : BitVec w :=
  feed poly (index <<< (w - n)) (zeros n)

theorem topBits_index {n : Nat} (fits : n ≤ w) (r : BitVec w) (v : BitVec n) :
    topBits (r ^^^ (r >>> (w - n) ^^^ v.setWidth w) <<< (w - n)) n = topBits v n := by
  refine List.map_congr_left fun i inside => ?_
  rw [List.mem_range] at inside
  have back : i + (w - n) + n - w = i := by omega
  have top : (r >>> (w - n)).getMsbD (i + (w - n)) = r.getMsbD i := by
    rw [BitVec.getMsbD_ushiftRight, Nat.add_sub_cancel, decide_eq_true (show i + (w - n) < w by omega),
      decide_eq_false (show ¬ i + (w - n) < w - n by omega)]
    rfl
  have message : (v.setWidth w).getMsbD (i + (w - n)) = v.getMsbD i := by
    rw [BitVec.getMsbD_setWidth, back, decide_eq_true (Nat.le_add_left _ _), Bool.true_and]
  rw [BitVec.getMsbD_xor, BitVec.getMsbD_shiftLeft, BitVec.getMsbD_xor, top, message, ← Bool.xor_assoc,
    Bool.xor_self, Bool.false_xor]

/-- `n` bits at once: what leaves the register and the message choose a word of the table. -/
theorem feed_table {n : Nat} (fits : n ≤ w) (r : BitVec w) (v : BitVec n) :
    feed poly r (topBits v n) = (r <<< n) ^^^ entry poly n (r >>> (w - n) ^^^ v.setWidth w) := by
  have message := topBits_index fits r v
  generalize r >>> (w - n) ^^^ v.setWidth w = index at message ⊢
  have gone : index <<< (w - n) <<< n = 0#w := by
    rw [← BitVec.shiftLeft_add, Nat.sub_add_cancel fits]
    exact BitVec.shiftLeft_eq_zero (Nat.le_refl w)
  have rest := feed_topBits poly (r ^^^ index <<< (w - n)) n
  rw [message, BitVec.shiftLeft_xor_distrib, gone, BitVec.xor_zero] at rest
  have same : (zeros n).length = (topBits v n).length := by
    rw [zeros, List.length_replicate, length_topBits]
  have parts := feed_xor poly (index <<< (w - n)) (r ^^^ index <<< (w - n)) same
  have whole := zipWith_zeros (topBits v n)
  rw [length_topBits] at whole
  rw [whole, rest, BitVec.xor_comm r, ← BitVec.xor_assoc, BitVec.xor_self, BitVec.zero_xor] at parts
  rw [parts, BitVec.xor_comm]
  rfl

/-- The check of a string of bytes, the highest bit of each first. -/
def crc (start : BitVec w) (data : List UInt8) : BitVec w :=
  feed poly start (data.flatMap byteBits)

theorem crc_cons (start : BitVec w) (byte : UInt8) (data : List UInt8) :
    crc poly start (byte :: data) = crc poly (feed poly start (byteBits byte)) data := by
  rw [crc, List.flatMap_cons, feed_append]
  rfl

/-- A string that is followed by its own check has the check zero. -/
theorem crc_self {start : BitVec w} {data own : List UInt8}
    (same : own.flatMap byteBits = topBits (crc poly start data) w) : crc poly start (data ++ own) = 0#w := by
  rw [crc, List.flatMap_append, feed_append, same]
  exact (feed_topBits poly _ w).trans (BitVec.shiftLeft_eq_zero (Nat.le_refl w))

end LiveStreaming.Library.Crc
