import Mathlib.Algebra.Ring.Nat
import Mathlib.Data.List.Basic
import Mathlib.Data.Nat.Log
import Mathlib.Tactic.Ring

/-!
# Bits of machine words and bit strings

A mask of eight ones keeps one byte of a word, and words that have no bit in common are added by `|||`.
A bit string is a number in binary, the highest bit first, or the bits of a string of bytes; Exp-Golomb codes are bit
strings.
-/

namespace LiveStreaming.Library.Masks

theorem and_byte (mask n k : Nat) (byte : mask = 2 ^ k * 255) : n &&& mask = n / 2 ^ k % 256 * 2 ^ k := by
  apply Nat.eq_of_testBit_eq
  intro i
  rw [byte, Nat.mul_comm (_ % 256), Nat.testBit_and, Nat.testBit_two_pow_mul, Nat.testBit_two_pow_mul,
    show 255 = 2 ^ 8 - 1 by rfl, show 256 = 2 ^ 8 by rfl, Nat.testBit_two_pow_sub_one, Nat.testBit_mod_two_pow,
    Nat.testBit_div_two_pow]
  by_cases above : k ≤ i
  · simp [above, Bool.and_comm]
  · simp [above]

/-- What lies below a multiple of a power of two is added to it. -/
theorem or_below {b k : Nat} (a : Nat) (small : b < 2 ^ k) : a * 2 ^ k ||| b = a * 2 ^ k + b := by
  rw [Nat.mul_comm, ← Nat.two_pow_add_eq_or_of_lt small]

theorem below_or {b k : Nat} (a : Nat) (small : b < 2 ^ k) : b ||| a * 2 ^ k = a * 2 ^ k + b := by
  rw [Nat.or_comm, or_below a small]

/-- Four bytes as one number, the highest one first. -/
theorem toNat_fourBytes (b₀ b₁ b₂ b₃ : UInt8) :
    (b₀.toUInt32 <<< 24 ||| b₁.toUInt32 <<< 16 ||| b₂.toUInt32 <<< 8 ||| b₃.toUInt32).toNat =
      b₀.toNat * 2 ^ 24 + b₁.toNat * 2 ^ 16 + b₂.toNat * 2 ^ 8 + b₃.toNat := by
  have byte0 := b₀.toNat_lt
  have byte1 := b₁.toNat_lt
  have byte2 := b₂.toNat_lt
  have byte3 := b₃.toNat_lt
  have high0 : (b₀.toUInt32 <<< 24).toNat = b₀.toNat * 2 ^ 24 := by
    rw [UInt32.toNat_shiftLeft, UInt8.toNat_toUInt32, Nat.shiftLeft_eq]
    exact Nat.mod_eq_of_lt (by simp; omega)
  have high1 : (b₁.toUInt32 <<< 16).toNat = b₁.toNat * 2 ^ 16 := by
    rw [UInt32.toNat_shiftLeft, UInt8.toNat_toUInt32, Nat.shiftLeft_eq]
    exact Nat.mod_eq_of_lt (by simp; omega)
  have high2 : (b₂.toUInt32 <<< 8).toNat = b₂.toNat * 2 ^ 8 := by
    rw [UInt32.toNat_shiftLeft, UInt8.toNat_toUInt32, Nat.shiftLeft_eq]
    exact Nat.mod_eq_of_lt (by simp; omega)
  rw [UInt32.toNat_or, UInt32.toNat_or, UInt32.toNat_or, high0, high1, high2, UInt8.toNat_toUInt32,
    Nat.or_assoc, Nat.or_assoc, or_below b₂.toNat byte3, or_below b₁.toNat (by omega), or_below b₀.toNat (by omega)]
  omega

end LiveStreaming.Library.Masks

namespace LiveStreaming.Library.BitString

/-- The lowest `width` bits of a number. -/
def bits (width n : Nat) : List Bool := (List.range width).map fun i => n.testBit (width - 1 - i)

def ofBits (s : List Bool) : Nat := s.foldl (fun n b => 2 * n + b.toNat) 0

def bitsOf (bytes : List UInt8) : List Bool := bytes.flatMap fun b => bits 8 b.toNat

/-- The number plus one in binary, with as many zeros in front as there are bits behind the first one. -/
def expGolomb (n : Nat) : List Bool :=
  List.replicate (Nat.log 2 (n + 1)) false ++ bits (Nat.log 2 (n + 1) + 1) (n + 1)

/-- The next `n` bits, with zeros for those that are missing. -/
def front (n : Nat) (s : List Bool) : List Bool := (List.range n).map fun i => s.getD i false

variable {s t : List Bool} {bytes : List UInt8} {pos n k width : Nat}

@[simp] theorem length_bits (width n : Nat) : (bits width n).length = width := by
  rw [bits, List.length_map, List.length_range]

theorem bits_succ (width n : Nat) : bits (width + 1) n = n.testBit width :: bits width n := by
  rw [bits, List.range_succ_eq_map, List.map_cons, List.map_map, bits]
  refine congrArg₂ List.cons rfl (List.map_congr_left fun i _ => ?_)
  exact congrArg n.testBit (show width + 1 - 1 - (i + 1) = width - 1 - i by omega)

theorem bits_add (v width n : Nat) : bits (v + width) n = bits v (n / 2 ^ width) ++ bits width n := by
  induction v with
  | zero => rw [Nat.zero_add]; rfl
  | succ v ih =>
    rw [show v + 1 + width = v + width + 1 by omega, bits_succ, bits_succ, ih, Nat.testBit_div_two_pow]
    rfl

/-! ### The number of a string -/

theorem foldl_bits (s : List Bool) (start : Nat) :
    s.foldl (fun n b => 2 * n + b.toNat) start = start * 2 ^ s.length + ofBits s := by
  induction s generalizing start with
  | nil => simp [ofBits]
  | cons b s ih =>
    have whole : ofBits (b :: s) = b.toNat * 2 ^ s.length + ofBits s := by
      rw [ofBits, List.foldl_cons, ih, Nat.mul_zero, Nat.zero_add]
    rw [List.foldl_cons, ih, whole, List.length_cons, Nat.pow_succ]
    ring

theorem ofBits_append (s t : List Bool) : ofBits (s ++ t) = ofBits s * 2 ^ t.length + ofBits t := by
  rw [ofBits, List.foldl_append]
  exact foldl_bits t (ofBits s)

theorem ofBits_cons (b : Bool) (s : List Bool) : ofBits (b :: s) = b.toNat * 2 ^ s.length + ofBits s := by
  have one : ofBits [b] = b.toNat := by
    cases b <;> rfl
  rw [← one, ← ofBits_append]
  rfl

theorem ofBits_lt (s : List Bool) : ofBits s < 2 ^ s.length := by
  induction s with
  | nil => exact Nat.one_pos
  | cons b s ih =>
    rw [ofBits_cons, List.length_cons, Nat.pow_succ]
    cases b
    · simp only [Bool.toNat_false]
      omega
    · simp only [Bool.toNat_true]
      omega

theorem ofBits_bits (width n : Nat) : ofBits (bits width n) = n % 2 ^ width := by
  induction width with
  | zero => rw [Nat.pow_zero, Nat.mod_one]; rfl
  | succ width ih =>
    rw [bits_succ, ofBits_cons, length_bits, ih, Nat.mod_pow_succ, Nat.toNat_testBit, Nat.mul_comm, Nat.add_comm]

/-! ### Bytes -/

theorem length_bitsOf (bytes : List UInt8) : (bitsOf bytes).length = 8 * bytes.length := by
  induction bytes with
  | nil => rfl
  | cons b bytes ih =>
    rw [bitsOf, List.flatMap_cons, List.length_append, length_bits, List.length_cons]
    rw [bitsOf] at ih
    omega

theorem drop_bitsOf_end (past : 8 * bytes.length ≤ pos) : (bitsOf bytes).drop pos = [] :=
  List.drop_of_length_le (by rw [length_bitsOf]; exact past)

/-- Inside a byte: what is left of it, and the bytes behind. -/
theorem drop_bitsOf {b : UInt8} (found : bytes[pos / 8]? = some b) :
    (bitsOf bytes).drop pos = bits (8 - pos % 8) b.toNat ++ (bitsOf bytes).drop (pos + (8 - pos % 8)) := by
  induction bytes generalizing pos with
  | nil => cases found
  | cons b' bytes ih =>
    have whole : bitsOf (b' :: bytes) = bits 8 b'.toNat ++ bitsOf bytes := List.flatMap_cons
    rw [whole]
    by_cases small : pos < 8
    · rw [Nat.div_eq_of_lt small] at found
      obtain rfl := Option.some.inj found
      have cut : bits 8 b'.toNat = bits pos (b'.toNat / 2 ^ (8 - pos)) ++ bits (8 - pos) b'.toNat := by
        rw [← bits_add, show pos + (8 - pos) = 8 by omega]
      rw [Nat.mod_eq_of_lt small, show pos + (8 - pos) = 8 by omega, List.drop_left' (length_bits _ _),
        List.drop_append_of_le_length (by rw [length_bits]; omega), cut, List.drop_left' (length_bits _ _)]
    · obtain ⟨later, rfl⟩ : ∃ later, pos = 8 + later := ⟨pos - 8, by omega⟩
      rw [show (8 + later) / 8 = later / 8 + 1 by omega, List.getElem?_cons_succ] at found
      rw [show (8 + later) % 8 = later % 8 by omega, Nat.add_assoc, ← List.drop_drop, ← List.drop_drop,
        List.drop_left' (length_bits _ _)]
      exact ih found

/-! ### Exp-Golomb codes -/

theorem expGolomb_eq (n : Nat) : expGolomb n =
    List.replicate (Nat.log 2 (n + 1)) false ++ true :: bits (Nat.log 2 (n + 1)) (n + 1) := by
  have low : 2 ^ Nat.log 2 (n + 1) ≤ n + 1 := Nat.pow_log_le_self 2 (Nat.succ_ne_zero n)
  have high : n + 1 < 2 ^ (Nat.log 2 (n + 1) + 1) := Nat.lt_pow_succ_log_self Nat.one_lt_two _
  have top : (n + 1).testBit (Nat.log 2 (n + 1)) = true := Nat.testBit_of_two_pow_le_and_two_pow_add_one_gt low high
  rw [expGolomb, bits_succ, top]

theorem ofBits_behind (n : Nat) :
    2 ^ Nat.log 2 (n + 1) - 1 + ofBits (bits (Nat.log 2 (n + 1)) (n + 1)) = n := by
  have low : 2 ^ Nat.log 2 (n + 1) ≤ n + 1 := Nat.pow_log_le_self 2 (Nat.succ_ne_zero n)
  have high : n + 1 < 2 ^ (Nat.log 2 (n + 1) + 1) := Nat.lt_pow_succ_log_self Nat.one_lt_two _
  rw [Nat.pow_succ] at high
  rw [ofBits_bits, Nat.mod_eq_sub_mod low, Nat.mod_eq_of_lt (by omega)]
  omega

theorem length_expGolomb (n : Nat) : (expGolomb n).length = 2 * Nat.log 2 (n + 1) + 1 := by
  rw [expGolomb, List.length_append, List.length_replicate, length_bits]
  omega

/-! ### Strings that end -/

theorem front_nil (n : Nat) : front n [] = List.replicate n false := by
  rw [front, List.eq_replicate_iff]
  simp

theorem ofBits_front_nil (n : Nat) : ofBits (front n []) = 0 := by
  rw [front_nil]
  induction n with
  | zero => rfl
  | succ n ih => rw [List.replicate_succ, ofBits_cons, ih, Bool.toNat_false, Nat.zero_mul]

theorem length_front (n : Nat) (s : List Bool) : (front n s).length = n := by
  rw [front, List.length_map, List.length_range]

theorem front_eq_take (enough : n ≤ s.length) : front n s = s.take n := by
  apply List.ext_getElem
  · rw [length_front, List.length_take, Nat.min_eq_left enough]
  · intro i inside inside'
    rw [length_front] at inside
    simp [front, List.getElem?_eq_getElem (show i < s.length by omega)]

/-- What lies in the string, and what lies behind it. -/
theorem front_append (s t : List Bool) (n : Nat) : front (s.length + n) (s ++ t) = s ++ front n t := by
  rw [front, List.range_add, List.map_append, List.map_map]
  congr 1
  · have whole := @front_eq_take (s ++ t) s.length (by rw [List.length_append]; omega)
    rwa [List.take_left] at whole
  · refine List.map_congr_left fun i _ => ?_
    simp [List.getElem?_append_right]

theorem front_append_left (enough : n ≤ s.length) (t : List Bool) : front n (s ++ t) = s.take n := by
  rw [front_eq_take (by rw [List.length_append]; omega), List.take_append_of_le_length enough]

end LiveStreaming.Library.BitString
