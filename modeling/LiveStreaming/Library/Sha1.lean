import Mathlib.Data.List.Basic
import Mathlib.Tactic.Ring

/-!
# SHA-1

The hash of a list of bytes: the message is padded to whole blocks of 64 bytes, and the blocks are
compressed one after the other into five words.
-/

namespace LiveStreaming.Library.Sha1

structure State where
  a : UInt32
  b : UInt32
  c : UInt32
  d : UInt32
  e : UInt32
  deriving DecidableEq

def initial : State := ⟨0x67452301, 0xEFCDAB89, 0x98BADCFE, 0x10325476, 0xC3D2E1F0⟩

def State.add (s t : State) : State := ⟨s.a + t.a, s.b + t.b, s.c + t.c, s.d + t.d, s.e + t.e⟩

def rotate (n word : UInt32) : UInt32 := (word <<< n) ||| (word >>> (32 - n))

/-- Four bytes, the first of them the highest. -/
def word (block : List UInt8) (i : Nat) : UInt32 :=
  ((block.getD i 0).toUInt32 <<< 24) ||| ((block.getD (i + 1) 0).toUInt32 <<< 16) |||
    ((block.getD (i + 2) 0).toUInt32 <<< 8) ||| (block.getD (i + 3) 0).toUInt32

def schedule (block : List UInt8) (t : Nat) : UInt32 :=
  if t < 16 then word block (4 * t)
  else rotate 1 (schedule block (t - 3) ^^^ schedule block (t - 8) ^^^ schedule block (t - 14) ^^^
    schedule block (t - 16))

def mix (t : Nat) (b c d : UInt32) : UInt32 :=
  if t < 20 then (b &&& c) ||| (~~~b &&& d)
  else if t < 40 then b ^^^ c ^^^ d
  else if t < 60 then (b &&& c) ||| (b &&& d) ||| (c &&& d)
  else b ^^^ c ^^^ d

def constant (t : Nat) : UInt32 :=
  if t < 20 then 0x5A827999 else if t < 40 then 0x6ED9EBA1 else if t < 60 then 0x8F1BBCDC else 0xCA62C1D6

def round (block : List UInt8) (s : State) (t : Nat) : State :=
  ⟨rotate 5 s.a + mix t s.b s.c s.d + s.e + schedule block t + constant t, s.a, rotate 30 s.b, s.c, s.d⟩

def compress (s : State) (block : List UInt8) : State := s.add ((List.range 80).foldl (round block) s)

/-- The whole blocks of a message, one after the other. -/
def absorb (s : State) (message : List UInt8) : State :=
  if message.length < 64 then s else absorb (compress s (message.take 64)) (message.drop 64)
termination_by message.length

/-- A number in so many bytes, the first of them the highest. -/
def bigEndian : Nat → Nat → List UInt8
  | 0, _ => []
  | size + 1, n => bigEndian size (n / 256) ++ [(n % 256).toUInt8]

def pad (message : List UInt8) : List UInt8 :=
  message ++ 0x80 :: (List.replicate ((119 - message.length % 64) % 64) 0 ++ bigEndian 8 (8 * message.length))

def State.bytes (s : State) : List UInt8 :=
  bigEndian 4 s.a.toNat ++ bigEndian 4 s.b.toNat ++ bigEndian 4 s.c.toNat ++ bigEndian 4 s.d.toNat ++
    bigEndian 4 s.e.toNat

def hash (message : List UInt8) : State := absorb initial (pad message)

def digest (message : List UInt8) : List UInt8 := (hash message).bytes

theorem absorb_short {message : List UInt8} (short : message.length < 64) (s : State) : absorb s message = s := by
  rw [absorb, if_pos short]

theorem absorb_block {block : List UInt8} (full : block.length = 64) (s : State) (rest : List UInt8) :
    absorb s (block ++ rest) = absorb (compress s block) rest := by
  rw [absorb, if_neg (by simp [full]), List.take_left' full, List.drop_left' full]

theorem absorb_append {blocks : List UInt8} (whole : blocks.length % 64 = 0) (s : State) (rest : List UInt8) :
    absorb s (blocks ++ rest) = absorb (absorb s blocks) rest := by
  fun_induction absorb s blocks with
  | case1 s blocks short =>
    obtain rfl := List.eq_nil_of_length_eq_zero (by omega : blocks.length = 0)
    rfl
  | case2 s blocks long ih =>
    have block : (blocks.take 64).length = 64 := by
      rw [List.length_take]
      omega
    rw [← ih (by rw [List.length_drop]; omega), ← absorb_block block, ← List.append_assoc, List.take_append_drop]

@[simp] theorem length_bigEndian (size n : Nat) : (bigEndian size n).length = size := by
  induction size generalizing n with
  | zero => rfl
  | succ size ih => rw [bigEndian, List.length_append, ih, List.length_singleton]

/-- The bytes of a number whose high part and low part are given. -/
theorem bigEndian_add (m n : Nat) (high : Nat) {low : Nat} (small : low < 256 ^ n) :
    bigEndian (m + n) (high * 256 ^ n + low) = bigEndian m high ++ bigEndian n low := by
  induction n generalizing low with
  | zero =>
    obtain rfl : low = 0 := by omega
    simp [bigEndian]
  | succ n ih =>
    have quotient : (high * 256 ^ (n + 1) + low) / 256 = high * 256 ^ n + low / 256 := by
      rw [pow_succ, ← Nat.mul_assoc, Nat.mul_comm _ 256, Nat.mul_add_div (by decide)]
    have rest : (high * 256 ^ (n + 1) + low) % 256 = low % 256 := by
      rw [pow_succ, ← Nat.mul_assoc, Nat.mul_comm _ 256, Nat.mul_add_mod]
    have less : low / 256 < 256 ^ n := Nat.div_lt_of_lt_mul (by rwa [Nat.mul_comm, ← pow_succ])
    rw [← Nat.add_assoc, bigEndian, quotient, rest, ih less, bigEndian, List.append_assoc]

theorem length_digest (message : List UInt8) : (digest message).length = 20 := by
  simp [digest, State.bytes]

end LiveStreaming.Library.Sha1
