import LiveStreaming.Library.BitString
import Mathlib.Data.Vector.Defs

/-!
# Reading bytes

A reader takes the bytes of a field from the front of what is left, and fails where there are too few. `Wide` says how
many it takes, and `Reads` what it makes of the bytes that a value is written as.
-/

namespace LiveStreaming.Library

abbrev ByteReader (α : Type) := StateT (List UInt8) Option α

namespace ByteReader

variable {α β : Type}

def bytes (n : Nat) : ByteReader (List UInt8) := fun input =>
  if n ≤ input.length then some (input.take n, input.drop n) else none

/-- The same, where the number is known. -/
def field (n : Nat) : ByteReader (Vector UInt8 n) := fun input =>
  if enough : n ≤ input.length then some (⟨(input.take n).toArray, by simp [enough]⟩, input.drop n) else none

def byte : ByteReader UInt8 := do
  let b ← field 1
  pure b[0]

/-- A number in network order. -/
def number (bytes : Vector UInt8 4) : UInt32 :=
  bytes[0].toUInt32 <<< 24 ||| bytes[1].toUInt32 <<< 16 ||| bytes[2].toUInt32 <<< 8 ||| bytes[3].toUInt32

def numberBytes (x : UInt32) : Vector UInt8 4 :=
  #v[(x >>> 24).toUInt8, (x >>> 16).toUInt8, (x >>> 8).toUInt8, x.toUInt8]

def uint32 : ByteReader UInt32 := do
  let bytes ← field 4
  pure (number bytes)

theorem number_numberBytes (x : UInt32) : number (numberBytes x) = x := by
  have small := x.toNat_lt
  apply UInt32.toNat_inj.mp
  rw [number, Masks.toNat_fourBytes]
  simp only [numberBytes, Vector.getElem_mk, List.getElem_toArray, List.getElem_cons_zero, List.getElem_cons_succ,
    UInt32.toNat_toUInt8, UInt32.toNat_shiftRight, UInt32.reduceToNat, Nat.reduceMod, Nat.shiftRight_eq_div_pow]
  omega

/-! ### How much is taken -/

/-- `n` bytes are taken, and nothing else makes the reader fail. -/
def Wide (r : ByteReader α) (n : Nat) : Prop :=
  ∀ input : List UInt8, if n ≤ input.length then ∃ a, r input = some (a, input.drop n) else r input = none

theorem Wide.some {r : ByteReader α} {n : Nat} (wide : Wide r n) (input : List UInt8) (enough : n ≤ input.length) :
    ∃ a, r input = some (a, input.drop n) := by
  have result := wide input
  rwa [if_pos enough] at result

theorem Wide.none {r : ByteReader α} {n : Nat} (wide : Wide r n) {input : List UInt8} (short : input.length < n) :
    r input = none := by
  have result := wide input
  rwa [if_neg (Nat.not_le.mpr short)] at result

theorem wide_bytes (n : Nat) : Wide (bytes n) n := by
  intro input
  by_cases enough : n ≤ input.length
  · rw [if_pos enough]
    exact ⟨_, if_pos enough⟩
  · rw [if_neg enough]
    exact if_neg enough

theorem wide_field (n : Nat) : Wide (field n) n := by
  intro input
  by_cases enough : n ≤ input.length
  · rw [if_pos enough]
    exact ⟨_, dif_pos enough⟩
  · rw [if_neg enough]
    exact dif_neg enough

theorem Wide.pure (a : α) : Wide (pure a : ByteReader α) 0 := by
  intro input
  rw [if_pos (Nat.zero_le _)]
  exact ⟨a, rfl⟩

theorem Wide.bind {r : ByteReader α} {k : α → ByteReader β} {m n : Nat} (first : Wide r m) (rest : ∀ a, Wide (k a) n) :
    Wide (r >>= k) (m + n) := by
  intro input
  have run : (r >>= k) input = (r input).bind fun read => k read.1 read.2 := rfl
  by_cases short : input.length < m
  · rw [if_neg (by omega), run, first.none short]
    rfl
  · obtain ⟨a, read⟩ := first.some input (Nat.le_of_not_lt short)
    have after := rest a (input.drop m)
    have enough : m + n ≤ input.length ↔ n ≤ (input.drop m).length := by
      rw [List.length_drop]
      omega
    rw [List.drop_drop] at after
    simpa only [run, read, enough, Option.bind_some] using after

theorem wide_byte : Wide byte 1 := (wide_field 1).bind fun b => .pure b[0]

theorem wide_uint32 : Wide uint32 4 := (wide_field 4).bind fun bytes => .pure (number bytes)

/-! ### What is made of it -/

/-- `written` is read as `a`, whatever comes behind it. -/
def Reads (r : ByteReader α) (written : List UInt8) (a : α) : Prop := ∀ rest, r (written ++ rest) = some (a, rest)

theorem Reads.pure (a : α) : Reads (pure a) [] a := fun _ => rfl

theorem Reads.bind {r : ByteReader α} {k : α → ByteReader β} {front back : List UInt8} {a : α} {b : β}
    (first : Reads r front a) (rest : Reads (k a) back b) : Reads (r >>= k) (front ++ back) b := by
  intro behind
  have run : (r >>= k) (front ++ back ++ behind) = (r (front ++ back ++ behind)).bind fun read => k read.1 read.2 := rfl
  rw [run, List.append_assoc, first]
  exact rest behind

theorem reads_bytes {n : Nat} {written : List UInt8} (length : written.length = n) :
    Reads (bytes n) written written := by
  intro rest
  have enough : n ≤ (written ++ rest).length := by
    rw [List.length_append]
    omega
  rw [bytes, if_pos enough, List.take_left' length, List.drop_left' length]

theorem reads_field {n : Nat} (value : Vector UInt8 n) : Reads (field n) value.toList value := by
  intro rest
  have length : value.toList.length = n := value.length_toList
  have enough : n ≤ (value.toList ++ rest).length := by
    rw [List.length_append]
    omega
  rw [field, dif_pos enough]
  congr 2
  · apply Vector.toList_inj.mp
    rw [Vector.toList_mk, List.take_left' length]
  · exact List.drop_left' length

theorem reads_byte (b : UInt8) : Reads byte [b] b := by
  have front : ([b] : List UInt8) = (#v[b] : Vector UInt8 1).toList ++ [] := rfl
  rw [front]
  exact (reads_field #v[b]).bind (.pure b)

theorem reads_uint32 (x : UInt32) : Reads uint32 (numberBytes x).toList x := by
  have read := Reads.bind (k := fun bytes => pure (number bytes)) (reads_field (numberBytes x)) (.pure _)
  rwa [List.append_nil, number_numberBytes] at read

end ByteReader

end LiveStreaming.Library
