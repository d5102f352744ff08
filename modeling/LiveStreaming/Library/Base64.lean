import LiveStreaming.Library.CString

/-!
# Base64

Three bytes are four characters of six bits each. One or two bytes that are left over are padded with `=`.
-/

namespace LiveStreaming.Library.Base64
open CString

def alphabet : List UInt8 := ascii "ABCDEFGHIJKLMNOPQRSTUVWXYZabcdefghijklmnopqrstuvwxyz0123456789+/"

def char (sextet : Nat) : UInt8 := alphabet.getD sextet 0

def encode : List UInt8 → List UInt8
  | [] => []
  | [a] => [char (a.toNat / 4), char (a.toNat % 4 * 16), 61, 61]
  | [a, b] => [char (a.toNat / 4), char (a.toNat % 4 * 16 + b.toNat / 16), char (b.toNat % 16 * 4), 61]
  | a :: b :: c :: rest =>
    char (a.toNat / 4) :: char (a.toNat % 4 * 16 + b.toNat / 16) :: char (b.toNat % 16 * 4 + c.toNat / 64) ::
      char (c.toNat % 64) :: encode rest

theorem char_inj {s t : Nat} (below : s < 64) (below' : t < 64) (same : char s = char t) : s = t := by
  have all : ∀ s t : Fin 64, char s = char t → s = t := by decide +kernel
  exact congrArg Fin.val (all ⟨s, below⟩ ⟨t, below'⟩ same)

theorem char_ne_pad {s : Nat} (below : s < 64) : char s ≠ 61 := by
  have all : ∀ s : Fin 64, char s ≠ 61 := by decide +kernel
  exact all ⟨s, below⟩

theorem first_inj {a a' : UInt8} (same : char (a.toNat / 4) = char (a'.toNat / 4)) : a.toNat / 4 = a'.toNat / 4 := by
  have := a.toNat_lt
  have := a'.toNat_lt
  exact char_inj (by omega) (by omega) same

/-- What is encoded can be read back. -/
theorem encode_injective {xs ys : List UInt8} (same : encode xs = encode ys) : xs = ys := by
  have bound (a : UInt8) : a.toNat < 256 := a.toNat_lt
  induction xs using encode.induct generalizing ys with
  | case1 =>
    rcases ys with _ | ⟨a', _ | ⟨b', _ | ⟨c', rest'⟩⟩⟩
    · rfl
    · simp [encode] at same
    · simp [encode] at same
    · simp [encode] at same
  | case2 a =>
    have := bound a
    rcases ys with _ | ⟨a', _ | ⟨b', _ | ⟨c', rest'⟩⟩⟩
    · simp [encode] at same
    · have := bound a'
      simp only [encode, List.cons.injEq, and_true] at same
      have high := first_inj same.1
      have low := char_inj (by omega) (by omega) same.2
      rw [UInt8.toNat_inj.mp (show a.toNat = a'.toNat by omega)]
    · have := bound b'
      simp only [encode, List.cons.injEq, and_true] at same
      exact absurd same.2.2.symm (char_ne_pad (by omega))
    · have := bound c'
      simp only [encode, List.cons.injEq] at same
      exact absurd same.2.2.2.1.symm (char_ne_pad (by omega))
  | case3 a b =>
    have := bound a
    have := bound b
    rcases ys with _ | ⟨a', _ | ⟨b', _ | ⟨c', rest'⟩⟩⟩
    · simp [encode] at same
    · simp only [encode, List.cons.injEq, and_true] at same
      exact absurd same.2.2 (char_ne_pad (by omega))
    · have := bound a'
      have := bound b'
      simp only [encode, List.cons.injEq, and_true] at same
      have high := first_inj same.1
      have middle := char_inj (by omega) (by omega) same.2.1
      have low := char_inj (by omega) (by omega) same.2.2
      rw [UInt8.toNat_inj.mp (show a.toNat = a'.toNat by omega), UInt8.toNat_inj.mp (show b.toNat = b'.toNat by omega)]
    · have := bound c'
      simp only [encode, List.cons.injEq] at same
      exact absurd same.2.2.2.1.symm (char_ne_pad (by omega))
  | case4 a b c rest ih =>
    have := bound a
    have := bound b
    have := bound c
    rcases ys with _ | ⟨a', _ | ⟨b', _ | ⟨c', rest'⟩⟩⟩
    · simp [encode] at same
    · simp only [encode, List.cons.injEq] at same
      exact absurd same.2.2.2.1 (char_ne_pad (by omega))
    · simp only [encode, List.cons.injEq] at same
      exact absurd same.2.2.2.1 (char_ne_pad (by omega))
    · have := bound a'
      have := bound b'
      have := bound c'
      simp only [encode, List.cons.injEq] at same
      have first := first_inj same.1
      have second := char_inj (by omega) (by omega) same.2.1
      have third := char_inj (by omega) (by omega) same.2.2.1
      have fourth := char_inj (by omega) (by omega) same.2.2.2.1
      rw [UInt8.toNat_inj.mp (show a.toNat = a'.toNat by omega), UInt8.toNat_inj.mp (show b.toNat = b'.toNat by omega),
        UInt8.toNat_inj.mp (show c.toNat = c'.toNat by omega), ih same.2.2.2.2]

end LiveStreaming.Library.Base64
