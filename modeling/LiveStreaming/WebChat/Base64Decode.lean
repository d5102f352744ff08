import LiveStreaming.Library.Buffer
import LiveStreaming.WebChat.AcceptKey

/-!
# Base64 there and back

`base64_encode` sizes its text with an `int`, and `base64_decode` turns four characters into three bytes. What the
decoder stores is recorded store by store: it clears four elements of an array of three in each turn.
-/

namespace LiveStreaming.WebChat
open Library

/-- An element of one of the two arrays of `base64_decode`. -/
inductive Base64Store where
  | need (index : Nat)
  | ret (index : Nat)
  deriving DecidableEq

def Base64Store.Within (retLen : Nat) : Base64Store → Prop
  | .need index => index < 3
  | .ret index => index < retLen

theorem toUInt8_eq {n : Nat} {b : UInt8} (same : n = b.toNat) : n.toUInt8 = b := by
  rw [same, Nat.toUInt8_eq, UInt8.ofNat_toNat]

def padding (n : Nat) : Nat := (3 - n % 3) % 3

end LiveStreaming.WebChat
