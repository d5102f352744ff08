import Mathlib.Data.List.Basic

/-!
# WebSocket frames

A frame is two bytes of flags and a short length, the longer length where the short one says so, the mask
where there is one, and the payload.
-/

namespace LiveStreaming.Library

structure WebSocketFrame where
  fin : Bool
  reserved : Nat
  opcode : Nat
  masked : Bool
  payload : List UInt8
  deriving DecidableEq

namespace WebSocketFrame

/-- The first byte is the highest. -/
def number (bytes : List UInt8) : Nat := bytes.foldl (fun n b => 256 * n + b.toNat) 0

def unmask (mask payload : List UInt8) : List UInt8 := payload.mapIdx fun i b => b ^^^ mask.getD (i % 4) 0

/-- How many bytes of length follow the first two. -/
def extended (second : UInt8) : Nat := if second.toNat % 128 = 126 then 2 else if second.toNat % 128 = 127 then 8 else 0

def payloadLength (second : UInt8) (rest : List UInt8) : Nat :=
  if extended second = 0 then second.toNat % 128 else number (rest.take (extended second))

def maskSize (second : UInt8) : Nat := if 128 ≤ second.toNat then 4 else 0

/-- The frame that the bytes are, with its payload in the clear. -/
def read : List UInt8 → Option WebSocketFrame
  | first :: second :: rest =>
    if rest.length = extended second + maskSize second + payloadLength second rest then
      let body := rest.drop (extended second)
      some {
        fin := 128 ≤ first.toNat
        reserved := first.toNat / 16 % 8
        opcode := first.toNat % 16
        masked := 128 ≤ second.toNat
        payload := if 128 ≤ second.toNat then unmask (body.take 4) (body.drop 4) else body }
    else none
  | _ => none

/-- A final, unmasked frame of text. -/
def text (payload : List UInt8) : WebSocketFrame := ⟨true, 0, 1, false, payload⟩

theorem read_short {payload : List UInt8} (short : payload.length < 126) :
    read (0x81 :: payload.length.toUInt8 :: payload) = some (text payload) := by
  have second : payload.length.toUInt8.toNat = payload.length := by
    rw [Nat.toUInt8_eq, UInt8.toNat_ofNat']
    omega
  have none : extended payload.length.toUInt8 = 0 := by
    rw [extended, second, if_neg (by omega), if_neg (by omega)]
  have length : payloadLength payload.length.toUInt8 payload = payload.length := by
    rw [payloadLength, if_pos none, second]
    omega
  have clear : maskSize payload.length.toUInt8 = 0 := by rw [maskSize, second, if_neg (by omega)]
  have unmasked : ¬ 128 ≤ payload.length := by omega
  simp [read, none, length, clear, second, unmasked, text]

theorem read_medium {payload : List UInt8} (fits : payload.length < 65536) :
    read (0x81 :: 126 :: (payload.length / 256).toUInt8 :: (payload.length % 256).toUInt8 :: payload) =
      some (text payload) := by
  have high : (payload.length / 256).toUInt8.toNat = payload.length / 256 := by
    rw [Nat.toUInt8_eq, UInt8.toNat_ofNat']
    omega
  have low : (payload.length % 256).toUInt8.toNat = payload.length % 256 := by
    rw [Nat.toUInt8_eq, UInt8.toNat_ofNat']
    omega
  have two : extended 126 = 2 := by decide
  have clear : maskSize 126 = 0 := by decide
  have length : payloadLength 126 ((payload.length / 256).toUInt8 :: (payload.length % 256).toUInt8 :: payload) =
      payload.length := by
    rw [payloadLength, two, if_neg (by decide)]
    simp only [List.take_succ_cons, List.take_zero, number, List.foldl_cons, List.foldl_nil, high, low]
    omega
  rw [read, two, clear, length, if_pos (by simp; omega)]
  simp [text]

theorem length_read {bytes : List UInt8} {frame : WebSocketFrame} (found : read bytes = some frame) :
    frame.payload.length ≤ bytes.length := by
  rcases bytes with _ | ⟨first, _ | ⟨second, rest⟩⟩
  · cases found
  · cases found
  · rw [read] at found
    split at found
    · obtain rfl := Option.some.inj found
      dsimp only
      split
      · simp only [unmask, List.length_mapIdx, List.length_drop, List.length_cons]
        omega
      · simp only [List.length_drop, List.length_cons]
        omega
    · cases found

end WebSocketFrame

end LiveStreaming.Library
