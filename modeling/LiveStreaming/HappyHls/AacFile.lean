import LiveStreaming.HappyHls.FlvTags
import LiveStreaming.HappyHls.TableSpacing
import Mathlib.Algebra.Ring.Nat

/-!
# AAC files

`aac.cpp` reads a file of ADTS frames, each of which says in its header how long it is. `FILE` is what the file
still holds.
-/

namespace LiveStreaming.HappyHls
open Library

inductive FileStatus where
  | ok
  | fileEof
  | fileFormatError
  | fileLengthError
  deriving DecidableEq

/-- The values of the error codes. -/
def FileStatus.code : FileStatus → Nat
  | .ok => 0
  | .fileEof => 97
  | .fileFormatError => 96
  | .fileLengthError => 95

structure AdtsHeader where
  syncword : UInt32
  id : UInt32
  layer : UInt32
  protectionAbsent : UInt32
  profile : UInt32
  sfIndex : UInt32
  privateBit : UInt32
  channelConfiguration : UInt32
  original : UInt32
  home : UInt32
  copyrightIdentificationBit : UInt32
  copyrightIdentificationStart : UInt32
  aacFrameLength : UInt32
  adtsBufferFullness : UInt32
  noRawDataBlocksInFrame : UInt32

/-- The fields of the first seven bytes. -/
def AdtsHeader.read (buffer : Nat → UInt8) : AdtsHeader :=
  let b := fun i => (buffer i).toUInt32
  { syncword := b 0 <<< 4 ||| b 1 >>> 4
    id := (b 1 &&& 0x08) >>> 3
    layer := (b 1 &&& 0x06) >>> 1
    protectionAbsent := b 1 &&& 0x01
    profile := (b 2 &&& 0xc0) >>> 6
    sfIndex := (b 2 &&& 0x3c) >>> 2
    privateBit := (b 2 &&& 0x02) >>> 1
    channelConfiguration := (b 2 &&& 0x01) <<< 2 ||| (b 3 &&& 0xc0) >>> 6
    original := (b 3 &&& 0x20) >>> 5
    home := (b 3 &&& 0x10) >>> 4
    copyrightIdentificationBit := (b 3 &&& 0x08) >>> 3
    -- the shift is one of the mask
    copyrightIdentificationStart := b 3 &&& 0x04 >>> (2 : UInt32)
    aacFrameLength := (b 3 &&& 0x03) <<< 11 ||| (b 4 &&& 0xFF) <<< 3 ||| (b 5 &&& 0xE0) >>> 5
    adtsBufferFullness := (b 5 &&& 0x1f) <<< 6 ||| (b 6 &&& 0xfc) >>> 2
    noRawDataBlocksInFrame := b 6 &&& 0x03 }

/-- The sync word at the start of a header. -/
def syncs (buffer : Nat → UInt8) : Bool := buffer 0 == 0xFF && buffer 1 &&& 0xF0 == 0xF0

/-- `obtain_aac_adts_header`: what it returns, the header, the buffer and what is left of the file. A header that
breaks off is made of what the buffer held before. -/
def obtainAacAdtsHeader (file : List UInt8) (adtsHeaderBuffer : Nat → UInt8) :
    FileStatus × AdtsHeader × (Nat → UInt8) × List UInt8 :=
  let bytes := file.take adtsHeaderSize
  let buffer := store adtsHeaderBuffer bytes
  let status := if bytes = [] then .fileEof else if syncs buffer then .ok else .fileFormatError
  (status, .read buffer, buffer, file.drop adtsHeaderSize)

/-- `memcpy` into the middle of an array. -/
def storeAt (es : Nat → UInt8) (pos : Nat) (bytes : List UInt8) : Nat → UInt8 := fun i =>
  if pos ≤ i then bytes[i - pos]?.getD (es i) else es i

structure AacRead where
  status : FileStatus
  frame : Nat → UInt8
  frameLength : Nat
  file : List UInt8

/-- `read_aac_frame`; `none` where it writes behind the array. A frame that is said to be shorter than its header
asks for all there is. -/
def readAacFrame (file : List UInt8) (aacFrame : Nat → UInt8) (frameLength : Nat) : Option AacRead :=
  let (status, adtsHeader, aacFrame, file) := obtainAacAdtsHeader file aacFrame
  if status ≠ .ok then some ⟨status, aacFrame, frameLength, file⟩
  else
    let rest := (adtsHeader.aacFrameLength - 7).toNat
    let bytes := file.take rest
    if maxOneFrameSize < adtsHeaderSize + bytes.length then none
    else
      let aacFrame := storeAt aacFrame adtsHeaderSize bytes
      if bytes.length ≠ rest then some ⟨.fileLengthError, aacFrame, frameLength, file.drop rest⟩
      else some ⟨.ok, aacFrame, adtsHeader.aacFrameLength.toNat, file.drop rest⟩

/-- `obtain_aac_file_samplerate`, which returns an error code in place of a rate. `buffer` is what its array
holds before. -/
def obtainAacFileSamplerate (file : List UInt8) (buffer : Nat → UInt8) : Nat :=
  let (status, adtsHeader, _, _) := obtainAacAdtsHeader file buffer
  if status ≠ .ok then status.code else aacSamplerates.getD adtsHeader.sfIndex.toNat FileStatus.fileFormatError.code

/-! ### What is read -/

/-- What lies below a multiple of a power of two is added to it. -/
theorem or_below {b k : Nat} (a : Nat) (small : b < 2 ^ k) : a * 2 ^ k ||| b = a * 2 ^ k + b := by
  rw [Nat.mul_comm, ← Nat.two_pow_add_eq_or_of_lt small]

theorem read_sfIndex (buffer : Nat → UInt8) : (AdtsHeader.read buffer).sfIndex.toNat = (buffer 2).toNat / 4 % 16 := by
  have bits : ∀ n < 256, (n &&& 60) >>> 2 = n / 4 % 16 := by decide +kernel
  have field := bits _ (buffer 2).toNat_lt
  simpa [AdtsHeader.read] using field

theorem read_channelConfiguration (buffer : Nat → UInt8) :
    (AdtsHeader.read buffer).channelConfiguration.toNat = (buffer 2).toNat % 2 * 4 + (buffer 3).toNat / 64 := by
  have top : ∀ n < 256, (n &&& 192) >>> 6 = n / 64 := by decide +kernel
  have byte := (buffer 3).toNat_lt
  have shifted : ((buffer 2).toNat % 2) <<< 2 % 4294967296 = (buffer 2).toNat % 2 * 2 ^ 2 := by omega
  have joined := @or_below ((buffer 3).toNat / 64) 2 ((buffer 2).toNat % 2) (by omega)
  simp [AdtsHeader.read, top _ byte]
  rw [shifted]
  exact joined

theorem read_aacFrameLength (buffer : Nat → UInt8) :
    (AdtsHeader.read buffer).aacFrameLength.toNat =
      (buffer 3).toNat % 4 * 2048 + (buffer 4).toNat * 8 + (buffer 5).toNat / 32 := by
  have low : ∀ n < 256, n &&& 3 = n % 4 := by decide +kernel
  have all : ∀ n < 256, n &&& 255 = n := by decide +kernel
  have top : ∀ n < 256, (n &&& 224) >>> 5 = n / 32 := by decide +kernel
  have third := (buffer 3).toNat_lt
  have fourth := (buffer 4).toNat_lt
  have fifth := (buffer 5).toNat_lt
  have high : ((buffer 3).toNat % 4) <<< 11 % 4294967296 = (buffer 3).toNat % 4 * 2 ^ 11 := by omega
  have middle : (buffer 4).toNat <<< 3 % 4294967296 = (buffer 4).toNat * 8 := by omega
  have first := @or_below ((buffer 4).toNat * 8) 11 ((buffer 3).toNat % 4) (by omega)
  have sum : (buffer 3).toNat % 4 * 2 ^ 11 + (buffer 4).toNat * 8 =
      ((buffer 3).toNat % 4 * 2 ^ 8 + (buffer 4).toNat) * 2 ^ 3 := by omega
  simp [AdtsHeader.read, low _ third, all _ fourth, top _ fifth]
  rw [high, middle, first, sum]
  exact (@or_below ((buffer 5).toNat / 32) 3 ((buffer 3).toNat % 4 * 2 ^ 8 + (buffer 4).toNat) (by omega)).trans
    (by omega)

theorem storeAt_store (es : Nat → UInt8) (xs ys : List UInt8) {pos : Nat} (at_ : pos = xs.length) :
    storeAt (store es xs) pos ys = store es (xs ++ ys) := by
  funext i
  subst at_
  unfold storeAt store
  split
  · next behind => rw [List.getElem?_append_right behind, List.getElem?_eq_none behind, Option.getD_none]
  · next before => rw [List.getElem?_append_left (Nat.not_le.mp before)]

theorem obtainAacAdtsHeader_frame {frame : List UInt8} (buffer : Nat → UInt8)
    (synced : syncs (store buffer (frame.take 7)))
    (headed : adtsHeaderSize ≤ frame.length) (rest : List UInt8) :
    obtainAacAdtsHeader (frame ++ rest) buffer =
      (.ok, .read (store buffer (frame.take 7)), store buffer (frame.take 7), frame.drop 7 ++ rest) := by
  have header : (frame ++ rest).take adtsHeaderSize = frame.take 7 := List.take_append_of_le_length headed
  have behind : (frame ++ rest).drop adtsHeaderSize = frame.drop 7 ++ rest := List.drop_append_of_le_length headed
  have some_ : frame.take 7 ≠ [] := by
    have seven : adtsHeaderSize = 7 := rfl
    intro none_
    have length := congrArg List.length none_
    rw [List.length_take, List.length_nil] at length
    omega
  unfold obtainAacAdtsHeader
  rw [header, behind]
  dsimp only
  rw [if_neg some_, if_pos synced]

/-- A frame that is as long as its header says is read as it stands. -/
theorem readAacFrame_frame {frame : List UInt8} (buffer : Nat → UInt8) (synced : syncs (store buffer (frame.take 7)))
    (headed : adtsHeaderSize ≤ frame.length)
    (said : (AdtsHeader.read (store buffer (frame.take 7))).aacFrameLength.toNat = frame.length) (rest : List UInt8)
    (frameLength : Nat) :
    readAacFrame (frame ++ rest) buffer frameLength = some ⟨.ok, store buffer frame, frame.length, rest⟩ := by
  have seven : adtsHeaderSize = 7 := rfl
  have small := read_aacFrameLength (store buffer (frame.take 7))
  have third := (store buffer (frame.take 7) 3).toNat_lt
  have fourth := (store buffer (frame.take 7) 4).toNat_lt
  have fifth := (store buffer (frame.take 7) 5).toNat_lt
  have left : ((AdtsHeader.read (store buffer (frame.take 7))).aacFrameLength - 7).toNat = (frame.drop 7).length := by
    rw [UInt32.toNat_sub_of_le _ _ (by rw [UInt32.le_iff_toNat_le, said]; exact headed), said, List.length_drop]
    rfl
  have room : ¬ maxOneFrameSize < adtsHeaderSize + (frame.drop 7).length := by
    rw [List.length_drop, maxOneFrameSize, seven]
    omega
  rw [readAacFrame, obtainAacAdtsHeader_frame buffer synced headed]
  dsimp only
  rw [if_neg (by simp), left, List.take_left, List.drop_left, if_neg room, if_neg (by simp),
    storeAt_store _ _ _ (by rw [List.length_take]; omega), List.take_append_drop, said]

end LiveStreaming.HappyHls
