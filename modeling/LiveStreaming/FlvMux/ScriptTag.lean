import LiveStreaming.Library.CString
import LiveStreaming.Library.FlvFile

/-!
# The script tag

`WriteStruct_Script_Tag` puts the numbers of the file and the places of its key frames into one tag. The room for
it is left before they are known.
-/

namespace LiveStreaming.FlvMux
open Library FlvFile CString

/-- Why there is no file: the program reads what has never been set or leaves one of its buffers; it writes behind
the arrays of the key frames; or a loop has not come to its end. -/
inductive Stop where
  | undefined
  | overrun
  | fuel
  deriving DecidableEq

abbrev Run (α : Type) := Except Stop α

/-- What is done with numbers of type `double`. `bytes` is such a number as it lies in memory. -/
structure Double (δ : Type) where
  ofNat : Nat → δ
  add : δ → δ → δ
  div : δ → δ → δ
  gt : δ → δ → Bool
  toUInt32 : δ → UInt32
  bytes : δ → Vector UInt8 8

/-- The first eleven bytes of every tag, which all have no `TimestampExtended` and no `StreamID`. -/
def tagHeader (type : UInt8) (dataSize : Nat) (timestamp : UInt32) : List UInt8 :=
  [type, UInt8.ofNat (dataSize >>> 16), UInt8.ofNat (dataSize >>> 8), UInt8.ofNat dataSize,
    (timestamp >>> 16).toUInt8, (timestamp >>> 8).toUInt8, timestamp.toUInt8, 0x00, 0x00, 0x00, 0x00]

theorem isTag_tagHeader {type : UInt8} (types : type = 8 ∨ type = 9 ∨ type = 18) {data : List UInt8}
    (bound : data.length < 2 ^ 24) (timestamp : UInt32) : IsTag (tagHeader type data.length timestamp ++ data) := by
  refine ⟨type, _, _, _, _, rfl, types, ?_⟩
  rw [dataSize_eq bound, Nat.add_comm]
  rfl

variable {δ : Type} (d : Double δ)

def double2char (val : δ) : List UInt8 := (d.bytes val).toList.reverse

def numberProperty (length : UInt8) (name : String) (val : δ) : List UInt8 :=
  [0x00, length] ++ ascii name ++ [0x00] ++ double2char d val

def arrayProperty {n : Nat} (length : UInt8) (name : String) (vals : Vector δ n) : List UInt8 :=
  [0x00, length] ++ ascii name ++ [0x0A] ++ sizeField n ++ vals.toList.flatMap fun val => 0x00 :: double2char d val

def scriptData {n : Nat} (duration width height framerate audiosamplerate : δ) (stereo : UInt8) (filesize : δ)
    (filepositions times : Vector δ n) : List UInt8 :=
  [0x02, 0x00, 0x0A] ++ ascii "onMetaData" ++ [0x08, 0x00, 0x00, 0x00, 0x0C] ++
    numberProperty d 0x08 "duration" duration ++
    numberProperty d 0x05 "width" width ++
    numberProperty d 0x06 "height" height ++
    numberProperty d 0x0D "videodatarate" (d.ofNat 0) ++
    numberProperty d 0x09 "framerate" framerate ++
    numberProperty d 0x0C "videocodecid" (d.ofNat 7) ++
    numberProperty d 0x0F "audiosamplerate" audiosamplerate ++
    numberProperty d 0x0F "audiosamplesize" (d.ofNat 16) ++
    ([0x00, 0x06] ++ ascii "stereo" ++ [0x01, stereo]) ++
    numberProperty d 0x0C "audiocodecid" (d.ofNat 10) ++
    numberProperty d 0x08 "filesize" filesize ++
    ([0x00, 0x09] ++ ascii "keyframes" ++ [0x03]) ++
    arrayProperty d 0x0D "filepositions" filepositions ++
    arrayProperty d 0x05 "times" times ++
    [0x00, 0x00, 0x00, 0x09]

def writeStructScriptTag {n : Nat} (duration width height framerate audiosamplerate : δ) (stereo : UInt8)
    (filesize : δ) (filepositions times : Vector δ n) : List UInt8 :=
  let data := scriptData d duration width height framerate audiosamplerate stereo filesize filepositions times
  tagHeader 0x12 data.length 0x00 ++ data

/-- `Script_Size`, as `WriteBuf2File` adds it up. -/
def scriptSize (n : Nat) : Nat :=
  11 + 18 + 19 + 16 + 17 + 24 + 20 + 23 + 26 + 26 + 10 + 23 + 19 + 12 + (20 + (1 + 8) * n) + (12 + (1 + 8) * n) + 4

@[simp] theorem length_double2char (val : δ) : (double2char d val).length = 8 := by
  rw [double2char, List.length_reverse, Vector.length_toList]

theorem length_numberProperty (length : UInt8) (name : String) (val : δ) :
    (numberProperty d length name val).length = (ascii name).length + 11 := by
  simp only [numberProperty, List.length_append, List.length_cons, List.length_nil, length_double2char]
  omega

theorem length_arrayProperty {n : Nat} (length : UInt8) (name : String) (vals : Vector δ n) :
    (arrayProperty d length name vals).length = (ascii name).length + 7 + 9 * n := by
  have entries : (vals.toList.flatMap fun val => 0x00 :: double2char d val).length = 9 * n := by
    rw [List.length_flatMap]
    simp [Nat.mul_comm]
  simp only [arrayProperty, List.length_append, List.length_cons, List.length_nil, length_sizeField, entries]
  omega

theorem length_scriptData {n : Nat} (duration width height framerate audiosamplerate : δ) (stereo : UInt8)
    (filesize : δ) (filepositions times : Vector δ n) :
    (scriptData d duration width height framerate audiosamplerate stereo filesize filepositions times).length + 11 =
      scriptSize n := by
  simp only [scriptData, List.length_append, length_numberProperty, length_arrayProperty, scriptSize]
  simp [ascii]
  omega

theorem length_writeStructScriptTag {n : Nat} (duration width height framerate audiosamplerate : δ) (stereo : UInt8)
    (filesize : δ) (filepositions times : Vector δ n) :
    (writeStructScriptTag d duration width height framerate audiosamplerate stereo filesize filepositions
      times).length = scriptSize n := by
  rw [writeStructScriptTag, List.length_append, ← length_scriptData d duration width height framerate audiosamplerate
    stereo filesize filepositions times, Nat.add_comm]
  rfl

theorem isTag_writeStructScriptTag {n : Nat} (few : n ≤ 1000) (duration width height framerate audiosamplerate : δ)
    (stereo : UInt8) (filesize : δ) (filepositions times : Vector δ n) :
    IsTag (writeStructScriptTag d duration width height framerate audiosamplerate stereo filesize filepositions
      times) := by
  have length := length_scriptData d duration width height framerate audiosamplerate stereo filesize filepositions times
  refine isTag_tagHeader (.inr (.inr rfl)) ?_ 0
  rw [scriptSize] at length
  omega

end LiveStreaming.FlvMux
