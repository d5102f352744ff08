import LiveStreaming.XtraRtmp.Amf
import Mathlib.Algebra.Ring.Nat

/-!
# The chunk stream of a publisher

A message is cut into chunks of 128 bytes of payload. The first has a header in one of four formats, which leave
out more and more of what the preceding message on the same chunk stream has said already, and the rest have one
in the shortest.
-/

namespace LiveStreaming.XtraRtmp.ChunkStream
open Library

def chunkSize : Nat := 128

/-- What a byte of the stream is, or is taken for. -/
inductive Part where
  | basicHeader | messageHeader | extendedTimestamp | payload | trailer
  deriving DecidableEq

abbrev Bytes := List (Part × UInt8)

def labelled (part : Part) (bytes : List UInt8) : Bytes := bytes.map fun b => (part, b)

inductive Format where
  | type0 | type1 | type2 | type3
  deriving DecidableEq

def Format.bits : Format → UInt8
  | .type0 => 0
  | .type1 => 1
  | .type2 => 2
  | .type3 => 3

def Format.headerSize : Format → Nat
  | .type0 => 11
  | .type1 => 7
  | .type2 => 3
  | .type3 => 0

def moreBytes (first : UInt8) : Nat := if first = 0 then 1 else if first = 1 then 2 else 0

/-- The id of a chunk stream as a basic header has it. -/
structure ChunkStreamID where
  first : UInt8
  more : List UInt8
  small : first < 64
  length : more.length = moreBytes first

def ChunkStreamID.id (c : ChunkStreamID) : Nat :=
  if c.first = 0 ∨ c.first = 1 then 64 + (c.more.headD 0).toNat +
    256 * ((c.more.drop 1).headD 0).toNat else c.first.toNat

/-- An audio or a video message. The time stamp of a message whose header is not in full is a difference. -/
structure Message where
  chunkStream : ChunkStreamID
  format : Format
  timestamp : Nat
  type : UInt8
  streamID : Nat
  payload : List UInt8
  audioOrVideo : type = 0x08 ∨ type = 0x09
  length : payload.length < 2 ^ 24

def bigEndianBytes (size n : Nat) : List UInt8 := (List.range size).reverse.map fun i => UInt8.ofNat (n / 256 ^ i)

namespace Message

def basicHeader (m : Message) (format : Format) : List UInt8 :=
  (format.bits <<< 6 ||| m.chunkStream.first) :: m.chunkStream.more

def lengthAndType (m : Message) : List UInt8 := bigEndianBytes 3 m.payload.length ++ [m.type]

def messageHeader (m : Message) : List UInt8 :=
  let timestamp := bigEndianBytes 3 (min m.timestamp 0xffffff)
  match m.format with
  | .type0 => timestamp ++ m.lengthAndType ++ (bigEndianBytes 4 m.streamID).reverse
  | .type1 => timestamp ++ m.lengthAndType
  | .type2 => timestamp
  | .type3 => []

/-- Each chunk of a message has the extended time stamp where the message has one. -/
def extendedTimestamp (m : Message) : List UInt8 := if m.timestamp < 0xffffff then [] else bigEndianBytes 4 m.timestamp

def chunks (m : Message) : Nat → List UInt8 → Bytes
  | 0, _ => []
  | n + 1, payload =>
    labelled .basicHeader (m.basicHeader .type3) ++ labelled .extendedTimestamp m.extendedTimestamp ++
      labelled .payload (payload.take chunkSize) ++ m.chunks n (payload.drop chunkSize)

def body (m : Message) : Bytes :=
  labelled .extendedTimestamp m.extendedTimestamp ++ labelled .payload (m.payload.take chunkSize) ++
    m.chunks ((m.payload.length - 1) / chunkSize) (m.payload.drop chunkSize)

def bytes (m : Message) : Bytes :=
  labelled .basicHeader (m.basicHeader m.format) ++ labelled .messageHeader m.messageHeader ++ m.body

end Message

def stream (messages : List Message) : Bytes := messages.flatMap Message.bytes

def preceding (before : List Message) (id : Nat) : Option Message :=
  (before.filter fun m => m.chunkStream.id = id).getLast?

/-- What a header leaves out is what it was for the message before. -/
def Allowed (before : List Message) (m : Message) : Prop :=
  match m.format with
  | .type0 => True
  | .type1 => ∃ p, preceding before m.chunkStream.id = some p ∧ p.streamID = m.streamID
  | .type2 => ∃ p, preceding before m.chunkStream.id = some p ∧ p.streamID = m.streamID ∧ p.type = m.type ∧
      p.payload.length = m.payload.length
  | .type3 => ∃ p, preceding before m.chunkStream.id = some p ∧ p.streamID = m.streamID ∧ p.type = m.type ∧
      p.payload.length = m.payload.length ∧ p.timestamp = m.timestamp

def WellFormed (messages : List Message) : Prop :=
  ∀ before m after, messages = before ++ m :: after → Allowed before m

/-! ### The parts of a message -/

theorem length_bigEndianBytes (size n : Nat) : (bigEndianBytes size n).length = size := by
  unfold bigEndianBytes
  rw [List.length_map, List.length_reverse, List.length_range]

theorem bigEndian_bigEndianBytes {n : Nat} (small : n < 2 ^ 24) : bigEndian (bigEndianBytes 3 n) = n := by
  have digits : bigEndianBytes 3 n = [UInt8.ofNat (n / 65536), UInt8.ofNat (n / 256), UInt8.ofNat n] := by
    simp [bigEndianBytes, List.range_succ]
  rw [digits]
  simp only [bigEndian, List.foldl_cons, List.foldl_nil, UInt8.toNat_ofNat']
  omega

theorem length_lengthAndType (m : Message) : m.lengthAndType.length = 4 := by
  unfold Message.lengthAndType
  rw [List.length_append, length_bigEndianBytes]
  rfl

theorem lengthAndType_fields (m : Message) :
    bigEndian (m.lengthAndType.take 3) = m.payload.length ∧ (m.lengthAndType.drop 3).headD 0 = m.type := by
  have three := length_bigEndianBytes 3 m.payload.length
  unfold Message.lengthAndType
  rw [List.take_left' three, List.drop_left' three]
  exact ⟨bigEndian_bigEndianBytes m.length, rfl⟩

theorem drop_messageHeader {m : Message} (full : m.format = .type0 ∨ m.format = .type1) :
    (m.messageHeader.drop 3).take 4 = m.lengthAndType := by
  have three := length_bigEndianBytes 3 (min m.timestamp 0xffffff)
  unfold Message.messageHeader
  rcases full with format | format <;> rw [format] <;> dsimp only
  · rw [List.append_assoc, List.drop_left' three, List.take_left' (length_lengthAndType m)]
  · rw [List.drop_left' three, List.take_of_length_le (length_lengthAndType m).le]

theorem length_messageHeader (m : Message) : m.messageHeader.length = m.format.headerSize := by
  unfold Message.messageHeader
  cases m.format
  · simp only [List.length_append, List.length_reverse, length_bigEndianBytes, length_lengthAndType, Format.headerSize]
  · simp only [List.length_append, length_bigEndianBytes, length_lengthAndType, Format.headerSize]
  · exact length_bigEndianBytes _ _
  · rfl

theorem basicHeader_fields (f : Format) (first : UInt8) (small : first < 64) :
    (f.bits <<< 6 ||| first) >>> 6 = f.bits ∧ (f.bits <<< 6 ||| first) &&& 0x3f = first := by
  have all : ∀ n < 64, (f.bits <<< 6 ||| UInt8.ofNat n) >>> 6 = f.bits ∧
      (f.bits <<< 6 ||| UInt8.ofNat n) &&& 0x3f = UInt8.ofNat n := by
    cases f <;> decide
  have known := all first.toNat (UInt8.lt_iff_toNat_lt.mp small)
  rwa [UInt8.ofNat_toNat] at known

theorem stream_append (before after : List Message) : stream (before ++ after) = stream before ++ stream after :=
  List.flatMap_append

theorem stream_cons (m : Message) (after : List Message) : stream (m :: after) = m.bytes ++ stream after :=
  List.flatMap_cons

end LiveStreaming.XtraRtmp.ChunkStream
