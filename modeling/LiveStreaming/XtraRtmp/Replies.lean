import LiveStreaming.Library.Buffer
import LiveStreaming.XtraRtmp.ChunkStream
import LiveStreaming.XtraRtmp.ConsultRuns
import LiveStreaming.XtraRtmp.ParserBounds

/-!
# The replies to a client

`generateReply` writes the AMF values of a reply into an array of 250 bytes and counts them. `onRtmpReply` puts a
header in front of them, whose size and format two fields of the request's header tell.
-/

namespace LiveStreaming.XtraRtmp
open Library Library.CString

def TYPE_CORE_NUMBER : UInt8 := 0x00
def TYPE_CORE_STRING : UInt8 := 0x02
def TYPE_CORE_OBJECT : UInt8 := 0x03
def TYPE_CORE_NULL : UInt8 := 0x05
def MESSAGE_SET_PEER_BANDWIDTH : UInt8 := 0x06

/-- The size of `reply`. -/
def replySize : Nat := 250

/-- A row of `parameters` behind the first, by which of its two pointers are set: neither, the second or both. -/
inductive Row where
  | null
  | number (bytes : Vector UInt8 8)
  | property (key value : List UInt8)

def Row.isProperty : Row → Bool
  | .property _ _ => true
  | _ => false

/-! ### The values -/

def storeByte (b : UInt8) : Writer UInt8 := fun reply amfSize => do
  let reply ← Writer.store reply amfSize [b]
  return (reply, amfSize + 1)

def lengthBytes (len : Nat) : List UInt8 := [UInt8.ofNat ((len &&& 0xff00) >>> 8), UInt8.ofNat (len &&& 0xff)]

/-- `strlen`, its two bytes, and the `memcpy` behind them. -/
def storeString (s : List UInt8) : Writer UInt8 := fun reply amfSize => do
  let len := (cString s).length
  let reply ← Writer.store reply amfSize (lengthBytes len)
  let amfSize := amfSize + 2
  let reply ← Writer.store reply amfSize (cString s)
  return (reply, amfSize + len)

def storeNumber (bytes : Vector UInt8 8) : Writer UInt8 := fun reply amfSize => do
  let reply ← Writer.store reply amfSize [TYPE_CORE_NUMBER]
  let amfSize := amfSize + 1
  let reply ← Writer.store reply amfSize bytes.toList
  return (reply, amfSize + 8)

/-- The loop that writes the rows outside the object. -/
def storeScalars : List Row → Writer UInt8
  | [] => fun reply amfSize => some (reply, amfSize)
  | .null :: rows => fun reply amfSize => storeByte TYPE_CORE_NULL reply amfSize >>= fun w => storeScalars rows w.1 w.2
  | .number bytes :: rows => fun reply amfSize => storeNumber bytes reply amfSize >>= fun w => storeScalars rows w.1 w.2
  | .property _ _ :: rows => storeScalars rows

def storeProperty (key value : List UInt8) : Writer UInt8 := fun reply amfSize => do
  let (reply, amfSize) ← storeString key reply amfSize
  let (reply, amfSize) ← storeByte TYPE_CORE_STRING reply amfSize
  storeString value reply amfSize

/-- The loop that writes the properties of the object. -/
def storeProperties : List Row → Writer UInt8
  | [] => fun reply amfSize => some (reply, amfSize)
  | .property key value :: rows => fun reply amfSize =>
    storeProperty key value reply amfSize >>= fun w => storeProperties rows w.1 w.2
  | _ :: rows => storeProperties rows

def storeObjectEnd : Writer UInt8 := fun reply amfSize => do
  let reply ← Writer.store reply amfSize [0, 0, 9]
  return (reply, amfSize + 3)

def storeIf (object : Bool) (w : Writer UInt8) : Writer UInt8 := fun reply amfSize =>
  if object then w reply amfSize else some (reply, amfSize)

/-- `generateReply` with `parameters[0][0]` apart from the rows behind it: the array afterwards and `AMFSize`, or
`none` where it writes behind the array. A null pointer for `transactionID` is eight zeros. -/
def generateReply (reply : List UInt8) (transactionID : Option (Vector UInt8 8)) (name : List UInt8) (rows : List Row) :
    Option (List UInt8 × Nat) := do
  let (reply, amfSize) ← storeByte TYPE_CORE_STRING reply 0
  let (reply, amfSize) ← storeString name reply amfSize
  let (reply, amfSize) ← storeNumber (transactionID.getD (Vector.replicate 8 0)) reply amfSize
  let (reply, amfSize) ← storeScalars rows reply amfSize
  let object := rows.any Row.isProperty
  let (reply, amfSize) ← storeIf object (storeByte TYPE_CORE_OBJECT) reply amfSize
  let (reply, amfSize) ← storeProperties rows reply amfSize
  storeIf object storeObjectEnd reply amfSize

/-! ### What they put into the array -/

def stringBytes (s : List UInt8) : List UInt8 := lengthBytes (cString s).length ++ cString s

def numberBytes (bytes : Vector UInt8 8) : List UInt8 := TYPE_CORE_NUMBER :: bytes.toList

def Row.scalar : Row → List UInt8
  | .null => [TYPE_CORE_NULL]
  | .number bytes => numberBytes bytes
  | .property _ _ => []

def Row.pair : Row → List UInt8
  | .property key value => stringBytes key ++ [TYPE_CORE_STRING] ++ stringBytes value
  | _ => []

/-- The AMF values of a reply. -/
def replyBytes (transactionID : Option (Vector UInt8 8)) (name : List UInt8) (rows : List Row) : List UInt8 :=
  let object := rows.any Row.isProperty
  [TYPE_CORE_STRING] ++ (stringBytes name ++ (numberBytes (transactionID.getD (Vector.replicate 8 0)) ++
    (rows.flatMap Row.scalar ++ ((if object then [TYPE_CORE_OBJECT] else []) ++
      (rows.flatMap Row.pair ++ if object then objectEnd else [])))))

variable {transactionID : Option (Vector UInt8 8)} {name : List UInt8} {rows : List Row}

theorem storeByte_appends (b : UInt8) : (storeByte b).Appends [b] := Writer.appends_store [b]

theorem storeString_appends (s : List UInt8) : (storeString s).Appends (stringBytes s) := by
  have both := (Writer.appends_store (lengthBytes (cString s).length)).bind (Writer.appends_store (cString s))
  refine both.of_eq fun reply amfSize => ?_
  rw [storeString]
  cases Writer.store reply amfSize (lengthBytes (cString s).length) <;> rfl

theorem storeNumber_appends (bytes : Vector UInt8 8) : (storeNumber bytes).Appends (numberBytes bytes) := by
  have both := (Writer.appends_store [TYPE_CORE_NUMBER]).bind (Writer.appends_store bytes.toList)
  refine both.of_eq fun reply amfSize => ?_
  rw [storeNumber, Vector.length_toList]
  cases Writer.store reply amfSize [TYPE_CORE_NUMBER] <;> rfl

theorem storeScalars_appends (rows : List Row) : (storeScalars rows).Appends (rows.flatMap Row.scalar) := by
  induction rows with
  | nil => exact Writer.appends_nil
  | cons row rows ih =>
    cases row with
    | null => exact (storeByte_appends TYPE_CORE_NULL).bind ih
    | number bytes => exact (storeNumber_appends bytes).bind ih
    | property key value => exact ih

theorem storeProperties_appends (rows : List Row) : (storeProperties rows).Appends (rows.flatMap Row.pair) := by
  induction rows with
  | nil => exact Writer.appends_nil
  | cons row rows ih =>
    cases row with
    | null => exact ih
    | number bytes => exact ih
    | property key value =>
      have pair : (storeProperty key value).Appends (Row.property key value).pair := by
        rw [Row.pair, List.append_assoc]
        exact (storeString_appends key).bind ((storeByte_appends TYPE_CORE_STRING).bind (storeString_appends value))
      exact pair.bind ih

theorem storeObjectEnd_appends : storeObjectEnd.Appends objectEnd := Writer.appends_store objectEnd

theorem storeIf_appends {w : Writer UInt8} {bytes : List UInt8} (appends : w.Appends bytes) (object : Bool) :
    (storeIf object w).Appends (if object then bytes else []) := by
  cases object with
  | false => exact Writer.appends_nil
  | true => exact appends

/-- `generateReply` from some place in its array on. -/
theorem generateReply_appends : ∃ w : Writer UInt8, w.Appends (replyBytes transactionID name rows) ∧
    ∀ reply, generateReply reply transactionID name rows = w reply 0 := by
  have behind := (storeIf_appends (storeByte_appends TYPE_CORE_OBJECT) (rows.any Row.isProperty)).bind
    ((storeProperties_appends rows).bind (storeIf_appends storeObjectEnd_appends (rows.any Row.isProperty)))
  have whole := (storeByte_appends TYPE_CORE_STRING).bind ((storeString_appends name).bind
    ((storeNumber_appends (transactionID.getD (Vector.replicate 8 0))).bind ((storeScalars_appends rows).bind behind)))
  exact ⟨_, whole, fun reply => rfl⟩

/-- `generateReply` writes from the front of its array on, and `AMFSize` is the number of bytes it writes. -/
theorem generateReply_fits {reply : List UInt8} (room : (replyBytes transactionID name rows).length ≤ reply.length) :
    generateReply reply transactionID name rows =
      some (Buffer.overwrite reply 0 (replyBytes transactionID name rows),
        (replyBytes transactionID name rows).length) := by
  obtain ⟨w, appends, same⟩ := @generateReply_appends transactionID name rows
  rw [same, appends.fits room]

theorem generateReply_leaves {reply : List UInt8} (room : reply.length < (replyBytes transactionID name rows).length) :
    generateReply reply transactionID name rows = none := by
  obtain ⟨w, appends, same⟩ := @generateReply_appends transactionID name rows
  rw [same, appends.leaves room]

/-- The bytes of a row. -/
def Row.size : Row → Nat
  | .null => 1
  | .number _ => 9
  | .property key value => 5 + (cString key).length + (cString value).length

theorem length_stringBytes (s : List UInt8) : (stringBytes s).length = 2 + (cString s).length := by
  rw [stringBytes, List.length_append]
  rfl

theorem length_numberBytes (bytes : Vector UInt8 8) : (numberBytes bytes).length = 9 := by
  rw [numberBytes, List.length_cons, Vector.length_toList]

theorem length_rows (rows : List Row) :
    (rows.flatMap Row.scalar).length + (rows.flatMap Row.pair).length = (rows.map Row.size).sum := by
  induction rows with
  | nil => rfl
  | cons row rows ih =>
    rw [List.flatMap_cons, List.flatMap_cons, List.length_append, List.length_append, List.map_cons,
      List.sum_cons, ← ih]
    cases row with
    | null =>
      simp only [Row.scalar, Row.pair, Row.size, List.length_singleton, List.length_nil]
      omega
    | number bytes =>
      simp only [Row.scalar, Row.pair, Row.size, length_numberBytes, List.length_nil]
      omega
    | property key value =>
      simp only [Row.scalar, Row.pair, Row.size, List.length_append, length_stringBytes, List.length_singleton,
        List.length_nil]
      omega

theorem length_replyBytes (transactionID : Option (Vector UInt8 8)) (name : List UInt8) (rows : List Row) :
    (replyBytes transactionID name rows).length =
      12 + (cString name).length + (rows.map Row.size).sum + if rows.any Row.isProperty then 4 else 0 := by
  rw [← length_rows, replyBytes]
  simp only [List.length_append, length_stringBytes, length_numberBytes, List.length_singleton]
  cases rows.any Row.isProperty with
  | false =>
    simp
    omega
  | true =>
    simp [objectEnd]
    omega

/-- The array holds the reply and nothing else has been written. -/
def Fits (transactionID : Option (Vector UInt8 8)) (name : List UInt8) (rows : List Row) : Prop :=
  ∃ written : List UInt8, ∀ reply : List UInt8, reply.length = replySize →
    generateReply reply transactionID name rows = some (Buffer.overwrite reply 0 written, written.length)

theorem fits_iff : Fits transactionID name rows ↔ (replyBytes transactionID name rows).length ≤ replySize := by
  constructor
  · rintro ⟨written, all⟩
    by_contra long
    have length : (List.replicate replySize (0 : UInt8)).length = replySize := List.length_replicate
    have result := all _ length
    rw [generateReply_leaves (by omega)] at result
    cases result
  · intro room
    exact ⟨_, fun reply length => generateReply_fits (by omega)⟩

/-! ### The chunk -/

/-- The fields of `RtmpPacketHeader` that a reply is built from. -/
structure ReplyHeader where
  flag : UInt8
  size : Nat
  chunkStreamID : UInt8
  streamID : Nat

/-- The header of a request; `parseRtmpPacket` has set all of it to zero before. -/
def requestHeader (h : RtmpPacketHeader) : ReplyHeader := ⟨0, h.size, h.chunkStreamID, h.streamID⟩

/-- What is written to the client: the size of its header, the type and the payload it was built with, and the
bytes. -/
structure RtmpPack where
  size : Nat
  type : UInt8
  payload : List UInt8
  bytes : List UInt8

/-- `onRtmpReply` for a command. `heap` is what the memory of the chunk holds before; `none` is a reply that does not
fit its array. -/
def onRtmpReply (heap : Nat → UInt8) (rtmpPacketHeader : ReplyHeader) (transactionID : Option (Vector UInt8 8))
    (name : List UInt8) (rows : List Row) : Option RtmpPack := do
  let (reply, amfSize) ← generateReply (List.replicate replySize 0) transactionID name rows
  let payload := reply.take amfSize
  let rtmpPack := (List.range (rtmpPacketHeader.size + amfSize)).map heap
  let rtmpPack := Buffer.overwrite rtmpPack 0 [rtmpPacketHeader.flag <<< 6 ||| rtmpPacketHeader.chunkStreamID]
  let rtmpPack := Buffer.overwrite rtmpPack 4 (ChunkStream.bigEndianBytes 3 amfSize)
  let rtmpPack := Buffer.overwrite rtmpPack 7 [MESSAGE_INVOKE]
  let rtmpPack :=
    if rtmpPacketHeader.size = 12 then
      Buffer.overwrite rtmpPack 8 (ChunkStream.bigEndianBytes 4 rtmpPacketHeader.streamID)
    else rtmpPack
  return ⟨rtmpPacketHeader.size, MESSAGE_INVOKE, payload, Buffer.overwrite rtmpPack rtmpPacketHeader.size payload⟩

/-- What `onRtmpReply` has for a message that is no command. -/
def controlPayload (rtmpMessageType : UInt8) (size : Nat) : List UInt8 :=
  if rtmpMessageType = MESSAGE_WINDOW_ACKNOWLEDGEMENT_SIZE then ChunkStream.bigEndianBytes 4 size
  else if rtmpMessageType = MESSAGE_SET_PEER_BANDWIDTH then ChunkStream.bigEndianBytes 4 size ++ [2]
  else if rtmpMessageType = MESSAGE_USER_CONTROL then List.replicate 6 0
  else []

/-- `onRtmpReply` for a message that is no command. It has nothing to say for a type that the `switch` does not
know. -/
def onRtmpReplyMessage (rtmpMessageType : UInt8) (size : Nat) : RtmpPack :=
  let payload := controlPayload rtmpMessageType size
  if payload = [] then ⟨0, rtmpMessageType, [], []⟩
  else
    ⟨12, rtmpMessageType, payload,
      [2, 0, 0, 0, 0, 0, UInt8.ofNat payload.length, rtmpMessageType, 0, 0, 0, 0] ++ payload⟩

/-- The format bits tell the size of the header, the chunk has just its header and its payload, and
`parseRtmpPacket` reads the type, the size and the payload back from it. -/
structure RtmpPack.WellFormed (pack : RtmpPack) : Prop where
  format : (parseRtmpPacketHeader pack.bytes 0).size = pack.size
  whole : pack.bytes.length = pack.size + pack.payload.length
  readBack : ∀ stack, ∃ header payload, parseRtmpPacket pack.bytes pack.bytes.length stack = some (header, payload) ∧
    header.amfType = pack.type ∧ header.amfSize = pack.payload.length ∧
    bytesAt payload 0 pack.payload.length = pack.payload

/-- The format bits that a reply gets are those of the size it is built with. -/
def ReplyHeader.Agrees (h : ReplyHeader) : Prop := h.flag = 0 ∧ h.size = 12 ∨ h.flag = 1 ∧ h.size = 8

theorem bigEndian_bytes {n : Nat} (small : n < 2 ^ 24) : bigEndian (ChunkStream.bigEndianBytes 3 n) = n := by
  change 256 * (256 * (256 * 0 + (UInt8.ofNat (n / 256 ^ 2)).toNat) + (UInt8.ofNat (n / 256 ^ 1)).toNat) +
    (UInt8.ofNat (n / 256 ^ 0)).toNat = n
  simp only [UInt8.toNat_ofNat']
  omega

theorem format_zero {c : UInt8} (small : c.toNat < 64) : (((0 : UInt8) <<< 6 ||| c) >>> 6).toNat = 0 := by
  have same : (0 : UInt8) <<< 6 ||| c = c := by simp
  rw [same, UInt8.toNat_shiftRight, Nat.shiftRight_eq_div_pow]
  exact Nat.div_eq_of_lt small

theorem format_one {c : UInt8} (small : c.toNat < 64) : (((1 : UInt8) <<< 6 ||| c) >>> 6).toNat = 1 := by
  have joined : 64 ||| c.toNat = 64 + c.toNat := (@Nat.two_pow_add_eq_or_of_lt 6 c.toNat small 1).symm
  rw [UInt8.toNat_shiftRight, UInt8.toNat_or, Nat.shiftRight_eq_div_pow]
  change (64 ||| c.toNat) / 2 ^ 6 = 1
  omega

/-- A chunk by its parts: it is well formed where its header has the size that the format bits tell. -/
theorem wellFormed_of_parts {b : UInt8} {header payload : List UInt8} {type : UInt8}
    (proper : 7 ≤ chunkMsgHeaderSizeOf b) (full : header.length = chunkMsgHeaderSizeOf b)
    (amfSize : (header.drop 3).take 3 = ChunkStream.bigEndianBytes 3 payload.length)
    (amfType : (header.drop 6).headD 0 = type) (small : payload.length ≤ MAX_PAYLOAD_SIZE) :
    (RtmpPack.mk (1 + header.length) type payload (b :: (header ++ payload))).WellFormed := by
  have announced : bigEndian ((header.drop 3).take 3) = payload.length := by
    rw [amfSize]
    refine bigEndian_bytes (lt_of_le_of_lt small ?_)
    decide
  obtain ⟨same, size, _, _⟩ := parseRtmpPacketHeader_eq proper full payload
  obtain ⟨_, _, sizeField, typeField⟩ := parseRtmpPacketHeader_eq proper full []
  have length : (b :: (header ++ payload)).length = 1 + chunkMsgHeaderSizeOf b + payload.length := by
    rw [List.length_cons, List.length_append, full]
    omega
  refine ⟨?_, ?_, fun stack => ?_⟩
  · change (parseRtmpPacketHeader (b :: (header ++ payload)) 0).size = 1 + header.length
    rw [same, size, full]
  · rw [length, full]
  · have parsed := parseRtmpPacket_eq proper full (List.take_length : Buffer.Filled (b :: (header ++ payload)) _)
      (by rwa [announced]) stack
    rw [announced] at parsed
    refine ⟨_, _, (congrArg (fun n => parseRtmpPacket _ n stack) length).trans parsed, ?_, ?_, ?_⟩
    · rw [typeField, amfType]
    · rw [sizeField, announced]
    · change bytesAt _ 0 payload.length = payload
      apply List.ext_getElem?
      intro i
      by_cases inside : i < payload.length
      · rw [bytesAt, List.getElem?_map, List.getElem?_range inside, Option.map_some, Nat.zero_add, if_pos inside,
          ← full, Nat.add_assoc, Nat.add_comm 1, List.getElem?_cons_succ,
          List.getElem?_append_right (Nat.le_add_right _ _), Nat.add_sub_cancel_left,
          List.getElem?_eq_getElem inside, Option.getD_some]
      · rw [List.getElem?_eq_none (by rw [length_bytesAt]; omega), List.getElem?_eq_none (by omega)]

/-- The bytes of a reply: what the allocation held stays in the time stamp only. -/
theorem onRtmpReply_eq {heap : Nat → UInt8} {h : ReplyHeader} (sized : h.size = 12 ∨ h.size = 8)
    (room : (replyBytes transactionID name rows).length ≤ replySize) :
    ∃ header : List UInt8, header.length + 1 = h.size ∧
      (header.drop 3).take 3 = ChunkStream.bigEndianBytes 3 (replyBytes transactionID name rows).length ∧
      (header.drop 6).headD 0 = MESSAGE_INVOKE ∧
      onRtmpReply heap h transactionID name rows = some ⟨1 + header.length, MESSAGE_INVOKE,
        replyBytes transactionID name rows,
        (h.flag <<< 6 ||| h.chunkStreamID) :: (header ++ replyBytes transactionID name rows)⟩ := by
  have buffer : (List.replicate replySize (0 : UInt8)).length = replySize := List.length_replicate
  rw [onRtmpReply, generateReply_fits (by rwa [buffer])]
  generalize replyBytes transactionID name rows = payload at *
  have written : (Buffer.overwrite (List.replicate replySize (0 : UInt8)) 0 payload).take payload.length = payload := by
    have front := Buffer.take_overwrite payload (Nat.zero_le (List.replicate replySize (0 : UInt8)).length)
    rwa [Nat.zero_add] at front
  obtain ⟨rest, length, allocation⟩ : ∃ rest : List UInt8, payload.length = rest.length ∧
      (List.range (h.size + payload.length)).map heap = (List.range h.size).map heap ++ rest := by
    refine ⟨(List.range payload.length).map fun i => heap (h.size + i), by simp, ?_⟩
    rw [List.range_add, List.map_append, List.map_map]
    rfl
  obtain ⟨flag, size, chunkStreamID, streamID⟩ := h
  rw [Option.bind_eq_bind, Option.bind_some]
  dsimp only at sized allocation ⊢
  rw [written, allocation]
  rcases sized with rfl | rfl
  · refine ⟨[heap 1, heap 2, heap 3] ++ ChunkStream.bigEndianBytes 3 payload.length ++ [MESSAGE_INVOKE] ++
      ChunkStream.bigEndianBytes 4 streamID, rfl, rfl, rfl, ?_⟩
    exact congrArg (fun bytes => some (RtmpPack.mk 12 MESSAGE_INVOKE payload bytes))
      (@Buffer.overwrite_to_end _ (_ :: _) _ _ length)
  · refine ⟨[heap 1, heap 2, heap 3] ++ ChunkStream.bigEndianBytes 3 payload.length ++ [MESSAGE_INVOKE],
      rfl, rfl, rfl, ?_⟩
    exact congrArg (fun bytes => some (RtmpPack.mk 8 MESSAGE_INVOKE payload bytes))
      (@Buffer.overwrite_to_end _ (_ :: _) _ _ length)

theorem chunkMsgHeaderSizeOf_zero {c : UInt8} (small : c.toNat < 64) :
    chunkMsgHeaderSizeOf ((0 : UInt8) <<< 6 ||| c) = 11 := by
  rw [chunkMsgHeaderSizeOf, format_zero small]
  rfl

theorem parseRtmpPacketHeader_size (b : UInt8) (bytes : List UInt8) :
    (parseRtmpPacketHeader (b :: bytes) 0).size = 1 + chunkMsgHeaderSizeOf b := by
  simp only [parseRtmpPacketHeader, chunkMsgHeaderSizeOf, List.drop_zero, List.headD_cons]
  rcases (b >>> 6).toNat with _ | _ | _ | format <;> rfl

theorem chunkMsgHeaderSizeOf_one {c : UInt8} (small : c.toNat < 64) :
    chunkMsgHeaderSizeOf ((1 : UInt8) <<< 6 ||| c) = 7 := by
  rw [chunkMsgHeaderSizeOf, format_one small]
  rfl

/-- A reply that fits its array is well formed exactly when its format bits are those of its size. -/
theorem onRtmpReply_wellFormed_iff {heap : Nat → UInt8} {h : ReplyHeader} (sized : h.size = 12 ∨ h.size = 8)
    (flagged : h.flag = 0 ∨ h.flag = 1) (small : h.chunkStreamID.toNat < 64)
    (room : (replyBytes transactionID name rows).length ≤ replySize) :
    ∃ pack, onRtmpReply heap h transactionID name rows = some pack ∧ (pack.WellFormed ↔ h.Agrees) := by
  obtain ⟨header, length, amfSize, amfType, result⟩ := @onRtmpReply_eq _ _ _ heap h sized room
  refine ⟨_, result, ?_⟩
  have inside : (replyBytes transactionID name rows).length ≤ MAX_PAYLOAD_SIZE := Nat.le_trans room (by decide)
  have size : chunkMsgHeaderSizeOf (h.flag <<< 6 ||| h.chunkStreamID) = if h.flag = 0 then 11 else 7 := by
    rcases flagged with zero | one
    · rw [zero, chunkMsgHeaderSizeOf_zero small]
      rfl
    · rw [one, chunkMsgHeaderSizeOf_one small]
      rfl
  have proper : 7 ≤ chunkMsgHeaderSizeOf (h.flag <<< 6 ||| h.chunkStreamID) := by
    rw [size]
    split <;> decide
  constructor
  · intro wellFormed
    have format := wellFormed.format
    rw [parseRtmpPacketHeader_size, size] at format
    change _ = 1 + header.length at format
    rcases flagged with zero | one
    · rw [if_pos zero] at format
      exact .inl ⟨zero, by omega⟩
    · rw [one, if_neg (by decide)] at format
      exact .inr ⟨one, by omega⟩
  · rintro (⟨zero, twelve⟩ | ⟨one, eight⟩)
    · refine wellFormed_of_parts proper ?_ amfSize amfType inside
      rw [size, if_pos zero]
      omega
    · refine wellFormed_of_parts proper ?_ amfSize amfType inside
      rw [size, one, if_neg (by decide)]
      omega

/-- The type of a message that the `switch` knows. -/
def IsControl (rtmpMessageType : UInt8) : Prop :=
  rtmpMessageType = MESSAGE_WINDOW_ACKNOWLEDGEMENT_SIZE ∨ rtmpMessageType = MESSAGE_SET_PEER_BANDWIDTH ∨
    rtmpMessageType = MESSAGE_USER_CONTROL

theorem controlPayload_length {rtmpMessageType : UInt8} (control : IsControl rtmpMessageType) (size : Nat) :
    0 < (controlPayload rtmpMessageType size).length ∧ (controlPayload rtmpMessageType size).length ≤ 6 := by
  rcases control with rfl | rfl | rfl
  · exact ⟨Nat.zero_lt_succ _, (by decide : 4 ≤ 6)⟩
  · exact ⟨Nat.zero_lt_succ _, (by decide : 5 ≤ 6)⟩
  · exact ⟨Nat.zero_lt_succ _, Nat.le_refl 6⟩

theorem onRtmpReplyMessage_wellFormed {rtmpMessageType : UInt8} (control : IsControl rtmpMessageType) (size : Nat) :
    (onRtmpReplyMessage rtmpMessageType size).WellFormed := by
  obtain ⟨filled, short⟩ := controlPayload_length control size
  rw [onRtmpReplyMessage]
  generalize controlPayload rtmpMessageType size = payload at *
  rw [if_neg (List.length_pos_iff.mp filled)]
  have amfSize : ChunkStream.bigEndianBytes 3 payload.length = [0, 0, UInt8.ofNat payload.length] := by
    change [UInt8.ofNat (payload.length / 256 ^ 2), UInt8.ofNat (payload.length / 256 ^ 1),
      UInt8.ofNat (payload.length / 256 ^ 0)] = _
    rw [Nat.div_eq_of_lt (by omega), Nat.div_eq_of_lt (by omega), Nat.pow_zero, Nat.div_one]
    rfl
  exact @wellFormed_of_parts 2 [0, 0, 0, 0, 0, UInt8.ofNat payload.length, rtmpMessageType, 0, 0, 0, 0] payload _
    (by decide) rfl amfSize.symm rfl (Nat.le_trans short (by decide))

end LiveStreaming.XtraRtmp
