import LiveStreaming.SpeechTransfer.Rtp

/-!
# RTP headers there and back

`rtp_packet_encapsulate` and `rtp_header_parse` on whole headers. The one fills the places of a number with its low byte
and the other stores neither the marker nor the sources nor whether there is an extension.
-/

namespace LiveStreaming.SpeechTransfer
open Library

/-- `RTP_HEADER`, with the list that `csrcs` points to. -/
structure RtpFields where
  version : Fin 4
  padding : Fin 2
  extension : Fin 2
  csrcCount : Fin 16
  marker : Fin 2
  payloadType : Fin 128
  extensionLength : UInt16
  offset : UInt16
  csrcs : List UInt32
  sequenceNo : UInt16
  timestamp : UInt32
  ssrc : UInt32

variable {before header : RtpFields} {packetSize : Nat} {rtpPayload : List UInt8}

def firstByte (header : RtpFields) : UInt8 :=
  UInt8.ofNat header.version <<< 6 ||| UInt8.ofNat header.padding <<< 5 ||| UInt8.ofNat header.extension <<< 4 |||
    UInt8.ofNat header.csrcCount

def secondByte (header : RtpFields) : UInt8 :=
  UInt8.ofNat header.marker <<< 7 ||| UInt8.ofNat header.payloadType

/-- `total_size`, which is where the payload is put. -/
def totalSize (header : RtpFields) : Nat :=
  rtpHeaderLeastSize + header.csrcCount * 4 +
    if header.extension = 1 then 4 + header.extensionLength.toNat * 4 else 0

def csrcBytes (header : RtpFields) : List UInt8 :=
  (header.csrcs.take header.csrcCount).flatMap fun csrc => List.replicate 4 csrc.toUInt8

/-- The length of the extension is put in the first of its four bytes. -/
def extensionBytes (header : RtpFields) : List UInt8 :=
  if header.extension = 1 then
    header.extensionLength.toUInt8 :: List.replicate (3 + header.extensionLength.toNat * 4) 0
  else []

/-- `rtp_packet_encapsulate` with a payload that fits; `none` for -1. -/
def rtpPacketEncapsulateFields (packetSize : Nat) (rtpPayload : List UInt8) (header : RtpFields) :
    Option (List UInt8) :=
  if packetSize < totalSize header then none
  else
    let written := [firstByte header, secondByte header] ++ List.replicate 2 header.sequenceNo.toUInt8 ++
      List.replicate 4 header.timestamp.toUInt8 ++ List.replicate 4 header.ssrc.toUInt8 ++ csrcBytes header ++
      extensionBytes header ++ rtpPayload
    some (written ++ List.replicate (packetSize - written.length) 0)

/-- What `rtp_header_parse` makes of a header that holds `before`. -/
def rtpHeaderParseInto (before : RtpFields) (rtpPacket : Nat → UInt8) (size : Nat) : Option RtpFields :=
  (rtpHeaderParse rtpPacket size).map fun header =>
    { before with
      version := Fin.ofNat 4 (rtpPacket 0 >>> 6).toNat
      padding := if rtpPacket 0 &&& 0x20 ≠ 0 then 1 else before.padding
      csrcCount := ⟨(rtpPacket 0 &&& 0x0f).toNat % 16, Nat.mod_lt _ (by decide)⟩
      extensionLength :=
        if rtpPacket 0 &&& 0x10 ≠ 0 then
          UInt16.ofNat (4 * bigEndian rtpPacket (12 + 4 * (rtpPacket 0 &&& 0x0f).toNat + 2) 2)
        else before.extensionLength
      offset := UInt16.ofNat header.offset
      payloadType := Fin.ofNat 128 header.payloadType.toNat
      sequenceNo := UInt16.ofNat header.sequenceNo
      timestamp := UInt32.ofNat header.timestamp
      ssrc := UInt32.ofNat header.ssrc }

/-- The fields of a packet's header. It has a length of the extension only where it has an extension. -/
structure SameHeader (header parsed : RtpFields) : Prop where
  version : parsed.version = header.version
  padding : parsed.padding = header.padding
  extension : parsed.extension = header.extension
  csrcCount : parsed.csrcCount = header.csrcCount
  marker : parsed.marker = header.marker
  payloadType : parsed.payloadType = header.payloadType
  sequenceNo : parsed.sequenceNo = header.sequenceNo
  timestamp : parsed.timestamp = header.timestamp
  ssrc : parsed.ssrc = header.ssrc
  csrcs : parsed.csrcs = header.csrcs
  extensionLength : header.extension = 1 → parsed.extensionLength = header.extensionLength

/-- The packet that is built is read back, into a header that holds `before`. -/
def RtpRecovered (before header : RtpFields) (packetSize : Nat) (rtpPayload : List UInt8) : Prop :=
  ∃ packet parsed, rtpPacketEncapsulateFields packetSize rtpPayload header = some packet ∧
    rtpHeaderParseInto before (packet.getD · 0) packetSize = some parsed ∧ SameHeader header parsed ∧
    parsed.offset.toNat = totalSize header

/-- The numbers have the same byte in all their places. -/
structure BytesAlike (header : RtpFields) : Prop where
  sequenceNo : header.sequenceNo.toNat = 0x0101 * header.sequenceNo.toUInt8.toNat
  timestamp : header.timestamp.toNat = 0x01010101 * header.timestamp.toUInt8.toNat
  ssrc : header.ssrc.toNat = 0x01010101 * header.ssrc.toUInt8.toNat

/-- What is not stored is there already. -/
structure HeldBefore (before header : RtpFields) : Prop where
  padding : header.padding ≠ 1 → before.padding = header.padding
  extension : before.extension = header.extension
  marker : before.marker = header.marker
  csrcs : before.csrcs = header.csrcs

/-- The byte that the packet ends with, which the parser takes for the length of the padding. -/
def lastByte (packetSize : Nat) (rtpPayload : List UInt8) (header : RtpFields) : UInt8 :=
  if totalSize header + rtpPayload.length < packetSize then 0
  else
    ((header.ssrc :: header.csrcs).map UInt32.toUInt8 ++ (if header.extension = 1 then [0] else []) ++
      rtpPayload).getLastD 0

/-- The length of the padding that the parser sees. -/
def paddingOf (packetSize : Nat) (rtpPayload : List UInt8) (header : RtpFields) : Nat :=
  if header.padding = 1 then (lastByte packetSize rtpPayload header).toNat else 0

/-! ### The first two bytes -/

theorem firstByte_fields (version2 : header.version = 2) :
    firstByte header >>> 6 = rtpVersion ∧ (firstByte header &&& 0x20 ≠ 0 ↔ header.padding = 1) ∧
      (firstByte header &&& 0x10 ≠ 0 ↔ header.extension = 1) ∧
      (firstByte header &&& 0x0f).toNat = header.csrcCount := by
  unfold firstByte
  rw [version2]
  generalize header.padding = padding
  generalize header.extension = extension
  generalize header.csrcCount = csrcCount
  revert padding extension csrcCount
  decide

theorem secondByte_payloadType : Fin.ofNat 128 (secondByte header &&& 0x7f).toNat = header.payloadType := by
  unfold secondByte
  generalize header.marker = marker
  generalize header.payloadType = payloadType
  revert marker payloadType
  decide

/-- The fields that `REPLY_RTP_HEADER` sets. -/
def RtpFields.reply (header : RtpFields) : ReplyRtpHeader where
  version := UInt8.ofNat header.version
  padding := UInt8.ofNat header.padding
  extension := UInt8.ofNat header.extension
  csrcCount := UInt8.ofNat header.csrcCount
  marker := UInt8.ofNat header.marker
  payloadType := UInt8.ofNat header.payloadType
  sequenceNo := header.sequenceNo
  timestamp := header.timestamp
  ssrc := header.ssrc

/-- Without sources and an extension this is how the mixture is sent. -/
theorem encapsulated_reply (rtpPayload : List UInt8) (alone : header.csrcCount = 0) (short : header.extension ≠ 1) :
    rtpPacketEncapsulateFields (rtpHeaderLeastSize + rtpPayload.length) rtpPayload header =
      some (rtpPacketEncapsulate rtpPayload header.reply) := by
  have size : totalSize header = rtpHeaderLeastSize := by
    unfold totalSize
    rw [alone, if_neg short]
    rfl
  have sources : csrcBytes header = [] := by
    unfold csrcBytes
    rw [alone]
    rfl
  have extension : extensionBytes header = [] := if_neg short
  unfold rtpPacketEncapsulateFields
  rw [size, if_neg (by omega), sources, extension]
  simp [rtpPacketEncapsulate, RtpFields.reply, firstByte, secondByte, rtpHeaderLeastSize, alone, List.replicate_succ]
  omega

/-! ### What the parser finds -/

theorem bigEndian_two (rtpPacket : Nat → UInt8) (start : Nat) :
    bigEndian rtpPacket start 2 = (rtpPacket start).toNat * 256 + (rtpPacket (start + 1)).toNat := by
  simp [bigEndian, List.range'_succ]

theorem bigEndian_four (rtpPacket : Nat → UInt8) (start : Nat) :
    bigEndian rtpPacket start 4 = (((rtpPacket start).toNat * 256 + (rtpPacket (start + 1)).toNat) * 256 +
      (rtpPacket (start + 2)).toNat) * 256 + (rtpPacket (start + 3)).toNat := by
  simp [bigEndian, List.range'_succ]

/-- A packet from the sources on. -/
def behindNumbers (packetSize : Nat) (rtpPayload : List UInt8) (header : RtpFields) : List UInt8 :=
  csrcBytes header ++ (extensionBytes header ++ (rtpPayload ++ List.replicate
    (packetSize - (12 + (csrcBytes header ++ extensionBytes header ++ rtpPayload).length)) 0))

def builtPacket (packetSize : Nat) (rtpPayload : List UInt8) (header : RtpFields) : List UInt8 :=
  let sequenceNo := header.sequenceNo.toUInt8
  let timestamp := header.timestamp.toUInt8
  let ssrc := header.ssrc.toUInt8
  [firstByte header, secondByte header, sequenceNo, sequenceNo, timestamp, timestamp, timestamp, timestamp, ssrc, ssrc,
    ssrc, ssrc] ++ behindNumbers packetSize rtpPayload header

theorem encapsulated (fits : totalSize header ≤ packetSize) :
    rtpPacketEncapsulateFields packetSize rtpPayload header = some (builtPacket packetSize rtpPayload header) := by
  unfold rtpPacketEncapsulateFields
  rw [if_neg (by omega)]
  simp [builtPacket, behindNumbers, List.replicate_succ]
  omega

theorem length_csrcBytes (counted : header.csrcs.length = header.csrcCount) :
    (csrcBytes header).length = 4 * header.csrcCount := by
  unfold csrcBytes
  rw [← counted, List.take_length, List.length_flatMap]
  simp [Nat.mul_comm]

/-- The two bytes that the length of the extension is read from are left empty. -/
theorem extension_empty (counted : header.csrcs.length = header.csrcCount) (extension : header.extension = 1) :
    bigEndian (builtPacket packetSize rtpPayload header |>.getD · 0) (12 + 4 * header.csrcCount + 2) 2 = 0 := by
  have inside (k : Nat) (small : k < 2) :
      (builtPacket packetSize rtpPayload header).getD (12 + 4 * header.csrcCount + 2 + k) 0 = 0 := by
    have length := length_csrcBytes counted
    unfold builtPacket behindNumbers extensionBytes
    rw [if_pos extension, List.getD_eq_getElem?_getD, List.getElem?_append_right (by simp; omega),
      List.getElem?_append_right (by simp; omega), List.getElem?_append_left (by simp; omega), length]
    have place : 12 + 4 * (header.csrcCount : Nat) + 2 + k - 12 - 4 * header.csrcCount = k + 1 + 1 := by omega
    simp only [List.length_cons, List.length_nil, Nat.reduceAdd]
    rw [place, List.getElem?_cons_succ, List.getElem?_replicate_of_lt (by omega)]
    rfl
  rw [bigEndian_two]
  have low := inside 0 (by decide)
  have high := inside 1 (by decide)
  rw [Nat.add_zero] at low
  rw [low, high]
  rfl

theorem getLast?_repeated (words : List UInt32) :
    (words.flatMap fun word => List.replicate 4 word.toUInt8).getLast? = (words.map UInt32.toUInt8).getLast? := by
  induction words with
  | nil => rfl
  | cons word words ih =>
    rw [List.flatMap_cons, List.getLast?_append, ih, List.map_cons, List.getLast?_cons]
    cases (words.map UInt32.toUInt8).getLast? <;> rfl

theorem getLast?_extensionBytes :
    (extensionBytes header).getLast? = (if header.extension = 1 then [(0 : UInt8)] else []).getLast? := by
  unfold extensionBytes
  split
  · rw [List.getLast?_cons, List.getLast?_replicate, if_neg (by omega)]
    rfl
  · rfl

theorem length_builtPacket (counted : header.csrcs.length = header.csrcCount)
    (fits : totalSize header + rtpPayload.length ≤ packetSize) :
    (csrcBytes header ++ extensionBytes header ++ rtpPayload).length + 12 = totalSize header + rtpPayload.length ∧
      (builtPacket packetSize rtpPayload header).length = packetSize := by
  have front : (csrcBytes header ++ extensionBytes header ++ rtpPayload).length + 12 =
      totalSize header + rtpPayload.length := by
    rw [List.length_append, List.length_append, length_csrcBytes counted]
    unfold totalSize extensionBytes rtpHeaderLeastSize
    split
    · rw [List.length_cons, List.length_replicate]
      omega
    · rw [List.length_nil]
      omega
  refine ⟨front, ?_⟩
  unfold builtPacket behindNumbers
  simp only [List.length_append, List.length_replicate, List.length_cons, List.length_nil] at front ⊢
  omega

theorem builtPacket_last (counted : header.csrcs.length = header.csrcCount)
    (fits : totalSize header + rtpPayload.length ≤ packetSize) :
    (builtPacket packetSize rtpPayload header).getD (packetSize - 1) 0 = lastByte packetSize rtpPayload header := by
  obtain ⟨front, length⟩ := length_builtPacket counted fits
  have last : (builtPacket packetSize rtpPayload header)[packetSize - 1]? =
      (builtPacket packetSize rtpPayload header).getLast? := by
    rw [List.getLast?_eq_getElem?, length]
  rw [List.getD_eq_getElem?_getD, last]
  unfold lastByte
  split
  · next more =>
    unfold builtPacket behindNumbers
    rw [List.getLast?_append, List.getLast?_append, List.getLast?_append, List.getLast?_append,
      List.getLast?_replicate, if_neg (by omega)]
    rfl
  · next full =>
    have sources : csrcBytes header = header.csrcs.flatMap fun csrc => List.replicate 4 csrc.toUInt8 := by
      rw [csrcBytes, ← counted, List.take_length]
    unfold builtPacket behindNumbers
    rw [show packetSize - (12 + (csrcBytes header ++ extensionBytes header ++ rtpPayload).length) = 0 by omega,
      List.replicate_zero, List.append_nil, ← List.append_assoc, List.getLastD_eq_getLast?]
    congr 1
    simp only [List.getLast?_append, getLast?_extensionBytes, sources, getLast?_repeated, List.map_cons,
      List.getLast?_cons, List.getLast?_nil, Option.getD_none, Option.getD_some, Option.or_some, Option.getD_or]

/-- The parser on a packet that has an extension only if that has no length. -/
theorem rtpHeaderParse_built {memory : Nat → UInt8} {size count paddingSize : Nat} {extended : Prop}
    [Decidable extended] (version : memory 0 >>> 6 = rtpVersion)
    (padding : (if memory 0 &&& 0x20 ≠ 0 then (memory (size - 1)).toNat else 0) = paddingSize)
    (extension : memory 0 &&& 0x10 ≠ 0 ↔ extended) (sources : (memory 0 &&& 0x0f).toNat = count)
    (empty : extended → bigEndian memory (12 + 4 * count + 2) 2 = 0) :
    rtpHeaderParse memory size =
      if paddingSize + (12 + 4 * count + if extended then 4 else 0) ≤ size then
        some ⟨12 + 4 * count + if extended then 4 else 0, memory 1 &&& 0x7f, bigEndian memory 2 2,
          bigEndian memory 4 4, bigEndian memory 8 4⟩
      else none := by
  have few : count < 16 := by
    rw [← sources, UInt8.toNat_and]
    exact Nat.lt_of_le_of_lt Nat.and_le_right (by decide : (0x0f : UInt8).toNat < 16)
  unfold rtpHeaderParse rtpHeaderLeastSize
  dsimp only
  rw [padding, sources, if_congr (or_iff_left (not_not.mpr version)) rfl rfl]
  by_cases extends' : extended
  · rw [if_pos extends', if_pos (extension.mpr extends'), empty extends']
    by_cases enough : paddingSize + (12 + 4 * count + 4) ≤ size
    · rw [if_pos enough, if_neg (by omega), if_neg (by omega), if_neg (by omega), if_neg (by omega), Nat.mul_zero,
        Nat.zero_mod, Nat.add_zero, Nat.mod_eq_of_lt (by omega)]
    · rw [if_neg enough]
      split
      · rfl
      split
      · rfl
      split
      · rfl
      rw [if_pos (by omega)]
  · rw [if_neg extends', if_neg fun bit => extends' (extension.mp bit)]
    by_cases enough : paddingSize + (12 + 4 * count + 0) ≤ size
    · rw [if_pos enough, if_neg (by omega), if_neg (by omega), if_neg (by omega)]
      rfl
    · rw [if_neg enough]
      split
      · rfl
      split
      · rfl
      rw [if_pos (by omega)]

/-- What is reported: numbers of one byte, an extension of no length, and for the rest what was there before. -/
def reported (before header : RtpFields) : RtpFields :=
  { before with
    version := 2
    padding := if header.padding = 1 then 1 else before.padding
    csrcCount := header.csrcCount
    extensionLength := if header.extension = 1 then 0 else before.extensionLength
    offset := UInt16.ofNat (12 + 4 * header.csrcCount + if header.extension = 1 then 4 else 0)
    payloadType := header.payloadType
    sequenceNo := UInt16.ofNat (0x0101 * header.sequenceNo.toUInt8.toNat)
    timestamp := UInt32.ofNat (0x01010101 * header.timestamp.toUInt8.toNat)
    ssrc := UInt32.ofNat (0x01010101 * header.ssrc.toUInt8.toNat) }

theorem parsed_reported (before : RtpFields) (version2 : header.version = 2)
    (counted : header.csrcs.length = header.csrcCount) (fits : totalSize header + rtpPayload.length ≤ packetSize) :
    rtpHeaderParseInto before (builtPacket packetSize rtpPayload header |>.getD · 0) packetSize =
      if paddingOf packetSize rtpPayload header +
          (12 + 4 * header.csrcCount + if header.extension = 1 then 4 else 0) ≤ packetSize then
        some (reported before header)
      else none := by
  obtain ⟨version, padded, extended, sources⟩ := firstByte_fields version2
  have last := builtPacket_last counted fits
  obtain ⟨memory, built⟩ : ∃ memory, memory = (builtPacket packetSize rtpPayload header |>.getD · 0) := ⟨_, rfl⟩
  have first : memory 0 = firstByte header := by rw [built]; rfl
  have second : memory 1 = secondByte header := by rw [built]; rfl
  have sequenceNo : bigEndian memory 2 2 = 0x0101 * header.sequenceNo.toUInt8.toNat := by
    rw [bigEndian_two, built]
    change header.sequenceNo.toUInt8.toNat * 256 + header.sequenceNo.toUInt8.toNat = _
    omega
  have timestamp : bigEndian memory 4 4 = 0x01010101 * header.timestamp.toUInt8.toNat := by
    rw [bigEndian_four, built]
    change ((header.timestamp.toUInt8.toNat * 256 + header.timestamp.toUInt8.toNat) * 256 +
      header.timestamp.toUInt8.toNat) * 256 + header.timestamp.toUInt8.toNat = _
    omega
  have ssrc : bigEndian memory 8 4 = 0x01010101 * header.ssrc.toUInt8.toNat := by
    rw [bigEndian_four, built]
    change ((header.ssrc.toUInt8.toNat * 256 + header.ssrc.toUInt8.toNat) * 256 +
      header.ssrc.toUInt8.toNat) * 256 + header.ssrc.toUInt8.toNat = _
    omega
  have empty : header.extension = 1 → bigEndian memory (12 + 4 * header.csrcCount + 2) 2 = 0 := by
    rw [built]
    exact extension_empty counted
  have padding : (if memory 0 &&& 0x20 ≠ 0 then (memory (packetSize - 1)).toNat else 0) =
      paddingOf packetSize rtpPayload header := by
    have end_ : memory (packetSize - 1) = lastByte packetSize rtpPayload header := by rw [built]; exact last
    rw [first, end_]
    exact if_congr padded rfl rfl
  have parsed := @rtpHeaderParse_built memory packetSize header.csrcCount _ (header.extension = 1) _
    (by rw [first]; exact version) padding (by rw [first]; exact extended) (by rw [first]; exact sources) empty
  have count : (⟨(memory 0 &&& 0x0f).toNat % 16, Nat.mod_lt _ (by decide)⟩ : Fin 16) = header.csrcCount := by
    apply Fin.ext
    change (memory 0 &&& 0x0f).toNat % 16 = header.csrcCount
    rw [first, sources, Nat.mod_eq_of_lt header.csrcCount.isLt]
  unfold rtpHeaderParseInto reported
  rw [← built, parsed]
  by_cases left : paddingOf packetSize rtpPayload header +
      (12 + 4 * header.csrcCount + if header.extension = 1 then 4 else 0) ≤ packetSize
  · rw [if_pos left, if_pos left, Option.map_some]
    dsimp only
    rw [count, first, second, version, sources, sequenceNo, timestamp, ssrc, secondByte_payloadType,
      if_congr padded rfl rfl]
    by_cases extension : header.extension = 1
    · rw [if_pos (extended.mpr extension), if_pos extension, if_pos extension, empty extension]
      rfl
    · rw [if_neg fun bit => extension (extended.mp bit), if_neg extension, if_neg extension]
      rfl
  · rw [if_neg left, if_neg left]
    rfl

/-! ### Which headers come back -/

theorem alike_sequenceNo (x : UInt16) :
    UInt16.ofNat (0x0101 * x.toUInt8.toNat) = x ↔ x.toNat = 0x0101 * x.toUInt8.toNat := by
  have low := x.toUInt8.toNat_lt
  constructor
  · intro same
    have number := congrArg UInt16.toNat same
    rw [UInt16.toNat_ofNat_of_lt' (by unfold UInt16.size; omega)] at number
    exact number.symm
  · intro number
    rw [← number, UInt16.ofNat_toNat]

theorem alike_word (x : UInt32) :
    UInt32.ofNat (0x01010101 * x.toUInt8.toNat) = x ↔ x.toNat = 0x01010101 * x.toUInt8.toNat := by
  have low := x.toUInt8.toNat_lt
  constructor
  · intro same
    have number := congrArg UInt32.toNat same
    rw [UInt32.toNat_ofNat_of_lt' (by unfold UInt32.size; omega)] at number
    exact number.symm
  · intro number
    rw [← number, UInt32.ofNat_toNat]

/-- The header of a packet that was built comes back exactly where every number has the same byte in all its places, an
extension has no length, the padding leaves the header, and what the parser does not store was in the header before. -/
theorem rtpRecovered_iff (before : RtpFields) {header : RtpFields} {packetSize : Nat} {rtpPayload : List UInt8}
    (version2 : header.version = 2) (counted : header.csrcs.length = header.csrcCount)
    (fits : totalSize header + rtpPayload.length ≤ packetSize) :
    RtpRecovered before header packetSize rtpPayload ↔
      BytesAlike header ∧ (header.extension = 1 → header.extensionLength = 0) ∧
        paddingOf packetSize rtpPayload header + totalSize header ≤ packetSize ∧ HeldBefore before header := by
  have parsed := parsed_reported before version2 counted fits
  have size (length : header.extension = 1 → header.extensionLength = 0) :
      12 + 4 * header.csrcCount + (if header.extension = 1 then 4 else 0) = totalSize header := by
    unfold totalSize rtpHeaderLeastSize
    by_cases extension : header.extension = 1
    · rw [if_pos extension, if_pos extension, length extension, UInt16.toNat_zero]
      omega
    · rw [if_neg extension, if_neg extension]
      omega
  constructor
  · rintro ⟨packet, found, built, read, same, offset⟩
    rw [encapsulated (by omega)] at built
    obtain rfl := Option.some.inj built
    rw [parsed] at read
    have left : paddingOf packetSize rtpPayload header +
        (12 + 4 * header.csrcCount + if header.extension = 1 then 4 else 0) ≤ packetSize := by
      by_contra long
      rw [if_neg long] at read
      cases read
    rw [if_pos left] at read
    obtain rfl := Option.some.inj read
    have length (extension : header.extension = 1) : header.extensionLength = 0 := by
      have length := same.extensionLength extension
      unfold reported at length
      rw [if_pos extension] at length
      exact length.symm
    refine ⟨⟨?_, ?_, ?_⟩, length, ?_, ⟨fun plain => ?_, same.extension, same.marker, same.csrcs⟩⟩
    · exact (alike_sequenceNo _).mp same.sequenceNo
    · exact (alike_word _).mp same.timestamp
    · exact (alike_word _).mp same.ssrc
    · rw [size length] at left
      exact left
    · have padding := same.padding
      unfold reported at padding
      rw [if_neg plain] at padding
      exact padding
  · rintro ⟨⟨sequenceNo, timestamp, ssrc⟩, length, padded, held⟩
    rw [size length, if_pos padded] at parsed
    refine ⟨_, _, encapsulated (by omega), parsed,
      ⟨version2.symm, ?_, held.extension, rfl, held.marker, rfl, ?_, ?_, ?_, held.csrcs, ?_⟩, ?_⟩
    · unfold reported
      dsimp only
      split
      · next padding => exact padding.symm
      · next plain => exact held.padding plain
    · exact (alike_sequenceNo _).mpr sequenceNo
    · exact (alike_word _).mpr timestamp
    · exact (alike_word _).mpr ssrc
    · intro extension
      unfold reported
      rw [if_pos extension, length extension]
    · have small := header.csrcCount.isLt
      unfold reported
      dsimp only
      rw [size length, UInt16.toNat_ofNat_of_lt']
      rw [← size length]
      unfold UInt16.size
      split <;> omega

/-- A header with an extension of no length and one source. -/
def sampleFields (sequenceNo : UInt16) : RtpFields where
  version := 2
  padding := 0
  extension := 1
  csrcCount := ⟨1, by decide⟩
  marker := 1
  payloadType := 96
  extensionLength := 0
  offset := 0
  csrcs := [7]
  sequenceNo
  timestamp := 0x02020202
  ssrc := 0

theorem rtpRecovered_sample : RtpRecovered (sampleFields 0) (sampleFields 0x0101) 22 [1, 2] :=
  (rtpRecovered_iff (sampleFields 0) rfl rfl (by decide)).mpr
    ⟨⟨by decide, by decide, by decide⟩, fun _ => rfl, by decide, ⟨fun _ => rfl, rfl, rfl, rfl⟩⟩

/-- The sequence number 1 comes back as 257. -/
theorem rtpRecovered_refuted : ¬ RtpRecovered (sampleFields 0) (sampleFields 1) 22 [1, 2] := by
  rintro ⟨packet, found, built, read, same, _⟩
  rw [encapsulated (by decide)] at built
  obtain rfl := Option.some.inj built
  rw [parsed_reported (sampleFields 0) rfl rfl (by decide), if_pos (by decide)] at read
  obtain rfl := Option.some.inj read
  exact absurd same.sequenceNo (by decide)

end LiveStreaming.SpeechTransfer
