import LiveStreaming.SpeechTransfer.PacketBuffers
import LiveStreaming.SpeechTransfer.RtpRoundTrip

/-!
# What is read of a datagram

The places in the packet buffer that are read on behalf of a datagram: by `rtp_header_parse`, which is given the buffer
from the thirteenth byte on but the number of all bytes received, by `parse_client_request`, and when a packet that has
been put into the pool is broadcast.
-/

namespace LiveStreaming.SpeechTransfer
open Library

/-- Where the sources end that the first byte counts. -/
def sourcesEnd (first : UInt8) : Nat := 12 + 4 * (first &&& 0x0f).toNat

/-- The places that `rtp_header_parse` reads. -/
def headerReads (rtpPacket : Nat → UInt8) (size : Nat) : List Nat :=
  if size < rtpHeaderLeastSize then []
  else if rtpPacket 0 >>> 6 ≠ rtpVersion then [0]
  else
    let paddingSize := if rtpPacket 0 &&& 0x20 ≠ 0 then (rtpPacket (size - 1)).toNat else 0
    let left := size - paddingSize
    let offset := sourcesEnd (rtpPacket 0)
    0 :: (if rtpPacket 0 &&& 0x20 ≠ 0 then [size - 1] else []) ++
      if paddingSize + rtpHeaderLeastSize > size ∨ left < offset then []
      else if rtpPacket 0 &&& 0x10 ≠ 0 then
        if left < offset + 4 then []
        else if left < offset + 4 + 4 * bigEndian rtpPacket (offset + 2) 2 % 65536 then [offset + 2, offset + 3]
        else [offset + 2, offset + 3] ++ List.range' 1 11
      else List.range' 1 11

/-- A packet of this type and with this time stamp is put into the pool. -/
def Keeps (s : Buffers) (id : ID) (payloadType : UInt8) (timestamp : Nat) : Prop :=
  payloadType = opusRtpPayloadType ∧ clientAlreadyIn s.chatRoom id = true ∧
    ((s.sorpPool.find id).bind fun packets => packets.find timestamp).isNone = true

instance decidableKeeps (s : Buffers) (id : ID) (payloadType : UInt8) (timestamp : Nat) :
    Decidable (Keeps s id payloadType timestamp) :=
  inferInstanceAs (Decidable (_ ∧ _ ∧ _))

/-- The places that are read behind an accepted header, at once or when the pool is sent. -/
def laterReads (s : Buffers) (id : ID) (receivedBytes : Nat) (header : RtpHeader) : List Nat :=
  if header.payloadType = personalSignallingType then
    if receivedBytes = header.offset + rtpHeaderSize + signallingLength then
      List.range' (rtpHeaderSize + header.offset) signallingLength
    else []
  else if Keeps s id header.payloadType header.timestamp then List.range' rtpHeaderSize opusRtpBufferSize
  else []

/-- All places of the buffer that are read on behalf of a datagram. -/
def datagramReads (s : Buffers) (id : ID) (rtpPacket : List UInt8) (garbage : Nat → UInt8) : List Nat :=
  let received := rtpPacket.take signallingBufferSize
  let memory := receivedInto garbage received
  (headerReads (fun i => memory (rtpHeaderSize + i)) received.length).map (rtpHeaderSize + ·) ++
    match headerOf rtpPacket garbage with
    | none => []
    | some header => laterReads s id received.length header

/-- Only bytes that were received are read, and an accepted header ends where the sources and the extension do. -/
structure ReadWithin (s : Buffers) (id : ID) (rtpPacket : List UInt8) (garbage : Nat → UInt8) : Prop where
  received : ∀ i ∈ datagramReads s id rtpPacket garbage,
    i < signallingBufferSize ∧ i < (rtpPacket.take signallingBufferSize).length
  offset : ∀ header, headerOf rtpPacket garbage = some header →
    let memory := fun i => receivedInto garbage (rtpPacket.take signallingBufferSize) (rtpHeaderSize + i)
    header.offset = sourcesEnd (memory 0) +
      if memory 0 &&& 0x10 ≠ 0 then 4 + 4 * bigEndian memory (sourcesEnd (memory 0) + 2) 2 else 0

/-- The header of a packet of so many bytes, whose own length the parser does not know: it is turned down before any
place is read that was not received, or all of it was received; and what is kept is a whole packet. -/
def Readable (rtpPacket : Nat → UInt8) (size : Nat) (kept : Prop) : Prop :=
  size < 12 ∨ 12 < size ∧ (rtpPacket 0 >>> 6 ≠ rtpVersion ∨ rtpPacket 0 &&& 0x20 = 0 ∧
    (size < sourcesEnd (rtpPacket 0) ∨
      if rtpPacket 0 &&& 0x10 ≠ 0 then
        size < sourcesEnd (rtpPacket 0) + 4 ∨ sourcesEnd (rtpPacket 0) + 16 ≤ size ∧
          (size < sourcesEnd (rtpPacket 0) + 4 + 4 * bigEndian rtpPacket (sourcesEnd (rtpPacket 0) + 2) 2 % 65536 ∨
            bigEndian rtpPacket (sourcesEnd (rtpPacket 0) + 2) 2 < 16384 ∧ (kept → 64 ≤ size))
      else 24 ≤ size ∧ (kept → 64 ≤ size)))

/-! ### The parser -/

section Parser

variable {rtpPacket rtpPacket' : Nat → UInt8} {size : Nat}

theorem headerReads_plain (long : ¬ size < rtpHeaderLeastSize) (version : rtpPacket 0 >>> 6 = rtpVersion)
    (plain : rtpPacket 0 &&& 0x20 = 0) :
    headerReads rtpPacket size = 0 ::
      if size < sourcesEnd (rtpPacket 0) then []
      else if rtpPacket 0 &&& 0x10 ≠ 0 then
        if size < sourcesEnd (rtpPacket 0) + 4 then []
        else if size < sourcesEnd (rtpPacket 0) + 4 + 4 * bigEndian rtpPacket (sourcesEnd (rtpPacket 0) + 2) 2 % 65536
        then [sourcesEnd (rtpPacket 0) + 2, sourcesEnd (rtpPacket 0) + 3]
        else [sourcesEnd (rtpPacket 0) + 2, sourcesEnd (rtpPacket 0) + 3] ++ List.range' 1 11
      else List.range' 1 11 := by
  unfold headerReads
  rw [if_neg long, if_neg (not_not.mpr version), if_neg (not_not.mpr plain), if_neg (not_not.mpr plain)]
  have fits : ¬ 0 + rtpHeaderLeastSize > size := by omega
  simp only [fits, false_or, Nat.sub_zero, List.cons_append, List.nil_append]

theorem rtpHeaderParse_unpadded (long : ¬ size < rtpHeaderLeastSize) (version : rtpPacket 0 >>> 6 = rtpVersion)
    (plain : rtpPacket 0 &&& 0x20 = 0) :
    rtpHeaderParse rtpPacket size =
      let header (offset : Nat) : RtpHeader :=
        ⟨offset, rtpPacket 1 &&& 0x7f, bigEndian rtpPacket 2 2, bigEndian rtpPacket 4 4, bigEndian rtpPacket 8 4⟩
      let offset := sourcesEnd (rtpPacket 0)
      if size < offset then none
      else if rtpPacket 0 &&& 0x10 ≠ 0 then
        if size < offset + 4 + 4 * bigEndian rtpPacket (offset + 2) 2 % 65536 then none
        else some (header ((offset + 4 + 4 * bigEndian rtpPacket (offset + 2) 2 % 65536) % 65536))
      else some (header offset) := by
  unfold rtpHeaderParse
  rw [if_neg (not_or.mpr ⟨long, not_not.mpr version⟩), if_neg (not_not.mpr plain)]
  have fits : ¬ 0 + rtpHeaderLeastSize > size := by omega
  dsimp only
  rw [if_neg fits, Nat.sub_zero]
  rfl

theorem bigEndian_congr {start n : Nat} (same : ∀ i ∈ List.range' start n, rtpPacket' i = rtpPacket i) :
    bigEndian rtpPacket' start n = bigEndian rtpPacket start n :=
  List.foldl_ext _ _ _ fun k i member => by rw [same i member]

theorem headerFields_congr (inside : ∀ i ∈ List.range' 1 11, rtpPacket' i = rtpPacket i) (offset : Nat) :
    (⟨offset, rtpPacket' 1 &&& 0x7f, bigEndian rtpPacket' 2 2, bigEndian rtpPacket' 4 4,
      bigEndian rtpPacket' 8 4⟩ : RtpHeader) =
    ⟨offset, rtpPacket 1 &&& 0x7f, bigEndian rtpPacket 2 2, bigEndian rtpPacket 4 4, bigEndian rtpPacket 8 4⟩ := by
  have part {start n : Nat} (least : 1 ≤ start) (most : start + n ≤ 12) :
      bigEndian rtpPacket' start n = bigEndian rtpPacket start n := by
    apply bigEndian_congr
    intro i member
    have within := List.mem_range'_1.mp member
    exact inside i (List.mem_range'_1.mpr (by omega))
  rw [inside 1 (by decide), part (by decide) (by decide), part (by decide) (by decide), part (by decide) (by decide)]

/-- The parser goes by no other places than these. -/
theorem rtpHeaderParse_congr (same : ∀ i ∈ headerReads rtpPacket size, rtpPacket' i = rtpPacket i) :
    rtpHeaderParse rtpPacket' size = rtpHeaderParse rtpPacket size := by
  unfold headerReads at same
  unfold rtpHeaderParse
  by_cases short : size < rtpHeaderLeastSize
  · rw [if_pos (.inl short), if_pos (.inl short)]
  · rw [if_neg short] at same
    have first : rtpPacket' 0 = rtpPacket 0 := by
      apply same
      split <;> simp
    rw [first]
    by_cases version : rtpPacket 0 >>> 6 ≠ rtpVersion
    · rw [if_pos (.inr version), if_pos (.inr version)]
    · rw [if_neg version] at same
      dsimp only at same
      rw [List.cons_append, List.forall_mem_cons, List.forall_mem_append] at same
      obtain ⟨_, padding, rest⟩ := same
      have padded : (if rtpPacket 0 &&& 0x20 ≠ 0 then (rtpPacket' (size - 1)).toNat else 0) =
          if rtpPacket 0 &&& 0x20 ≠ 0 then (rtpPacket (size - 1)).toNat else 0 := by
        split
        · next bit =>
          rw [if_pos bit] at padding
          rw [padding _ (List.mem_singleton.mpr rfl)]
        · rfl
      rw [padded]
      generalize (if rtpPacket 0 &&& 0x20 ≠ 0 then (rtpPacket (size - 1)).toNat else 0) = paddingSize at rest ⊢
      unfold sourcesEnd at rest
      rw [if_neg (not_or.mpr ⟨short, version⟩), if_neg (not_or.mpr ⟨short, version⟩)]
      dsimp only
      by_cases fits : paddingSize + rtpHeaderLeastSize > size
      · rw [if_pos fits, if_pos fits]
      · rw [if_neg fits, if_neg fits]
        by_cases sources : size - paddingSize < 12 + 4 * (rtpPacket 0 &&& 0x0f).toNat
        · rw [if_pos sources, if_pos sources]
        · rw [if_neg sources, if_neg sources]
          rw [if_neg (not_or.mpr ⟨fits, sources⟩)] at rest
          by_cases extension : rtpPacket 0 &&& 0x10 ≠ 0
          · rw [if_pos extension] at rest
            rw [if_pos extension, if_pos extension]
            by_cases start : size - paddingSize < 12 + 4 * (rtpPacket 0 &&& 0x0f).toNat + 4
            · rw [if_pos (by omega), if_pos (by omega)]
            · rw [if_neg start] at rest
              have length : ∀ i ∈ List.range' (12 + 4 * (rtpPacket 0 &&& 0x0f).toNat + 2) 2,
                  rtpPacket' i = rtpPacket i := by
                intro i member
                apply rest
                split
                · exact member
                · exact List.mem_append_left _ member
              rw [bigEndian_congr length]
              split
              · rfl
              · next whole =>
                rw [if_neg whole, List.forall_mem_append] at rest
                exact congrArg some (headerFields_congr rest.2 _)
          · rw [if_neg extension] at rest
            rw [if_neg extension, if_neg extension]
            exact congrArg some (headerFields_congr rest _)

end Parser

/-! ### What is read was received -/

section Reads

variable {s : Buffers} {id : ID} {header : RtpHeader} {size : Nat}

/-- A kept packet is one more in the pool. -/
theorem insertRtpPacket_keeps {payloadType : UInt8} {timestamp : Nat} (kept : Keeps s id payloadType timestamp)
    (rtpPacket : Nat) :
    (pooledOf (speakersOf (insertRtpPacket s.sorpPool id timestamp rtpPacket))).Perm
      ((id, rtpPacket) :: pooledOf (speakersOf s.sorpPool)) := by
  apply insertRtpPacket_perm
  intro packets found
  have fresh := kept.2.2
  rw [found, Option.bind_some] at fresh
  exact Option.isNone_iff_eq_none.mp fresh

theorem laterReads_within :
    (∀ i ∈ laterReads s id size header, i < size) ↔ (Keeps s id header.payloadType header.timestamp → 64 ≤ size) := by
  unfold laterReads
  split
  · next personal =>
    refine iff_of_true (fun i member => ?_) fun kept => ?_
    · split at member
      · next whole =>
        have within := List.mem_range'_1.mp member
        omega
      · cases member
    · rw [personal] at kept
      exact absurd kept.1 (by decide)
  · split
    · next kept =>
      constructor
      · intro within _
        exact within 63 (by decide)
      · intro whole i member
        have within := List.mem_range'_1.mp member
        have enough := whole kept
        unfold rtpHeaderSize opusRtpBufferSize at within
        omega
    · next dropped => exact iff_of_true (fun i member => absurd member List.not_mem_nil) fun kept => absurd kept dropped

variable {rtpPacket : List UInt8} {garbage : Nat → UInt8}

/-- With the header taken apart. -/
theorem readWithin_split {memory : Nat → UInt8}
    (received : memory = fun i => receivedInto garbage (rtpPacket.take signallingBufferSize) (rtpHeaderSize + i))
    (length : (rtpPacket.take signallingBufferSize).length = size) :
    ReadWithin s id rtpPacket garbage ↔
      (∀ i ∈ headerReads memory size, rtpHeaderSize + i < size) ∧
        ∀ header, rtpHeaderParse memory size = some header →
          (Keeps s id header.payloadType header.timestamp → 64 ≤ size) ∧
            header.offset = sourcesEnd (memory 0) +
              if memory 0 &&& 0x10 ≠ 0 then 4 + 4 * bigEndian memory (sourcesEnd (memory 0) + 2) 2 else 0 := by
  have most : size ≤ signallingBufferSize := by
    rw [← length, List.length_take]
    exact Nat.min_le_left _ _
  have parsed : headerOf rtpPacket garbage = rtpHeaderParse memory size := by
    unfold headerOf
    rw [received, length]
  have reads : datagramReads s id rtpPacket garbage = (headerReads memory size).map (rtpHeaderSize + ·) ++
      ((rtpHeaderParse memory size).map (laterReads s id size)).getD [] := by
    unfold datagramReads
    dsimp only
    rw [parsed, length, ← received]
    cases rtpHeaderParse memory size <;> rfl
  constructor
  · intro within
    have below : ∀ i ∈ datagramReads s id rtpPacket garbage, i < size :=
      fun i member => by rw [← length]; exact (within.received i member).2
    rw [reads] at below
    refine ⟨fun i member => below _ (List.mem_append_left _ (List.mem_map_of_mem member)), fun header accepted => ?_⟩
    have offset := within.offset header (parsed.trans accepted)
    rw [← received] at offset
    refine ⟨laterReads_within.mp fun i member => below i (List.mem_append_right _ ?_), offset⟩
    rw [accepted]
    exact member
  · rintro ⟨front, accepted⟩
    refine ⟨fun i member => ?_, fun header found => ?_⟩
    · have below : i < size := by
        rw [reads] at member
        rcases List.mem_append.mp member with member | member
        · obtain ⟨j, inside, rfl⟩ := List.mem_map.mp member
          exact front j inside
        · cases parse : rtpHeaderParse memory size with
          | none =>
            rw [parse] at member
            cases member
          | some header =>
            rw [parse] at member
            exact laterReads_within.mpr (accepted header parse).1 i member
      rw [length]
      exact ⟨below.trans_le most, below⟩
    · rw [← received]
      exact (accepted header (parsed.symm.trans found)).2

theorem headerReads_padded {memory : Nat → UInt8} (long : ¬ size < rtpHeaderLeastSize)
    (version : memory 0 >>> 6 = rtpVersion) (padded : memory 0 &&& 0x20 ≠ 0) : size - 1 ∈ headerReads memory size := by
  unfold headerReads
  rw [if_neg long, if_neg (not_not.mpr version)]
  dsimp only
  rw [if_pos padded]
  exact List.mem_append_left _ (List.mem_cons_of_mem _ (List.mem_singleton.mpr rfl))

theorem rtpHeaderParse_other {memory : Nat → UInt8} (other : size < rtpHeaderLeastSize ∨ memory 0 >>> 6 ≠ rtpVersion) :
    rtpHeaderParse memory size = none := if_pos other

/-- The places of the fields that every header has. -/
theorem fields_within {places : List Nat} :
    (∀ i ∈ 0 :: (places ++ List.range' 1 11), 12 + i < size) ↔ 24 ≤ size ∧ ∀ i ∈ places, 12 + i < size := by
  simp only [List.forall_mem_cons, List.forall_mem_append, List.mem_range'_1]
  constructor
  · rintro ⟨_, within, fields⟩
    exact ⟨fields 11 (by omega), within⟩
  · rintro ⟨enough, within⟩
    exact ⟨by omega, within, fun i member => by omega⟩

theorem bigEndian_two_lt (rtpPacket : Nat → UInt8) (start : Nat) : bigEndian rtpPacket start 2 < 65536 := by
  have high := (rtpPacket start).toNat_lt
  have low := (rtpPacket (start + 1)).toNat_lt
  rw [bigEndian_two]
  omega

/-- Without padding: the cases of the parser, one by one. -/
theorem readable_of_unpadded {memory : Nat → UInt8} (most : size ≤ 88) (long : ¬ size < rtpHeaderLeastSize)
    (version : memory 0 >>> 6 = rtpVersion) (plain : memory 0 &&& 0x20 = 0) :
    ((∀ i ∈ headerReads memory size, 12 + i < size) ∧
      ∀ header, rtpHeaderParse memory size = some header →
        (Keeps s id header.payloadType header.timestamp → 64 ≤ size) ∧
          header.offset = sourcesEnd (memory 0) +
            if memory 0 &&& 0x10 ≠ 0 then 4 + 4 * bigEndian memory (sourcesEnd (memory 0) + 2) 2 else 0) ↔
      Readable memory size (Keeps s id (memory 1 &&& 0x7f) (bigEndian memory 4 4)) := by
  have twelve : ¬ size < 12 := long
  have least : 12 ≤ sourcesEnd (memory 0) := Nat.le_add_right _ _
  have few := bigEndian_two_lt memory (sourcesEnd (memory 0) + 2)
  have readable (inner : Prop) :
      (size < 12 ∨ 12 < size ∧ (memory 0 >>> 6 ≠ rtpVersion ∨ memory 0 &&& 0x20 = 0 ∧ inner)) ↔
        12 < size ∧ inner := by
    simp only [twelve, false_or, ne_eq, version, not_true, plain, true_and]
  unfold Readable
  rw [readable, headerReads_plain long version plain, rtpHeaderParse_unpadded long version plain]
  dsimp only
  by_cases sources : size < sourcesEnd (memory 0)
  · rw [if_pos sources, if_pos sources]
    simp [sources]
  · rw [if_neg sources, if_neg sources]
    by_cases extension : memory 0 &&& 0x10 ≠ 0
    · rw [if_pos extension, if_pos extension, if_pos extension, if_pos extension]
      by_cases start : size < sourcesEnd (memory 0) + 4
      · rw [if_pos start, if_pos (by omega)]
        simp [start]
      · rw [if_neg start]
        generalize bigEndian memory (sourcesEnd (memory 0) + 2) 2 = words at few ⊢
        by_cases announced : size < sourcesEnd (memory 0) + 4 + 4 * words % 65536
        · rw [if_pos announced, if_pos announced]
          simp [sources, start, announced]
          omega
        · rw [if_neg announced, if_neg announced]
          simp only [Option.some.injEq, forall_eq']
          constructor
          · rintro ⟨within, kept, offset⟩
            have last := (fields_within.mp within).2 (sourcesEnd (memory 0) + 3) (by simp)
            exact ⟨by omega, .inr (.inr ⟨by omega, .inr ⟨by omega, kept⟩⟩)⟩
          · rintro ⟨_, more⟩
            obtain ⟨whole, accepted⟩ := (more.resolve_left sources).resolve_left start
            obtain ⟨small, kept⟩ := accepted.resolve_left announced
            refine ⟨fields_within.mpr ⟨by omega, fun i member => ?_⟩, kept, by omega⟩
            simp only [List.mem_cons, List.not_mem_nil, or_false] at member
            omega
    · rw [if_neg extension, if_neg extension, if_neg extension, if_neg extension]
      simp only [Option.some.injEq, forall_eq']
      constructor
      · rintro ⟨within, kept, _⟩
        have enough := (@fields_within size []).mp within
        exact ⟨by omega, .inr ⟨enough.1, kept⟩⟩
      · rintro ⟨_, more⟩
        obtain ⟨enough, kept⟩ := more.resolve_left sources
        exact ⟨(@fields_within size []).mpr ⟨enough, fun i member => absurd member List.not_mem_nil⟩, kept, rfl⟩

theorem readable_of_header {memory : Nat → UInt8} (most : size ≤ signallingBufferSize) :
    ((∀ i ∈ headerReads memory size, rtpHeaderSize + i < size) ∧
      ∀ header, rtpHeaderParse memory size = some header →
        (Keeps s id header.payloadType header.timestamp → 64 ≤ size) ∧
          header.offset = sourcesEnd (memory 0) +
            if memory 0 &&& 0x10 ≠ 0 then 4 + 4 * bigEndian memory (sourcesEnd (memory 0) + 2) 2 else 0) ↔
      Readable memory size (Keeps s id (memory 1 &&& 0x7f) (bigEndian memory 4 4)) := by
  unfold signallingBufferSize at most
  unfold rtpHeaderSize Readable
  by_cases short : size < rtpHeaderLeastSize
  · refine iff_of_true ⟨?_, ?_⟩ (.inl short)
    · unfold headerReads
      rw [if_pos short]
      exact fun i member => absurd member List.not_mem_nil
    · rw [rtpHeaderParse_other (.inl short)]
      exact fun header accepted => by cases accepted
  · have twelve : ¬ size < 12 := short
    by_cases version : memory 0 >>> 6 = rtpVersion
    · by_cases plain : memory 0 &&& 0x20 = 0
      · exact readable_of_unpadded most short version plain
      · refine iff_of_false (fun within => ?_) ?_
        · have behind := within.1 _ (headerReads_padded short version plain)
          omega
        · rintro (few | ⟨_, other | ⟨unpadded, _⟩⟩)
          · exact twelve few
          · exact other version
          · exact plain unpadded
    · have first : headerReads memory size = [0] := by
        unfold headerReads
        rw [if_neg short, if_pos version]
      rw [first, rtpHeaderParse_other (.inr version)]
      constructor
      · intro within
        exact .inr ⟨within.1 0 (List.mem_singleton.mpr rfl), .inl version⟩
      · intro readable
        have more : 12 < size := (readable.resolve_left twelve).1
        refine ⟨fun i member => ?_, fun header accepted => by cases accepted⟩
        rw [List.mem_singleton.mp member]
        exact more

end Reads

/-- For every datagram: only what was received is read and the offset is that of the sources and the extension, exactly
where the header is turned down or is there as a whole, and a kept packet has 64 bytes. -/
theorem readWithin_iff (s : Buffers) (id : ID) (rtpPacket : List UInt8) (garbage : Nat → UInt8) :
    ReadWithin s id rtpPacket garbage ↔
      let memory := fun i => receivedInto garbage (rtpPacket.take signallingBufferSize) (rtpHeaderSize + i)
      Readable memory (rtpPacket.take signallingBufferSize).length
        (Keeps s id (memory 1 &&& 0x7f) (bigEndian memory 4 4)) := by
  rw [readWithin_split rfl rfl]
  apply readable_of_header
  rw [List.length_take]
  exact Nat.min_le_left _ _

/-- A datagram of 88 bytes with the padding bit set: the padding is looked for 11 bytes behind the buffer. -/
def paddedPacket : List UInt8 := List.replicate 12 0 ++ [0xa0] ++ List.replicate 75 0

theorem readWithin_refuted : ¬ ReadWithin .start (CString.ascii "127.0.0.1:5004") paddedPacket fun _ => 0 := by
  intro within
  have behind := within.received 99 (by decide)
  exact absurd behind.1 (by decide)

end LiveStreaming.SpeechTransfer
