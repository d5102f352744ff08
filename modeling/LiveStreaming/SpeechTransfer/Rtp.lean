import LiveStreaming.Library.Buffer

/-!
# RTP packets

`rtp.cpp`: the parser reads the memory that a packet has been received into, and takes its word for how
much of it is header.
-/

namespace LiveStreaming.SpeechTransfer
open Library

def rtpHeaderLeastSize : Nat := 12
def rtpVersion : UInt8 := 2

structure RtpHeader where
  offset : Nat
  payloadType : UInt8
  sequenceNo : Nat
  timestamp : Nat
  ssrc : Nat

def bigEndian (rtpPacket : Nat → UInt8) (start size : Nat) : Nat :=
  (List.range' start size).foldl (fun n i => n * 256 + (rtpPacket i).toNat) 0

/-- `none` for -1. The offset and the length of the extension are numbers of 16 bits. -/
def rtpHeaderParse (rtpPacket : Nat → UInt8) (size : Nat) : Option RtpHeader :=
  if size < rtpHeaderLeastSize ∨ rtpPacket 0 >>> 6 ≠ rtpVersion then none
  else
    let paddingSize := if rtpPacket 0 &&& 0x20 ≠ 0 then (rtpPacket (size - 1)).toNat else 0
    if paddingSize + rtpHeaderLeastSize > size then none
    else
      let size := size - paddingSize
      let offset := 12 + 4 * (rtpPacket 0 &&& 0x0f).toNat
      if size < offset then none
      else
        let header (offset : Nat) : RtpHeader :=
          { offset
            payloadType := rtpPacket 1 &&& 0x7f
            sequenceNo := bigEndian rtpPacket 2 2
            timestamp := bigEndian rtpPacket 4 4
            ssrc := bigEndian rtpPacket 8 4 }
        if rtpPacket 0 &&& 0x10 ≠ 0 then
          let extensionLength := 4 * bigEndian rtpPacket (offset + 2) 2 % 65536
          if size < offset + 4 + extensionLength then none
          else some (header ((offset + 4 + extensionLength) % 65536))
        else some (header offset)

/-- The fields of `REPLY_RTP_HEADER`, which has neither sources nor an extension. -/
structure ReplyRtpHeader where
  version : UInt8
  padding : UInt8
  extension : UInt8
  csrcCount : UInt8
  marker : UInt8
  payloadType : UInt8
  sequenceNo : UInt16
  timestamp : UInt32
  ssrc : UInt32

def initReplyRtpHeader : ReplyRtpHeader := ⟨2, 0, 0, 0, 0, 0, 0, 0, 0⟩

/-- `memset` puts the low byte of a field into all its places. -/
def rtpPacketEncapsulate (rtpPayload : List UInt8) (rtpHeader : ReplyRtpHeader) : List UInt8 :=
  [rtpHeader.version <<< 6 ||| rtpHeader.padding <<< 5 ||| rtpHeader.extension <<< 4 ||| rtpHeader.csrcCount,
    rtpHeader.marker <<< 7 ||| rtpHeader.payloadType] ++
    List.replicate 2 rtpHeader.sequenceNo.toUInt8 ++ List.replicate 4 rtpHeader.timestamp.toUInt8 ++
    List.replicate 4 rtpHeader.ssrc.toUInt8 ++ rtpPayload

end LiveStreaming.SpeechTransfer
