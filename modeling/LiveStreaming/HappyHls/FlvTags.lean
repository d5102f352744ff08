import LiveStreaming.HappyHls.TsMuxer

/-!
# FLV tags

`flv_aac.cpp` and `flv_avc.cpp` take the audio and the video tags apart, and `receive_stream_cb` makes frames
of what they find. A tag is as long as its header says, whatever its fields ask for.
-/

namespace LiveStreaming.HappyHls
open Library

def flvHeaderSize : Nat := 9
def previousTagSize : Nat := 4
def tagHeaderSize : Nat := 11
def tagAudio : UInt8 := 8
def tagVideo : UInt8 := 9
def mediaTypeAac : UInt8 := 0x0A
def mediaTypeAvc : UInt8 := 0x07
def aacSequenceHeaderType : UInt8 := 0
def avcSequenceHeaderType : UInt8 := 0
def flvKeyFrame : UInt8 := 1
def flvAacRawType : UInt8 := 1
def flvAvcNaluType : UInt8 := 1
def oneAudioFrameSize : Nat := 1024 * 100
def oneVideoFrameSize : Nat := 1024 * 1024
def maxFrameHeadSize : Nat := 1024
def adtsHeaderSize : Nat := 7

def flvDataSize (tagHeader : List UInt8) : Nat :=
  (tagHeader.getD 1 0).toNat <<< 16 ||| (tagHeader.getD 2 0).toNat <<< 8 ||| (tagHeader.getD 3 0).toNat

/-- A tag with the size of the tag before it. -/
structure FlvTag where
  previousTagSize : List UInt8
  header : List UInt8
  data : List UInt8
  previousTagSize_length : previousTagSize.length = HappyHls.previousTagSize
  header_length : header.length = tagHeaderSize
  data_length : data.length = flvDataSize header

def FlvTag.bytes (tag : FlvTag) : List UInt8 := tag.previousTagSize ++ tag.header ++ tag.data

theorem FlvTag.length_bytes (tag : FlvTag) : tag.bytes.length = 15 + tag.data.length := by
  rw [bytes, List.length_append, List.length_append, tag.previousTagSize_length, tag.header_length]
  rfl

/-- What stands in front of the first tag. -/
theorem length_noTagSize : ([0, 0, 0, 0] : List UInt8).length = previousTagSize := rfl

structure FlvAacTag where
  aacPacketType : UInt8
  samplingFrequencyIndex : UInt8
  channelConfiguration : UInt8
  payload : List UInt8

structure FlvH264Tag where
  frameType : UInt8
  avcPacketType : UInt8
  sequenceParameterSet : List UInt8
  pictureParameterSet : List UInt8
  payload : Nat → UInt8

/-- `memcpy` of the rest of a tag to `Payload`, and what is returned. -/
def copyPayload (tagData : List UInt8) (pos size : Nat) : Option (Int × List UInt8) :=
  if tagData.length - pos ≤ size then some ((tagData.length - pos : Nat), tagData.drop pos) else none

/-- `none` where it reads or writes outside an array. -/
def getFlvAacTag (tagData : List UInt8) (aacTag : FlvAacTag) : Option (Int × FlvAacTag) := do
  let soundFormat := (← tagData[0]?) >>> 4
  if soundFormat = mediaTypeAac then
    let aacPacketType ← tagData[1]?
    if aacPacketType = aacSequenceHeaderType then
      let first ← tagData[2]?
      let second ← tagData[3]?
      let (ret, payload) ← copyPayload tagData 3 oneAudioFrameSize
      some (ret, ⟨aacPacketType, (first &&& 0x07) <<< 1 ||| second >>> 7, second >>> 3 &&& 0x0F, payload⟩)
    else
      let (ret, payload) ← copyPayload tagData 2 oneAudioFrameSize
      some (ret, { aacTag with aacPacketType, payload })
  else some (-1, aacTag)

def twoBytes (tagData : List UInt8) (pos : Nat) : Option Nat := do
  let high ← tagData[pos]?
  let low ← tagData[pos + 1]?
  some (high.toNat <<< 8 ||| low.toNat)

def parameterSet (tagData : List UInt8) (pos length : Nat) : Option (List UInt8) :=
  if length ≤ maxFrameHeadSize ∧ pos + length ≤ tagData.length then some ((tagData.drop pos).take length) else none

/-- The fields behind the picture parameter set are read where that set begins. -/
def getFlvH264Tag (tagData : List UInt8) (h264Tag : FlvH264Tag) : Option (Int × FlvH264Tag) := do
  let first ← tagData[0]?
  let h264Tag := { h264Tag with frameType := first >>> 4 }
  if first &&& 0x0F = mediaTypeAvc then
    let avcPacketType ← tagData[1]?
    let _compositionTime ← tagData[4]?
    if avcPacketType = avcSequenceHeaderType then
      let spsLength ← twoBytes tagData 11
      let sequenceParameterSet ← parameterSet tagData 13 spsLength
      let ppsLength ← twoBytes tagData (14 + spsLength)
      let pictureParameterSet ← parameterSet tagData (16 + spsLength) ppsLength
      let _numOfSequenceParameterSetExt ← tagData[19 + spsLength]?
      let (ret, payload) ← copyPayload tagData (20 + spsLength) oneVideoFrameSize
      some (ret, { h264Tag with
        avcPacketType, sequenceParameterSet, pictureParameterSet, payload := store h264Tag.payload payload })
    else
      let (ret, payload) ← copyPayload tagData 5 oneVideoFrameSize
      some (ret, { h264Tag with avcPacketType, payload := store h264Tag.payload payload })
  else some (-1, h264Tag)

/-! ### Frames -/

/-- A flag that is `none` has never been set. -/
structure TsPesFrame where
  frameBuffer : List UInt8
  isKeyFrame : Option Bool
  deriving DecidableEq

/-- The static variables into which the tags are taken apart. -/
structure Decoder where
  aacTag : FlvAacTag
  h264Tag : FlvH264Tag
  spsBuffer : List UInt8
  ppsBuffer : List UInt8

def Decoder.start : Decoder := ⟨⟨0, 0, 0, []⟩, ⟨0, 0, [], [], fun _ => 0⟩, [], []⟩

/-- What a tag puts into the two queues. -/
structure Frames where
  aac : List TsPesFrame
  avc : List TsPesFrame

def adtsHeader (aacTag : FlvAacTag) (aacFrameLength : Nat) : List UInt8 :=
  [0xFF, 0xF1, (0x01 : UInt8) <<< 6 ||| aacTag.samplingFrequencyIndex <<< 2 ||| aacTag.channelConfiguration >>> 7,
    aacTag.channelConfiguration <<< 6 ||| UInt8.ofNat ((aacFrameLength &&& 0x1800) >>> 11),
    UInt8.ofNat ((aacFrameLength &&& 0x7F8) >>> 3), UInt8.ofNat ((aacFrameLength &&& 0x7) <<< 5 ||| 0x1F), 0xFC]

def startCode : List UInt8 := [0, 0, 0, 1]

/-- `h264_stream_buffer`. Of a payload that begins with an SEI only its length is used. -/
def h264StreamBuffer (h264Tag : FlvH264Tag) (payloadSize : Nat) : Option (List UInt8) :=
  let buffer : List UInt8 := List.replicate (payloadSize + 1024) 0
  if h264Tag.payload 4 = 0x06 then
    let seiLength := (h264Tag.payload 2).toNat <<< 8 ||| (h264Tag.payload 3).toNat
    if 4 + seiLength + 3 < payloadSize + 1024 then
      some (Buffer.overwrite (Buffer.overwrite buffer (4 + seiLength) startCode) 0 startCode)
    else none
  else some (Buffer.overwrite (Buffer.overwrite buffer 0 (slice h264Tag.payload 0 payloadSize)) 0 startCode)

namespace Decoder

def handleAudio (d : Decoder) (tagData : List UInt8) : Option (Decoder × Frames) := do
  let (payloadSize, aacTag) ← getFlvAacTag tagData d.aacTag
  let d := { d with aacTag }
  if payloadSize ≠ -1 ∧ aacTag.aacPacketType = flvAacRawType then
    let header := adtsHeader aacTag (payloadSize.toNat + adtsHeaderSize)
    some (d, ⟨[⟨header ++ aacTag.payload, some false⟩], []⟩)
  else some (d, ⟨[], []⟩)

def handleVideo (d : Decoder) (tagData : List UInt8) : Option (Decoder × Frames) := do
  let (payloadSize, h264Tag) ← getFlvH264Tag tagData d.h264Tag
  let d := { d with h264Tag }
  if payloadSize = -1 then some (d, ⟨[], []⟩)
  else if h264Tag.avcPacketType = avcSequenceHeaderType then
    some ({ d with spsBuffer := h264Tag.sequenceParameterSet, ppsBuffer := h264Tag.pictureParameterSet }, ⟨[], []⟩)
  else if h264Tag.avcPacketType = flvAvcNaluType then
    let buffer ← h264StreamBuffer h264Tag payloadSize.toNat
    let frame := buffer.take payloadSize.toNat
    if h264Tag.frameType = flvKeyFrame then
      some (d, ⟨[], [⟨startCode ++ d.spsBuffer, some true⟩, ⟨startCode ++ d.ppsBuffer, some true⟩, ⟨frame, some true⟩]⟩)
    else some (d, ⟨[], [⟨frame, none⟩]⟩)
  else some (d, ⟨[], []⟩)

/-- The `switch` over the type of a tag. -/
def handleTag (d : Decoder) (tagHeader tagData : List UInt8) : Option (Decoder × Frames) :=
  if tagHeader.headD 0 = tagAudio then d.handleAudio tagData
  else if tagHeader.headD 0 = tagVideo then d.handleVideo tagData
  else some (d, ⟨[], []⟩)

end Decoder

/-- The frames of a stream whose tags are handled one after another, with nothing between them. -/
def framesOf (d : Decoder) : List FlvTag → List (List UInt8)
  | [] => []
  | tag :: tags =>
    match d.handleTag tag.header tag.data with
    | none => []
    | some (d, frames) => (frames.aac ++ frames.avc).map TsPesFrame.frameBuffer ++ framesOf d tags

/-! ### Tags that are as long as they ought to be -/

def lengthField (tagData : List UInt8) (pos : Nat) : Nat :=
  (tagData.getD pos 0).toNat <<< 8 ||| (tagData.getD (pos + 1) 0).toNat

def AacFits (tagData : List UInt8) : Prop :=
  1 ≤ tagData.length ∧ (tagData.getD 0 0 >>> 4 = mediaTypeAac →
    2 ≤ tagData.length ∧ (tagData.getD 1 0 = aacSequenceHeaderType →
      4 ≤ tagData.length ∧ tagData.length ≤ 3 + oneAudioFrameSize) ∧
      (tagData.getD 1 0 ≠ aacSequenceHeaderType → tagData.length ≤ 2 + oneAudioFrameSize))

/-- The configuration record of a sequence header with parameter sets of these lengths. -/
def ConfigurationFits (tagData : List UInt8) (spsLength ppsLength : Nat) : Prop :=
  spsLength ≤ maxFrameHeadSize ∧ ppsLength ≤ maxFrameHeadSize ∧ 20 + spsLength ≤ tagData.length ∧
    16 + spsLength + ppsLength ≤ tagData.length ∧ tagData.length ≤ 20 + spsLength + oneVideoFrameSize

def H264Fits (tagData : List UInt8) : Prop :=
  1 ≤ tagData.length ∧ (tagData.getD 0 0 &&& 0x0F = mediaTypeAvc →
    5 ≤ tagData.length ∧ (tagData.getD 1 0 = avcSequenceHeaderType →
        ConfigurationFits tagData (lengthField tagData 11) (lengthField tagData (14 + lengthField tagData 11))) ∧
      (tagData.getD 1 0 ≠ avcSequenceHeaderType → tagData.length ≤ 5 + oneVideoFrameSize) ∧
      (tagData.getD 1 0 = flvAvcNaluType → tagData.getD 9 0 = 0x06 →
        4 + lengthField tagData 7 + 3 < tagData.length - 5 + 1024))

/-- The first tag of a stream stays inside the arrays it is taken into. -/
def FlvTag.Fits (tag : FlvTag) : Prop :=
  (tag.header.headD 0 = tagAudio → AacFits tag.data) ∧ (tag.header.headD 0 = tagVideo → H264Fits tag.data)

def FlvTag.IsPicture (tag : FlvTag) : Prop :=
  tag.header.headD 0 = tagVideo ∧ tag.data.getD 0 0 &&& 0x0F = mediaTypeAvc ∧ tag.data.getD 1 0 = flvAvcNaluType

theorem getElem?_getD {l : List UInt8} {i : Nat} (inside : i < l.length) : l[i]? = some (l.getD i 0) := by
  rw [List.getD_eq_getElem?_getD, List.getElem?_eq_getElem inside, Option.getD_some]

theorem copyPayload_fits {tagData : List UInt8} {pos size : Nat} (fits : tagData.length ≤ pos + size) :
    copyPayload tagData pos size = some (((tagData.length - pos : Nat) : Int), tagData.drop pos) := if_pos (by omega)

theorem twoBytes_fits {tagData : List UInt8} {pos : Nat} (inside : pos + 1 < tagData.length) :
    twoBytes tagData pos = some (lengthField tagData pos) := by
  rw [twoBytes, getElem?_getD inside, getElem?_getD (show pos < tagData.length by omega)]
  rfl

theorem handleAudio_fits {tagData : List UInt8} (fits : AacFits tagData) (d : Decoder) :
    ∃ d' frames, d.handleAudio tagData = some (d', frames) := by
  obtain ⟨one, aac⟩ := fits
  have taken : ∃ r, getFlvAacTag tagData d.aacTag = some r := by
    unfold getFlvAacTag
    rw [getElem?_getD one, Option.bind_eq_bind, Option.bind_some]
    dsimp only
    split
    · next format =>
      obtain ⟨two, header, raw⟩ := aac format
      rw [getElem?_getD two, Option.bind_eq_bind, Option.bind_some]
      split
      · next type =>
        obtain ⟨four, small⟩ := header type
        rw [getElem?_getD (show 2 < tagData.length by omega), getElem?_getD four, copyPayload_fits small]
        exact ⟨_, rfl⟩
      · next type =>
        rw [copyPayload_fits (raw type)]
        exact ⟨_, rfl⟩
    · exact ⟨_, rfl⟩
  obtain ⟨⟨ret, aacTag⟩, taken⟩ := taken
  unfold Decoder.handleAudio
  rw [taken, Option.bind_eq_bind, Option.bind_some]
  dsimp only
  split
  · exact ⟨_, _, rfl⟩
  · exact ⟨_, _, rfl⟩

theorem handleAudio_spec {d d' : Decoder} {tagData : List UInt8} {frames : Frames}
    (handled : d.handleAudio tagData = some (d', frames)) :
    ∃ size, getFlvAacTag tagData d.aacTag = some (size, d'.aacTag) ∧ frames =
      if size ≠ -1 ∧ d'.aacTag.aacPacketType = flvAacRawType then
        ⟨[⟨adtsHeader d'.aacTag (size.toNat + adtsHeaderSize) ++ d'.aacTag.payload, some false⟩], []⟩
      else ⟨[], []⟩ := by
  obtain ⟨⟨size, next⟩, read, rest⟩ := Option.bind_eq_some_iff.mp handled
  dsimp only at rest
  split at rest
  · next raw =>
    obtain ⟨rfl, rfl⟩ := Prod.mk.inj (Option.some.inj rest)
    exact ⟨size, read, (if_pos raw).symm⟩
  · next other =>
    obtain ⟨rfl, rfl⟩ := Prod.mk.inj (Option.some.inj rest)
    exact ⟨size, read, (if_neg other).symm⟩

theorem parameterSet_fits {tagData : List UInt8} {pos length : Nat} (small : length ≤ maxFrameHeadSize)
    (inside : pos + length ≤ tagData.length) :
    parameterSet tagData pos length = some ((tagData.drop pos).take length) := if_pos ⟨small, inside⟩

theorem getFlvH264Tag_fits {tagData : List UInt8} (fits : H264Fits tagData) (h264Tag : FlvH264Tag) :
    ∃ ret tag, getFlvH264Tag tagData h264Tag = some (ret, tag) ∧
      (ret ≠ -1 → tagData.getD 0 0 &&& 0x0F = mediaTypeAvc) ∧
      (tagData.getD 0 0 &&& 0x0F = mediaTypeAvc → ret ≠ -1 ∧ tag.avcPacketType = tagData.getD 1 0 ∧
        (tagData.getD 1 0 = flvAvcNaluType → ret = ((tagData.length - 5 : Nat) : Int) ∧
          tag.payload = store h264Tag.payload (tagData.drop 5))) := by
  obtain ⟨one, avc⟩ := fits
  unfold getFlvH264Tag
  rw [getElem?_getD one, Option.bind_eq_bind, Option.bind_some]
  dsimp only
  split
  · next codec =>
    obtain ⟨five, header, other, _⟩ := avc codec
    rw [getElem?_getD (show 1 < tagData.length by omega), getElem?_getD (show 4 < tagData.length by omega),
      Option.bind_eq_bind, Option.bind_some, Option.bind_eq_bind, Option.bind_some]
    split
    · next type =>
      obtain ⟨spsSmall, ppsSmall, fields, pps, payload⟩ := header type
      rw [twoBytes_fits (show 11 + 1 < tagData.length by omega), Option.bind_eq_bind, Option.bind_some,
        parameterSet_fits spsSmall (by omega), Option.bind_some,
        twoBytes_fits (show 14 + lengthField tagData 11 + 1 < tagData.length by omega), Option.bind_some,
        parameterSet_fits ppsSmall pps, Option.bind_some,
        getElem?_getD (show 19 + lengthField tagData 11 < tagData.length by omega), copyPayload_fits payload]
      refine ⟨_, _, rfl, fun _ => codec, fun _ => ⟨by omega, rfl, fun nalu => ?_⟩⟩
      rw [type] at nalu
      exact absurd nalu (by decide)
    · next type =>
      rw [copyPayload_fits (other type)]
      exact ⟨_, _, rfl, fun _ => codec, fun _ => ⟨by omega, rfl, fun _ => ⟨rfl, rfl⟩⟩⟩
  · next codec => exact ⟨_, _, rfl, fun different => absurd rfl different, fun same => absurd same codec⟩

theorem h264StreamBuffer_fits {tagData : List UInt8} {h264Tag : FlvH264Tag}
    (payload : h264Tag.payload = store Decoder.start.h264Tag.payload (tagData.drop 5))
    (sei : tagData.getD 9 0 = 0x06 → 4 + lengthField tagData 7 + 3 < tagData.length - 5 + 1024) :
    ∃ buffer, h264StreamBuffer h264Tag (tagData.length - 5) = some buffer := by
  have byte : ∀ i, h264Tag.payload i = tagData.getD (5 + i) 0 := by
    intro i
    rw [payload, store, List.getElem?_drop, List.getD_eq_getElem?_getD]
    rfl
  unfold h264StreamBuffer
  rw [byte 4, byte 2, byte 3]
  dsimp only
  split
  · next type =>
    have short := sei type
    unfold lengthField at short
    rw [if_pos short]
    exact ⟨_, rfl⟩
  · exact ⟨_, rfl⟩

theorem handleVideo_fits {tagData : List UInt8} (fits : H264Fits tagData) :
    ∃ d frames, Decoder.start.handleVideo tagData = some (d, frames) ∧
      (tagData.getD 0 0 &&& 0x0F = mediaTypeAvc → tagData.getD 1 0 = flvAvcNaluType → frames.avc ≠ []) := by
  obtain ⟨ret, tag, taken, codec, avc⟩ := getFlvH264Tag_fits fits Decoder.start.h264Tag
  unfold Decoder.handleVideo
  rw [taken, Option.bind_eq_bind, Option.bind_some]
  dsimp only
  split
  · next other => exact ⟨_, _, rfl, fun same => absurd other (avc same).1⟩
  · next known =>
    obtain ⟨_, type, nalu⟩ := avc (codec known)
    rw [type]
    split
    · next header =>
      refine ⟨_, _, rfl, fun _ picture => ?_⟩
      rw [header] at picture
      exact absurd picture (by decide)
    · split
      · next picture =>
        obtain ⟨length, payload⟩ := nalu picture
        obtain ⟨buffer, built⟩ := h264StreamBuffer_fits payload ((fits.2 (codec known)).2.2.2 picture)
        rw [length, Int.toNat_natCast, built, Option.bind_eq_bind, Option.bind_some]
        split
        · exact ⟨_, _, rfl, fun _ _ => List.cons_ne_nil _ _⟩
        · exact ⟨_, _, rfl, fun _ _ => List.cons_ne_nil _ _⟩
      · next other => exact ⟨_, _, rfl, fun _ picture => absurd picture other⟩

/-- The first tag of a stream is handled where it fits, and a picture leaves a frame in the queue. -/
theorem handleTag_fits {tag : FlvTag} (fits : tag.Fits) :
    ∃ d frames, Decoder.start.handleTag tag.header tag.data = some (d, frames) ∧ (tag.IsPicture → frames.avc ≠ []) := by
  unfold Decoder.handleTag
  split
  · next audio =>
    obtain ⟨d, frames, handled⟩ := handleAudio_fits (fits.1 audio) .start
    refine ⟨d, frames, handled, fun picture => ?_⟩
    rw [picture.1] at audio
    exact absurd audio (by decide)
  · split
    · next video =>
      obtain ⟨d, frames, handled, picture⟩ := handleVideo_fits (fits.2 video)
      exact ⟨d, frames, handled, fun is => picture is.2.1 is.2.2⟩
    · next other => exact ⟨_, _, rfl, fun picture => absurd picture.1 other⟩

theorem mem_framesOf {d d' : Decoder} {tag : FlvTag} {tags : List FlvTag} {frames : Frames} {frame : TsPesFrame}
    (handled : d.handleTag tag.header tag.data = some (d', frames)) (member : frame ∈ frames.aac ++ frames.avc) :
    frame.frameBuffer ∈ framesOf d (tag :: tags) := by
  unfold framesOf
  rw [handled]
  exact List.mem_append_left _ (List.mem_map_of_mem member)

/-! ### What a tag is made into -/

theorem getD_of_getElem? {l : List UInt8} {i : Nat} {b : UInt8} (known : l[i]? = some b) : l.getD i 0 = b := by
  rw [List.getD_eq_getElem?_getD, known, Option.getD_some]

theorem copyPayload_count {tagData payload : List UInt8} {pos size : Nat} {count : Int}
    (copied : copyPayload tagData pos size = some (count, payload)) : count ≠ -1 := by
  rw [copyPayload] at copied
  split at copied
  · cases copied
    omega
  · cases copied

theorem getFlvAacTag_type {tagData : List UInt8} {aacTag aacTag' : FlvAacTag} {size : Int}
    (read : getFlvAacTag tagData aacTag = some (size, aacTag')) :
    (size ≠ -1 ↔ tagData.getD 0 0 >>> 4 = mediaTypeAac) ∧ (size ≠ -1 → aacTag'.aacPacketType = tagData.getD 1 0) := by
  obtain ⟨first, known, read⟩ := Option.bind_eq_some_iff.mp read
  rw [getD_of_getElem? known]
  dsimp only at read
  split at read
  · next aac =>
    obtain ⟨type, second, read⟩ := Option.bind_eq_some_iff.mp read
    rw [getD_of_getElem? second]
    split at read
    · obtain ⟨_, _, read⟩ := Option.bind_eq_some_iff.mp read
      obtain ⟨_, _, read⟩ := Option.bind_eq_some_iff.mp read
      obtain ⟨⟨count, payload⟩, copy, read⟩ := Option.bind_eq_some_iff.mp read
      cases read
      exact ⟨iff_of_true (copyPayload_count copy) aac, fun _ => rfl⟩
    · obtain ⟨⟨count, payload⟩, copy, read⟩ := Option.bind_eq_some_iff.mp read
      cases read
      exact ⟨iff_of_true (copyPayload_count copy) aac, fun _ => rfl⟩
  · next other =>
    cases read
    exact ⟨iff_of_false (fun differ => differ rfl) other, fun differ => absurd rfl differ⟩

theorem getFlvH264Tag_type {tagData : List UInt8} {h264Tag h264Tag' : FlvH264Tag} {size : Int}
    (read : getFlvH264Tag tagData h264Tag = some (size, h264Tag')) :
    (size ≠ -1 ↔ tagData.getD 0 0 &&& 0x0F = mediaTypeAvc) ∧ h264Tag'.frameType = tagData.getD 0 0 >>> 4 ∧
      (size ≠ -1 → h264Tag'.avcPacketType = tagData.getD 1 0) := by
  obtain ⟨first, known, read⟩ := Option.bind_eq_some_iff.mp read
  rw [getD_of_getElem? known]
  dsimp only at read
  split at read
  · next avc =>
    obtain ⟨type, second, read⟩ := Option.bind_eq_some_iff.mp read
    obtain ⟨_, _, read⟩ := Option.bind_eq_some_iff.mp read
    rw [getD_of_getElem? second]
    split at read
    · obtain ⟨spsLength, _, read⟩ := Option.bind_eq_some_iff.mp read
      obtain ⟨sps, _, read⟩ := Option.bind_eq_some_iff.mp read
      obtain ⟨ppsLength, _, read⟩ := Option.bind_eq_some_iff.mp read
      obtain ⟨pps, _, read⟩ := Option.bind_eq_some_iff.mp read
      obtain ⟨_, _, read⟩ := Option.bind_eq_some_iff.mp read
      obtain ⟨⟨count, payload⟩, copy, read⟩ := Option.bind_eq_some_iff.mp read
      cases read
      exact ⟨iff_of_true (copyPayload_count copy) avc, rfl, fun _ => rfl⟩
    · obtain ⟨⟨count, payload⟩, copy, read⟩ := Option.bind_eq_some_iff.mp read
      cases read
      exact ⟨iff_of_true (copyPayload_count copy) avc, rfl, fun _ => rfl⟩
  · next other =>
    cases read
    exact ⟨iff_of_false (fun differ => differ rfl) other, rfl, fun differ => absurd rfl differ⟩

theorem handleVideo_spec {d d' : Decoder} {tagData : List UInt8} {frames : Frames}
    (handled : d.handleVideo tagData = some (d', frames)) :
    frames.aac = [] ∧ frames.avc.length =
      if tagData.getD 0 0 &&& 0x0F = mediaTypeAvc ∧ tagData.getD 1 0 = flvAvcNaluType then
        if tagData.getD 0 0 >>> 4 = flvKeyFrame then 3 else 1
      else 0 := by
  obtain ⟨⟨size, next⟩, read, rest⟩ := Option.bind_eq_some_iff.mp handled
  obtain ⟨codec, frameType, type⟩ := getFlvH264Tag_type read
  dsimp only at rest
  split at rest
  · next other =>
    cases rest
    rw [if_neg fun both => codec.mpr both.1 other]
    exact ⟨rfl, rfl⟩
  · next avc =>
    rw [type avc, frameType] at rest
    split at rest
    · next header =>
      cases rest
      rw [header, if_neg fun both => absurd both.2 (by decide)]
      exact ⟨rfl, rfl⟩
    · split at rest
      · next nalu =>
        obtain ⟨buffer, built, rest⟩ := Option.bind_eq_some_iff.mp rest
        rw [if_pos ⟨codec.mp avc, nalu⟩]
        split at rest
        · next key =>
          cases rest
          exact ⟨rfl, (if_pos key).symm⟩
        · next key =>
          cases rest
          exact ⟨rfl, (if_neg key).symm⟩
      · next other =>
        cases rest
        rw [if_neg fun both => other both.2]
        exact ⟨rfl, rfl⟩

end LiveStreaming.HappyHls
