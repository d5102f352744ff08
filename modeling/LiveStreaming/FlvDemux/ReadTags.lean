import LiveStreaming.FlvDemux.AdtsHeaders
import LiveStreaming.FlvDemux.ScriptArray
import LiveStreaming.FlvMux.ScriptTag

/-!
# Reading a file

`read_flv_tag_data` reads tag after tag into one array. A read that gives nothing ends the loop at the end of the file
and is an error before, so that a tag without data is one.
-/

namespace LiveStreaming.FlvDemux
open Library HappyHls FlvMux

def systemError : Int := 99
def fileEof : Int := 97
def flvHeaderSize : Nat := 9
def tagScript : UInt8 := 18
def h264FrameSize : Nat := 65535

/-- A file from its position on, and `feof`. -/
structure InputFile where
  rest : List UInt8
  eof : Bool

/-- `fread`. -/
def InputFile.read (file : InputFile) (n : Nat) : List UInt8 × InputFile :=
  (file.rest.take n, ⟨file.rest.drop n, file.eof || file.rest.length < n⟩)

/-- The variables of `read_flv_tag_data`, which nothing sets before the first tag, and what it has written. -/
structure Demux where
  flvTagHeader : Nat → UInt8
  flvTagData : Nat → UInt8
  aacTag : FlvAacTag
  h264Tag : FlvH264Tag
  ecmaArrayLength : UInt32
  spsBuffer : List UInt8
  ppsBuffer : List UInt8
  h264 : List UInt8
  aac : List UInt8

namespace Demux

/-- `get_flv_aac_tag`, which finds behind a short tag what has been in the array before. -/
def getFlvAacTag (s : Demux) (tagDataSize : Nat) : Option (Int × FlvAacTag) :=
  if s.flvTagData 0 >>> 4 = mediaTypeAac then
    if s.flvTagData 1 = aacSequenceHeaderType then do
      let payload ← copyRest s.flvTagData tagDataSize 3 oneAudioFrameSize
      some (payload.length, ⟨s.flvTagData 1, (s.flvTagData 2 &&& 0x07) <<< 1 ||| s.flvTagData 3 >>> 7,
        s.flvTagData 3 >>> 3 &&& 0x0F, payload⟩)
    else do
      let payload ← copyRest s.flvTagData tagDataSize 2 oneAudioFrameSize
      some (payload.length, { s.aacTag with aacPacketType := s.flvTagData 1, payload })
  else some (-1, s.aacTag)

def handleAudio (s : Demux) (tagDataSize : Nat) : Option Demux := do
  let (payloadSize, aacTag) ← s.getFlvAacTag tagDataSize
  let s := { s with aacTag }
  if payloadSize ≠ -1 ∧ aacTag.aacPacketType = flvAacRawType then
    some { s with aac := s.aac ++ (adtsHeaderbuf aacTag.samplingFrequencyIndex aacTag.channelConfiguration
      (payloadSize.toNat + 7) ++ aacTag.payload) }
  else some s

/-- `get_flv_h264_tag`. -/
def getFlvH264Tag (s : Demux) (tagDataSize : Nat) : Option (Int × FlvH264Tag) :=
  let h264Tag := { s.h264Tag with frameType := s.flvTagData 0 >>> 4 }
  if s.flvTagData 0 &&& 0x0F = mediaTypeAvc then
    let avcPacketType := s.flvTagData 1
    if avcPacketType = avcSequenceHeaderType then
      let spsLength := lengthAt s.flvTagData 11
      let ppsLength := lengthAt s.flvTagData (14 + spsLength)
      if maxFrameHeadSize < spsLength ∨ maxFrameHeadSize < ppsLength then none
      else do
        let payload ← copyRest s.flvTagData tagDataSize (20 + spsLength) oneVideoFrameSize
        some (payload.length, { h264Tag with
          avcPacketType
          sequenceParameterSet := slice s.flvTagData 13 spsLength
          pictureParameterSet := slice s.flvTagData (16 + spsLength) ppsLength
          payload := store h264Tag.payload payload })
    else do
      let payload ← copyRest s.flvTagData tagDataSize 5 oneVideoFrameSize
      some (payload.length, { h264Tag with avcPacketType, payload := store h264Tag.payload payload })
  else some (-1, h264Tag)

/-- The frame of a picture. Of an SEI the payload is copied to `h264_frame`, which nothing reads. -/
def handleVideo (s : Demux) (tagDataSize : Nat) : Option Demux := do
  let (payloadSize, h264Tag) ← s.getFlvH264Tag tagDataSize
  let s := { s with h264Tag }
  if payloadSize = -1 then some s
  else if h264Tag.avcPacketType = avcSequenceHeaderType then
    some { s with spsBuffer := h264Tag.sequenceParameterSet, ppsBuffer := h264Tag.pictureParameterSet }
  else if h264Tag.avcPacketType = flvAvcNaluType then
    if h264Tag.payload 4 = 0x06 ∧ h264FrameSize < payloadSize.toNat then none
    else
      let buffer ← h264StreamBuffer h264Tag payloadSize.toNat
      let sets := if h264Tag.frameType = flvKeyFrame then startCode ++ s.spsBuffer ++ (startCode ++ s.ppsBuffer) else []
      some { s with h264 := s.h264 ++ (sets ++ buffer.take payloadSize.toNat) }
  else some s

/-- The `switch` over the type of a tag. `arryName` is what the stack holds where `get_flv_script_tag` has its array. -/
def handleTag (s : Demux) (arryName : Nat → UInt8) (tagDataSize : Nat) : Option Demux :=
  if s.flvTagHeader 0 = tagAudio then s.handleAudio tagDataSize
  else if s.flvTagHeader 0 = tagVideo then s.handleVideo tagDataSize
  else if s.flvTagHeader 0 = tagScript then do
    let ecmaArrayLength ← getFlvScriptTag s.flvTagData tagDataSize s.ecmaArrayLength arryName
    some { s with ecmaArrayLength }
  else some s

end Demux

/-- A tag as it is handed to the `switch`. -/
abbrev Handed : Type := List UInt8 × List UInt8

/-- The loop of `read_flv_tag_data`: what it returns, and the tags that it has handled. -/
def tagLoop (stack : Nat → Nat → UInt8) : Nat → InputFile → Demux → List Handed → Run (Int × Demux × List Handed)
  | 0, _, _, _ => .error .fuel
  | fuel + 1, file, s, handed =>
    if file.eof then .ok (1, s, handed)
    else
      let (previousTagSize, file) := file.read previousTagSize
      if previousTagSize = [] then .ok (if file.eof then 1 else systemError, s, handed)
      else
        let (header, file) := file.read tagHeaderSize
        let s := { s with flvTagHeader := store s.flvTagHeader header }
        if header = [] then .ok (if file.eof then 1 else systemError, s, handed)
        else
          let tagHeader := slice s.flvTagHeader 0 tagHeaderSize
          let tagDataSize := flvDataSize tagHeader
          let (data, file) := file.read tagDataSize
          if flvFrameSize < data.length then .error .undefined
          else
            let s := { s with flvTagData := store s.flvTagData data }
            if data = [] then .ok (if file.eof then 1 else systemError, s, handed)
            else
              match s.handleTag (stack handed.length) tagDataSize with
              | none => .error .undefined
              | some s' => tagLoop stack fuel file s' (handed ++ [(tagHeader, slice s.flvTagData 0 tagDataSize)])

/-- `read_flv_header` takes any nine bytes. -/
def readFlvTagData (stack : Nat → Nat → UInt8) (fuel : Nat) (file : List UInt8) (s : Demux) :
    Run (Int × Demux × List Handed) :=
  let (flvHeader, file) := (InputFile.mk file false).read flvHeaderSize
  if flvHeader.length ≠ flvHeaderSize then .ok (if file.eof then fileEof else systemError, s, [])
  else tagLoop stack fuel file s []

/-! ### Well-formed files -/

structure FlvFile where
  flvHeader : List UInt8
  tags : List FlvTag
  /-- `PreviousTagSize` behind the last tag. -/
  lastTagSize : List UInt8
  flvHeader_length : flvHeader.length = flvHeaderSize
  lastTagSize_length : lastTagSize.length = previousTagSize

def FlvFile.bytes (file : FlvFile) : List UInt8 :=
  file.flvHeader ++ (file.tags.flatMap FlvTag.bytes ++ file.lastTagSize)

def handedTag (tag : FlvTag) : Handed := (tag.header, tag.data)

/-- Every tag is handled, in order, and the end of the file is reported behind the last one. -/
def FlvFile.Processed (file : FlvFile) (stack : Nat → Nat → UInt8) (s : Demux) : Prop :=
  ∃ s', ∀ fuel > file.tags.length,
    readFlvTagData stack fuel file.bytes s = .ok (1, s', file.tags.map handedTag)

namespace Demux

/-- A tag in the arrays. -/
def load (s : Demux) (tag : FlvTag) : Demux :=
  { s with flvTagHeader := store s.flvTagHeader tag.header, flvTagData := store s.flvTagData tag.data }

def AudioFits (s : Demux) (tagDataSize : Nat) : Prop :=
  s.flvTagData 0 >>> 4 = mediaTypeAac →
    if s.flvTagData 1 = aacSequenceHeaderType then 3 ≤ tagDataSize ∧ tagDataSize ≤ 3 + oneAudioFrameSize
    else 2 ≤ tagDataSize ∧ tagDataSize ≤ 2 + oneAudioFrameSize

/-- Of a payload that begins with an SEI both the copy and the start code behind it have to find room. -/
def SeiFits (payload : Nat → UInt8) (payloadSize : Nat) : Prop :=
  payload 4 = 0x06 → payloadSize ≤ h264FrameSize ∧ 4 + lengthAt payload 2 + 3 < payloadSize + 1024

/-- What the array `Payload` holds behind a loaded picture. -/
def loadedPayload (s : Demux) (tagDataSize : Nat) : Nat → UInt8 :=
  store s.h264Tag.payload (slice s.flvTagData 5 (tagDataSize - 5))

def VideoFits (s : Demux) (tagDataSize : Nat) : Prop :=
  s.flvTagData 0 &&& 0x0F = mediaTypeAvc →
    if s.flvTagData 1 = avcSequenceHeaderType then
      lengthAt s.flvTagData 11 ≤ maxFrameHeadSize ∧
        lengthAt s.flvTagData (14 + lengthAt s.flvTagData 11) ≤ maxFrameHeadSize ∧
        20 + lengthAt s.flvTagData 11 ≤ tagDataSize ∧
        tagDataSize ≤ 20 + lengthAt s.flvTagData 11 + oneVideoFrameSize
    else
      5 ≤ tagDataSize ∧ tagDataSize ≤ 5 + oneVideoFrameSize ∧ (s.flvTagData 1 = flvAvcNaluType →
        SeiFits (s.loadedPayload tagDataSize) (tagDataSize - 5))

/-- A loaded tag whose lengths are true and of which nothing is too long for its array. -/
def TagFits (s : Demux) (arryName : Nat → UInt8) (tagDataSize : Nat) : Prop :=
  (s.flvTagHeader 0 = tagAudio → s.AudioFits tagDataSize) ∧ (s.flvTagHeader 0 = tagVideo → s.VideoFits tagDataSize) ∧
    (s.flvTagHeader 0 = tagScript → (getFlvScriptTag s.flvTagData tagDataSize s.ecmaArrayLength arryName).isSome)

/-- Before a tag: it has data, which the array has room for, and it fits. -/
def Takes (s : Demux) (arryName : Nat → UInt8) (tag : FlvTag) : Prop :=
  tag.data ≠ [] ∧ tag.data.length ≤ flvFrameSize ∧ (s.load tag).TagFits arryName tag.data.length

/-- From the `n`-th tag on, every tag is taken in the state that those before it leave. -/
def TakesAll (stack : Nat → Nat → UInt8) : Nat → Demux → List FlvTag → Prop
  | _, _, [] => True
  | n, s, tag :: tags => s.Takes (stack n) tag ∧
      ∀ s', (s.load tag).handleTag (stack n) tag.data.length = some s' → TakesAll stack (n + 1) s' tags

end Demux

variable {s s' : Demux} {tag : FlvTag} {tags : List FlvTag} {tagDataSize fuel n : Nat} {arryName : Nat → UInt8}
  {stack : Nat → Nat → UInt8} {rest : List UInt8} {handed : List Handed}

/-! ### One tag -/

theorem copyRest_isSome (memory : Nat → UInt8) (pos size : Nat) : (copyRest memory tagDataSize pos size).isSome ↔
    pos ≤ tagDataSize ∧ tagDataSize ≤ pos + size := by
  rw [copyRest]
  by_cases room : pos ≤ tagDataSize ∧ tagDataSize - pos ≤ size
  · rw [if_pos room]
    exact iff_of_true rfl (by omega)
  · rw [if_neg room]
    exact iff_of_false Bool.false_ne_true (by omega)

theorem copyRest_fits {memory : Nat → UInt8} {pos size : Nat} (fits : pos ≤ tagDataSize ∧ tagDataSize ≤ pos + size) :
    copyRest memory tagDataSize pos size = some (slice memory pos (tagDataSize - pos)) := by
  rw [copyRest, if_pos (by omega)]

theorem isSome_bind_some {α β : Type} {x : Option α} {f : α → β} : (x.bind fun a => some (f a)).isSome = x.isSome := by
  cases x with
  | none => rfl
  | some a => rfl

/-- A start code is written where there is room for it. -/
theorem h264StreamBuffer_isSome {h264Tag : FlvH264Tag} {payloadSize : Nat} :
    (h264StreamBuffer h264Tag payloadSize).isSome ↔
      (h264Tag.payload 4 = 0x06 → 4 + lengthAt h264Tag.payload 2 + 3 < payloadSize + 1024) := by
  rw [h264StreamBuffer, lengthAt]
  by_cases sei : h264Tag.payload 4 = 0x06
  · rw [if_pos sei, imp_iff_right sei]
    dsimp only
    by_cases room : 4 + ((h264Tag.payload 2).toNat <<< 8 ||| (h264Tag.payload 3).toNat) + 3 < payloadSize + 1024
    · rw [if_pos room]
      exact iff_of_true rfl room
    · rw [if_neg room]
      exact iff_of_false Bool.false_ne_true room
  · rw [if_neg sei]
    exact iff_of_true rfl fun same => absurd same sei

namespace Demux

theorem getFlvAacTag_isSome : (s.getFlvAacTag tagDataSize).isSome ↔ s.AudioFits tagDataSize := by
  rw [getFlvAacTag, AudioFits]
  by_cases aac : s.flvTagData 0 >>> 4 = mediaTypeAac
  · rw [if_pos aac, imp_iff_right aac]
    by_cases header : s.flvTagData 1 = aacSequenceHeaderType
    · rw [if_pos header, if_pos header, ← copyRest_isSome s.flvTagData]
      exact Bool.eq_iff_iff.mp isSome_bind_some
    · rw [if_neg header, if_neg header, ← copyRest_isSome s.flvTagData]
      exact Bool.eq_iff_iff.mp isSome_bind_some
  · rw [if_neg aac]
    exact iff_of_true rfl fun same => absurd same aac

theorem handleAudio_isSome : (s.handleAudio tagDataSize).isSome ↔ s.AudioFits tagDataSize := by
  rw [← getFlvAacTag_isSome, handleAudio]
  cases s.getFlvAacTag tagDataSize with
  | none => exact Iff.rfl
  | some got =>
    obtain ⟨payloadSize, aacTag⟩ := got
    refine iff_of_true ?_ rfl
    by_cases raw : payloadSize ≠ -1 ∧ aacTag.aacPacketType = flvAacRawType
    · simp [raw]
    · simp [raw]

/-- A tag that is not AVC is left alone. -/
theorem handleVideo_other (codec : s.flvTagData 0 &&& 0x0F ≠ mediaTypeAvc) : (s.handleVideo tagDataSize).isSome := by
  rw [handleVideo, getFlvH264Tag]
  dsimp only
  rw [if_neg codec]
  rfl

theorem handleVideo_configuration (codec : s.flvTagData 0 &&& 0x0F = mediaTypeAvc)
    (header : s.flvTagData 1 = avcSequenceHeaderType) : (s.handleVideo tagDataSize).isSome ↔
      lengthAt s.flvTagData 11 ≤ maxFrameHeadSize ∧
        lengthAt s.flvTagData (14 + lengthAt s.flvTagData 11) ≤ maxFrameHeadSize ∧
        20 + lengthAt s.flvTagData 11 ≤ tagDataSize ∧
        tagDataSize ≤ 20 + lengthAt s.flvTagData 11 + oneVideoFrameSize := by
  rw [handleVideo, getFlvH264Tag]
  dsimp only
  rw [if_pos codec, if_pos header]
  by_cases long : maxFrameHeadSize < lengthAt s.flvTagData 11 ∨
      maxFrameHeadSize < lengthAt s.flvTagData (14 + lengthAt s.flvTagData 11)
  · rw [if_pos long]
    refine iff_of_false Bool.false_ne_true fun fits => ?_
    rcases long with sps | pps
    · exact Nat.not_lt.mpr fits.1 sps
    · exact Nat.not_lt.mpr fits.2.1 pps
  · rw [if_neg long]
    obtain ⟨sps, pps⟩ := not_or.mp long
    rw [and_iff_right (Nat.not_lt.mp sps), and_iff_right (Nat.not_lt.mp pps), ← copyRest_isSome s.flvTagData]
    cases copyRest s.flvTagData tagDataSize (20 + lengthAt s.flvTagData 11) oneVideoFrameSize with
    | none => exact Iff.rfl
    | some payload =>
      refine iff_of_true ?_ rfl
      have known : (payload.length : Int) ≠ -1 := by omega
      simp [header, known]

theorem getFlvH264Tag_picture (codec : s.flvTagData 0 &&& 0x0F = mediaTypeAvc)
    (picture : s.flvTagData 1 ≠ avcSequenceHeaderType)
    (room : 5 ≤ tagDataSize ∧ tagDataSize ≤ 5 + oneVideoFrameSize) :
    s.getFlvH264Tag tagDataSize = some (((tagDataSize - 5 : Nat) : Int), { s.h264Tag with
      frameType := s.flvTagData 0 >>> 4
      avcPacketType := s.flvTagData 1
      payload := s.loadedPayload tagDataSize }) := by
  rw [getFlvH264Tag]
  dsimp only
  rw [if_pos codec, if_neg picture, copyRest_fits room, Option.bind_eq_bind, Option.bind_some, length_slice]
  rfl

theorem getFlvH264Tag_none (codec : s.flvTagData 0 &&& 0x0F = mediaTypeAvc)
    (picture : s.flvTagData 1 ≠ avcSequenceHeaderType)
    (room : ¬ (5 ≤ tagDataSize ∧ tagDataSize ≤ 5 + oneVideoFrameSize)) : s.getFlvH264Tag tagDataSize = none := by
  have none_ : copyRest s.flvTagData tagDataSize 5 oneVideoFrameSize = none :=
    Option.not_isSome_iff_eq_none.mp fun some_ => room ((copyRest_isSome _ _ _).mp some_)
  rw [getFlvH264Tag]
  dsimp only
  rw [if_pos codec, if_neg picture, none_]
  rfl

/-- The frame of a picture is built where its SEI fits. -/
theorem handleVideo_picture (codec : s.flvTagData 0 &&& 0x0F = mediaTypeAvc)
    (picture : s.flvTagData 1 ≠ avcSequenceHeaderType) : (s.handleVideo tagDataSize).isSome ↔
      5 ≤ tagDataSize ∧ tagDataSize ≤ 5 + oneVideoFrameSize ∧ (s.flvTagData 1 = flvAvcNaluType →
        SeiFits (s.loadedPayload tagDataSize) (tagDataSize - 5)) := by
  rw [← and_assoc, handleVideo]
  by_cases room : 5 ≤ tagDataSize ∧ tagDataSize ≤ 5 + oneVideoFrameSize
  · have known : ((tagDataSize - 5 : Nat) : Int) ≠ -1 := by omega
    rw [and_iff_right room, getFlvH264Tag_picture codec picture room, Option.bind_eq_bind, Option.bind_some]
    dsimp only
    rw [if_neg known, if_neg picture, Int.toNat_natCast]
    by_cases unit : s.flvTagData 1 = flvAvcNaluType
    · rw [if_pos unit, imp_iff_right unit, SeiFits]
      by_cases long : s.loadedPayload tagDataSize 4 = 0x06 ∧ h264FrameSize < tagDataSize - 5
      · rw [if_pos long]
        exact iff_of_false Bool.false_ne_true fun fits => Nat.not_lt.mpr (fits long.1).1 long.2
      · rw [if_neg long]
        refine (Bool.eq_iff_iff.mp isSome_bind_some).trans (h264StreamBuffer_isSome.trans ?_)
        refine imp_congr_right fun sei => ?_
        exact (and_iff_right (Nat.not_lt.mp fun larger => long ⟨sei, larger⟩)).symm
    · rw [if_neg unit]
      exact iff_of_true rfl fun same => absurd same unit
  · rw [getFlvH264Tag_none codec picture room]
    exact iff_of_false Bool.false_ne_true fun fits => room fits.1

theorem handleVideo_isSome : (s.handleVideo tagDataSize).isSome ↔ s.VideoFits tagDataSize := by
  rw [VideoFits]
  by_cases codec : s.flvTagData 0 &&& 0x0F = mediaTypeAvc
  · rw [imp_iff_right codec]
    by_cases header : s.flvTagData 1 = avcSequenceHeaderType
    · rw [if_pos header]
      exact handleVideo_configuration codec header
    · rw [if_neg header]
      exact handleVideo_picture codec header
  · exact iff_of_true (handleVideo_other codec) fun same => absurd same codec

/-- A tag is handled exactly if it fits. -/
theorem handleTag_isSome : (s.handleTag arryName tagDataSize).isSome ↔ s.TagFits arryName tagDataSize := by
  have audio_video : tagAudio ≠ tagVideo := by decide
  have audio_script : tagAudio ≠ tagScript := by decide
  have video_script : tagVideo ≠ tagScript := by decide
  rw [handleTag, TagFits]
  by_cases audio : s.flvTagHeader 0 = tagAudio
  · rw [if_pos audio, handleAudio_isSome, audio, imp_iff_right rfl]
    exact (and_iff_left ⟨fun same => absurd same audio_video, fun same => absurd same audio_script⟩).symm
  · rw [if_neg audio, and_iff_right fun same => absurd same audio]
    by_cases video : s.flvTagHeader 0 = tagVideo
    · rw [if_pos video, handleVideo_isSome, video, imp_iff_right rfl]
      exact (and_iff_left fun same => absurd same video_script).symm
    · rw [if_neg video, and_iff_right fun same => absurd same video]
      by_cases script : s.flvTagHeader 0 = tagScript
      · rw [if_pos script, imp_iff_right script]
        exact Bool.eq_iff_iff.mp isSome_bind_some
      · rw [if_neg script]
        exact iff_of_true rfl fun same => absurd same script

end Demux

/-! ### The loop -/

theorem read_front {front : List UInt8} (length : front.length = n) :
    (InputFile.mk (front ++ rest) false).read n = (front, ⟨rest, false⟩) := by
  have enough : ¬ (front ++ rest).length < n := by
    rw [List.length_append]
    omega
  rw [InputFile.read, List.take_left' length, List.drop_left' length, Bool.false_or, decide_eq_false enough]

theorem slice_loaded (memory : Nat → UInt8) (data : List UInt8) : slice (store memory data) 0 data.length = data :=
  slice_store memory [] data

/-- A whole tag is read, and then it is handled, or the loop ends with an error. -/
theorem tagLoop_tag : tagLoop stack (fuel + 1) ⟨tag.bytes ++ rest, false⟩ s handed =
    if flvFrameSize < tag.data.length then .error .undefined
    else if tag.data = [] then .ok (systemError, s.load tag, handed)
    else ((s.load tag).handleTag (stack handed.length) tag.data.length).elim (.error .undefined) fun s' =>
      tagLoop stack fuel ⟨rest, false⟩ s' (handed ++ [handedTag tag]) := by
  have before : tag.previousTagSize ≠ [] := by
    intro none_
    have length := tag.previousTagSize_length
    rw [none_] at length
    exact absurd length (by decide)
  have header : tag.header ≠ [] := by
    intro none_
    have length := tag.header_length
    rw [none_] at length
    exact absurd length (by decide)
  have bytes : tag.bytes ++ rest = tag.previousTagSize ++ (tag.header ++ (tag.data ++ rest)) := by
    rw [FlvTag.bytes, List.append_assoc, List.append_assoc]
  have loaded : slice (store s.flvTagHeader tag.header) 0 tagHeaderSize = tag.header := by
    rw [← tag.header_length]
    exact slice_loaded _ _
  rw [tagLoop, bytes]
  dsimp only
  rw [read_front tag.previousTagSize_length]
  dsimp only
  rw [read_front tag.header_length]
  dsimp only
  rw [loaded, ← tag.data_length, read_front rfl]
  dsimp only
  rw [if_neg Bool.false_ne_true, if_neg before, if_neg header, slice_loaded]
  by_cases long : flvFrameSize < tag.data.length
  · rw [if_pos long, if_pos long]
  · rw [if_neg long, if_neg long]
    by_cases empty : tag.data = []
    · rw [if_pos empty, if_pos empty, if_neg Bool.false_ne_true]
      rfl
    · rw [if_neg empty, if_neg empty]
      cases done : (s.load tag).handleTag (stack handed.length) tag.data.length with
      | none =>
        rw [Demux.load] at done
        rw [done]
        rfl
      | some s' =>
        rw [Demux.load] at done
        rw [done]
        rfl

/-- Behind the last tag the size of that tag is read, and then the end of the file is found. -/
theorem tagLoop_end {lastTagSize : List UInt8} (length : lastTagSize.length = previousTagSize) :
    tagLoop stack (fuel + 1) ⟨lastTagSize, false⟩ s handed = .ok (1, s, handed) := by
  have some_ : lastTagSize ≠ [] := by
    intro none_
    rw [none_] at length
    exact absurd length (by decide)
  have last : (InputFile.mk (lastTagSize ++ []) false).read previousTagSize = (lastTagSize, ⟨[], false⟩) :=
    read_front length
  rw [List.append_nil] at last
  rw [tagLoop]
  dsimp only
  rw [last]
  dsimp only
  rw [if_neg Bool.false_ne_true, if_neg some_]
  rfl

/-- Where the loop comes to the end of the file, the tag in front of it has been taken. -/
theorem takes_of_end {handed' : List Handed} (enough : 0 < fuel)
    (ended : tagLoop stack fuel ⟨tag.bytes ++ rest, false⟩ s handed = .ok (1, s', handed')) :
    s.Takes (stack handed.length) tag := by
  obtain ⟨fuel, rfl⟩ := Nat.exists_eq_add_of_lt enough
  rw [Nat.zero_add, tagLoop_tag] at ended
  by_cases long : flvFrameSize < tag.data.length
  · rw [if_pos long] at ended
    exact absurd ended (by simp)
  · rw [if_neg long] at ended
    by_cases empty : tag.data = []
    · rw [if_pos empty] at ended
      exact absurd (congrArg Prod.fst (Except.ok.inj ended)) (show systemError ≠ 1 by decide)
    · rw [if_neg empty] at ended
      refine ⟨empty, Nat.not_lt.mp long, Demux.handleTag_isSome.mp ?_⟩
      cases done : (s.load tag).handleTag (stack handed.length) tag.data.length with
      | none =>
        rw [done] at ended
        exact absurd ended (by simp)
      | some s₁ => rfl

/-- A tag that is taken is handled, and the loop goes on behind it. -/
theorem tagLoop_takes (takes : s.Takes (stack handed.length) tag) :
    ∃ s₁, (s.load tag).handleTag (stack handed.length) tag.data.length = some s₁ ∧
      ∀ fuel rest, tagLoop stack (fuel + 1) ⟨tag.bytes ++ rest, false⟩ s handed =
        tagLoop stack fuel ⟨rest, false⟩ s₁ (handed ++ [handedTag tag]) := by
  obtain ⟨data, room, fits⟩ := takes
  obtain ⟨s₁, done⟩ := Option.isSome_iff_exists.mp (Demux.handleTag_isSome.mpr fits)
  refine ⟨s₁, done, fun fuel rest => ?_⟩
  rw [tagLoop_tag, if_neg (Nat.not_lt.mpr room), if_neg data, done]
  rfl

/-- By induction on the tags: where each is taken, the loop comes to the end of the file with all of them. -/
theorem tagLoop_of_takesAll {lastTagSize : List UInt8} (length : lastTagSize.length = previousTagSize)
    (all : Demux.TakesAll stack handed.length s tags) :
    ∃ s', ∀ fuel > tags.length, tagLoop stack fuel ⟨tags.flatMap FlvTag.bytes ++ lastTagSize, false⟩ s handed =
      .ok (1, s', handed ++ tags.map handedTag) := by
  induction tags generalizing s handed with
  | nil =>
    refine ⟨s, fun fuel enough => ?_⟩
    obtain ⟨fuel, rfl⟩ := Nat.exists_eq_add_of_lt enough
    rw [List.flatMap_nil, List.nil_append, List.map_nil, List.append_nil]
    exact tagLoop_end length
  | cons tag tags ih =>
    obtain ⟨takes, others⟩ := all
    obtain ⟨s₁, done, step⟩ := tagLoop_takes takes
    have counted : (handed ++ [handedTag tag]).length = handed.length + 1 := List.length_append
    obtain ⟨s', run⟩ := ih (counted ▸ others s₁ done)
    refine ⟨s', fun fuel enough => ?_⟩
    obtain ⟨fuel, rfl⟩ := Nat.exists_eq_add_of_lt enough
    rw [List.flatMap_cons, List.append_assoc, step, run _ (by rw [List.length_cons]; omega), List.map_cons,
      ← List.append_cons]

/-- The end of the file is reported only where every tag has been taken. -/
theorem takesAll_of_end {lastTagSize : List UInt8} {handed' : List Handed} (enough : tags.length < fuel)
    (ended : tagLoop stack fuel ⟨tags.flatMap FlvTag.bytes ++ lastTagSize, false⟩ s handed = .ok (1, s', handed')) :
    Demux.TakesAll stack handed.length s tags := by
  induction tags generalizing fuel s handed with
  | nil => trivial
  | cons tag tags ih =>
    rw [List.flatMap_cons, List.append_assoc] at ended
    have takes := takes_of_end (Nat.zero_lt_of_lt enough) ended
    refine ⟨takes, fun s₁ done => ?_⟩
    obtain ⟨s₂, same, step⟩ := tagLoop_takes takes
    obtain rfl := Option.some.inj (same.symm.trans done)
    obtain ⟨fuel, rfl⟩ := Nat.exists_eq_add_of_lt enough
    rw [step] at ended
    have counted : (handed ++ [handedTag tag]).length = handed.length + 1 := List.length_append
    exact counted ▸ ih (by rw [List.length_cons]; omega) ended

theorem readFlvTagData_bytes (file : FlvFile) :
    readFlvTagData stack fuel file.bytes s =
      tagLoop stack fuel ⟨file.tags.flatMap FlvTag.bytes ++ file.lastTagSize, false⟩ s [] := by
  rw [readFlvTagData, FlvFile.bytes, read_front file.flvHeader_length]
  dsimp only
  rw [if_neg (not_not.mpr file.flvHeader_length)]

/-- Every tag of a file is handled exactly if each has data, which the array has room for, and fits. -/
theorem processed_iff (file : FlvFile) (stack : Nat → Nat → UInt8) (s : Demux) :
    file.Processed stack s ↔ Demux.TakesAll stack 0 s file.tags := by
  constructor
  · rintro ⟨s', run⟩
    have ended := run (file.tags.length + 1) (Nat.lt_succ_self _)
    rw [readFlvTagData_bytes] at ended
    exact takesAll_of_end (Nat.lt_succ_self _) ended
  · intro all
    have fromFirst : Demux.TakesAll stack ([] : List Handed).length s file.tags := all
    obtain ⟨s', run⟩ := tagLoop_of_takesAll file.lastTagSize_length fromFirst
    refine ⟨s', fun fuel enough => ?_⟩
    rw [readFlvTagData_bytes, run fuel enough, List.nil_append]

/-- The variables where the stack holds zeros. -/
def blank : Demux := ⟨fun _ => 0, fun _ => 0, ⟨0, 0, 0, []⟩, ⟨0, 0, [], [], fun _ => 0⟩, 0, [], [], [], []⟩

/-- A sequence header and a frame of sound. -/
def soundFile : FlvFile where
  flvHeader := [0x46, 0x4C, 0x56, 0x01, 0x04, 0x00, 0x00, 0x00, 0x09]
  tags := [⟨[0, 0, 0, 0], [0x08, 0, 0, 4, 0, 0, 0, 0, 0, 0, 0], [0xAF, 0x00, 0x12, 0x10], length_noTagSize, by decide,
      by decide⟩,
    ⟨[0, 0, 0, 0x0F], [0x08, 0, 0, 3, 0, 0, 0, 0, 0, 0, 0], [0xAF, 0x01, 0x21], by decide, by decide, by decide⟩]
  lastTagSize := [0, 0, 0, 0x0E]
  flvHeader_length := by decide
  lastTagSize_length := by decide

example : (readFlvTagData (fun _ _ => 0) 3 soundFile.bytes blank).toOption.map (fun r => (r.1, r.2.2, r.2.1.aac)) =
    some (1, soundFile.tags.map handedTag, [0xFF, 0xF1, 0x50, 0x80, 0x01, 0x1F, 0xFC, 0x21]) := by decide

/-- A video tag without data alone in a file. -/
def emptyTagFile : FlvFile where
  flvHeader := [0x46, 0x4C, 0x56, 0x01, 0x05, 0x00, 0x00, 0x00, 0x09]
  tags := [⟨[0, 0, 0, 0], [0x09, 0, 0, 0, 0, 0, 0, 0, 0, 0, 0], [], length_noTagSize, by decide, by decide⟩]
  lastTagSize := [0, 0, 0, 0x0B]
  flvHeader_length := by decide
  lastTagSize_length := by decide

theorem processed_refuted : ¬ ∀ (file : FlvFile) (stack : Nat → Nat → UInt8) (s : Demux), file.Processed stack s := by
  intro all
  obtain ⟨s', run⟩ := all emptyTagFile (fun _ _ => 0) blank
  have ended := run 2 (by decide)
  rw [readFlvTagData_bytes] at ended
  exact (takesAll_of_end (by decide) ended).1.1 rfl

end LiveStreaming.FlvDemux
