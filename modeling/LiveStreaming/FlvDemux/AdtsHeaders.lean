import LiveStreaming.HappyHls.AacFile

/-!
# The headers of AAC frames

Both `receive_stream_cb` of happy-hls and `read_flv_tag_data` of flv-demux put an ADTS header in front of the payload
of an audio tag, by the fields of the sequence header that came before.
-/

namespace LiveStreaming.FlvDemux
open Library HappyHls

def adtsHeaderbuf (samplingFrequencyIndex channelConfiguration : UInt8) (aacFrameLength : Nat) : List UInt8 :=
  [0xFF, 0xF1, (0x01 : UInt8) <<< 6 ||| samplingFrequencyIndex <<< 2 ||| channelConfiguration >>> 7,
    channelConfiguration <<< 6 ||| UInt8.ofNat ((aacFrameLength &&& 0x1800) >>> 11),
    UInt8.ofNat ((aacFrameLength &&& 0x7F8) >>> 3), UInt8.ofNat ((aacFrameLength &&& 0x7) <<< 5 ||| 0x1F), 0xFC]

/-- An audio tag in `read_flv_tag_data`: the fields that are kept, and what is written to the AAC file. -/
def readAudioTag (tagData : List UInt8) (aacTag : FlvAacTag) : Option (FlvAacTag × List UInt8) := do
  let (payloadSize, aacTag) ← getFlvAacTag tagData aacTag
  if payloadSize ≠ -1 ∧ aacTag.aacPacketType = flvAacRawType then
    let header := adtsHeaderbuf aacTag.samplingFrequencyIndex aacTag.channelConfiguration (payloadSize.toNat + 7)
    some (aacTag, header ++ aacTag.payload)
  else some (aacTag, [])

structure AudioSpecificConfig where
  audioObjectType : Fin 32
  samplingFrequencyIndex : Fin 16
  channelConfiguration : Fin 16
  flags : Fin 8

def AudioSpecificConfig.bytes (config : AudioSpecificConfig) : List UInt8 :=
  [UInt8.ofNat (config.audioObjectType * 8 + config.samplingFrequencyIndex / 2),
    UInt8.ofNat (config.samplingFrequencyIndex % 2 * 128 + config.channelConfiguration * 8 + config.flags)]

/-- The data of a tag of AAC sound. -/
def aacTagData (sound : Fin 16) (packetType : UInt8) (rest : List UInt8) : List UInt8 :=
  UInt8.ofNat (160 + sound) :: packetType :: rest

/-- What the two programs make of a tag behind the tag of its sequence header. -/
inductive Framed (config : AudioSpecificConfig) (payload : List UInt8) : List UInt8 → Prop where
  | happyHls {d d₁ d₂ : Decoder} {sound sound' : Fin 16} {more written : List UInt8} {frames : Frames}
      (configured : d.handleAudio (aacTagData sound 0 (config.bytes ++ more)) = some (d₁, frames))
      (framed : d₁.handleAudio (aacTagData sound' 1 payload) = some (d₂, ⟨[⟨written, some false⟩], []⟩)) :
      Framed config payload written
  | flvDemux {aacTag aacTag₁ aacTag₂ : FlvAacTag} {sound sound' : Fin 16} {more before written : List UInt8}
      (configured : readAudioTag (aacTagData sound 0 (config.bytes ++ more)) aacTag = some (aacTag₁, before))
      (framed : readAudioTag (aacTagData sound' 1 payload) aacTag₁ = some (aacTag₂, written)) :
      Framed config payload written

/-- `aac.cpp` reads the fields and the payload back, whatever follows in the file. -/
structure ReadsBack (config : AudioSpecificConfig) (payload written : List UInt8) : Prop where
  header : ∀ rest buffer, ∃ adtsHeader buffer' file,
    obtainAacAdtsHeader (written ++ rest) buffer = (.ok, adtsHeader, buffer', file) ∧
      adtsHeader.sfIndex.toNat = config.samplingFrequencyIndex ∧
      adtsHeader.channelConfiguration.toNat = config.channelConfiguration ∧
      adtsHeader.aacFrameLength.toNat = payload.length + 7
  frame : ∀ rest buffer frameLength, ∃ frame,
    readAacFrame (written ++ rest) buffer frameLength = some ⟨.ok, frame, payload.length + 7, rest⟩ ∧
      slice frame 7 payload.length = payload

variable {config : AudioSpecificConfig} {payload : List UInt8}

theorem sound_aac (sound : Fin 16) : UInt8.ofNat (160 + sound) >>> 4 = mediaTypeAac := by
  have all : ∀ sound : Fin 16, UInt8.ofNat (160 + sound) >>> 4 = mediaTypeAac := by decide
  exact all sound

/-- The fields of the two bytes. -/
theorem config_fields (config : AudioSpecificConfig) :
    (UInt8.ofNat (config.audioObjectType * 8 + config.samplingFrequencyIndex / 2) &&& 0x07) <<< 1 |||
        UInt8.ofNat (config.samplingFrequencyIndex % 2 * 128 + config.channelConfiguration * 8 + config.flags) >>> 7 =
      UInt8.ofNat config.samplingFrequencyIndex ∧
    UInt8.ofNat (config.samplingFrequencyIndex % 2 * 128 + config.channelConfiguration * 8 + config.flags) >>> 3 &&&
      0x0F =
      UInt8.ofNat config.channelConfiguration := by
  obtain ⟨⟨type, _⟩, ⟨index, _⟩, ⟨channels, _⟩, ⟨flags, _⟩⟩ := config
  dsimp only
  have first : (type * 8 + index / 2) % 256 = type * 8 + index / 2 := by omega
  have second : (index % 2 * 128 + channels * 8 + flags) % 256 = index % 2 * 128 + channels * 8 + flags := by omega
  constructor
  · have low : (type * 8 + index / 2) &&& 7 = (type * 8 + index / 2) % 8 := Nat.and_two_pow_sub_one_eq_mod _ 3
    have left : (((type * 8 + index / 2) % 8) <<< 1) % 256 = index / 2 * 2 ^ 1 := by omega
    have right : (index % 2 * 128 + channels * 8 + flags) >>> 7 = index % 2 := by omega
    apply UInt8.toNat_inj.mp
    simp only [UInt8.toNat_or, UInt8.toNat_shiftLeft, UInt8.toNat_and, UInt8.toNat_ofNat', UInt8.toNat_shiftRight]
    show (((type * 8 + index / 2) % 256 &&& 7) <<< 1) % 256 |||
      ((index % 2 * 128 + channels * 8 + flags) % 256) >>> 7 = index % 256
    rw [first, second, low, left, right]
    exact (@or_below (index % 2) 1 (index / 2) (by omega)).trans (by omega)
  · have middle : (index % 2 * 128 + channels * 8 + flags) >>> 3 &&& 15 =
        ((index % 2 * 128 + channels * 8 + flags) >>> 3) % 16 := Nat.and_two_pow_sub_one_eq_mod _ 4
    apply UInt8.toNat_inj.mp
    simp only [UInt8.toNat_and, UInt8.toNat_ofNat', UInt8.toNat_shiftRight]
    show ((index % 2 * 128 + channels * 8 + flags) % 256) >>> 3 &&& 15 = channels % 256
    rw [second, middle]
    omega

theorem getFlvAacTag_configured {sound : Fin 16} {more : List UInt8} {aacTag aacTag' : FlvAacTag} {size : Int}
    (read : getFlvAacTag (aacTagData sound 0 (config.bytes ++ more)) aacTag = some (size, aacTag')) :
    aacTag'.samplingFrequencyIndex = UInt8.ofNat config.samplingFrequencyIndex ∧
      aacTag'.channelConfiguration = UInt8.ofNat config.channelConfiguration := by
  unfold getFlvAacTag aacTagData AudioSpecificConfig.bytes at read
  simp only [List.getElem?_cons_zero, List.getElem?_cons_succ, Option.bind_eq_bind, Option.bind_some,
    List.cons_append] at read
  rw [if_pos (sound_aac sound), if_pos (by decide)] at read
  obtain ⟨_, _, same⟩ := Option.bind_eq_some_iff.mp read
  obtain rfl := (Prod.mk.inj (Option.some.inj same)).2
  exact config_fields config

theorem getFlvAacTag_raw {sound : Fin 16} {aacTag aacTag' : FlvAacTag} {size : Int}
    (read : getFlvAacTag (aacTagData sound 1 payload) aacTag = some (size, aacTag')) :
    size = payload.length ∧ aacTag' = { aacTag with aacPacketType := 1, payload } := by
  unfold getFlvAacTag aacTagData at read
  simp only [List.getElem?_cons_zero, List.getElem?_cons_succ, Option.bind_eq_bind, Option.bind_some] at read
  rw [if_pos (sound_aac sound), if_neg (by decide)] at read
  obtain ⟨⟨ret, copied⟩, copy, same⟩ := Option.bind_eq_some_iff.mp read
  obtain ⟨rfl, rfl⟩ := Prod.mk.inj (Option.some.inj same)
  unfold copyPayload at copy
  split at copy
  · obtain ⟨rfl, rfl⟩ := Prod.mk.inj (Option.some.inj copy)
    exact ⟨rfl, rfl⟩
  · simp at copy

theorem readAudioTag_spec {tagData written : List UInt8} {aacTag aacTag' : FlvAacTag}
    (ran : readAudioTag tagData aacTag = some (aacTag', written)) :
    ∃ size, getFlvAacTag tagData aacTag = some (size, aacTag') ∧ written =
      if size ≠ -1 ∧ aacTag'.aacPacketType = flvAacRawType then
        adtsHeaderbuf aacTag'.samplingFrequencyIndex aacTag'.channelConfiguration (size.toNat + 7) ++ aacTag'.payload
      else [] := by
  obtain ⟨⟨size, next⟩, read, rest⟩ := Option.bind_eq_some_iff.mp ran
  dsimp only at rest
  split at rest
  · next raw =>
    obtain ⟨rfl, rfl⟩ := Prod.mk.inj (Option.some.inj rest)
    exact ⟨size, read, (if_pos raw).symm⟩
  · next other =>
    obtain ⟨rfl, rfl⟩ := Prod.mk.inj (Option.some.inj rest)
    exact ⟨size, read, (if_neg other).symm⟩

/-- Both copies of the code write the same. -/
theorem Framed.eq {written : List UInt8} (framed : Framed config payload written) :
    written = adtsHeaderbuf (UInt8.ofNat config.samplingFrequencyIndex) (UInt8.ofNat config.channelConfiguration)
      (payload.length + 7) ++ payload := by
  have size : (payload.length : Int) ≠ -1 := by omega
  cases framed with
  | happyHls configured framed =>
    obtain ⟨_, read, _⟩ := handleAudio_spec configured
    obtain ⟨index, channels⟩ := getFlvAacTag_configured read
    obtain ⟨_, again, written⟩ := handleAudio_spec framed
    obtain ⟨rfl, raw⟩ := getFlvAacTag_raw again
    rw [raw, if_pos ⟨size, rfl⟩] at written
    have frame := congrArg Frames.aac written
    simp only [List.cons.injEq, TsPesFrame.mk.injEq, and_true] at frame
    rw [frame, ← index, ← channels]
    rfl
  | flvDemux configured framed =>
    obtain ⟨_, read, _⟩ := readAudioTag_spec configured
    obtain ⟨index, channels⟩ := getFlvAacTag_configured read
    obtain ⟨_, again, written⟩ := readAudioTag_spec framed
    obtain ⟨rfl, raw⟩ := getFlvAacTag_raw again
    rw [raw, if_pos ⟨size, rfl⟩] at written
    rw [written, ← index, ← channels]
    rfl

/-- The top bit of the channel configuration is shifted out of the third byte. -/
theorem adtsHeaderbuf_eq {index channels n : Nat} (small : index < 16) (few : channels < 16) (fits : n < 2 ^ 13) :
    adtsHeaderbuf (UInt8.ofNat index) (UInt8.ofNat channels) n =
      [0xFF, 0xF1, UInt8.ofNat (64 + index * 4), UInt8.ofNat (channels % 4 * 64 + n / 2048), UInt8.ofNat (n / 8 % 256),
        UInt8.ofNat (n % 8 * 32 + 31), 0xFC] := by
  have second : ∀ index < 16, ∀ channels < 16, (0x01 : UInt8) <<< 6 ||| UInt8.ofNat index <<< 2 |||
      UInt8.ofNat channels >>> 7 = UInt8.ofNat (64 + index * 4) := by decide
  have third : ∀ channels < 16, ∀ k < 4, UInt8.ofNat channels <<< 6 ||| UInt8.ofNat k =
      UInt8.ofNat (channels % 4 * 64 + k) := by decide
  have top : (n &&& 0x1800) >>> 11 = n / 2048 := by
    have low : n >>> 11 &&& 3 = (n >>> 11) % 4 := Nat.and_two_pow_sub_one_eq_mod _ 2
    rw [Nat.shiftRight_and_distrib]
    show n >>> 11 &&& 3 = n / 2048
    rw [low]
    omega
  have middle : (n &&& 0x7F8) >>> 3 = n / 8 % 256 := by
    have low : n >>> 3 &&& 255 = (n >>> 3) % 256 := Nat.and_two_pow_sub_one_eq_mod _ 8
    rw [Nat.shiftRight_and_distrib]
    show n >>> 3 &&& 255 = n / 8 % 256
    rw [low]
    omega
  have bottom : (n &&& 0x7) <<< 5 ||| 0x1F = n % 8 * 32 + 31 := by
    have low : n &&& 7 = n % 8 := Nat.and_two_pow_sub_one_eq_mod _ 3
    rw [low, Nat.shiftLeft_eq]
    exact or_below _ (by decide)
  rw [adtsHeaderbuf, top, middle, bottom, second _ small _ few, third _ few _ (by omega)]

/-- What a reader makes of the header. -/
theorem read_adtsHeaderbuf (buffer : Nat → UInt8) {index channels n : Nat} (small : index < 16) (few : channels < 16)
    (fits : n < 2 ^ 13) :
    let stored := store buffer (adtsHeaderbuf (UInt8.ofNat index) (UInt8.ofNat channels) n)
    syncs stored ∧ (AdtsHeader.read stored).sfIndex.toNat = index ∧
      (AdtsHeader.read stored).channelConfiguration.toNat = channels % 4 ∧
      (AdtsHeader.read stored).aacFrameLength.toNat = n := by
  rw [adtsHeaderbuf_eq small few fits]
  refine ⟨?_, ?_, ?_, ?_⟩
  · show ((0xFF : UInt8) == 0xFF && (0xF1 : UInt8) &&& 0xF0 == 0xF0) = true
    decide
  · rw [read_sfIndex]
    show (UInt8.ofNat (64 + index * 4)).toNat / 4 % 16 = index
    rw [UInt8.toNat_ofNat']
    omega
  · rw [read_channelConfiguration]
    show (UInt8.ofNat (64 + index * 4)).toNat % 2 * 4 + (UInt8.ofNat (channels % 4 * 64 + n / 2048)).toNat / 64 = _
    rw [UInt8.toNat_ofNat', UInt8.toNat_ofNat']
    omega
  · rw [read_aacFrameLength]
    show (UInt8.ofNat (channels % 4 * 64 + n / 2048)).toNat % 4 * 2048 + (UInt8.ofNat (n / 8 % 256)).toNat * 8 +
      (UInt8.ofNat (n % 8 * 32 + 31)).toNat / 32 = n
    rw [UInt8.toNat_ofNat', UInt8.toNat_ofNat', UInt8.toNat_ofNat']
    omega

/-- A configuration of up to three channels is read back, whichever copy wrote it. -/
theorem adts_read_back_iff {written : List UInt8} (framed : Framed config payload written)
    (fits : payload.length + 7 < 2 ^ 13) : ReadsBack config payload written ↔
    (config.channelConfiguration : Nat) < 4 := by
  have fields := fun buffer => read_adtsHeaderbuf buffer config.samplingFrequencyIndex.isLt
    config.channelConfiguration.isLt fits
  obtain rfl := framed.eq
  generalize made : adtsHeaderbuf (UInt8.ofNat config.samplingFrequencyIndex) (UInt8.ofNat config.channelConfiguration)
    (payload.length + 7) = header at fields ⊢
  have seven : header.length = 7 := by
    rw [← made]
    rfl
  have taken : (header ++ payload).take 7 = header := List.take_left' seven
  have length : (header ++ payload).length = payload.length + 7 := by
    rw [List.length_append, seven, Nat.add_comm]
  have headed : adtsHeaderSize ≤ (header ++ payload).length := by
    rw [length]
    exact Nat.le_add_left _ _
  have synced : ∀ buffer, syncs (store buffer ((header ++ payload).take 7)) = true := by
    intro buffer
    rw [taken]
    exact (fields buffer).1
  have obtained := fun rest buffer => obtainAacAdtsHeader_frame buffer (synced buffer) headed rest
  rw [taken] at obtained
  constructor
  · intro back
    obtain ⟨_, _, _, ran, _, same, _⟩ := back.header [] fun _ => 0
    rw [obtained] at ran
    obtain rfl := (Prod.mk.inj (Prod.mk.inj ran).2).1
    rw [(fields _).2.2.1] at same
    omega
  · intro few
    refine ⟨fun rest buffer => ?_, fun rest buffer frameLength => ?_⟩
    · obtain ⟨_, sampling, configured, said⟩ := fields buffer
      exact ⟨_, _, _, obtained rest buffer, sampling, by rw [configured, Nat.mod_eq_of_lt few], said⟩
    · have read := readAacFrame_frame buffer (synced buffer) headed (by rw [taken, (fields buffer).2.2.2, length]) rest
        frameLength
      rw [length] at read
      exact ⟨_, read, by rw [← seven, slice_store]⟩

/-- 44100 Hz. -/
def sampleConfig (channelConfiguration : Fin 16) : AudioSpecificConfig :=
  ⟨(2 : BitVec 5).toFin, (4 : BitVec 4).toFin, channelConfiguration, (0 : BitVec 3).toFin⟩

def sampleWritten (channelConfiguration : UInt8) : List UInt8 :=
  adtsHeaderbuf 4 channelConfiguration 10 ++ [0x21, 0x10, 0x05]

theorem adts_read_back_iff_sample : ReadsBack (sampleConfig 2) [0x21, 0x10, 0x05] (sampleWritten 2) := by
  have framed : Framed (sampleConfig 2) [0x21, 0x10, 0x05] (sampleWritten 2) :=
    @Framed.happyHls _ _ .start _ _ 15 15 [] _ _ rfl rfl
  exact (adts_read_back_iff framed (by decide)).mpr (by decide)

/-- Five channels and the one for low frequencies are read back as two. -/
theorem six_channels_lost : Framed (sampleConfig 6) [0x21, 0x10, 0x05] (sampleWritten 6) ∧
    ¬ ReadsBack (sampleConfig 6) [0x21, 0x10, 0x05] (sampleWritten 6) := by
  refine ⟨@Framed.flvDemux _ _ ⟨0, 0, 0, []⟩ _ _ 15 15 [] _ _ rfl rfl, fun back => ?_⟩
  obtain ⟨adtsHeader, _, _, ran, _, same, _⟩ := back.header [] fun _ => 0
  have read : (obtainAacAdtsHeader (sampleWritten 6 ++ []) fun _ => 0).2.1.channelConfiguration.toNat = 2 := by decide
  rw [ran] at read
  rw [read] at same
  exact absurd same (by decide)

end LiveStreaming.FlvDemux
