import LiveStreaming.FlvMux.Layout

/-!
# The times in the tags

A reader of a tag takes the low 24 bits of its time from `Timestamp` and the others from `TimestampExtended`, which
both writers leave at zero.
-/

namespace LiveStreaming.FlvMux
open Library FlvFile EarlyExit

/-- A tag that is written has the time modulo 24 bits. -/
def Timed (timestamp : UInt32) (tag : List UInt8) : Prop := tag ≠ [] → tagTime tag = timestamp.toNat % 2 ^ 24

variable {timestamp : UInt32}

theorem timed_nil : Timed timestamp [] := fun some => absurd rfl some

theorem tagTime_tagHeader (type : UInt8) (size : Nat) (timestamp : UInt32) (data : List UInt8) :
    tagTime (tagHeader type size timestamp ++ data) = timestamp.toNat % 2 ^ 24 := by
  have high : (timestamp >>> 16).toUInt8.toNat = timestamp.toNat / 2 ^ 16 % 2 ^ 8 := by
    rw [UInt32.toNat_toUInt8, UInt32.toNat_shiftRight, Nat.shiftRight_eq_div_pow]
    rfl
  have middle : (timestamp >>> 8).toUInt8.toNat = timestamp.toNat / 2 ^ 8 % 2 ^ 8 := by
    rw [UInt32.toNat_toUInt8, UInt32.toNat_shiftRight, Nat.shiftRight_eq_div_pow]
    rfl
  have low : timestamp.toUInt8.toNat = timestamp.toNat % 2 ^ 8 := UInt32.toNat_toUInt8 _
  show (0 : UInt8).toNat * 2 ^ 24 + dataSize (timestamp >>> 16).toUInt8 (timestamp >>> 8).toUInt8 timestamp.toUInt8 = _
  rw [dataSize, high, middle, low, UInt8.toNat_zero]
  omega

theorem timed_audioTag (soundRate soundType aacPacketType : UInt8) (frame : List UInt8) :
    Timed timestamp (audioTag timestamp soundRate soundType aacPacketType frame) :=
  fun _ => tagTime_tagHeader _ _ timestamp _

theorem timed_videoTag (frameType avcPacketType : UInt8) (payload : List UInt8) :
    Timed timestamp (videoTag timestamp frameType avcPacketType payload) :=
  fun _ => tagTime_tagHeader _ _ timestamp _

theorem writeStructAacTag_timed (audio : AudioFile) (timestamp : UInt32) (aacPacketType : UInt8)
    (left : UInt8 × UInt8) :
    Ends (fun _ => True) (fun written => Timed timestamp written.1)
      (writeStructAacTag audio timestamp aacPacketType left) := by
  refine ((detachHeadAac_ends audio.rest).mono (fun _ _ => trivial) fun _ read => read).bind ?_
  rintro ⟨_ | header, rest⟩ -
  · exact timed_nil
  · dsimp only
    split
    · exact timed_audioTag _ _ _ _
    · split
      · trivial
      · split
        · exact timed_nil
        · exact timed_audioTag _ _ _ _

theorem writeStructH264Tag_timed (fuel : Nat) (video : VideoFile) (timestamp : UInt32)
    (avcPacketType videoFrameType : UInt8) : Ends (fun _ => True) (fun written => Timed timestamp written.1)
      (writeStructH264Tag fuel video timestamp avcPacketType videoFrameType) := by
  have found (wanted : UInt8) (video : VideoFile) :
      Ends (fun _ => True) (fun _ => True) (findUnit wanted fuel allocNalu video) := by
    cases findUnit wanted fuel allocNalu video <;> trivial
  unfold writeStructH264Tag
  split
  · exact timed_nil
  · split
    · refine (found nalSps video).bind fun sps _ => (found nalPps sps.2).bind fun pps _ => ?_
      dsimp only
      unfold createAVCDecoderConfigurationRecord
      split
      · trivial
      · exact timed_videoTag _ _ _
    · cases nextFrame fuel allocNalu video with
      | error stop => trivial
      | ok next =>
        obtain ⟨_ | n, video'⟩ := next
        · exact timed_nil
        · show Ends _ _ (if _ then _ else _)
          split
          · trivial
          · exact timed_videoTag _ _ _

/-- Either writer keeps a time exactly if it has no more than 24 bits. -/
theorem times_kept_iff (timestamp : UInt32) :
    (∀ audio aacPacketType left tag done audio',
      writeStructAacTag audio timestamp aacPacketType left = .ok (tag, done, audio') → tag ≠ [] →
        (tagTime tag = timestamp.toNat ↔ timestamp.toNat < 2 ^ 24)) ∧
    ∀ fuel video avcPacketType videoFrameType tag written,
      writeStructH264Tag fuel video timestamp avcPacketType videoFrameType = .ok (tag, written) → tag ≠ [] →
        (tagTime tag = timestamp.toNat ↔ timestamp.toNat < 2 ^ 24) := by
  have bound := timestamp.toNat_lt
  have kept {tag : List UInt8} (timed : Timed timestamp tag) (some : tag ≠ []) :
      tagTime tag = timestamp.toNat ↔ timestamp.toNat < 2 ^ 24 := by
    rw [timed some]
    omega
  constructor
  · intro audio aacPacketType left tag done audio' wrote
    exact kept ((writeStructAacTag_timed audio timestamp aacPacketType left).of_ok wrote)
  · intro fuel video avcPacketType videoFrameType tag written wrote
    exact kept ((writeStructH264Tag_timed fuel video timestamp avcPacketType videoFrameType).of_ok wrote)

theorem times_kept_iff_sample : ∃ tag done audio,
    writeStructAacTag ⟨sampleAudio, sampleAudio⟩ 40 0x01 (0, 0) = .ok (tag, done, audio) ∧ tagTime tag = 40 :=
  ⟨_, _, _, rfl, ((times_kept_iff 40).1 ⟨sampleAudio, sampleAudio⟩ 0x01 (0, 0) _ _ _ rfl (by decide)).mpr (by decide)⟩

/-- Four hours and forty minutes after the start, the time begins again. -/
theorem times_refuted :
    (¬ ∀ timestamp audio aacPacketType left tag done audio',
      writeStructAacTag audio timestamp aacPacketType left = .ok (tag, done, audio') → tag ≠ [] →
        tagTime tag = timestamp.toNat) ∧
    ¬ ∀ timestamp fuel video avcPacketType videoFrameType tag written,
      writeStructH264Tag fuel video timestamp avcPacketType videoFrameType = .ok (tag, written) → tag ≠ [] →
        tagTime tag = timestamp.toNat := by
  constructor
  · intro kept
    have time := kept 16777216 ⟨sampleAudio, sampleAudio⟩ 0x01 (0, 0) _ _ _ rfl (by decide)
    exact absurd time (by decide)
  · intro kept
    have time := kept 16777216 3 (.unread sampleVideo) 0x00 0 _ _ rfl (by decide)
    exact absurd time (by decide)

end LiveStreaming.FlvMux
