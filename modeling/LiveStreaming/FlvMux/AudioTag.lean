import LiveStreaming.FlvMux.ScriptTag
import LiveStreaming.Library.EarlyExit

/-!
# Audio tags

`WriteStruct_Aac_Tag` makes a tag of the next frame of the AAC file, or of its first header.
-/

namespace LiveStreaming.FlvMux
open Library FlvFile EarlyExit

def adtsHeaderLength : Nat := 7

structure AdtsHeader where
  sfIndex : UInt8
  channelConfiguration : UInt8
  aacFrameLength : Nat

/-- The AAC file with what has not been read of it. -/
structure AudioFile where
  content : List UInt8
  rest : List UInt8

def adtsHeader (b₂ b₃ b₄ b₅ : UInt8) : AdtsHeader where
  sfIndex := (b₂ &&& 0x3c) >>> 2
  channelConfiguration := (b₂ &&& 0x01) <<< 2 ||| (b₃ &&& 0xc0) >>> 6
  aacFrameLength := (b₃ &&& 0x03).toNat <<< 11 ||| b₄.toNat <<< 3 ||| ((b₅ &&& 0xE0) >>> 5).toNat

/-- `none` at the end of the file. Of a header that is cut off or has no syncword the fields are never set. -/
def detachHeadAac : List UInt8 → Run (Option AdtsHeader × List UInt8)
  | [] => .ok (none, [])
  | b₀ :: b₁ :: b₂ :: b₃ :: b₄ :: b₅ :: _ :: rest =>
    if b₀ = 0xFF ∧ b₁ &&& 0xF0 = 0xF0 then .ok (some (adtsHeader b₂ b₃ b₄ b₅), rest) else .error .undefined
  | _ => .error .undefined

def createAudioSpecificConfig (profile soundRate soundType : UInt8) : List UInt8 :=
  [profile <<< 3 ||| soundRate >>> 1, (soundRate &&& 0x01) <<< 7 ||| soundType <<< 3]

def audioTag (timestamp : UInt32) (soundRate soundType aacPacketType : UInt8) (frame : List UInt8) : List UInt8 :=
  let data := [(0x0A : UInt8) <<< 4 ||| soundRate <<< 2 ||| (0x01 : UInt8) <<< 1 ||| soundType, aacPacketType] ++ frame
  tagHeader 0x08 data.length timestamp ++ data

/-- What the call leaves in the buffer, whether it finds the end of the file, and the file after it. `left` are the
values of `SoundRate` and `SoundType` where they are not set. -/
def writeStructAacTag (audio : AudioFile) (timestamp : UInt32) (aacPacketType : UInt8) (left : UInt8 × UInt8) :
    Run (List UInt8 × Bool × AudioFile) := do
  match ← detachHeadAac audio.rest with
  | (none, rest) => .ok ([], true, { audio with rest })
  | (some header, rest) =>
    let soundRate := if header.sfIndex = 0x04 then 0x03 else left.1
    let soundType := if header.channelConfiguration = 0x02 then 0x01 else left.2
    if aacPacketType = 0x00 then
      let config := createAudioSpecificConfig 0x01 header.sfIndex header.channelConfiguration
      .ok (audioTag timestamp soundRate soundType aacPacketType config, false, { audio with rest := audio.content })
    else if header.aacFrameLength < adtsHeaderLength then .error .undefined
    else
      let size := header.aacFrameLength - adtsHeaderLength
      if rest.length < size then .ok ([], false, { audio with rest := [] })
      else
        .ok (audioTag timestamp soundRate soundType aacPacketType (rest.take size), false,
          { audio with rest := rest.drop size })

theorem aacFrameLength_lt (b₂ b₃ b₄ b₅ : UInt8) : (adtsHeader b₂ b₃ b₄ b₅).aacFrameLength < 2 ^ 13 := by
  unfold adtsHeader
  dsimp only
  have high : (b₃ &&& 0x03).toNat < 2 ^ 2 := by
    rw [UInt8.toNat_and]
    exact lt_of_le_of_lt Nat.and_le_right (by decide)
  have low : ((b₅ &&& 0xE0) >>> 5).toNat < 2 ^ 3 := by
    rw [UInt8.toNat_shiftRight, Nat.shiftRight_eq_div_pow]
    have small := (b₅ &&& 0xE0).toNat_lt
    simp only [UInt8.reduceToNat, Nat.reduceMod]
    omega
  have middle := b₄.toNat_lt
  refine Nat.or_lt_two_pow (Nat.or_lt_two_pow ?_ ?_) ?_
  · rw [Nat.shiftLeft_eq]
    omega
  · rw [Nat.shiftLeft_eq]
    omega
  · omega

theorem isTag_audioTag {frame : List UInt8} (bound : frame.length < 2 ^ 13) (timestamp : UInt32)
    (soundRate soundType aacPacketType : UInt8) :
    IsTag (audioTag timestamp soundRate soundType aacPacketType frame) := by
  refine isTag_tagHeader (.inl rfl) ?_ timestamp
  rw [List.length_append]
  simp only [List.length_cons, List.length_nil]
  omega

theorem detachHeadAac_ends (rest : List UInt8) : Ends (· = .undefined)
    (fun read => ∀ header, read.1 = some header → header.aacFrameLength < 2 ^ 13) (detachHeadAac rest) := by
  unfold detachHeadAac
  split
  · rintro header ⟨⟩
  · split
    · rintro header ⟨⟩
      exact aacFrameLength_lt _ _ _ _
    · rfl
  · rfl

/-- A call that finds the end of the file gives nothing. -/
theorem writeStructAacTag_ends (audio : AudioFile) (timestamp : UInt32) (aacPacketType : UInt8) (left : UInt8 × UInt8) :
    Ends (· = .undefined)
      (fun written => (written.1 = [] ∨ IsTag written.1 ∧ written.1.head? = some 0x08) ∧ (written.2.1 → written.1 = []))
      (writeStructAacTag audio timestamp aacPacketType left) := by
  refine (detachHeadAac_ends audio.rest).bind ?_
  rintro ⟨_ | header, rest⟩ bound
  · exact ⟨.inl rfl, fun _ => rfl⟩
  · have frame := bound header rfl
    dsimp only
    split
    · have two : (createAudioSpecificConfig 0x01 header.sfIndex header.channelConfiguration).length < 2 ^ 13 := by
        show 2 < 2 ^ 13
        decide
      exact ⟨.inr ⟨isTag_audioTag two _ _ _ _, rfl⟩, nofun⟩
    · split
      · rfl
      · split
        · exact ⟨.inl rfl, nofun⟩
        · refine ⟨.inr ⟨isTag_audioTag ?_ _ _ _ _, rfl⟩, nofun⟩
          rw [List.length_take]
          omega

end LiveStreaming.FlvMux
