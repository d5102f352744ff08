import LiveStreaming.FlvMux.VideoTag
import LiveStreaming.HappyHls.TagBounds

/-!
# The parameter sets from one program to the other

`Create_AVCDecoderConfigurationRecord` of flv-mux ends with the picture parameter set. `get_flv_h264_tag` reads four
bytes more that it takes for the fields of an extension, from where that set begins, and a set that is shorter leaves a
size below zero for the rest.
-/

namespace LiveStreaming.HappyHls
open Library
open FlvMux (Nalu videoTag createAVCDecoderConfigurationRecord)

variable {tagData : List UInt8} {sps pps : Nalu}

/-- What a configuration record that fits is taken apart into. -/
theorem getFlvH264Tag_sets (avc : tagData.getD 0 0 &&& 0x0F = mediaTypeAvc)
    (type : tagData.getD 1 0 = avcSequenceHeaderType)
    (fits : ConfigurationFits tagData (lengthField tagData 11) (lengthField tagData (14 + lengthField tagData 11)))
    (h264Tag : FlvH264Tag) : ∃ ret tag, getFlvH264Tag tagData h264Tag = some (ret, tag) ∧
      tag.sequenceParameterSet = (tagData.drop 13).take (lengthField tagData 11) ∧
      tag.pictureParameterSet = (tagData.drop (16 + lengthField tagData 11)).take
        (lengthField tagData (14 + lengthField tagData 11)) := by
  obtain ⟨spsSmall, ppsSmall, fields, inside, payload⟩ := fits
  unfold getFlvH264Tag
  rw [getElem?_getD (show 0 < tagData.length by omega), Option.bind_eq_bind, Option.bind_some]
  dsimp only
  rw [if_pos avc, getElem?_getD (show 1 < tagData.length by omega), getElem?_getD (show 4 < tagData.length by omega),
    Option.bind_eq_bind, Option.bind_some, Option.bind_eq_bind, Option.bind_some, if_pos type,
    twoBytes_fits (show 11 + 1 < tagData.length by omega), Option.bind_eq_bind, Option.bind_some,
    parameterSet_fits spsSmall (by omega), Option.bind_some,
    twoBytes_fits (show 14 + lengthField tagData 11 + 1 < tagData.length by omega), Option.bind_some,
    parameterSet_fits ppsSmall inside, Option.bind_some,
    getElem?_getD (show 19 + lengthField tagData 11 < tagData.length by omega), copyPayload_fits payload]
  exact ⟨_, _, rfl, rfl, rfl⟩

/-- Two bytes with a length, the higher one first. -/
def lengthBytes (n : Nat) : List UInt8 := [UInt8.ofNat (n >>> 8), UInt8.ofNat n]

theorem lengthField_append {n : Nat} (small : n < 2 ^ 16) (front rest : List UInt8) :
    lengthField (front ++ (lengthBytes n ++ rest)) front.length = n := by
  have high : (front ++ (lengthBytes n ++ rest)).getD front.length 0 = UInt8.ofNat (n >>> 8) := by
    simp [lengthBytes, List.getD_eq_getElem?_getD]
  have low : (front ++ (lengthBytes n ++ rest)).getD (front.length + 1) 0 = UInt8.ofNat n := by
    simp [lengthBytes, List.getD_eq_getElem?_getD]
  rw [lengthField, high, low, UInt8.toNat_ofNat', UInt8.toNat_ofNat', Nat.shiftRight_eq_div_pow,
    ← Nat.shiftLeft_add_eq_or_of_lt (Nat.mod_lt _ (by decide)), Nat.shiftLeft_eq]
  omega

/-- The bytes of a sequence header before the length of the sequence parameter set. -/
def recordFront (sps : Nalu) : List UInt8 :=
  [0x17, 0x00, 0x00, 0x00, 0x00, 0x01, sps.buf.getD 1 0, sps.buf.getD 2 0, sps.buf.getD 3 0, 0xFF, 0xE1]

/-- The data of a tag with a configuration record. -/
def recordData (sps pps : Nalu) : List UInt8 :=
  recordFront sps ++ (lengthBytes sps.len ++ (sps.buf.take sps.len ++
    ([0x01] ++ (lengthBytes pps.len ++ pps.buf.take pps.len))))

theorem drop_videoTag (spsSmall : sps.len ≤ 1024) (ppsSmall : pps.len ≤ 1024) (timestamp : UInt32) :
    ∃ record, createAVCDecoderConfigurationRecord sps pps = .ok record ∧
      (videoTag timestamp 0x01 avcSequenceHeaderType record).drop tagHeaderSize = recordData sps pps := by
  refine ⟨_, if_neg (by rw [FlvMux.maxParameterSetSize]; omega), ?_⟩
  simp [recordData, recordFront, lengthBytes, videoTag, FlvMux.tagHeader, tagHeaderSize, avcSequenceHeaderType]
  decide

theorem length_recordData (spsFilled : sps.len ≤ sps.buf.length) (ppsFilled : pps.len ≤ pps.buf.length) :
    (recordData sps pps).length = 16 + sps.len + pps.len := by
  simp only [recordData, recordFront, lengthBytes, List.length_append, List.length_cons, List.length_nil,
    List.length_take_of_le spsFilled, List.length_take_of_le ppsFilled]
  omega

theorem recordData_sps (spsFilled : sps.len ≤ sps.buf.length) (spsSmall : sps.len ≤ 1024) :
    lengthField (recordData sps pps) 11 = sps.len ∧
      ((recordData sps pps).drop 13).take sps.len = sps.buf.take sps.len := by
  constructor
  · exact lengthField_append (by omega) (recordFront sps) _
  · exact List.take_left' (List.length_take_of_le spsFilled)

theorem recordData_pps (spsFilled : sps.len ≤ sps.buf.length) (ppsSmall : pps.len ≤ 1024) :
    lengthField (recordData sps pps) (14 + sps.len) = pps.len ∧
      ((recordData sps pps).drop (16 + sps.len)).take pps.len = pps.buf.take pps.len := by
  have front : (recordFront sps ++ lengthBytes sps.len ++ sps.buf.take sps.len ++ [0x01]).length = 14 + sps.len := by
    simp only [recordFront, lengthBytes, List.length_append, List.length_cons, List.length_nil,
      List.length_take_of_le spsFilled]
    omega
  have split : recordData sps pps = recordFront sps ++ lengthBytes sps.len ++ sps.buf.take sps.len ++ [0x01] ++
      (lengthBytes pps.len ++ pps.buf.take pps.len) := by
    simp only [recordData, List.append_assoc]
  rw [split]
  constructor
  · rw [← front]
    exact lengthField_append (by omega) _ _
  · rw [← List.append_assoc, List.drop_left' (by rw [List.length_append, front]; simp [lengthBytes]; omega),
      List.take_take, Nat.min_self]

/-- The parameter sets are recovered exactly if the picture parameter set has at least four bytes. -/
theorem parameterSets_recovered_iff (spsFilled : sps.len ≤ sps.buf.length) (spsSmall : sps.len ≤ 1024)
    (ppsFilled : pps.len ≤ pps.buf.length) (ppsSmall : pps.len ≤ 1024) (timestamp : UInt32) (h264Tag : FlvH264Tag) :
    (∃ record ret tag, createAVCDecoderConfigurationRecord sps pps = .ok record ∧
      getFlvH264Tag ((videoTag timestamp 0x01 avcSequenceHeaderType record).drop tagHeaderSize) h264Tag =
        some (ret, tag) ∧
      tag.sequenceParameterSet = sps.buf.take sps.len ∧ tag.pictureParameterSet = pps.buf.take pps.len) ↔
    4 ≤ pps.len := by
  obtain ⟨record, made, data⟩ := drop_videoTag spsSmall ppsSmall timestamp
  have length := length_recordData spsFilled ppsFilled
  have first := @recordData_sps sps pps spsFilled spsSmall
  have second := @recordData_pps sps pps spsFilled ppsSmall
  have avc : (recordData sps pps).getD 0 0 &&& 0x0F = mediaTypeAvc := show (0x17 : UInt8) &&& 0x0F = 0x07 by decide
  have type : (recordData sps pps).getD 1 0 = avcSequenceHeaderType := rfl
  have fits : ConfigurationFits (recordData sps pps) (lengthField (recordData sps pps) 11)
      (lengthField (recordData sps pps) (14 + lengthField (recordData sps pps) 11)) ↔ 4 ≤ pps.len := by
    rw [first.1, second.1, ConfigurationFits, length, maxFrameHeadSize, oneVideoFrameSize]
    omega
  constructor
  · rintro ⟨_, ret, tag, made', read, -, -⟩
    obtain rfl := Except.ok.inj (made.symm.trans made')
    rw [data] at read
    have some := getFlvH264Tag_isSome (recordData sps pps) h264Tag
    rw [read] at some
    exact fits.mp (((some.mp rfl).2 avc).2.1 type)
  · intro long
    obtain ⟨ret, tag, read, sequence, picture⟩ := getFlvH264Tag_sets avc type (fits.mpr long) h264Tag
    rw [first.1] at sequence picture
    rw [second.1] at picture
    exact ⟨record, ret, tag, made, by rw [data]; exact read, sequence.trans first.2, picture.trans second.2⟩

/-- A set of four bytes is the shortest one that is recovered. -/
theorem parameterSets_recovered_sample : ∃ record ret tag,
    createAVCDecoderConfigurationRecord ⟨4, [0x67, 0x42, 0x00, 0x1E], 7⟩ ⟨4, [0x68, 0xCE, 0x3C, 0x80], 8⟩ = .ok record ∧
      getFlvH264Tag ((videoTag 0 0x01 avcSequenceHeaderType record).drop tagHeaderSize) Decoder.start.h264Tag =
        some (ret, tag) ∧
      tag.sequenceParameterSet = [0x67, 0x42, 0x00, 0x1E] ∧ tag.pictureParameterSet = [0x68, 0xCE, 0x3C, 0x80] :=
  (@parameterSets_recovered_iff ⟨4, [0x67, 0x42, 0x00, 0x1E], 7⟩ ⟨4, [0x68, 0xCE, 0x3C, 0x80], 8⟩ (by decide)
    (by decide) (by decide) (by decide) 0 Decoder.start.h264Tag).mpr (by decide)

theorem parameterSets_refuted : ¬ ∀ (sps pps : Nalu) (timestamp : UInt32) (h264Tag : FlvH264Tag),
    sps.len ≤ sps.buf.length → 4 ≤ sps.len → sps.len ≤ 1024 → pps.len ≤ pps.buf.length → pps.len ≤ 1024 →
    ∃ record ret tag, createAVCDecoderConfigurationRecord sps pps = .ok record ∧
      getFlvH264Tag ((videoTag timestamp 0x01 avcSequenceHeaderType record).drop tagHeaderSize) h264Tag =
        some (ret, tag) ∧
      tag.sequenceParameterSet = sps.buf.take sps.len ∧ tag.pictureParameterSet = pps.buf.take pps.len := by
  intro recovered
  obtain ⟨record, ret, tag, made, read, -⟩ := recovered ⟨4, [0x67, 0x42, 0x00, 0x1E], 7⟩ ⟨2, [0x68, 0xCE], 8⟩ 0
    Decoder.start.h264Tag (by decide) (by decide) (by decide) (by decide) (by decide)
  obtain rfl := Except.ok.inj made
  have some := (getFlvH264Tag_isSome _ _).mp (congrArg Option.isSome read)
  exact absurd ((some.2 (by decide)).2.1 (by decide)).2.2.1 (by decide)

end LiveStreaming.HappyHls
