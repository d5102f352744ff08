import LiveStreaming.HappyHls.FlvTags
import LiveStreaming.HappyHls.TsPackets
import Mathlib.Algebra.Ring.Nat

/-!
# What the tag parsers touch

Every byte of a tag that `get_flv_aac_tag` and `get_flv_h264_tag` read, and every element of an array that they write.
What stands in `memory` behind the tag is read like the tag. The sizes that they compute are unsigned, so that a tag
that is too short asks for nearly four gigabytes.
-/

namespace LiveStreaming.HappyHls
open Library

/-- The arrays of `FLV_AAC_TAG` and `FLV_H264_TAG`. -/
inductive TagArray where
  | aacPayload | sequenceParameterSetNALUnit | pictureParameterSetNALUnit | h264Payload
  deriving DecidableEq

def TagArray.size : TagArray → Nat
  | .aacPayload => oneAudioFrameSize
  | .sequenceParameterSetNALUnit => maxFrameHeadSize
  | .pictureParameterSetNALUnit => maxFrameHeadSize
  | .h264Payload => oneVideoFrameSize

inductive TagAccess where
  | readHeader (pos : Nat)
  | read (pos : Nat)
  | write (array : TagArray) (index : Nat)
  deriving DecidableEq

def TagAccess.Within (size : Nat) : TagAccess → Prop
  | .readHeader pos => pos < tagHeaderSize
  | .read pos => pos < size
  | .write array index => index < array.size

namespace TagAccess

def reads (pos n : Nat) : List TagAccess := (List.range n).map fun i => .read (pos + i)

/-- `memcpy` to the front of an array. -/
def copy (array : TagArray) (pos n : Nat) : List TagAccess := reads pos n ++ (List.range n).map fun i => .write array i

def header : List TagAccess := (List.range tagHeaderSize).map .readHeader

end TagAccess

open TagAccess

/-- `flv_tag_data[pos] << 8 | flv_tag_data[pos+1]`. -/
def lengthAt (memory : Nat → UInt8) (pos : Nat) : Nat := (memory pos).toNat <<< 8 ||| (memory (pos + 1)).toNat

/-- What `get_flv_aac_tag` touches. -/
def aacAccesses (memory : Nat → UInt8) (tagDataSize : UInt32) : List TagAccess :=
  header ++ reads 0 1 ++
    if memory 0 >>> 4 = mediaTypeAac then
      reads 1 1 ++
        if memory 1 = aacSequenceHeaderType then reads 2 2 ++ copy .aacPayload 3 (tagDataSize - 3).toNat
        else copy .aacPayload 2 (tagDataSize - 2).toNat
    else []

/-- What `get_flv_h264_tag` touches of a configuration record. -/
def configurationAccesses (memory : Nat → UInt8) : List TagAccess :=
  let spsLength := lengthAt memory 11
  reads 5 8 ++ copy .sequenceParameterSetNALUnit 13 spsLength ++ reads (13 + spsLength) 3 ++
    copy .pictureParameterSetNALUnit (16 + spsLength) (lengthAt memory (14 + spsLength)) ++ reads (16 + spsLength) 4

/-- What `get_flv_h264_tag` touches. -/
def h264Accesses (memory : Nat → UInt8) (tagDataSize : UInt32) : List TagAccess :=
  header ++ reads 0 1 ++
    if memory 0 &&& 0x0F = mediaTypeAvc then
      reads 1 4 ++
        if memory 1 = avcSequenceHeaderType then
          configurationAccesses memory ++
            copy .h264Payload (20 + lengthAt memory 11) (tagDataSize - UInt32.ofNat (20 + lengthAt memory 11)).toNat
        else copy .h264Payload 5 (tagDataSize - 5).toNat
    else []

/-- A video tag that is as long as its fields say, with nothing too long for its array. -/
def H264TagFits (tagData : List UInt8) : Prop :=
  1 ≤ tagData.length ∧ (tagData.getD 0 0 &&& 0x0F = mediaTypeAvc →
    5 ≤ tagData.length ∧ (tagData.getD 1 0 = avcSequenceHeaderType →
        ConfigurationFits tagData (lengthField tagData 11) (lengthField tagData (14 + lengthField tagData 11))) ∧
      (tagData.getD 1 0 ≠ avcSequenceHeaderType → tagData.length ≤ 5 + oneVideoFrameSize))

variable {memory : Nat → UInt8} {size pos n : Nat} {array : TagArray} {tagDataSize : UInt32}

/-! ### Accesses -/

theorem reads_within : (∀ access ∈ reads pos n, access.Within size) ↔ n = 0 ∨ pos + n ≤ size := by
  rw [reads, List.forall_mem_map]
  constructor
  · intro all
    refine or_iff_not_imp_left.mpr fun some_ => ?_
    have last : pos + (n - 1) < size := all (n - 1) (List.mem_range.mpr (by omega))
    omega
  · rintro (rfl | inside) i member
    · exact absurd member List.not_mem_nil
    · have below := List.mem_range.mp member
      exact (show pos + i < size by omega)

theorem copy_within : (∀ access ∈ copy array pos n, access.Within size) ↔
    (n = 0 ∨ pos + n ≤ size) ∧ n ≤ array.size := by
  rw [copy, List.forall_mem_append, reads_within, List.forall_mem_map]
  refine and_congr_right fun _ => ⟨fun all => ?_, fun room i member => ?_⟩
  · by_contra large
    have last : n - 1 < array.size := all (n - 1) (List.mem_range.mpr (by omega))
    omega
  · exact Nat.lt_of_lt_of_le (List.mem_range.mp member) room

theorem header_within : ∀ access ∈ header, access.Within size :=
  List.forall_mem_map.mpr fun _ member => List.mem_range.mp member

/-- The copy of what is left of a tag: a size below zero is far too large. -/
theorem copy_rest_within {pos : UInt32} (near : pos.toNat ≤ 2 ^ 17) :
    (∀ access ∈ copy array pos.toNat (tagDataSize - pos).toNat, access.Within tagDataSize.toNat) ↔
      pos.toNat ≤ tagDataSize.toNat ∧ tagDataSize.toNat ≤ pos.toNat + array.size := by
  have size : array.size ≤ 2 ^ 20 := by cases array <;> decide
  have bound := tagDataSize.toNat_lt
  rw [copy_within, UInt32.toNat_sub]
  by_cases less : pos.toNat ≤ tagDataSize.toNat
  · have rest : (2 ^ 32 - pos.toNat + tagDataSize.toNat) % 2 ^ 32 = tagDataSize.toNat - pos.toNat := by omega
    rw [rest, and_iff_right less]
    omega
  · have huge : (2 ^ 32 - pos.toNat + tagDataSize.toNat) % 2 ^ 32 = 2 ^ 32 - pos.toNat + tagDataSize.toNat :=
      Nat.mod_eq_of_lt (by omega)
    rw [huge]
    exact iff_of_false (fun both => absurd both.2 (by omega)) fun both => less both.1

/-! ### The tags -/

theorem slice_getD {i : Nat} (inside : i < n) : (slice memory 0 n).getD i 0 = memory i := by
  rw [List.getD_eq_getElem?_getD, slice, List.getElem?_map, List.getElem?_range' inside, Option.map_some,
    Option.getD_some, Nat.zero_add, Nat.one_mul]

theorem slice_lengthField {i : Nat} (inside : i + 1 < n) : lengthField (slice memory 0 n) i = lengthAt memory i := by
  rw [lengthField, slice_getD inside, slice_getD (Nat.lt_of_succ_lt inside), lengthAt]

/-- `get_flv_aac_tag` stays inside exactly if the tag fits. -/
theorem aacAccesses_within : (∀ access ∈ aacAccesses memory tagDataSize, access.Within tagDataSize.toNat) ↔
    AacFits (slice memory 0 tagDataSize.toNat) := by
  rw [aacAccesses, AacFits, length_slice, List.forall_mem_append, List.forall_mem_append, reads_within,
    and_iff_right header_within, or_iff_right Nat.one_ne_zero, Nat.zero_add]
  refine and_congr_right fun one => ?_
  rw [slice_getD one]
  by_cases aac : memory 0 >>> 4 = mediaTypeAac
  · rw [if_pos aac, imp_iff_right aac, List.forall_mem_append, reads_within, or_iff_right Nat.one_ne_zero]
    refine and_congr_right fun two => ?_
    rw [slice_getD two]
    by_cases type : memory 1 = aacSequenceHeaderType
    · have rest := @copy_rest_within .aacPayload tagDataSize 3 (by decide)
      change (∀ access ∈ copy .aacPayload 3 _, _) ↔ 3 ≤ _ ∧ _ ≤ 3 + oneAudioFrameSize at rest
      rw [if_pos type, imp_iff_right type, List.forall_mem_append, reads_within, rest,
        and_iff_left (fun other => absurd type other)]
      omega
    · have rest := @copy_rest_within .aacPayload tagDataSize 2 (by decide)
      change (∀ access ∈ copy .aacPayload 2 _, _) ↔ 2 ≤ _ ∧ _ ≤ 2 + oneAudioFrameSize at rest
      rw [if_neg type, rest, and_iff_right two, imp_iff_right type, and_iff_right (fun same => absurd same type)]
  · rw [if_neg aac]
    exact iff_of_true (fun access member => absurd member List.not_mem_nil) fun other => absurd other aac

theorem lengthAt_lt (memory : Nat → UInt8) (pos : Nat) : lengthAt memory pos < 2 ^ 16 := by
  have high := (memory pos).toNat_lt
  refine Nat.or_lt_two_pow ?_ (Nat.lt_trans (memory (pos + 1)).toNat_lt (by decide))
  rw [Nat.shiftLeft_eq]
  omega

theorem configurationAccesses_within : (∀ access ∈ configurationAccesses memory, access.Within size) ↔
    lengthAt memory 11 ≤ maxFrameHeadSize ∧ lengthAt memory (14 + lengthAt memory 11) ≤ maxFrameHeadSize ∧
      20 + lengthAt memory 11 ≤ size ∧ 16 + lengthAt memory 11 + lengthAt memory (14 + lengthAt memory 11) ≤ size := by
  rw [configurationAccesses]
  generalize lengthAt memory 11 = spsLength
  generalize lengthAt memory (14 + spsLength) = ppsLength
  rw [List.forall_mem_append, List.forall_mem_append, List.forall_mem_append, List.forall_mem_append, reads_within,
    copy_within, reads_within, copy_within, reads_within, TagArray.size, TagArray.size]
  omega

/-- `get_flv_h264_tag` stays inside exactly if the tag fits. -/
theorem h264Accesses_within : (∀ access ∈ h264Accesses memory tagDataSize, access.Within tagDataSize.toNat) ↔
    H264TagFits (slice memory 0 tagDataSize.toNat) := by
  rw [h264Accesses, H264TagFits, length_slice, List.forall_mem_append, List.forall_mem_append, reads_within,
    and_iff_right header_within, or_iff_right Nat.one_ne_zero, Nat.zero_add]
  refine and_congr_right fun one => ?_
  rw [slice_getD one]
  by_cases avc : memory 0 &&& 0x0F = mediaTypeAvc
  · rw [if_pos avc, imp_iff_right avc, List.forall_mem_append, reads_within, or_iff_right (by decide)]
    refine and_congr_right fun five => ?_
    rw [slice_getD (by omega)]
    by_cases type : memory 1 = avcSequenceHeaderType
    · rw [if_pos type, imp_iff_right type, List.forall_mem_append, configurationAccesses_within,
        and_iff_left (fun other => absurd type other)]
      have small := lengthAt_lt memory 11
      have offset : (UInt32.ofNat (20 + lengthAt memory 11)).toNat = 20 + lengthAt memory 11 :=
        UInt32.toNat_ofNat_of_lt' (Nat.lt_trans (by omega : _ < 2 ^ 17) (by decide))
      have rest := @copy_rest_within .h264Payload tagDataSize (.ofNat (20 + lengthAt memory 11)) (by omega)
      rw [offset] at rest
      rw [rest, ConfigurationFits, length_slice]
      -- the lengths are only the ones of the record where it goes on that far
      by_cases whole : 20 + lengthAt memory 11 ≤ tagDataSize.toNat
      · have sps := @slice_lengthField memory tagDataSize.toNat 11 (by omega)
        have pps := @slice_lengthField memory tagDataSize.toNat (14 + lengthAt memory 11) (by omega)
        rw [sps, pps, TagArray.size]
        omega
      · refine iff_of_false (fun both => whole both.1.2.2.1) fun fits => whole ?_
        have inside := fits.2.2.1
        rw [@slice_lengthField memory tagDataSize.toNat 11 (by omega)] at inside
        exact inside
    · have rest := @copy_rest_within .h264Payload tagDataSize 5 (by decide)
      change (∀ access ∈ copy .h264Payload 5 _, _) ↔ 5 ≤ _ ∧ _ ≤ 5 + oneVideoFrameSize at rest
      rw [if_neg type, rest, and_iff_right five, imp_iff_right type, and_iff_right (fun same => absurd same type)]
  · rw [if_neg avc]
    exact iff_of_true (fun access member => absurd member List.not_mem_nil) fun other => absurd other avc

/-! ### The parsers -/

section
variable {α : Type} {tagData : List UInt8}

theorem isSome_getElem?_bind (f : UInt8 → Option α) :
    (tagData[pos]? >>= f).isSome ↔ pos < tagData.length ∧ (f (tagData.getD pos 0)).isSome := by
  by_cases inside : pos < tagData.length
  · rw [getElem?_getD inside, Option.bind_eq_bind, Option.bind_some, and_iff_right inside]
  · rw [List.getElem?_eq_none (Nat.le_of_not_lt inside)]
    exact iff_of_false Bool.false_ne_true fun both => inside both.1

theorem isSome_twoBytes_bind (f : Nat → Option α) :
    (twoBytes tagData pos >>= f).isSome ↔ pos + 1 < tagData.length ∧ (f (lengthField tagData pos)).isSome := by
  by_cases inside : pos + 1 < tagData.length
  · rw [twoBytes_fits inside, Option.bind_eq_bind, Option.bind_some, and_iff_right inside]
  · have none : twoBytes tagData pos = none := by
      rw [twoBytes, List.getElem?_eq_none (Nat.le_of_not_lt inside)]
      cases tagData[pos]? <;> rfl
    rw [none]
    exact iff_of_false Bool.false_ne_true fun both => inside both.1

theorem isSome_parameterSet_bind (f : List UInt8 → Option α) : (parameterSet tagData pos n >>= f).isSome ↔
    (n ≤ maxFrameHeadSize ∧ pos + n ≤ tagData.length) ∧ (f ((tagData.drop pos).take n)).isSome := by
  by_cases fits : n ≤ maxFrameHeadSize ∧ pos + n ≤ tagData.length
  · rw [parameterSet, if_pos fits, Option.bind_eq_bind, Option.bind_some, and_iff_right fits]
  · rw [parameterSet, if_neg fits]
    exact iff_of_false Bool.false_ne_true fun both => fits both.1

theorem isSome_copyPayload_bind (f : Int × List UInt8 → Option α) : (copyPayload tagData pos n >>= f).isSome ↔
    tagData.length ≤ pos + n ∧ (f ((tagData.length - pos : Nat), tagData.drop pos)).isSome := by
  by_cases fits : tagData.length ≤ pos + n
  · rw [copyPayload_fits fits, Option.bind_eq_bind, Option.bind_some, and_iff_right fits]
  · rw [copyPayload, if_neg (by omega)]
    exact iff_of_false Bool.false_ne_true fun both => fits both.1

/-- The parsers have a result exactly for the tags that fit. -/
theorem getFlvAacTag_isSome (tagData : List UInt8) (aacTag : FlvAacTag) :
    (getFlvAacTag tagData aacTag).isSome ↔ AacFits tagData := by
  rw [getFlvAacTag, isSome_getElem?_bind, AacFits]
  refine and_congr_right fun one => ?_
  dsimp only
  by_cases aac : tagData.getD 0 0 >>> 4 = mediaTypeAac
  · rw [if_pos aac, imp_iff_right aac, isSome_getElem?_bind]
    refine and_congr_right fun two => ?_
    by_cases type : tagData.getD 1 0 = aacSequenceHeaderType
    · rw [if_pos type, imp_iff_right type, isSome_getElem?_bind, isSome_getElem?_bind, isSome_copyPayload_bind,
        and_iff_left (fun other => absurd type other)]
      constructor
      · rintro ⟨-, four, small, -⟩
        exact ⟨four, small⟩
      · rintro ⟨four, small⟩
        exact ⟨Nat.lt_of_succ_lt four, four, small, rfl⟩
    · rw [if_neg type, imp_iff_right type, isSome_copyPayload_bind, and_iff_right (fun same => absurd same type)]
      exact and_iff_left rfl
  · rw [if_neg aac]
    exact iff_of_true rfl fun other => absurd other aac

theorem getFlvH264Tag_isSome (tagData : List UInt8) (h264Tag : FlvH264Tag) :
    (getFlvH264Tag tagData h264Tag).isSome ↔ H264TagFits tagData := by
  rw [getFlvH264Tag, isSome_getElem?_bind, H264TagFits]
  refine and_congr_right fun one => ?_
  dsimp only
  by_cases avc : tagData.getD 0 0 &&& 0x0F = mediaTypeAvc
  · rw [if_pos avc, imp_iff_right avc, isSome_getElem?_bind, isSome_getElem?_bind]
    by_cases type : tagData.getD 1 0 = avcSequenceHeaderType
    · rw [if_pos type, imp_iff_right type, isSome_twoBytes_bind, isSome_parameterSet_bind, isSome_twoBytes_bind,
        isSome_parameterSet_bind, isSome_getElem?_bind, isSome_copyPayload_bind,
        and_iff_left (fun other => absurd type other), ConfigurationFits]
      constructor
      · rintro ⟨-, five, -, ⟨spsSmall, -⟩, -, ⟨ppsSmall, pps⟩, fields, payload, -⟩
        exact ⟨five, spsSmall, ppsSmall, by omega, pps, payload⟩
      · rintro ⟨five, spsSmall, ppsSmall, fields, pps, payload⟩
        exact ⟨by omega, five, by omega, ⟨spsSmall, by omega⟩, by omega, ⟨ppsSmall, pps⟩, by omega, payload, rfl⟩
    · rw [if_neg type, imp_iff_right type, isSome_copyPayload_bind, and_iff_right (fun same => absurd same type)]
      constructor
      · rintro ⟨-, five, small, -⟩
        exact ⟨five, small⟩
      · rintro ⟨five, small⟩
        exact ⟨Nat.lt_of_lt_of_le (by decide) five, five, small, rfl⟩
  · rw [if_neg avc]
    exact iff_of_true rfl fun other => absurd other avc

end

/-! ### Both parsers -/

/-- The parsers stay inside the tag and their arrays exactly if the tag fits. -/
theorem tagParsers_contained (memory : Nat → UInt8) (tagDataSize : UInt32) :
    ((∀ access ∈ aacAccesses memory tagDataSize, access.Within tagDataSize.toNat) ↔
      AacFits (slice memory 0 tagDataSize.toNat)) ∧
    ((∀ access ∈ h264Accesses memory tagDataSize, access.Within tagDataSize.toNat) ↔
      H264TagFits (slice memory 0 tagDataSize.toNat)) := ⟨aacAccesses_within, h264Accesses_within⟩

/-- An AAC tag of one byte, and a sequence header whose parameter set is said to have 65535 bytes. -/
theorem tagParsers_refuted :
    (¬ ∀ (memory : Nat → UInt8) (tagDataSize : UInt32),
      ∀ access ∈ aacAccesses memory tagDataSize, access.Within tagDataSize.toNat) ∧
    ¬ ∀ (memory : Nat → UInt8) (tagDataSize : UInt32),
      ∀ access ∈ h264Accesses memory tagDataSize, access.Within tagDataSize.toNat := by
  constructor
  · intro all
    have fits := aacAccesses_within.mp (all (fun _ => 0xAF) 1)
    exact absurd (fits.2 (by decide)).1 (by decide)
  · intro all
    let record : List UInt8 := [0x17, 0, 0, 0, 0, 1, 0x42, 0, 0x1E, 0xFF, 0xE1, 0xFF, 0xFF, 0x67, 0x42]
    have fits := h264Accesses_within.mp (all (fun i => record.getD i 0) 15)
    exact absurd ((fits.2 (by decide)).2.1 (by decide)).1 (by decide)

end LiveStreaming.HappyHls
