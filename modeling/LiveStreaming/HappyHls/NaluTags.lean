import LiveStreaming.HappyHls.FlvTags
import LiveStreaming.HappyHls.TsPackets
import LiveStreaming.Library.NalStream

/-!
# Pictures of several units

`receive_stream_cb` turns a picture into a byte stream by writing a start code where the length of its first unit
stands. The lengths of the others stay, and of a picture that begins with an SEI nothing else is copied.
-/

namespace LiveStreaming.HappyHls
open Library NalStream

/-- A tag whose data are units behind their lengths. -/
def FlvTag.Holds (tag : FlvTag) (units : List (List UInt8)) : Prop :=
  tag.header.headD 0 = tagVideo ∧ ∃ first c₁ c₂ c₃, first &&& 0x0F = mediaTypeAvc ∧
    tag.data = [first, flvAvcNaluType, c₁, c₂, c₃] ++ lengthPrefixed units

/-- The tag puts its units into the queue as a byte stream, behind the parameter sets if it is a key frame. -/
def Decoder.Queues (d : Decoder) (tag : FlvTag) (units : List (List UInt8)) : Prop :=
  ∃ d' before picture, d.handleTag tag.header tag.data = some (d', ⟨[], before ++ [picture]⟩) ∧
    before.map TsPesFrame.frameBuffer =
      (if tag.data.getD 0 0 >>> 4 = flvKeyFrame then [startCode ++ d.spsBuffer, startCode ++ d.ppsBuffer] else []) ∧
    AnnexB units picture.frameBuffer

variable {tag : FlvTag} {d : Decoder} {unit payload : List UInt8} {units : List (List UInt8)} {h264Tag : FlvH264Tag}

/-! ### The buffer -/

/-- A payload that does not begin with an SEI is copied behind a start code in place of its first length. -/
theorem h264StreamBuffer_copy {es : Nat → UInt8} (stored : h264Tag.payload = store es payload)
    (four : 4 ≤ payload.length) (other : h264Tag.payload 4 ≠ 0x06) :
    ∃ buffer, h264StreamBuffer h264Tag payload.length = some buffer ∧
      buffer.take payload.length = startCode ++ payload.drop 4 := by
  have copied : slice h264Tag.payload 0 payload.length = payload := by
    rw [stored]
    exact slice_store es [] payload
  have length : (startCode ++ payload.drop 4).length = payload.length := by
    rw [List.length_append, List.length_drop]
    exact Nat.add_sub_of_le four
  rw [h264StreamBuffer, if_neg other, copied]
  refine ⟨_, rfl, ?_⟩
  rw [Buffer.overwrite, List.take_zero, List.nil_append, Buffer.overwrite, List.take_zero, List.nil_append,
    Nat.zero_add, show startCode.length = 4 from rfl, List.drop_append_of_le_length four, ← List.append_assoc,
    List.take_left' length]

/-- Of a payload that begins with an SEI a start code is left, with a zero behind it. -/
theorem h264StreamBuffer_sei {n : Nat} {buffer : List UInt8} (sei : h264Tag.payload 4 = 0x06)
    (built : h264StreamBuffer h264Tag n = some buffer) : ∃ rest, buffer = startCode ++ 0 :: rest := by
  rw [h264StreamBuffer, if_pos sei] at built
  dsimp only at built
  generalize (h264Tag.payload 2).toNat <<< 8 ||| (h264Tag.payload 3).toNat = seiLength at built
  split at built
  · next room =>
    obtain rfl := Option.some.inj built
    have zeros : ((List.replicate (n + 1024) (0 : UInt8)).take (4 + seiLength)).drop 4 =
        List.replicate seiLength 0 := by
      rw [List.take_replicate, Nat.min_eq_left (by omega), List.drop_replicate, Nat.add_sub_cancel_left]
    have front : 4 ≤ ((List.replicate (n + 1024) (0 : UInt8)).take (4 + seiLength)).length := by
      rw [List.length_take, List.length_replicate]
      omega
    rw [Buffer.overwrite, List.take_zero, List.nil_append, Nat.zero_add, show startCode.length = 4 from rfl,
      Buffer.overwrite, List.append_assoc, List.drop_append_of_le_length front, zeros]
    cases seiLength with
    | zero => exact ⟨_, rfl⟩
    | succ seiLength => exact ⟨_, rfl⟩
  · cases built

/-- An empty unit alone leaves the byte behind it as it was before, and either way a start code. -/
theorem h264StreamBuffer_empty {es : Nat → UInt8} (stored : h264Tag.payload = store es [0, 0, 0, 0]) :
    ∃ buffer, h264StreamBuffer h264Tag 4 = some buffer ∧ buffer.take 4 = startCode := by
  by_cases sei : h264Tag.payload 4 = 0x06
  · have third : h264Tag.payload 2 = 0 := by
      rw [stored]
      rfl
    have fourth : h264Tag.payload 3 = 0 := by
      rw [stored]
      rfl
    have room : 4 + ((0 : UInt8).toNat <<< 8 ||| (0 : UInt8).toNat) + 3 < 4 + 1024 := by decide
    rw [h264StreamBuffer, if_pos sei, third, fourth]
    dsimp only
    rw [if_pos room]
    refine ⟨_, rfl, ?_⟩
    rw [Buffer.overwrite, List.take_zero, List.nil_append]
    exact List.take_left' (show startCode.length = 4 from rfl)
  · obtain ⟨buffer, built, taken⟩ := h264StreamBuffer_copy stored (Nat.le_refl 4) sei
    exact ⟨buffer, built, taken.trans (List.append_nil startCode)⟩

theorem fifth_byte {es : Nat → UInt8} (stored : h264Tag.payload = store es (lengthPrefixed (unit :: units))) :
    h264Tag.payload 4 = (unit ++ lengthPrefixed units).head?.getD (es 4) := by
  rw [stored, store, lengthPrefixed_cons, List.head?_eq_getElem?]
  rfl

/-- The first unit is taken for an SEI where it is one, or where there is no byte to look at. -/
theorem sei_cases {es : Nat → UInt8} (stored : h264Tag.payload = store es (lengthPrefixed (unit :: units)))
    (small : ∀ other ∈ units, other.length < 2 ^ 24) (sei : h264Tag.payload 4 = 0x06) :
    unit.head? = some 0x06 ∨ unit = [] ∧ units = [] := by
  rw [fifth_byte stored] at sei
  cases unit with
  | cons b unit => exact .inl (congrArg some sei)
  | nil =>
    cases units with
    | nil => exact .inr ⟨rfl, rfl⟩
    | cons other units =>
      have bound := small other List.mem_cons_self
      have high : other.length >>> 24 = 0 := by
        rw [Nat.shiftRight_eq_div_pow]
        exact Nat.div_eq_of_lt bound
      change UInt8.ofNat (other.length >>> 24) = 0x06 at sei
      rw [high] at sei
      cases sei

theorem not_annexB_sei {rest : List UInt8} (first : unit.head? = some 0x06) :
    ¬ AnnexB (unit :: units) (startCode ++ 0 :: rest) := by
  intro stream
  obtain ⟨unit, rfl⟩ := List.head?_eq_some_iff.mp first
  generalize same : startCode ++ 0 :: rest = bytes at stream
  cases stream with
  | cons _ isCode stream =>
    rcases isCode with rfl | rfl
    · cases same
    · cases same

/-- The picture that is queued for units is their byte stream unless the first is an SEI or another has more than a
byte. -/
theorem annexB_buffer {es : Nat → UInt8} (stored : h264Tag.payload = store es (lengthPrefixed (unit :: units)))
    (small : ∀ other ∈ units, other.length < 2 ^ 24) :
    (∃ buffer, h264StreamBuffer h264Tag (lengthPrefixed (unit :: units)).length = some buffer ∧
        AnnexB (unit :: units) (buffer.take (lengthPrefixed (unit :: units)).length)) ↔
      unit.head? ≠ some 0x06 ∧ ∀ other ∈ units, other.length = 1 := by
  have length := length_lengthPrefixed_cons unit units
  have four : 4 ≤ (lengthPrefixed (unit :: units)).length := by omega
  have behind : startCode ++ (lengthPrefixed (unit :: units)).drop 4 = startCode ++ (unit ++ lengthPrefixed units) := by
    rw [lengthPrefixed_cons]
    rfl
  have ones := startCoded_eq_lengthPrefixed fun other member => Nat.lt_trans (small other member) (by decide)
  by_cases sei : h264Tag.payload 4 = 0x06
  · rcases sei_cases stored small sei with first | ⟨rfl, rfl⟩
    · refine iff_of_false ?_ fun both => both.1 first
      rintro ⟨buffer, built, stream⟩
      obtain ⟨rest, rfl⟩ := h264StreamBuffer_sei sei built
      obtain ⟨unit, rfl⟩ := List.head?_eq_some_iff.mp first
      rw [List.length_cons] at length
      obtain ⟨n, size⟩ := Nat.exists_eq_add_of_le (show 5 ≤ (lengthPrefixed ((0x06 :: unit) :: units)).length by omega)
      rw [size, Nat.add_comm] at stream
      exact not_annexB_sei first stream
    · obtain ⟨buffer, built, taken⟩ := h264StreamBuffer_empty stored
      refine iff_of_true ⟨buffer, built, ?_⟩ ⟨by decide, fun other member => absurd member List.not_mem_nil⟩
      change AnnexB [[]] (buffer.take 4)
      rw [taken]
      exact annexB_startCoded [[]]
  · obtain ⟨buffer, built, taken⟩ := h264StreamBuffer_copy stored four sei
    have noSei : unit.head? ≠ some 0x06 := by
      intro first
      obtain ⟨unit, rfl⟩ := List.head?_eq_some_iff.mp first
      exact sei (fifth_byte stored)
    rw [and_iff_right noSei, ← ones]
    constructor
    · rintro ⟨buffer', built', stream⟩
      obtain rfl := Option.some.inj (built.symm.trans built')
      rw [taken, behind] at stream
      have whole : (startCode ++ (unit ++ lengthPrefixed units)).length = (lengthPrefixed (unit :: units)).length := by
        rw [lengthPrefixed_cons]
        rfl
      have same := stream.eq_startCoded (Nat.le_of_eq whole.symm)
      rw [startCoded_cons] at same
      exact (List.append_cancel_left (List.append_cancel_left same)).symm
    · intro same
      refine ⟨buffer, built, ?_⟩
      rw [taken, behind, ← same]
      have stream := annexB_startCoded (unit :: units)
      rw [startCoded_cons] at stream
      exact stream

/-! ### The tag -/

/-- What `get_flv_h264_tag` leaves of the tag. -/
def Decoder.naluTag (d : Decoder) (tag : FlvTag) (units : List (List UInt8)) : FlvH264Tag :=
  { d.h264Tag with
    frameType := tag.data.getD 0 0 >>> 4
    avcPacketType := flvAvcNaluType
    payload := store d.h264Tag.payload (lengthPrefixed units) }

theorem getFlvH264Tag_nalu (holds : tag.Holds units) (d : Decoder) :
    getFlvH264Tag tag.data d.h264Tag =
      if (lengthPrefixed units).length ≤ oneVideoFrameSize then
        some (((lengthPrefixed units).length : Int), d.naluTag tag units)
      else none := by
  obtain ⟨-, first, c₁, c₂, c₃, codec, data⟩ := holds
  have length : tag.data.length - 5 = (lengthPrefixed units).length := by
    rw [data, List.length_append]
    exact Nat.add_sub_cancel_left 5 _
  have drop : tag.data.drop 5 = lengthPrefixed units := by
    rw [data]
    rfl
  have frameType : tag.data.getD 0 0 = first := by
    rw [data]
    rfl
  have copied : copyPayload tag.data 5 oneVideoFrameSize =
      if (lengthPrefixed units).length ≤ oneVideoFrameSize then
        some (((lengthPrefixed units).length : Int), lengthPrefixed units) else none := by
    rw [copyPayload, length, drop]
  have zeroth : tag.data[0]? = some first := by
    rw [data]
    rfl
  have second : tag.data[1]? = some flvAvcNaluType := by
    rw [data]
    rfl
  have fifth : tag.data[4]? = some c₃ := by
    rw [data]
    rfl
  rw [getFlvH264Tag, zeroth, Option.bind_eq_bind, Option.bind_some]
  dsimp only
  rw [if_pos codec, second, fifth, Option.bind_eq_bind, Option.bind_some, Option.bind_eq_bind, Option.bind_some,
    if_neg (by decide), copied]
  by_cases fits : (lengthPrefixed units).length ≤ oneVideoFrameSize
  · rw [if_pos fits, if_pos fits, Decoder.naluTag, frameType]
    rfl
  · rw [if_neg fits, if_neg fits]
    rfl

/-- The frames of a picture, with the parameter sets before a key frame. -/
def Decoder.picture (d : Decoder) (tag : FlvTag) (frame : List UInt8) : List TsPesFrame :=
  if tag.data.getD 0 0 >>> 4 = flvKeyFrame then
    [⟨startCode ++ d.spsBuffer, some true⟩, ⟨startCode ++ d.ppsBuffer, some true⟩, ⟨frame, some true⟩]
  else [⟨frame, none⟩]

theorem handleTag_nalu (holds : tag.Holds units) (d : Decoder) :
    d.handleTag tag.header tag.data =
      if (lengthPrefixed units).length ≤ oneVideoFrameSize then
        (h264StreamBuffer (d.naluTag tag units) (lengthPrefixed units).length).map fun buffer =>
          ({ d with h264Tag := d.naluTag tag units }, ⟨[], d.picture tag (buffer.take (lengthPrefixed units).length)⟩)
      else none := by
  have read := getFlvH264Tag_nalu holds d
  rw [Decoder.handleTag, holds.1, if_neg (by decide), if_pos rfl, Decoder.handleVideo, read]
  by_cases fits : (lengthPrefixed units).length ≤ oneVideoFrameSize
  · have known : ((lengthPrefixed units).length : Int) ≠ -1 := by omega
    have type : (d.naluTag tag units).avcPacketType = flvAvcNaluType := rfl
    have frameType : (d.naluTag tag units).frameType = tag.data.getD 0 0 >>> 4 := rfl
    rw [if_pos fits, if_pos fits, Option.bind_eq_bind, Option.bind_some]
    dsimp only
    rw [if_neg known, Int.toNat_natCast, type, if_neg (by decide), if_pos rfl, frameType]
    cases h264StreamBuffer (d.naluTag tag units) (lengthPrefixed units).length with
    | none => rfl
    | some buffer =>
      rw [Option.bind_eq_bind, Option.bind_some, Option.map_some, Decoder.picture]
      split <;> rfl
  · rw [if_neg fits, if_neg fits]
    rfl

/-- The tag queues its units where they fit and the buffer is their byte stream. -/
theorem queues_iff_buffer (holds : tag.Holds units) :
    d.Queues tag units ↔ (lengthPrefixed units).length ≤ oneVideoFrameSize ∧
      ∃ buffer, h264StreamBuffer (d.naluTag tag units) (lengthPrefixed units).length = some buffer ∧
        AnnexB units (buffer.take (lengthPrefixed units).length) := by
  have picture_eq (frame : List UInt8) : ∃ before last, d.picture tag frame = before ++ [last] ∧
      before.map TsPesFrame.frameBuffer = (if tag.data.getD 0 0 >>> 4 = flvKeyFrame then
        [startCode ++ d.spsBuffer, startCode ++ d.ppsBuffer] else []) ∧ last.frameBuffer = frame := by
    rw [Decoder.picture]
    split
    · exact ⟨[_, _], _, rfl, rfl, rfl⟩
    · exact ⟨[], _, rfl, rfl, rfl⟩
  rw [Decoder.Queues, handleTag_nalu holds]
  by_cases fits : (lengthPrefixed units).length ≤ oneVideoFrameSize
  · rw [if_pos fits, and_iff_right fits]
    constructor
    · rintro ⟨d', before, last, handled, sets, stream⟩
      obtain ⟨buffer, built, same⟩ := Option.map_eq_some_iff.mp handled
      have frames : d.picture tag (buffer.take (lengthPrefixed units).length) = before ++ [last] :=
        congrArg Frames.avc (Prod.mk.inj same).2
      obtain ⟨before', last', split, -, frame⟩ := picture_eq (buffer.take (lengthPrefixed units).length)
      obtain ⟨-, ends⟩ := List.append_inj' (split.symm.trans frames) rfl
      obtain rfl := List.singleton_inj.mp ends
      exact ⟨buffer, built, frame ▸ stream⟩
    · rintro ⟨buffer, built, stream⟩
      obtain ⟨before, last, split, sets, frame⟩ := picture_eq (buffer.take (lengthPrefixed units).length)
      rw [built, Option.map_some, split]
      exact ⟨_, before, last, rfl, sets, frame.symm ▸ stream⟩
  · rw [if_neg fits]
    refine iff_of_false ?_ fun both => fits both.1
    rintro ⟨_, _, _, handled, -⟩
    cases handled

theorem small_of_fits (fits : (lengthPrefixed (unit :: units)).length ≤ oneVideoFrameSize) :
    ∀ other ∈ units, other.length < 2 ^ 24 := by
  intro other member
  have within : other.length ≤ (lengthPrefixed units).length := by
    obtain ⟨before, behind, rfl⟩ := List.append_of_mem member
    rw [lengthPrefixed, List.flatMap_append, List.flatMap_cons, List.length_append, List.length_append,
      List.length_append]
    omega
  rw [length_lengthPrefixed_cons, oneVideoFrameSize] at fits
  omega

theorem Decoder.Queues.one_byte (queues : d.Queues tag (unit :: units)) (holds : tag.Holds (unit :: units)) :
    unit.head? ≠ some 0x06 ∧ ∀ other ∈ units, other.length = 1 := by
  obtain ⟨fits, stream⟩ := (queues_iff_buffer holds).mp queues
  exact (annexB_buffer rfl (small_of_fits fits)).mp stream

/-- A picture is queued as the byte stream of its units exactly if it fits, does not begin with an SEI, and has only
units of one byte behind the first. -/
theorem queues_iff (holds : tag.Holds (unit :: units)) :
    d.Queues tag (unit :: units) ↔ tag.data.length ≤ 5 + oneVideoFrameSize ∧ unit.head? ≠ some 0x06 ∧
      ∀ other ∈ units, other.length = 1 := by
  have size : tag.data.length = 5 + (lengthPrefixed (unit :: units)).length := by
    obtain ⟨-, first, c₁, c₂, c₃, -, data⟩ := holds
    rw [data, List.length_append]
    rfl
  rw [queues_iff_buffer holds, size, Nat.add_le_add_iff_left]
  exact and_congr_right fun fits => annexB_buffer rfl (small_of_fits fits)

def oneSlice : FlvTag :=
  ⟨[0, 0, 0, 0], [9, 0, 0, 12, 0, 0, 0, 0, 0, 0, 0], [0x17, 1, 0, 0, 0, 0, 0, 0, 3, 0x65, 0x88, 0x80],
    length_noTagSize, by decide, by decide⟩

theorem queues_iff_oneSlice :
    oneSlice.Holds [[0x65, 0x88, 0x80]] ∧ Decoder.start.Queues oneSlice [[0x65, 0x88, 0x80]] := by
  have holds : oneSlice.Holds [[0x65, 0x88, 0x80]] := ⟨rfl, 0x17, 0, 0, 0, rfl, rfl⟩
  exact ⟨holds, (queues_iff holds).mpr ⟨by decide, by decide, fun other member => absurd member List.not_mem_nil⟩⟩

def twoSlices : FlvTag :=
  ⟨[0, 0, 0, 0], [9, 0, 0, 17, 0, 0, 0, 0, 0, 0, 0],
    [0x27, 1, 0, 0, 0, 0, 0, 0, 2, 0x41, 0x9A, 0, 0, 0, 2, 0x41, 0x9B], length_noTagSize, by decide, by decide⟩

/-- The length of the second slice stays in the stream. -/
theorem queues_refuted : ¬ ∀ (d : Decoder) (tag : FlvTag) (units : List (List UInt8)), units ≠ [] →
    tag.Holds units → d.Queues tag units := by
  intro all
  have holds : twoSlices.Holds [[0x41, 0x9A], [0x41, 0x9B]] := ⟨rfl, 0x27, 0, 0, 0, rfl, rfl⟩
  have queues := all .start twoSlices [[0x41, 0x9A], [0x41, 0x9B]] (List.cons_ne_nil _ _) holds
  exact absurd ((queues.one_byte holds).2 [0x41, 0x9B] List.mem_cons_self) (by decide)

end LiveStreaming.HappyHls
