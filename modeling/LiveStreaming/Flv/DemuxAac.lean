import LiveStreaming.Flv.DemuxH264
import LiveStreaming.FlvDemux.ReadTags

/-!
# Demuxing AAC

`demux_for_aac` goes from tag to tag. The first sequence header among the audio tags gives it the ADTS header that it
puts in front of the payload of every audio tag from there on, one more sequence header being a payload too.
-/

namespace LiveStreaming.Flv
open Library HappyHls FlvDemux
open FlvMux (Run)

def hton24 (x : UInt32) : UInt32 :=
  ((x >>> 16) &&& (0xff : UInt32)) ||| ((x <<< 16) &&& (0xff0000 : UInt32)) ||| (x &&& (0xff00 : UInt32))

/-- `bits_io::read_8_bit` and its siblings: whether all bytes were there, and the `int` with those that were. -/
def bitsIo (file : SeekableFile) (count : Nat) (old : UInt32) : Bool × UInt32 × SeekableFile :=
  let (bytes, file) := file.read count
  (bytes.length == count, readInto old bytes, file)

/-- The same, where `false` is not gone on from. -/
def bitsIoAll (file : SeekableFile) (count : Nat) (old : UInt32) : Option (UInt32 × SeekableFile) :=
  let (all, x, file) := bitsIo file count old
  if all then some (x, file) else none

/-! ### The header of the file -/

/-- `'FLV'` -/
def fixedFlvSignature : UInt32 := 0x464C56

/-- `do_flv_verify` on a new object: `_flv_header_length`, where it returns true. -/
def doFlvVerify (flvFile : List UInt8) : Option UInt32 := do
  let (flvSignature, file) ← bitsIoAll ⟨flvFile, 0⟩ 3 0
  if hton24 flvSignature ≠ fixedFlvSignature then none
  else
    let (_version, file) ← bitsIoAll file 1 0
    let (_typeFlags, file) ← bitsIoAll file 1 0
    let (flvHeaderLength, _) ← bitsIoAll file 4 0
    some (hton32 flvHeaderLength)

/-! ### Tags -/

structure FlvTagHeaderInfo where
  tagType : UInt32
  tagTimestamp : UInt32
  tagDataSize : UInt32

/-- The stream ID is left to the caller. -/
def getFlvTagHeaderInfo (file : SeekableFile) : Option (FlvTagHeaderInfo × SeekableFile) := do
  let (tagType, file) ← bitsIoAll file 1 0
  let (tagDataSize, file) ← bitsIoAll file 3 0
  let (timestamp, file) ← bitsIoAll file 4 0
  some (⟨tagType, hton24 timestamp ||| (timestamp &&& (0xff000000 : UInt32)), hton24 tagDataSize⟩, file)

/-- The two bytes, of which only these fields are read. -/
structure FlvAacSequenceHeader where
  first : UInt8
  second : UInt8

namespace FlvAacSequenceHeader

def sampleIndex1 (h : FlvAacSequenceHeader) : BitVec 3 := h.first.toBitVec.extractLsb' 0 3
def channel (h : FlvAacSequenceHeader) : BitVec 4 := h.second.toBitVec.extractLsb' 3 4
def sampleIndex2 (h : FlvAacSequenceHeader) : BitVec 1 := h.second.toBitVec.extractLsb' 7 1

/-- `fread` into the structure. -/
def load (h : FlvAacSequenceHeader) (bytes : List UInt8) : FlvAacSequenceHeader :=
  ⟨bytes.getD 0 h.first, bytes.getD 1 h.second⟩

end FlvAacSequenceHeader

structure AacAdtsHeader where
  check1 : BitVec 8
  protection : BitVec 1
  layer : BitVec 2
  ver : BitVec 1
  check2 : BitVec 4
  channel1 : BitVec 1
  privatestream : BitVec 1
  samplingIndex : BitVec 4
  objectType : BitVec 2
  length1 : BitVec 2
  copyrightstart : BitVec 1
  copyrightstream : BitVec 1
  home : BitVec 1
  originality : BitVec 1
  channel2 : BitVec 2
  length2 : BitVec 8
  check3 : BitVec 5
  length3 : BitVec 3
  frames : BitVec 2
  check4 : BitVec 6

namespace AacAdtsHeader

def zero : AacAdtsHeader := ⟨0, 0, 0, 0, 0, 0, 0, 0, 0, 0, 0, 0, 0, 0, 0, 0, 0, 0, 0, 0⟩

/-- In memory: the first field of a byte is the lowest one. -/
def bytes (h : AacAdtsHeader) : List UInt8 :=
  [⟨h.check1⟩, ⟨h.check2 ++ h.ver ++ h.layer ++ h.protection⟩,
    ⟨h.objectType ++ h.samplingIndex ++ h.privatestream ++ h.channel1⟩,
    ⟨h.channel2 ++ h.originality ++ h.home ++ h.copyrightstream ++ h.copyrightstart ++ h.length1⟩, ⟨h.length2⟩,
    ⟨h.length3 ++ h.check3⟩, ⟨h.check4 ++ h.frames⟩]

/-- What `get_flv_aac_sequence_header` sets. -/
def configured (h : AacAdtsHeader) (sequenceHeader : FlvAacSequenceHeader) : AacAdtsHeader :=
  { h with
    check1 := 0xff, check2 := 0xf, check3 := 0x1f, check4 := 0x3f, protection := 1, objectType := 0
    samplingIndex := BitVec.ofNat 4 (sequenceHeader.sampleIndex2.toNat ||| sequenceHeader.sampleIndex1.toNat <<< 1)
    channel2 := BitVec.ofNat 2 sequenceHeader.channel.toNat }

def sized (h : AacAdtsHeader) (size : Nat) : AacAdtsHeader :=
  { h with
    length1 := BitVec.ofNat 2 ((size >>> 11) &&& 0x03)
    length2 := BitVec.ofNat 8 ((size >>> 3) &&& 0xff)
    length3 := BitVec.ofNat 3 (size &&& 0x07) }

end AacAdtsHeader

/-- The fields of `flv_demux`, and what `faac_handler` has been given. -/
structure AacDemux where
  flv : SeekableFile
  findAacSequenceHeader : Bool
  flvAacSequenceHeader : FlvAacSequenceHeader
  aacAdtsHeader : AacAdtsHeader
  aac : List UInt8

namespace AacDemux

/-- `flv_demux::flv_demux` -/
def new (flvFile : List UInt8) : AacDemux := ⟨⟨flvFile, 0⟩, false, ⟨0, 0⟩, .zero, []⟩

def getFlvAacSequenceHeader (d : AacDemux) : AacDemux :=
  let (_, _tagHeaderInfo, flv) := bitsIo d.flv 1 0
  let (_, aacPacketType, flv) := bitsIo flv 1 0
  if aacPacketType = 0 then
    let (bytes, flv) := flv.read 2
    let flvAacSequenceHeader := d.flvAacSequenceHeader.load bytes
    ⟨flv, true, flvAacSequenceHeader, d.aacAdtsHeader.configured flvAacSequenceHeader, d.aac⟩
  else { d with flv }

/-- The header as it stands then, and the frame. -/
def getAacAdtsFrame (d : AacDemux) (flvAacPacket : List UInt8) (dataSize : Nat) : AacAdtsHeader × List UInt8 :=
  let header := d.aacAdtsHeader.sized (dataSize - 2 + 7)
  (header, header.bytes ++ (flvAacPacket.drop 2).take (dataSize - 2))

/-- The branch of an audio tag, and whether `demux_for_aac` goes on behind it. The array for the frame of a tag of less
than two bytes is shorter than its header. -/
def audioTag (d : AacDemux) (tagDataSize : Nat) : Run (Bool × AacDemux) :=
  if d.findAacSequenceHeader then
    let (flvAacPacket, flv) := d.flv.read tagDataSize
    if flvAacPacket.length ≠ tagDataSize then .ok (false, { d with flv })
    else if tagDataSize < 2 then .error .undefined
    else
      let (aacAdtsHeader, aacAdtsFrame) := d.getAacAdtsFrame flvAacPacket tagDataSize
      .ok (true, { d with flv, aacAdtsHeader, aac := d.aac ++ aacAdtsFrame })
  else .ok (true, d.getFlvAacSequenceHeader)

def handleTag (d : AacDemux) (info : FlvTagHeaderInfo) : Run (Bool × AacDemux) :=
  if info.tagType = 8 then d.audioTag info.tagDataSize.toNat else .ok (true, d)

/-- The loop of `demux_for_aac`. -/
def tagLoop : Nat → AacDemux → Run AacDemux
  | 0, _ => .error .fuel
  | fuel + 1, d =>
    match getFlvTagHeaderInfo d.flv with
    | none => .ok d
    | some (info, flv) => do
      let d := { d with flv := flv.seekForward 3 }
      let curPos := d.flv.pos
      let (goes, d) ← d.handleTag info
      if goes then tagLoop fuel { d with flv := d.flv.seek (curPos + info.tagDataSize.toNat + 4) } else .ok d

end AacDemux

/-- `demux_for_aac` on a new object: the AAC file. -/
def demuxForAac (fuel : Nat) (flvFile : List UInt8) : Run (List UInt8) :=
  match doFlvVerify flvFile with
  | none => .ok []
  | some flvHeaderLength =>
    let start := flvHeaderLength.toBitVec.toInt + 4
    if 2 ^ 31 ≤ start then .error .undefined
    else if start < 0 then .ok []
    else do
      let d := AacDemux.new flvFile
      let d ← AacDemux.tagLoop fuel { d with flv := d.flv.seek start.toNat }
      .ok d.aac

/-! ### One tag -/

variable {file : SeekableFile} {data rest : List UInt8} {d : AacDemux} {tag : FlvTag} {tags : List FlvTag}
  {fuel n : Nat}

theorem readInto_zero (bytes : List UInt8) (few : bytes.length ≤ 4) :
    (readInto 0 bytes).toNat = bytes.foldr (fun b n => b.toNat + 256 * n) 0 := by
  have small : ∀ bytes : List UInt8, bytes.foldr (fun b n => b.toNat + 256 * n) 0 < 256 ^ bytes.length := by
    intro bytes
    induction bytes with
    | nil => exact Nat.one_pos
    | cons b bytes ih =>
      have byte := b.toNat_lt
      rw [List.foldr_cons, List.length_cons, Nat.pow_succ]
      omega
  have word : 256 ^ bytes.length ≤ 256 ^ 4 := Nat.pow_le_pow_right (by decide) few
  have value : (0 : UInt32).toNat / 256 ^ bytes.length * 256 ^ bytes.length = 0 := by
    rw [UInt32.toNat_zero, Nat.zero_div, Nat.zero_mul]
  rw [readInto, value, Nat.zero_add, UInt32.toNat_ofNat_of_lt' (Nat.lt_of_lt_of_le (small bytes) word)]

theorem readInto_byte (b : UInt8) : (readInto 0 [b]).toNat = b.toNat := by
  rw [readInto_zero [b] (Nat.le_add_left 1 3), List.foldr_cons, List.foldr_nil, Nat.mul_zero, Nat.add_zero]

/-- The size of the data of a tag is read as it is written. -/
theorem hton24_readInto (b₁ b₂ b₃ : UInt8) : (hton24 (readInto 0 [b₁, b₂, b₃])).toNat =
    b₁.toNat <<< 16 ||| b₂.toNat <<< 8 ||| b₃.toNat := by
  have first := b₁.toNat_lt
  have second := b₂.toNat_lt
  have third := b₃.toNat_lt
  have value := readInto_zero [b₁, b₂, b₃] (Nat.le_succ 3)
  simp only [List.foldr_cons, List.foldr_nil] at value
  generalize readInto 0 [b₁, b₂, b₃] = x at value ⊢
  have low : x.toNat >>> 16 &&& 255 = b₃.toNat := by
    rw [Masks.and_byte 255 _ 0 rfl, Nat.shiftRight_eq_div_pow]
    omega
  have middle : x.toNat &&& 65280 = b₂.toNat * 2 ^ 8 := by
    rw [Masks.and_byte 65280 _ 8 rfl]
    omega
  have high : x.toNat <<< 16 % 2 ^ 32 &&& 16711680 = b₁.toNat * 2 ^ 16 := by
    rw [Masks.and_byte 16711680 _ 16 rfl, Nat.shiftLeft_eq]
    omega
  simp only [hton24, UInt32.toNat_or, UInt32.toNat_and, UInt32.toNat_shiftLeft, UInt32.toNat_shiftRight]
  change (x.toNat >>> 16 &&& 255 ||| x.toNat <<< 16 % 2 ^ 32 &&& 16711680) ||| x.toNat &&& 65280 = _
  rw [low, middle, high, Nat.shiftLeft_eq, Nat.shiftLeft_eq, Nat.or_comm b₃.toNat, Nat.or_assoc,
    Nat.or_comm b₃.toNat, Nat.or_assoc]

theorem bitsIo_next (next : file.bytes.drop file.pos = data ++ rest) (size : data.length = n) (old : UInt32) :
    bitsIo file n old = (true, readInto old data, file.seekForward n) := by
  rw [bitsIo, SeekableFile.read_of_drop next size]
  dsimp only
  rw [beq_iff_eq.mpr size]

theorem bitsIoAll_next (next : file.bytes.drop file.pos = data ++ rest) (size : data.length = n) (old : UInt32) :
    bitsIoAll file n old = some (readInto old data, file.seekForward n) := by
  rw [bitsIoAll, bitsIo_next next size]
  rfl

theorem bitsIoAll_some {old x : UInt32} {file' : SeekableFile} (read : bitsIoAll file n old = some (x, file')) :
    file' = file.seekForward n ∧ file.pos + n ≤ max file.bytes.length file.pos := by
  unfold bitsIoAll bitsIo SeekableFile.read at read
  dsimp only at read
  split at read
  · next all =>
    obtain ⟨-, rfl⟩ := Prod.mk.inj (Option.some.inj read)
    rw [beq_iff_eq] at all
    rw [all]
    rw [List.length_take, List.length_drop] at all
    exact ⟨rfl, by omega⟩
  · exact absurd read (by simp)

theorem getFlvTagHeaderInfo_some {info : FlvTagHeaderInfo} {file' : SeekableFile}
    (read : getFlvTagHeaderInfo file = some (info, file')) :
    file' = file.seekForward 8 ∧ file.pos < file.bytes.length := by
  unfold getFlvTagHeaderInfo at read
  obtain ⟨⟨_, file₁⟩, readType, read⟩ := Option.bind_eq_some_iff.mp read
  obtain ⟨⟨_, file₂⟩, readSize, read⟩ := Option.bind_eq_some_iff.mp read
  obtain ⟨⟨_, file₃⟩, readTime, read⟩ := Option.bind_eq_some_iff.mp read
  obtain ⟨rfl, inside⟩ := bitsIoAll_some readType
  obtain ⟨rfl, -⟩ := bitsIoAll_some readSize
  obtain ⟨rfl, -⟩ := bitsIoAll_some readTime
  obtain ⟨-, rfl⟩ := Prod.mk.inj (Option.some.inj read)
  rw [SeekableFile.seekForward_add, SeekableFile.seekForward_add]
  exact ⟨rfl, by omega⟩

theorem getFlvTagHeaderInfo_tag (next : file.bytes.drop file.pos = tag.header ++ rest) :
    ∃ info, getFlvTagHeaderInfo file = some (info, file.seekForward 8) ∧
      (info.tagType = 8 ↔ tag.header.getD 0 0 = tagAudio) ∧ info.tagDataSize.toNat = tag.data.length := by
  have eleven : tag.header.length = 11 := tag.header_length
  have size := tag.data_length
  generalize tag.header = header at next eleven size ⊢
  obtain ⟨type, header, rfl⟩ := List.exists_cons_of_length_eq_add_one eleven
  obtain ⟨b₁, header, rfl⟩ := List.exists_cons_of_length_eq_add_one (Nat.succ.inj eleven)
  obtain ⟨b₂, header, rfl⟩ := List.exists_cons_of_length_eq_add_one (Nat.succ.inj (Nat.succ.inj eleven))
  obtain ⟨b₃, times, rfl⟩ := List.exists_cons_of_length_eq_add_one (Nat.succ.inj (Nat.succ.inj (Nat.succ.inj eleven)))
  have seven : times.length = 7 := Nat.succ.inj (Nat.succ.inj (Nat.succ.inj (Nat.succ.inj eleven)))
  have four : (times.take 4).length = 4 := by rw [List.length_take, seven]; rfl
  rw [← List.take_append_drop 4 times] at next
  have behindType : (file.seekForward 1).bytes.drop (file.seekForward 1).pos =
      [b₁, b₂, b₃] ++ (times.take 4 ++ (times.drop 4 ++ rest)) := by
    rw [← List.append_assoc (times.take 4)]
    exact @SeekableFile.drop_seekForward file [type] _ 1 next rfl
  have behindSize := @SeekableFile.drop_seekForward (file.seekForward 1) [b₁, b₂, b₃] _ 3 behindType rfl
  have readType := @bitsIoAll_next file [type] _ 1 next rfl 0
  have readSize := @bitsIoAll_next (file.seekForward 1) [b₁, b₂, b₃] _ 3 behindType rfl 0
  have readTime := bitsIoAll_next behindSize four 0
  have read : getFlvTagHeaderInfo file = some (⟨readInto 0 [type],
      hton24 (readInto 0 (times.take 4)) ||| (readInto 0 (times.take 4) &&& (0xff000000 : UInt32)),
      hton24 (readInto 0 [b₁, b₂, b₃])⟩, file.seekForward 8) := by
    rw [getFlvTagHeaderInfo, readType]
    dsimp only [Option.bind_eq_bind, Option.bind_some]
    rw [readSize]
    dsimp only [Option.bind_some]
    rw [readTime]
    dsimp only [Option.bind_some]
    rw [SeekableFile.seekForward_add, SeekableFile.seekForward_add]
  refine ⟨_, read, ?_, ?_⟩
  · rw [← UInt32.toNat_inj, ← UInt8.toNat_inj, readInto_byte]
    exact Iff.rfl
  · rw [hton24_readInto, size]
    rfl

/-! ### The loop -/

namespace AacDemux

/-- The position is behind the size that stands before the first of these tags. -/
def AtTags (d : AacDemux) (tags : List FlvTag) (last : List UInt8) : Prop :=
  ∃ p, d.flv.pos = p + 4 ∧ d.flv.bytes.drop p = tags.flatMap FlvTag.bytes ++ last

/-- Behind the header of a tag. -/
def inTag (d : AacDemux) : AacDemux := { d with flv := d.flv.seekForward 11 }

/-- Behind a tag that has `tagDataSize` bytes of data. -/
def behind (d : AacDemux) (pos tagDataSize : Nat) : AacDemux :=
  { d with flv := d.flv.seek (pos + 11 + tagDataSize + 4) }

variable {d' : AacDemux} {last : List UInt8}

theorem AtTags.behind (at_ : d.AtTags (tag :: tags) last) (same : d'.flv.bytes = d.flv.bytes) :
    (d'.behind d.flv.pos tag.data.length).AtTags tags last := by
  obtain ⟨p, pos, next⟩ := at_
  refine ⟨p + tag.bytes.length, ?_, ?_⟩
  · rw [tag.length_bytes, pos]
    show p + 4 + 11 + tag.data.length + 4 = p + (15 + tag.data.length) + 4
    omega
  · show d'.flv.bytes.drop (p + tag.bytes.length) = _
    rw [same, ← List.drop_drop, next, List.flatMap_cons, List.append_assoc, List.drop_left]

/-- The header of the tag is at the position, and its data are behind it. -/
theorem AtTags.next (at_ : d.AtTags (tag :: tags) last) : ∃ rest,
    d.flv.bytes.drop d.flv.pos = tag.header ++ (tag.data ++ rest) := by
  obtain ⟨p, pos, next⟩ := at_
  refine ⟨tags.flatMap FlvTag.bytes ++ last, ?_⟩
  rw [pos, ← List.drop_drop, next, List.flatMap_cons, FlvTag.bytes, List.append_assoc, List.append_assoc,
    List.append_assoc]
  exact List.drop_left' tag.previousTagSize_length

/-- One turn, where `demux_for_aac` goes on behind the tag. -/
theorem tagLoop_turn (at_ : d.AtTags (tag :: tags) last)
    (turn : (if tag.header.getD 0 0 = tagAudio then d.inTag.audioTag tag.data.length else .ok (true, d.inTag)) =
      .ok (true, d')) :
    tagLoop (fuel + 1) d = tagLoop fuel (d'.behind d.flv.pos tag.data.length) := by
  obtain ⟨rest, next⟩ := at_.next
  obtain ⟨info, read, type, size⟩ := getFlvTagHeaderInfo_tag next
  have handled : d.inTag.handleTag info = .ok (true, d') := by rw [handleTag, size, if_congr type rfl rfl, turn]
  rw [tagLoop, read]
  dsimp only
  rw [SeekableFile.seekForward_add, size]
  exact congrArg (fun turn : Run (Bool × AacDemux) => turn.bind fun (goes, after) =>
    if goes then tagLoop fuel (after.behind d.flv.pos tag.data.length) else .ok after) handled

theorem tagLoop_other (at_ : d.AtTags (tag :: tags) last) (other : tag.header.getD 0 0 ≠ tagAudio) :
    tagLoop (fuel + 1) d = tagLoop fuel (d.behind d.flv.pos tag.data.length) := by
  rw [tagLoop_turn at_ (if_neg other)]
  rfl

theorem AtTags.next_data (at_ : d.AtTags (tag :: tags) last) : ∃ rest,
    d.inTag.flv.bytes.drop d.inTag.flv.pos = tag.data ++ rest := by
  obtain ⟨rest, next⟩ := at_.next
  exact ⟨rest, SeekableFile.drop_seekForward next tag.header_length⟩

/-- What is read of a tag before the sequence header has been found. -/
theorem getFlvAacSequenceHeader_next {b₀ b₁ : UInt8} {more : List UInt8}
    (next : d.flv.bytes.drop d.flv.pos = b₀ :: b₁ :: (more ++ rest)) (size : b₁ = 0 → more.length = 2) :
    d.getFlvAacSequenceHeader = if b₁ = 0 then
        ⟨d.flv.seekForward 4, true, d.flvAacSequenceHeader.load more,
          d.aacAdtsHeader.configured (d.flvAacSequenceHeader.load more), d.aac⟩
      else { d with flv := d.flv.seekForward 2 } := by
  have behind := @SeekableFile.drop_seekForward d.flv [b₀] _ 1 next rfl
  have ahead := @SeekableFile.drop_seekForward (d.flv.seekForward 1) [b₁] _ 1 behind rfl
  have type : readInto 0 [b₁] = 0 ↔ b₁ = 0 := by
    rw [← UInt32.toNat_inj, ← UInt8.toNat_inj, readInto_byte]
    exact Iff.rfl
  rw [getFlvAacSequenceHeader, @bitsIo_next d.flv [b₀] _ 1 next rfl]
  dsimp only
  rw [@bitsIo_next (d.flv.seekForward 1) [b₁] _ 1 behind rfl]
  dsimp only
  rw [if_congr type rfl rfl]
  by_cases header : b₁ = 0
  · rw [if_pos header, if_pos header, SeekableFile.read_of_drop ahead (size header), SeekableFile.seekForward_add,
      SeekableFile.seekForward_add]
  · rw [if_neg header, if_neg header, SeekableFile.seekForward_add]

theorem tagLoop_end (at_ : d.AtTags [] last) (four : last.length = 4) : tagLoop (fuel + 1) d = .ok d := by
  obtain ⟨p, pos, next⟩ := at_
  have ended : d.flv.bytes.drop d.flv.pos = [] := by
    rw [pos, ← List.drop_drop, next, List.flatMap_nil, List.nil_append, ← four, List.drop_length]
  have none_ : getFlvTagHeaderInfo d.flv = none := by
    rw [getFlvTagHeaderInfo, bitsIoAll, bitsIo, SeekableFile.read, ended]
    rfl
  rw [tagLoop, none_]

/-- An audio tag that is passed over: there has been no sequence header, and it is none. -/
theorem tagLoop_passed (at_ : d.AtTags (tag :: tags) last) (audio : tag.header.getD 0 0 = tagAudio)
    (searching : d.findAacSequenceHeader = false) (whole : 2 ≤ tag.data.length) (other : tag.data.getD 1 0 ≠ 0) :
    tagLoop (fuel + 1) d = tagLoop fuel (d.behind d.flv.pos tag.data.length) := by
  obtain ⟨rest, next⟩ := at_.next_data
  obtain ⟨b₀, b₁, more, same⟩ : ∃ b₀ b₁ more, tag.data = b₀ :: b₁ :: more := by
    obtain ⟨b₀, data, same⟩ := List.exists_cons_of_length_pos (Nat.lt_of_lt_of_le Nat.two_pos whole)
    rw [same, List.length_cons] at whole
    obtain ⟨b₁, more, rfl⟩ := List.exists_cons_of_length_pos (Nat.le_of_succ_le_succ whole)
    exact ⟨b₀, b₁, more, same⟩
  rw [same] at next
  have other : b₁ ≠ 0 := by rwa [same] at other
  have read := @getFlvAacSequenceHeader_next (more ++ rest) d.inTag b₀ b₁ [] next fun zero => absurd zero other
  rw [if_neg other] at read
  have turn : d.inTag.audioTag tag.data.length = .ok (true, { d.inTag with flv := d.inTag.flv.seekForward 2 }) := by
    rw [audioTag, ← read, if_neg]
    exact Bool.eq_false_iff.mp searching
  rw [tagLoop_turn at_ ((if_pos audio).trans turn)]
  rfl

/-- The payload of a later tag. -/
def frame (d : AacDemux) (payload : List UInt8) : AacDemux :=
  { d with
    aacAdtsHeader := d.aacAdtsHeader.sized (payload.length + 7)
    aac := d.aac ++ ((d.aacAdtsHeader.sized (payload.length + 7)).bytes ++ payload) }

theorem audioTag_bytes {goes : Bool} (ran : d.audioTag n = .ok (goes, d')) : d'.flv.bytes = d.flv.bytes := by
  unfold audioTag at ran
  split at ran
  · dsimp only at ran
    split at ran
    · obtain ⟨-, rfl⟩ := Prod.mk.inj (Except.ok.inj ran)
      rfl
    · split at ran
      · exact absurd ran (by simp)
      · obtain ⟨-, rfl⟩ := Prod.mk.inj (Except.ok.inj ran)
        rfl
  · obtain ⟨-, rfl⟩ := Prod.mk.inj (Except.ok.inj ran)
    unfold getFlvAacSequenceHeader
    dsimp only
    split <;> rfl

/-- A turn leaves the bytes of the file as they are, and no part of it runs out of fuel. -/
theorem handleTag_ends (info : FlvTagHeaderInfo) : d.handleTag info = .error .undefined ∨
    ∃ goes d', d.handleTag info = .ok (goes, d') ∧ d'.flv.bytes = d.flv.bytes := by
  rw [handleTag]
  split
  · cases ran : d.audioTag info.tagDataSize.toNat with
    | ok turn => exact .inr ⟨turn.1, turn.2, rfl, audioTag_bytes ran⟩
    | error stop =>
      refine .inl ?_
      unfold audioTag at ran
      split at ran
      · dsimp only at ran
        split at ran
        · exact absurd ran (by simp)
        · split at ran
          · exact ran.symm
          · exact absurd ran (by simp)
      · exact absurd ran (by simp)
  · exact .inr ⟨true, d, rfl, rfl⟩

/-- Whatever the file holds, the loop ends: a turn that reads the header of a tag goes on behind it. -/
theorem tagLoop_ends (enough : d.flv.bytes.length < d.flv.pos + fuel) (some_ : fuel ≠ 0) :
    tagLoop fuel d ≠ .error .fuel := by
  induction fuel generalizing d with
  | zero => exact absurd rfl some_
  | succ fuel ih =>
    rw [tagLoop]
    split
    · simp
    · next info flv read =>
      obtain ⟨rfl, inside⟩ := getFlvTagHeaderInfo_some read
      obtain stops | ⟨goes, d', ran, same⟩ :=
        @handleTag_ends { d with flv := (d.flv.seekForward 8).seekForward 3 } info
      · dsimp only
        rw [stops]
        simp [bind, Except.bind]
      · dsimp only
        rw [ran]
        show (if goes then tagLoop fuel { d' with flv := d'.flv.seek (d.flv.pos + 8 + 3 + info.tagDataSize.toNat + 4) }
          else .ok d') ≠ _
        split
        · apply ih
          · show d'.flv.bytes.length < _
            rw [same]
            show d.flv.bytes.length < d.flv.pos + 8 + 3 + info.tagDataSize.toNat + 4 + fuel
            omega
          · omega
        · simp

/-! ### Runs of the loop -/

/-- Of the tags before the sequence header nothing is kept. -/
theorem tagLoop_before {before : List FlvTag} (at_ : d.AtTags (before ++ tags) last)
    (searching : d.findAacSequenceHeader = false)
    (other : ∀ tag ∈ before, tag.header.getD 0 0 = tagAudio → 2 ≤ tag.data.length ∧ tag.data.getD 1 0 ≠ 0) :
    ∃ flv, AtTags { d with flv } tags last ∧
      ∀ fuel, tagLoop (before.length + fuel) d = tagLoop fuel { d with flv } := by
  induction before generalizing d with
  | nil => exact ⟨d.flv, at_, fun fuel => by rw [List.length_nil, Nat.zero_add]⟩
  | cons tag before ih =>
    obtain ⟨flv, there, ran⟩ := ih (at_.behind rfl) searching fun t member => other t (List.mem_cons_of_mem _ member)
    refine ⟨flv, there, fun fuel => Eq.trans ?_ (ran fuel)⟩
    rw [List.length_cons, Nat.add_right_comm]
    by_cases audio : tag.header.getD 0 0 = tagAudio
    · obtain ⟨whole, raw⟩ := other tag List.mem_cons_self audio
      exact tagLoop_passed at_ audio searching whole raw
    · exact tagLoop_other at_ audio

end AacDemux

/-! ### The headers of the frames -/

/-- The ADTS header behind the first sequence header. -/
def headerOf (config : AudioSpecificConfig) : AacAdtsHeader :=
  AacAdtsHeader.zero.configured ((⟨0, 0⟩ : FlvAacSequenceHeader).load config.bytes)

variable {config : AudioSpecificConfig} {payload : List UInt8} {payloads : List (List UInt8)} {aacFrame : Nat → UInt8}
  {frameLength : Nat}

variable {flvFile : FlvFile} {version flags : UInt8} {before behind : List FlvTag} {first : FlvTag} {sound : Fin 16}
  {more : List UInt8}

/-- Where the loop starts: behind the size in front of the first tag. -/
def opened (flvFile : FlvFile) : AacDemux :=
  { AacDemux.new flvFile.bytes with flv := (SeekableFile.mk flvFile.bytes 0).seek 13 }

theorem demuxForAac_opened (header : flvFile.flvHeader = [0x46, 0x4C, 0x56, version, flags, 0, 0, 0, 9]) :
    (opened flvFile).AtTags flvFile.tags flvFile.lastTagSize ∧
      ∀ fuel, demuxForAac fuel flvFile.bytes = ((opened flvFile).tagLoop fuel).map AacDemux.aac := by
  have bytes : flvFile.bytes = [0x46, 0x4C, 0x56] ++ ([version] ++ ([flags] ++ ([0, 0, 0, 9] ++
      (flvFile.tags.flatMap FlvTag.bytes ++ flvFile.lastTagSize)))) := by
    rw [FlvFile.bytes, header]
    rfl
  have verified : doFlvVerify flvFile.bytes = some 9 := by
    have next : (SeekableFile.mk flvFile.bytes 0).bytes.drop (SeekableFile.mk flvFile.bytes 0).pos = _ := bytes
    have three : ([0x46, 0x4C, 0x56] : List UInt8).length = 3 := rfl
    have four : ([0, 0, 0, 9] : List UInt8).length = 4 := rfl
    have next₁ := SeekableFile.drop_seekForward next three
    have next₂ := SeekableFile.drop_seekForward next₁ List.length_singleton
    have next₃ := SeekableFile.drop_seekForward next₂ List.length_singleton
    have signature : hton24 (readInto 0 [0x46, 0x4C, 0x56]) = fixedFlvSignature := by decide
    have nine : hton32 (readInto 0 [0, 0, 0, 9]) = 9 := by decide
    rw [doFlvVerify, bitsIoAll_next next three]
    dsimp only [Option.bind_eq_bind, Option.bind_some]
    rw [if_neg (not_not.mpr signature), bitsIoAll_next next₁ List.length_singleton]
    dsimp only [Option.bind_some]
    rw [bitsIoAll_next next₂ List.length_singleton]
    dsimp only [Option.bind_some]
    rw [bitsIoAll_next next₃ four]
    dsimp only [Option.bind_some]
    rw [nine]
  refine ⟨⟨9, rfl, ?_⟩, fun fuel => ?_⟩
  · show flvFile.bytes.drop 9 = _
    rw [bytes]
    rfl
  · rw [demuxForAac, verified]
    rfl

/-- Without a sequence header nothing is written. -/
theorem demuxForAac_silent (header : flvFile.flvHeader = [0x46, 0x4C, 0x56, version, flags, 0, 0, 0, 9])
    (other : ∀ tag ∈ flvFile.tags, tag.header.getD 0 0 = tagAudio → 2 ≤ tag.data.length ∧ tag.data.getD 1 0 ≠ 0)
    (enough : flvFile.tags.length < fuel) : demuxForAac fuel flvFile.bytes = .ok [] := by
  obtain ⟨at_, ran⟩ := demuxForAac_opened header
  obtain ⟨more, rfl⟩ := Nat.exists_eq_add_of_lt enough
  rw [← List.append_nil flvFile.tags] at at_
  obtain ⟨flv, there, ranBefore⟩ := AacDemux.tagLoop_before at_ rfl other
  rw [ran, Nat.add_assoc, ranBefore, AacDemux.tagLoop_end there flvFile.lastTagSize_length]
  rfl

theorem demuxForAac_ends (flvFile : List UInt8) (enough : flvFile.length < fuel) :
    demuxForAac fuel flvFile ≠ .error .fuel := by
  rw [demuxForAac]
  split
  · simp
  · next flvHeaderLength _ =>
    dsimp only
    split
    · simp
    · split
      · simp
      · generalize (flvHeaderLength.toBitVec.toInt + 4).toNat = start
        have ends : AacDemux.tagLoop fuel { AacDemux.new flvFile with flv := (SeekableFile.mk flvFile 0).seek start } ≠
            .error .fuel :=
          AacDemux.tagLoop_ends (Nat.lt_of_lt_of_le enough (Nat.le_add_left fuel start)) (Nat.ne_zero_of_lt enough)
        change Except.bind (AacDemux.tagLoop fuel
          { AacDemux.new flvFile with flv := (SeekableFile.mk flvFile 0).seek start }) _ ≠ _
        generalize AacDemux.tagLoop fuel _ = run at ends ⊢
        cases run with
        | ok d => simp [Except.bind]
        | error stop => simpa [Except.bind] using ends

end LiveStreaming.Flv
