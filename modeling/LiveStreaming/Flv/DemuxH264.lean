import LiveStreaming.FlvMux.ScriptTag
import LiveStreaming.Library.BitString
import LiveStreaming.Library.NalStream
import LiveStreaming.Library.SeekableFile

/-!
# Demuxing H.264

`demux_for_h264` writes the NAL units of a video tag behind start codes. Its loop counts one byte more for each unit
than it reads.
-/

namespace LiveStreaming.Flv
open Library NalStream
open FlvMux (Run)

/-! ### Numbers in files -/

/-- An `int` after `fread` has put bytes into its lowest places. -/
def readInto (old : UInt32) (bytes : List UInt8) : UInt32 :=
  UInt32.ofNat (old.toNat / 256 ^ bytes.length * 256 ^ bytes.length +
    bytes.foldr (fun b n => b.toNat + 256 * n) 0)

def hton16 (x : UInt32) : UInt32 := ((x >>> 8) &&& (0xff : UInt32)) ||| ((x <<< 8) &&& (0xff00 : UInt32))

def hton32 (x : UInt32) : UInt32 :=
  ((x >>> 24) &&& (0xff : UInt32)) ||| ((x >>> 8) &&& (0xff00 : UInt32)) ||| ((x <<< 8) &&& (0xff0000 : UInt32)) |||
    ((x <<< 24) &&& (0xff000000 : UInt32))

/-! ### The tag -/

def h264Space : List UInt8 := [0, 0, 0, 1]

/-- `_fflv_handler`, and what `f264_handler` has been given. -/
structure Demux where
  flv : SeekableFile
  h264 : List UInt8

namespace Demux

/-- `bits_io::read_8_bit` and its siblings. -/
def readBits (d : Demux) (count : Nat) (old : UInt32) : UInt32 × Demux :=
  let (bytes, flv) := d.flv.read count
  (readInto old bytes, { d with flv })

def skip (d : Demux) (count : Nat) : Demux := { d with flv := d.flv.seekForward count }

/-- `h264_frame` from its allocation to its end, and whether there is memory for it: a negative length asks for more
than there is. -/
def writeFrame (d : Demux) (frameLength : UInt32) : Run (Bool × Demux) :=
  if 0xFFFFFFFC ≤ frameLength then .error .undefined
  else if 0x80000000 ≤ frameLength then .ok (false, d)
  else if 0x7FFFFFFC ≤ frameLength then .error .undefined
  else
    let (frame, flv) := d.flv.read frameLength.toNat
    if frame.length < frameLength.toNat then .error .undefined
    else .ok (true, ⟨flv, d.h264 ++ h264Space ++ frame⟩)

/-- The loop over the units of a tag. -/
def nalLoop (tagDataSize : Nat) : Nat → Nat → UInt32 → Demux → Run (Bool × Demux)
  | 0, _, _, _ => .error .fuel
  | fuel + 1, countsize, frameLength, d =>
    if countsize < tagDataSize then do
      let (frameLength, d) := d.readBits 4 frameLength
      let frameLength := hton32 frameLength
      let (goes, d) ← d.writeFrame frameLength
      if goes then
        if 2 ^ 31 ≤ countsize + (frameLength.toNat + 5) then .error .undefined
        else nalLoop tagDataSize fuel (countsize + (frameLength.toNat + 5)) frameLength d
      else .ok (false, d)
    else .ok (true, d)

/-- The branch of a video tag, and whether `demux_for_h264` goes on behind it. -/
def videoTag (d : Demux) (fuel tagDataSize : Nat) : Run (Bool × Demux) := do
  let (_frametypeCodecid, d) := d.readBits 1 0
  let (avcPacketType, d) := d.readBits 1 0
  let d := d.skip 3
  if avcPacketType = 0 then
    let d := d.skip 6
    let (frameLength, d) := d.readBits 2 0
    let (goes, d) ← d.writeFrame (hton16 frameLength)
    if goes then
      let (ppsCount, d) := d.readBits 1 (hton16 frameLength)
      let (frameLength, d) := d.readBits 2 ppsCount
      d.writeFrame (hton16 frameLength)
    else .ok (false, d)
  else if avcPacketType = 1 then nalLoop tagDataSize fuel (2 + 4) 0 d
  else .ok (true, d)

end Demux

/-! ### Lengths -/

theorem hton32_toNat {x : UInt32} {a b c d : Nat} (first : a < 256) (second : b < 256) (third : c < 256)
    (fourth : d < 256) (bytes : x.toNat = a + b * 2 ^ 8 + c * 2 ^ 16 + d * 2 ^ 24) :
    (hton32 x).toNat = a * 2 ^ 24 + (b * 2 ^ 16 + (c * 2 ^ 8 + d)) := by
  have byte0 : x.toNat >>> 24 &&& 255 = d := by
    rw [Masks.and_byte 255 _ 0 rfl, Nat.shiftRight_eq_div_pow]
    omega
  have byte1 : x.toNat >>> 8 &&& 65280 = c * 2 ^ 8 := by
    rw [Masks.and_byte 65280 _ 8 rfl, Nat.shiftRight_eq_div_pow]
    omega
  have byte2 : x.toNat <<< 8 % 2 ^ 32 &&& 16711680 = b * 2 ^ 16 := by
    rw [Masks.and_byte 16711680 _ 16 rfl, Nat.shiftLeft_eq]
    omega
  have byte3 : x.toNat <<< 24 % 2 ^ 32 &&& 4278190080 = a * 2 ^ 24 := by
    rw [Masks.and_byte 4278190080 _ 24 rfl, Nat.shiftLeft_eq]
    omega
  simp only [hton32, UInt32.toNat_or, UInt32.toNat_and, UInt32.toNat_shiftLeft, UInt32.toNat_shiftRight]
  change ((x.toNat >>> 24 &&& 255 ||| x.toNat >>> 8 &&& 65280) ||| x.toNat <<< 8 % 2 ^ 32 &&& 16711680) |||
    x.toNat <<< 24 % 2 ^ 32 &&& 4278190080 = _
  rw [byte0, byte1, byte2, byte3, Masks.below_or c (show d < 2 ^ 8 from fourth), Masks.below_or b (by omega),
    Masks.below_or a (by omega)]

/-- A length in the file is read as it is written. -/
theorem hton32_readInto {n : Nat} (small : n < 2 ^ 24) (old : UInt32) :
    hton32 (readInto old (unitLength n)) = UInt32.ofNat n := by
  have none : old.toNat / 256 ^ 4 = 0 := Nat.div_eq_of_lt old.toNat_lt
  have first : n >>> 24 = 0 := by
    rw [Nat.shiftRight_eq_div_pow]
    exact Nat.div_eq_of_lt small
  have second : n / 2 ^ 16 < 2 ^ 8 := by omega
  have value : (readInto old (unitLength n)).toNat =
      0 + n / 2 ^ 16 * 2 ^ 8 + n / 2 ^ 8 % 256 * 2 ^ 16 + n % 256 * 2 ^ 24 := by
    rw [readInto, show (unitLength n).length = 4 from rfl, none, Nat.zero_mul, Nat.zero_add, unitLength, first,
      Nat.shiftRight_eq_div_pow, Nat.shiftRight_eq_div_pow]
    simp only [List.foldr_cons, List.foldr_nil, UInt32.toNat_ofNat', UInt8.toNat_ofNat']
    rw [Nat.mod_eq_of_lt second]
    omega
  apply UInt32.toNat_inj.mp
  rw [hton32_toNat (by decide) (by omega) (Nat.mod_lt _ (by decide)) (Nat.mod_lt _ (by decide)) value,
    UInt32.toNat_ofNat_of_lt' (Nat.lt_trans small (by decide))]
  omega

/-! ### The loop -/

variable {units : List (List UInt8)} {unit rest : List UInt8} {d : Demux} {tagDataSize : Nat}

/-- The units that the loop writes when it has written `drift` before: each of them has counted for one byte more. -/
def written (drift : Nat) : List (List UInt8) → List (List UInt8)
  | [] => []
  | unit :: units =>
    if 1 + drift < (lengthPrefixed (unit :: units)).length then unit :: written (drift + 1) units else []

/-- Behind what is read and before what has been written. -/
def Demux.after (d : Demux) (units : List (List UInt8)) : Demux :=
  ⟨d.flv.seekForward (lengthPrefixed units).length, d.h264 ++ startCoded units⟩

theorem Demux.readBits_next {bytes : List UInt8} {n : Nat} (next : d.flv.bytes.drop d.flv.pos = bytes ++ rest)
    (size : bytes.length = n) (old : UInt32) : d.readBits n old = (readInto old bytes, d.skip n) := by
  rw [readBits, SeekableFile.read_of_drop next size]
  rfl

theorem Demux.skip_next {bytes : List UInt8} {n : Nat} (next : d.flv.bytes.drop d.flv.pos = bytes ++ rest)
    (size : bytes.length = n) : (d.skip n).flv.bytes.drop (d.skip n).flv.pos = rest :=
  SeekableFile.drop_seekForward next size

theorem Demux.writeFrame_unit {data : List UInt8} (small : data.length < 2 ^ 24)
    (next : d.flv.bytes.drop d.flv.pos = data ++ rest) :
    d.writeFrame (UInt32.ofNat data.length) =
      .ok (true, ⟨d.flv.seekForward data.length, d.h264 ++ h264Space ++ data⟩) := by
  have size : (UInt32.ofNat data.length).toNat = data.length :=
    UInt32.toNat_ofNat_of_lt' (Nat.lt_trans small (by decide))
  have below {x : UInt32} (large : 2 ^ 24 ≤ x.toNat) : ¬ x ≤ UInt32.ofNat data.length := by
    rw [UInt32.le_iff_toNat_le, size]
    omega
  have read := SeekableFile.read_of_drop next rfl
  rw [writeFrame, if_neg (below (by decide)), if_neg (below (by decide)), if_neg (below (by decide)), size, read]
  exact if_neg (Nat.lt_irrefl _)

theorem nalLoop_units {fuel countsize : Nat} (drift : Nat) (frameLength : UInt32)
    (count : countsize + (lengthPrefixed units).length = tagDataSize + 1 + drift) (small : tagDataSize < 2 ^ 24)
    (short : (lengthPrefixed units).length < 2 ^ 24) (enough : units.length < fuel)
    (next : d.flv.bytes.drop d.flv.pos = lengthPrefixed units ++ rest) :
    Demux.nalLoop tagDataSize fuel countsize frameLength d = .ok (true, d.after (written drift units)) := by
  obtain ⟨fuel, rfl⟩ := Nat.exists_eq_succ_of_ne_zero (Nat.ne_zero_of_lt enough)
  induction units generalizing fuel countsize drift frameLength d with
  | nil =>
    have ended : ¬ countsize < tagDataSize := by
      rw [lengthPrefixed, List.flatMap_nil, List.length_nil] at count
      omega
    rw [Demux.nalLoop, if_neg ended, written, Demux.after, startCoded, List.flatMap_nil, List.append_nil]
    rfl
  | cons unit units ih =>
    rw [List.length_cons, Nat.succ_lt_succ_iff] at enough
    obtain ⟨fuel, rfl⟩ := Nat.exists_eq_succ_of_ne_zero (Nat.ne_zero_of_lt enough)
    have length := length_lengthPrefixed_cons unit units
    rw [Demux.nalLoop, written]
    by_cases more : 1 + drift < (lengthPrefixed (unit :: units)).length
    · have unitSmall : unit.length < 2 ^ 24 := by omega
      rw [if_pos (show countsize < tagDataSize by omega), if_pos more]
      rw [lengthPrefixed_cons, List.append_assoc, List.append_assoc] at next
      have four : (unitLength unit.length).length = 4 := rfl
      have read := Demux.readBits_next next four frameLength
      have behind := Demux.skip_next next four
      have wrote := Demux.writeFrame_unit unitSmall behind
      have ahead := SeekableFile.drop_seekForward behind rfl
      have size : (UInt32.ofNat unit.length).toNat = unit.length :=
        UInt32.toNat_ofNat_of_lt' (Nat.lt_trans unitSmall (by decide))
      have room : ¬ 2 ^ 31 ≤ countsize + (unit.length + 5) := by omega
      have loop := @ih ⟨(d.flv.seekForward 4).seekForward unit.length, d.h264 ++ h264Space ++ unit⟩
        (countsize + (unit.length + 5)) (drift + 1) (UInt32.ofNat unit.length) (by omega) (by omega) ahead fuel enough
      have whole : d.after (unit :: written (drift + 1) units) =
          Demux.after ⟨(d.flv.seekForward 4).seekForward unit.length, d.h264 ++ h264Space ++ unit⟩
            (written (drift + 1) units) := by
        simp only [Demux.after, startCoded_cons, length_lengthPrefixed_cons, SeekableFile.seekForward_add, h264Space,
          List.append_assoc]
      rw [read]
      dsimp only
      rw [hton32_readInto unitSmall, wrote, whole, ← loop]
      rw [size]
      change (if 2 ^ 31 ≤ countsize + (unit.length + 5) then _ else _) = _
      rw [if_neg room]
      rfl
    · rw [if_neg (show ¬ countsize < tagDataSize by omega), if_neg more, Demux.after, startCoded, List.flatMap_nil,
        List.append_nil]
      rfl

theorem written_starts (drift : Nat) (units : List (List UInt8)) : written drift units <+: units := by
  induction units generalizing drift with
  | nil => exact List.prefix_rfl
  | cons unit units ih =>
    rw [written]
    split
    · exact List.cons_prefix_cons.mpr ⟨rfl, ih (drift + 1)⟩
    · exact List.nil_prefix

theorem last_le {last : List UInt8} (is : last ∈ units.getLast?) : 4 + last.length ≤ (lengthPrefixed units).length := by
  obtain ⟨before, rfl⟩ := List.getLast?_eq_some_iff.mp is
  rw [lengthPrefixed, List.flatMap_append, List.length_append, List.flatMap_singleton, List.length_append]
  exact Nat.le_add_left _ _

/-- The loop writes all units if what it counts too much does not reach the end of the last one. -/
theorem written_eq (drift : Nat) (units : List (List UInt8)) :
    written drift units = units ↔ ∀ last ∈ units.getLast?, drift + units.length < 4 + last.length := by
  induction units generalizing drift with
  | nil => exact iff_of_true rfl fun last is => by cases is
  | cons unit units ih =>
    rw [written]
    by_cases more : 1 + drift < (lengthPrefixed (unit :: units)).length
    · rw [if_pos more, List.cons_inj_right, ih]
      cases units with
      | nil =>
        refine iff_of_true (fun last is => by cases is) fun last is => ?_
        obtain rfl : unit = last := Option.some.inj is
        rw [length_lengthPrefixed_cons, lengthPrefixed, List.flatMap_nil, List.length_nil] at more
        rw [List.length_singleton]
        omega
      | cons second units =>
        have count : drift + (unit :: second :: units).length = drift + 1 + (second :: units).length := by
          rw [List.length_cons, Nat.add_assoc, Nat.add_comm 1]
        rw [List.getLast?_cons_cons, count]
    · rw [if_neg more]
      refine iff_of_false (List.cons_ne_nil unit units).symm fun all => ?_
      obtain ⟨last, is⟩ := Option.isSome_iff_exists.mp (List.getLast?_isSome.mpr (List.cons_ne_nil unit units))
      have bound := all last is
      have within := last_le is
      rw [List.length_cons] at bound
      omega

/-! ### The tag -/

/-- At the position the data of a picture begin: five bytes, and the units behind their lengths. -/
def Demux.At (d : Demux) (tagDataSize : Nat) (units : List (List UInt8)) : Prop :=
  ∃ first c₁ c₂ c₃ rest, d.flv.bytes.drop d.flv.pos = [first, 1, c₁, c₂, c₃] ++ (lengthPrefixed units ++ rest) ∧
    tagDataSize = 5 + (lengthPrefixed units).length ∧ tagDataSize < 2 ^ 24

/-- All units are written, each behind a start code, and the data have been read to their end. -/
def Demux.WritesUnits (d : Demux) (tagDataSize : Nat) (units : List (List UInt8)) : Prop :=
  ∀ fuel, tagDataSize < fuel →
    d.videoTag fuel tagDataSize = .ok (true, ⟨d.flv.seekForward tagDataSize, d.h264 ++ startCoded units⟩)

theorem length_le_lengthPrefixed (units : List (List UInt8)) : units.length ≤ (lengthPrefixed units).length := by
  induction units with
  | nil => exact Nat.le_refl 0
  | cons unit units ih =>
    rw [length_lengthPrefixed_cons, List.length_cons]
    omega

theorem eq_of_starts {units units' : List (List UInt8)} (starts : units' <+: units)
    (length : (lengthPrefixed units').length = (lengthPrefixed units).length) : units' = units := by
  obtain ⟨more, rfl⟩ := starts
  rw [lengthPrefixed, lengthPrefixed, List.flatMap_append, List.length_append] at length
  have none : (lengthPrefixed more).length = 0 := Nat.add_left_cancel length.symm
  have bound := length_le_lengthPrefixed more
  rw [List.eq_nil_of_length_eq_zero (by omega : more.length = 0), List.append_nil]

theorem videoTag_units (at_ : d.At tagDataSize units) {fuel : Nat} (enough : tagDataSize < fuel) :
    d.videoTag fuel tagDataSize = .ok (true, (d.skip 5).after (written 0 units)) := by
  obtain ⟨first, c₁, c₂, c₃, rest, next, size, small⟩ := at_
  have one : d.readBits 1 0 = (readInto 0 [first], d.skip 1) :=
    @Demux.readBits_next ([1, c₁, c₂, c₃] ++ (lengthPrefixed units ++ rest)) d [first] 1 next rfl 0
  have behind : (d.skip 1).flv.bytes.drop (d.skip 1).flv.pos = [1, c₁, c₂, c₃] ++ (lengthPrefixed units ++ rest) :=
    @Demux.skip_next _ d [first] 1 next rfl
  have two : (d.skip 1).readBits 1 0 = (1, d.skip 2) :=
    @Demux.readBits_next ([c₁, c₂, c₃] ++ (lengthPrefixed units ++ rest)) (d.skip 1) [1] 1 behind rfl 0
  have ahead : (d.skip 5).flv.bytes.drop (d.skip 5).flv.pos = lengthPrefixed units ++ rest :=
    Demux.skip_next next rfl
  have loop := nalLoop_units 0 0 (show 2 + 4 + (lengthPrefixed units).length = tagDataSize + 1 + 0 by omega) small
    (by omega) (Nat.lt_of_le_of_lt (length_le_lengthPrefixed units) (by omega : _ < fuel)) ahead
  rw [Demux.videoTag, one]
  dsimp only
  rw [two]
  exact loop

/-- A picture is written as it ought to be exactly if it has fewer units than four more than its last one has bytes. -/
theorem writesUnits_iff (at_ : d.At tagDataSize units) :
    d.WritesUnits tagDataSize units ↔ ∀ last ∈ units.getLast?, units.length < 4 + last.length := by
  have size : tagDataSize = 5 + (lengthPrefixed units).length := by
    obtain ⟨_, _, _, _, _, -, size, -⟩ := at_
    exact size
  have count := written_eq 0 units
  rw [Nat.zero_add] at count
  rw [← count]
  have after : (d.skip 5).after units = ⟨d.flv.seekForward tagDataSize, d.h264 ++ startCoded units⟩ := by
    rw [Demux.after, Demux.skip, SeekableFile.seekForward_add, ← size]
  constructor
  · intro writes
    have ran := (videoTag_units at_ (Nat.lt_succ_self _)).symm.trans (writes _ (Nat.lt_succ_self _))
    rw [← after] at ran
    have place := congrArg (fun d => d.flv.pos) (Prod.mk.inj (Except.ok.inj ran)).2
    exact eq_of_starts (written_starts 0 units) (Nat.add_left_cancel place)
  · intro all fuel enough
    rw [videoTag_units at_ enough, all, after]

/-- Two slices. -/
def twoSlices : Demux where
  flv := ⟨[0x27, 1, 0, 0, 0, 0, 0, 0, 2, 0x41, 0x9A, 0, 0, 0, 2, 0x41, 0x9B, 0, 0, 0, 28], 0⟩
  h264 := []

theorem writesUnits_iff_twoSlices :
    twoSlices.At 17 [[0x41, 0x9A], [0x41, 0x9B]] ∧ twoSlices.WritesUnits 17 [[0x41, 0x9A], [0x41, 0x9B]] := by
  have at_ : twoSlices.At 17 [[0x41, 0x9A], [0x41, 0x9B]] := ⟨0x27, 0, 0, 0, [0, 0, 0, 28], rfl, rfl, by decide⟩
  refine ⟨at_, (writesUnits_iff at_).mpr fun last is => ?_⟩
  obtain rfl : [0x41, 0x9B] = last := Option.some.inj is
  decide

/-- Five units of one byte. -/
def fiveBytes : Demux where
  flv := ⟨[0x27, 1, 0, 0, 0] ++ lengthPrefixed [[9], [9], [9], [9], [9]], 0⟩
  h264 := []

/-- The last of them is left out. -/
theorem writesUnits_refuted : ¬ ∀ (d : Demux) (tagDataSize : Nat) (units : List (List UInt8)),
    d.At tagDataSize units → d.WritesUnits tagDataSize units := by
  intro all
  have at_ : fiveBytes.At 30 [[9], [9], [9], [9], [9]] := ⟨0x27, 0, 0, 0, [], rfl, rfl, by decide⟩
  have writes := all fiveBytes 30 _ at_ 31 (by decide)
  have ran := (videoTag_units at_ (by decide : 30 < 31)).symm.trans writes
  have place := congrArg (fun d => d.flv.pos) (Prod.mk.inj (Except.ok.inj ran)).2
  exact absurd place (by decide)

end LiveStreaming.Flv
