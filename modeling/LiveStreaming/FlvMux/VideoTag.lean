import LiveStreaming.FlvMux.ScriptTag
import LiveStreaming.Library.EarlyExit

/-!
# Video tags

`GetAnnexbNALU` cuts the H264 file at its start codes, `GetFrameType` reads the type of a slice from its first bits,
and `WriteStruct_H264_Tag` makes a tag of the next frame or of the parameter sets.
-/

namespace LiveStreaming.FlvMux
open Library FlvFile EarlyExit

def maxVideoTagBufSize : Nat := 1024 * 1024
def maxParameterSetSize : Nat := 1024

def nalSlice : UInt8 := 1
def nalSliceIdr : UInt8 := 5
def nalSei : UInt8 := 6
def nalSps : UInt8 := 7
def nalPps : UInt8 := 8
def frameI : UInt8 := 15
def frameP : UInt8 := 16
def frameB : UInt8 := 17

/-! ### Bits -/

def bitsOf (bytes : List UInt8) : List Bool :=
  bytes.flatMap fun b => (List.range 8).map fun i => b.toNat.testBit (7 - i)

/-- `bs_read`: what is missing is read as zeros. -/
def bsRead (count : Nat) (bits : List Bool) : UInt32 × List Bool :=
  ((List.range count).foldl (fun value i => value <<< 1 ||| (if bits.getD i false then 1 else 0)) 0, bits.drop count)

/-- The loop of `bs_read_ue`: the number of zeros before the first one. -/
def countZeros : List Bool → Nat → Nat × List Bool
  | [], i => (i, [])
  | true :: bits, i => (i, bits)
  | false :: bits, i => if bits ≠ [] ∧ i < 32 then countZeros bits (i + 1) else (i, bits)

/-- `1 << 32` is `1` on the machine. -/
def bsReadUe (bits : List Bool) : UInt32 × List Bool :=
  let (i, bits) := countZeros bits 0
  let (value, bits) := bsRead i bits
  ((1 : UInt32) <<< UInt32.ofNat i - 1 + value, bits)

/-! ### Units -/

/-- The H264 file from its position on, and `feof`. -/
structure VideoFile where
  rest : List UInt8
  eof : Bool
  eof_rest : eof → rest = []

def VideoFile.ended : VideoFile := ⟨[], true, fun _ => rfl⟩

def VideoFile.unread (rest : List UInt8) : VideoFile := ⟨rest, false, nofun⟩

/-- `buf` is the memory of a `NALU_t`, which is zero behind its end, and `len` the bytes of the last unit in it. -/
structure Nalu where
  len : Nat
  buf : List UInt8
  frametype : UInt8
  deriving DecidableEq

def allocNalu : Nalu := ⟨0, [], 0⟩

/-- `nal_unit_type` is set whenever the memory is. -/
def Nalu.nalUnitType (n : Nalu) : UInt8 := n.buf.getD 0 0 &&& 0x1f

/-- What one call reads: nothing before the end of the file, no start code, or a unit and the length of the start
code behind it. -/
inductive NaluRead where
  | ended
  | bad
  | found (data : List UInt8) (next : Nat)

/-- The bytes up to the next start code, which is read once more. -/
def findNext (buf : List UInt8) : List UInt8 → Run (List UInt8 × Nat × VideoFile)
  | [] => if buf.length < maxVideoTagBufSize then .ok (buf, 3, .ended) else .error .undefined
  | c :: rest =>
    if buf.length < maxVideoTagBufSize then
      let buf := buf ++ [c]
      if buf.drop (buf.length - 4) = [0, 0, 0, 1] then
        .ok (buf.take (buf.length - 4), 4, .unread ([0, 0, 0, 1] ++ rest))
      else if buf.drop (buf.length - 3) = [0, 0, 1] then
        .ok (buf.take (buf.length - 3), 3, .unread ([0, 0, 1] ++ rest))
      else findNext buf rest
    else .error .undefined

def readNalu (video : VideoFile) : Run (NaluRead × VideoFile) := do
  if video.rest.take 3 = [0, 0, 1] then
    let (buf, next, video) ← findNext [0, 0, 1] (video.rest.drop 3)
    .ok (.found (buf.drop 3) next, video)
  else if video.rest.length < 4 then .ok (.ended, .ended)
  else if video.rest.take 4 = [0, 0, 0, 1] then
    let (buf, next, video) ← findNext [0, 0, 0, 1] (video.rest.drop 4)
    .ok (.found (buf.drop 4) next, video)
  else .ok (.bad, .unread (video.rest.drop 4))

def Nalu.load (n : Nalu) (data : List UInt8) : Nalu :=
  { n with len := data.length, buf := data ++ n.buf.drop data.length }

/-- A unit is left as it was where none is read. -/
def getAnnexbNalu (n : Nalu) (video : VideoFile) : Run (Int × Nalu × VideoFile) := do
  match ← readNalu video with
  | (.ended, video) => .ok (0, n, video)
  | (.bad, video) => .ok (-1, n, video)
  | (.found data next, video) => .ok (next, n.load data, video)

def Nalu.isSlice (n : Nalu) : Bool := n.nalUnitType = nalSlice ∨ n.nalUnitType = nalSliceIdr

/-- The second number of a slice header. -/
def Nalu.sliceType (n : Nalu) : UInt32 := (bsReadUe (bsReadUe (bitsOf ((n.buf.take n.len).drop 1))).2).1

def getFrameType (n : Nalu) : Nalu :=
  if n.isSlice then
    if n.sliceType ∈ [0, 5, 3, 8] then { n with frametype := frameP }
    else if n.sliceType ∈ [1, 6] then { n with frametype := frameB }
    else if n.sliceType ∈ [2, 7, 4, 9] then { n with frametype := frameI }
    else n
  else if n.nalUnitType = nalSei then { n with frametype := nalSei }
  else if n.nalUnitType = nalSps then { n with frametype := nalSps }
  else if n.nalUnitType = nalPps then { n with frametype := nalPps }
  else n

/-- Whether `GetFrameType` adds to `I_Frame_Num`. -/
def Nalu.counts (n : Nalu) : Bool := n.isSlice ∧ n.sliceType ∈ [2, 7]

def traverseLoop : Nat → Nalu → VideoFile → Nat → Run Nat
  | 0, _, _, _ => .error .fuel
  | fuel + 1, n, video, iFrameNum =>
    if video.eof then .ok iFrameNum
    else do
      let (_, n, video) ← getAnnexbNalu n video
      traverseLoop fuel (getFrameType n) video (if n.counts then iFrameNum + 1 else iFrameNum)

def traverseH264File (fuel : Nat) (video : List UInt8) : Run Nat := traverseLoop fuel allocNalu (.unread video) 0

/-! ### Tags -/

def createAVCDecoderConfigurationRecord (sps pps : Nalu) : Run (List UInt8) :=
  if maxParameterSetSize < sps.len ∨ maxParameterSetSize < pps.len then .error .undefined
  else
    .ok ([0x01, sps.buf.getD 1 0, sps.buf.getD 2 0, sps.buf.getD 3 0, (0x3F : UInt8) <<< 2 ||| 0x03,
      (0x07 : UInt8) <<< 5 ||| 0x01,
      UInt8.ofNat (sps.len >>> 8), UInt8.ofNat sps.len] ++ sps.buf.take sps.len ++
      [0x01, UInt8.ofNat (pps.len >>> 8), UInt8.ofNat pps.len] ++ pps.buf.take pps.len)

def videoTag (timestamp : UInt32) (frameType avcPacketType : UInt8) (payload : List UInt8) : List UInt8 :=
  let data := [frameType <<< 4 ||| 0x07, avcPacketType, 0x00, 0x00, 0x00] ++ payload
  tagHeader 0x09 data.length timestamp ++ data

/-- `loop_1_1` and `loop_1_2`: the end of the file does not end them. -/
def findUnit (wanted : UInt8) : Nat → Nalu → VideoFile → Run (Nalu × VideoFile)
  | 0, _, _ => .error .fuel
  | fuel + 1, n, video => do
    let (_, n, video) ← getAnnexbNalu n video
    let n := getFrameType n
    if n.nalUnitType = wanted then .ok (n, video) else findUnit wanted fuel n video

/-- `loop_2`: the next slice of one of the three kinds. -/
def nextFrame : Nat → Nalu → VideoFile → Run (Option Nalu × VideoFile)
  | 0, _, _ => .error .fuel
  | fuel + 1, n, video => do
    let (startcodeprefixSize, n, video) ← getAnnexbNalu n video
    if startcodeprefixSize = 0 then .ok (none, video)
    else
      let n := getFrameType n
      if n.nalUnitType = nalSei then nextFrame fuel n video
      else if n.frametype = frameI ∨ n.frametype = frameB ∨ n.frametype = frameP then .ok (some n, video)
      else nextFrame fuel n video

/-- The bytes of a unit with their number before them. -/
def lengthPrefixed (n : Nalu) : List UInt8 := sizeField n.len ++ n.buf.take n.len

/-- What the call leaves in the buffer, the frame type, whether it finds the end of the file, and the file after
it. -/
def writeStructH264Tag (fuel : Nat) (video : VideoFile) (timestamp : UInt32) (avcPacketType videoFrameType : UInt8) :
    Run (List UInt8 × UInt8 × Bool × VideoFile) := do
  if video.eof then .ok ([], videoFrameType, true, video)
  else if avcPacketType = 0x00 then
    let (sps, video) ← findUnit nalSps fuel allocNalu video
    let (pps, video) ← findUnit nalPps fuel allocNalu video
    let record ← createAVCDecoderConfigurationRecord sps pps
    .ok (videoTag timestamp 0x01 avcPacketType record, videoFrameType, false, video)
  else
    match ← nextFrame fuel allocNalu video with
    | (none, video) => .ok ([], videoFrameType, true, video)
    | (some n, video) =>
      if maxVideoTagBufSize < 20 + n.len then .error .undefined
      else
        let frameType := if n.frametype = frameI then 0x01 else 0x02
        .ok (videoTag timestamp frameType avcPacketType (lengthPrefixed n), n.frametype, false, video)

end LiveStreaming.FlvMux
