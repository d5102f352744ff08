import LiveStreaming.HappyHls.Ts

/-!
# From a frame to transport packets

`ts_muxer.cpp`: a frame becomes a PES, and `pes_2_ts` cuts the PES into transport packets. Every fortieth
packet it first writes a PAT and a PMT, which it builds in the array that holds the frame.
-/

namespace LiveStreaming.HappyHls
open Library

structure TsAdaptationField where
  discontinutyIndicator : BitVec 1
  randomAccessIndicator : BitVec 1
  elementaryStreamPriorityIndicator : BitVec 1
  pcrFlag : BitVec 1
  opcrFlag : BitVec 1
  splicingPointFlag : BitVec 1
  transportPrivateDataFlag : BitVec 1
  adaptationFieldExtensionFlag : BitVec 1
  adaptationFieldLength : UInt8
  pcr : UInt64
  opcr : UInt64
  spliceCountdown : UInt8
  privateDataLen : UInt8
  privateData : List UInt8

/-- The product is one of 32-bit numbers. -/
def writeAdaptiveHeadFields (field : TsAdaptationField) (videopts : UInt32) : TsAdaptationField :=
  { discontinutyIndicator := 0
    randomAccessIndicator := 0
    elementaryStreamPriorityIndicator := 0
    pcrFlag := 1
    opcrFlag := 0
    splicingPointFlag := 0
    transportPrivateDataFlag := 0
    adaptationFieldExtensionFlag := 0
    pcr := (videopts * 300).toUInt64
    adaptationFieldLength := 7
    opcr := 0
    spliceCountdown := 0
    privateDataLen := 0
    privateData := field.privateData }

def writeAdaptiveTailFields (field : TsAdaptationField) : TsAdaptationField :=
  { discontinutyIndicator := 0
    randomAccessIndicator := 0
    elementaryStreamPriorityIndicator := 0
    pcrFlag := 0
    opcrFlag := 0
    splicingPointFlag := 0
    transportPrivateDataFlag := 0
    adaptationFieldExtensionFlag := 0
    pcr := 0
    adaptationFieldLength := 1
    opcr := 0
    spliceCountdown := 0
    privateDataLen := 0
    privateData := field.privateData }

def pcrBytes (pcr : UInt64) : List UInt8 :=
  let pcrBase := pcr / 300
  let pcrExt := pcr % 300
  [(pcrBase >>> 25).toUInt8, (pcrBase >>> 17).toUInt8, (pcrBase >>> 9).toUInt8, (pcrBase >>> 1).toUInt8,
    (pcrBase <<< 7 ||| pcrExt >>> 8 ||| 0x7e).toUInt8, pcrExt.toUInt8]

def opcrBytes (opcr : UInt64) : List UInt8 :=
  let opcrBase := opcr / 300
  let opcrExt := opcr % 300
  let mixed : UInt64 := (opcrBase <<< (7 : UInt64) &&& 0x80) ||| (opcrExt >>> (8 : UInt64) &&& 0x01)
  [(opcrBase >>> 25).toUInt8, (opcrBase >>> 17).toUInt8, (opcrBase >>> 9).toUInt8, (opcrBase >>> 1).toUInt8,
    mixed.toUInt8, opcrExt.toUInt8]

/-- `create_adaptive_ts` on the part of `buf` from `start` on. It stores the flags last, and not at all
where the private data do not fit. -/
def createAdaptiveTs (field : TsAdaptationField) (buf : List UInt8) (start adaptiveLength : Nat) : List UInt8 :=
  if field.adaptationFieldLength = 0 then buf
  else
    let flags : UInt8 := (if field.discontinutyIndicator = 1 then 0x80 else 0) |||
      (if field.randomAccessIndicator = 1 then 0x40 else 0) |||
      (if field.elementaryStreamPriorityIndicator = 1 then 0x20 else 0)
    let pos := start + 1
    let current := 2
    let (buf, pos, current, flags) :=
      if field.pcrFlag = 1 then
        (Buffer.overwrite buf pos (pcrBytes field.pcr), pos + 6, current + 6, flags ||| 0x10)
      else (buf, pos, current, flags)
    let (buf, pos, current, flags) :=
      if field.opcrFlag = 1 then
        (Buffer.overwrite buf pos (opcrBytes field.opcr), pos + 6, current + 6, flags ||| 0x08)
      else (buf, pos, current, flags)
    let (buf, pos, current, flags) :=
      if field.splicingPointFlag = 1 then
        (Buffer.overwrite buf pos [field.spliceCountdown], pos + 1, current + 1, flags ||| 0x04)
      else (buf, pos, current, flags)
    if 0 < field.privateDataLen ∧ 1 + field.privateDataLen.toNat > adaptiveLength - current then buf
    else
      let (buf, pos, flags) :=
        if 0 < field.privateDataLen then
          (Buffer.overwrite (Buffer.overwrite buf pos [field.privateDataLen]) (pos + 1)
            (field.privateData.take field.privateDataLen.toNat), pos + 1 + field.privateDataLen.toNat, flags ||| 0x02)
        else (buf, pos, flags)
      let (buf, flags) :=
        if field.adaptationFieldExtensionFlag = 1 then (Buffer.overwrite buf (pos + 1) [1, 0], flags ||| 0x01)
        else (buf, flags)
      Buffer.overwrite buf start [flags]

structure TsPtsDts where
  reserved1 : BitVec 4
  pts3230 : BitVec 3
  markerBit1 : BitVec 1
  pts2915 : BitVec 15
  markerBit2 : BitVec 1
  pts140 : BitVec 15
  markerBit3 : BitVec 1

/-- `es` is the array `Es`; it is as long as the longest frame. -/
structure TsPes where
  packetStartCodePrefix : BitVec 24
  streamId : UInt8
  pesPacketLength : BitVec 16
  markerBit : BitVec 2
  pesScramblingControl : BitVec 2
  pesPriority : BitVec 1
  dataAlignmentIndicator : BitVec 1
  copyright : BitVec 1
  originalOrCopy : BitVec 1
  ptsDtsFlags : BitVec 2
  escrFlag : BitVec 1
  esRateFlag : BitVec 1
  dsmTrickModeFlag : BitVec 1
  additionalCopyInfoFlag : BitVec 1
  pesCrcFlag : BitVec 1
  pesExtensionFlag : BitVec 1
  pesHeaderDataLength : UInt8
  tsptsdts : TsPtsDts
  es : Nat → UInt8
  pesPacketLengthBeyond : Nat

/-- `memcpy` to the front of an array. -/
def store (es : Nat → UInt8) (bytes : List UInt8) : Nat → UInt8 := fun i => bytes[i]?.getD (es i)

/-- The bytes that `memcpy` takes from an array. -/
def slice (es : Nat → UInt8) (start length : Nat) : List UInt8 := (List.range' start length).map es

/-- The marker bits are set only where the part of the time stamp before them is in use. -/
def ptsDts (pts : UInt64) : TsPtsDts where
  reserved1 := 0x03
  pts3230 := if pts > 0x7FFFFFFF then BitVec.ofNat 3 (pts >>> 30).toNat else 0
  markerBit1 := if pts > 0x7FFFFFFF then 1 else 0
  pts2915 := if pts > 0x7FFF then BitVec.ofNat 15 (pts >>> 15).toNat else 0
  markerBit2 := if pts > 0x7FFF then 1 else 0
  pts140 := BitVec.ofNat 15 pts.toNat
  markerBit3 := 1

/-- What the two functions below have in common. -/
def frame2Pes (streamId : UInt8) (frame : List UInt8) (pts : UInt64) (pes : TsPes) : TsPes :=
  { packetStartCodePrefix := 0x000001
    streamId
    pesPacketLength := 0
    markerBit := 0x02
    pesScramblingControl := 0
    pesPriority := 0
    dataAlignmentIndicator := 0
    copyright := 0
    originalOrCopy := 0
    ptsDtsFlags := 0x02
    escrFlag := 0
    esRateFlag := 0
    dsmTrickModeFlag := 0
    additionalCopyInfoFlag := 0
    pesCrcFlag := 0
    pesExtensionFlag := 0
    pesHeaderDataLength := 0x05
    tsptsdts := ptsDts pts
    es := store pes.es frame
    pesPacketLengthBeyond := frame.length }

def aacFrame2Pes (aacFrame : List UInt8) (aacPts : UInt64) (aacPes : TsPes) : TsPes :=
  frame2Pes tsAacStreamId aacFrame aacPts aacPes

def h264Frame2Pes (h264Frame : List UInt8) (h264Pts : UInt64) (h264Pes : TsPes) : TsPes :=
  frame2Pes tsH264StreamId h264Frame h264Pts h264Pes

/-- What outlives a call: the continuity counters, `write_packet_no` and the packets of the file. Every
`fwrite` succeeds. -/
structure Muxer where
  continuityCounter : ContinuityCounter
  writePacketNo : UInt32
  file : List (List UInt8)

namespace Muxer

def fwrite (m : Muxer) (tsBuf : List UInt8) : Muxer :=
  { m with file := m.file ++ [tsBuf.take tsPacketSize] }

def count (m : Muxer) : Muxer := { m with writePacketNo := m.writePacketNo + 1 }

/-- `write_ts_packet_header`, whose result the callers do not look at. -/
def writeHeader (m : Muxer) (tsBuf : List UInt8) (pid : UInt32) (playInit : BitVec 1) (adaFieldC : BitVec 2) :
    List UInt8 × Muxer :=
  match writeTsPacketHeader tsBuf pid playInit adaFieldC m.continuityCounter with
  | some (tsBuf, continuityCounter) => (tsBuf, { m with continuityCounter })
  | none => (tsBuf, m)

/-- `write_ts_pat_2_file`, which builds the packet in `buf`. -/
def writeTsPat2File (m : Muxer) (buf : Nat → UInt8) : Muxer × (Nat → UInt8) :=
  let (packet, continuityCounter) := writeTsPat m.continuityCounter
  ({ m with continuityCounter }.fwrite packet, store buf packet)

def writeTsPmt2File (m : Muxer) (buf : Nat → UInt8) : Muxer × (Nat → UInt8) :=
  let (packet, continuityCounter) := writeTsPmt m.continuityCounter
  ({ m with continuityCounter }.fwrite packet, store buf packet)

/-- Both tables, built in `es`, when the number of packets written is a multiple of 40. -/
def writeTables (m : Muxer) (es : Nat → UInt8) : Muxer × (Nat → UInt8) :=
  if m.writePacketNo % 40 = 0 then
    let (m, es) := m.writeTsPat2File es
    m.writeTsPmt2File es
  else (m, es)

end Muxer

def pesHeader (pes : TsPes) : List UInt8 :=
  [UInt8.ofNat (pes.packetStartCodePrefix.toNat >>> 16), UInt8.ofNat (pes.packetStartCodePrefix.toNat >>> 8),
    UInt8.ofNat pes.packetStartCodePrefix.toNat, pes.streamId,
    UInt8.ofNat (pes.pesPacketLength.toNat >>> 8), UInt8.ofNat pes.pesPacketLength.toNat,
    UInt8.ofNat (pes.markerBit.toNat <<< 6 ||| pes.pesScramblingControl.toNat <<< 4 |||
      pes.pesPriority.toNat <<< 3 ||| pes.dataAlignmentIndicator.toNat <<< 2 ||| pes.copyright.toNat <<< 1 |||
      pes.originalOrCopy.toNat),
    UInt8.ofNat (pes.ptsDtsFlags.toNat <<< 6 ||| pes.escrFlag.toNat <<< 5 ||| pes.esRateFlag.toNat <<< 4 |||
      pes.dsmTrickModeFlag.toNat <<< 3 ||| pes.additionalCopyInfoFlag.toNat <<< 2 ||| pes.pesCrcFlag.toNat <<< 1 |||
      pes.pesExtensionFlag.toNat),
    pes.pesHeaderDataLength]

def ptsBytes (pts : UInt64) : List UInt8 :=
  let top : UInt64 := (0x3 <<< (4 : UInt64)) ||| (pts >>> (29 : UInt64) &&& 0x0E) ||| 0x01
  let high : UInt64 := (pts >>> (14 : UInt64) &&& 0xfffe) ||| 0x01
  let low : UInt64 := (pts <<< (1 : UInt64) &&& 0xfffe) ||| 0x01
  [top.toUInt8, (high >>> 8).toUInt8, high.toUInt8,
    (low >>> 8).toUInt8, low.toUInt8]

/-- The time stamp of a PES; there is none for a stream that is neither H.264 nor AAC. -/
def streamTime (pes : TsPes) (videopts audiopts : UInt64) : Option (List UInt8) :=
  if pes.streamId = tsH264StreamId then some (ptsBytes videopts)
  else if pes.streamId = tsAacStreamId then some (ptsBytes audiopts)
  else none

/-- The state after a call, and what it returns: `none` where it returns what `getchar` reads. -/
structure TsWritten where
  muxer : Muxer
  pes : TsPes
  ret : Option UInt32

/-- The payload length of the first of several packets, an `unsigned int`. -/
def firstPacketLoadLength (head : TsAdaptationField) : Nat :=
  (4294967296 + (188 - 4 - 1 - 14) - head.adaptationFieldLength.toNat) % 4294967296

/-- The `while` loop of `pes_2_ts`; `neafBuf` is the offset of `NeafBuf` in the array. Each round needs
one unit of fuel. -/
def pes2TsLoop (pid : UInt32) : Nat → Muxer → (Nat → UInt8) → Nat → Nat → Option (Muxer × (Nat → UInt8))
  | 0, _, _, _, _ => none
  | fuel + 1, m, es, neafBuf, beyond =>
    if beyond = 0 then some (m, es)
    else
      let tsBuf := List.replicate tsPacketSize 0
      let (m, es) := m.writeTables es
      if beyond ≥ 184 then
        let (tsBuf, m) := m.writeHeader tsBuf pid 0 1
        let tsBuf := Buffer.overwrite tsBuf 4 (slice es neafBuf 184)
        pes2TsLoop pid fuel (m.fwrite tsBuf).count es (neafBuf + 184) (beyond - 184)
      else if beyond = 183 ∨ beyond = 182 then
        -- both short shapes look for tables to write a second time
        let (m, es) := m.writeTables es
        let (tsBuf, m) := m.writeHeader tsBuf pid 0 3
        let tsBuf := Buffer.overwrite tsBuf 4 [0x01, 0x00]
        let tsBuf := Buffer.overwrite tsBuf 6 (slice es neafBuf 182)
        pes2TsLoop pid fuel (m.fwrite tsBuf).count es (neafBuf + 182) (beyond - 182)
      else
        let (m, es) := m.writeTables es
        let (tsBuf, m) := m.writeHeader tsBuf pid 0 3
        let tsBuf := Buffer.overwrite tsBuf 4 [UInt8.ofNat (184 - beyond - 1), 0x00]
        let tsBuf := Buffer.overwrite tsBuf 6 (List.replicate (184 - beyond - 2) 0xFF)
        let tsBuf := Buffer.overwrite tsBuf (6 + (184 - beyond - 2)) (slice es neafBuf beyond)
        -- a packet with stuffing is counted twice
        pes2TsLoop pid fuel (m.fwrite tsBuf).count.count es neafBuf 0

/-- `pes_2_ts`. It gives `none` only where the loop is out of fuel. -/
def pes2Ts (m : Muxer) (pes : TsPes) (pid : UInt32) (head _tail : TsAdaptationField) (videopts audiopts : UInt64) :
    Option TsWritten :=
  let beyond := pes.pesPacketLengthBeyond
  let first := firstPacketLoadLength head
  if beyond < first then
    let tsBuf := List.replicate tsPacketSize 0xFF
    let (tsBuf, m) := m.writeHeader tsBuf pid 1 3
    let tsBuf := Buffer.overwrite tsBuf 4 [UInt8.ofNat (184 - beyond - 9 - 5 - 1), 0x00]
    let stuffing := 184 - beyond - 9 - 5 - 2
    let tsBuf := Buffer.overwrite tsBuf 6 (List.replicate stuffing 0xFF)
    let tsBuf := Buffer.overwrite tsBuf (6 + stuffing) (pesHeader pes)
    match streamTime pes videopts audiopts with
    | none => some ⟨m, pes, none⟩
    | some time =>
      let tsBuf := Buffer.overwrite tsBuf (6 + stuffing + 9) time
      let tsBuf := Buffer.overwrite tsBuf (6 + stuffing + 9 + 5) (slice pes.es 0 beyond)
      let m := (m.fwrite tsBuf).count
      some ⟨m, pes, some m.writePacketNo⟩
  else
    let tsBuf := List.replicate tsPacketSize 0
    -- `Es`, from which the frame is still to be sent, is also the buffer of the tables
    let (m, es) := m.writeTables pes.es
    let (tsBuf, m) := m.writeHeader tsBuf pid 1 3
    let tsBuf := Buffer.overwrite tsBuf 4 [head.adaptationFieldLength]
    let tsBuf := createAdaptiveTs head tsBuf 5 (188 - 4 - 1 - 14)
    let tsPos := 5 + head.adaptationFieldLength.toNat
    let tsBuf := Buffer.overwrite tsBuf tsPos (pesHeader pes)
    match streamTime pes videopts audiopts with
    | none => some ⟨m, { pes with es }, none⟩
    | some time =>
      let tsBuf := Buffer.overwrite tsBuf (tsPos + 9) time
      let tsBuf := Buffer.overwrite tsBuf (tsPos + 9 + 5) (slice es 0 first)
      let m := (m.fwrite tsBuf).count
      (pes2TsLoop pid (beyond - first + 1) m es first (beyond - first)).map fun (m, es) =>
        ⟨m, { pes with es, pesPacketLengthBeyond := 0 }, some m.writePacketNo⟩

end LiveStreaming.HappyHls
