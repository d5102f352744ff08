import LiveStreaming.Library.Buffer
import LiveStreaming.Library.TransportPacket

/-!
# Transport packet headers and tables

`ts.cpp`: the header of a packet with its continuity counter, and the PAT and the PMT, each of which is
built as a whole packet in the buffer that it is given.
-/

namespace LiveStreaming.HappyHls

def crcTab : Array UInt32 :=
  #[
    0x00000000, 0x04c11db7, 0x09823b6e, 0x0d4326d9, 0x130476dc, 0x17c56b6b, 0x1a864db2, 0x1e475005,
    0x2608edb8, 0x22c9f00f, 0x2f8ad6d6, 0x2b4bcb61, 0x350c9b64, 0x31cd86d3, 0x3c8ea00a, 0x384fbdbd,
    0x4c11db70, 0x48d0c6c7, 0x4593e01e, 0x4152fda9, 0x5f15adac, 0x5bd4b01b, 0x569796c2, 0x52568b75,
    0x6a1936c8, 0x6ed82b7f, 0x639b0da6, 0x675a1011, 0x791d4014, 0x7ddc5da3, 0x709f7b7a, 0x745e66cd,
    0x9823b6e0, 0x9ce2ab57, 0x91a18d8e, 0x95609039, 0x8b27c03c, 0x8fe6dd8b, 0x82a5fb52, 0x8664e6e5,
    0xbe2b5b58, 0xbaea46ef, 0xb7a96036, 0xb3687d81, 0xad2f2d84, 0xa9ee3033, 0xa4ad16ea, 0xa06c0b5d,
    0xd4326d90, 0xd0f37027, 0xddb056fe, 0xd9714b49, 0xc7361b4c, 0xc3f706fb, 0xceb42022, 0xca753d95,
    0xf23a8028, 0xf6fb9d9f, 0xfbb8bb46, 0xff79a6f1, 0xe13ef6f4, 0xe5ffeb43, 0xe8bccd9a, 0xec7dd02d,
    0x34867077, 0x30476dc0, 0x3d044b19, 0x39c556ae, 0x278206ab, 0x23431b1c, 0x2e003dc5, 0x2ac12072,
    0x128e9dcf, 0x164f8078, 0x1b0ca6a1, 0x1fcdbb16, 0x018aeb13, 0x054bf6a4, 0x0808d07d, 0x0cc9cdca,
    0x7897ab07, 0x7c56b6b0, 0x71159069, 0x75d48dde, 0x6b93dddb, 0x6f52c06c, 0x6211e6b5, 0x66d0fb02,
    0x5e9f46bf, 0x5a5e5b08, 0x571d7dd1, 0x53dc6066, 0x4d9b3063, 0x495a2dd4, 0x44190b0d, 0x40d816ba,
    0xaca5c697, 0xa864db20, 0xa527fdf9, 0xa1e6e04e, 0xbfa1b04b, 0xbb60adfc, 0xb6238b25, 0xb2e29692,
    0x8aad2b2f, 0x8e6c3698, 0x832f1041, 0x87ee0df6, 0x99a95df3, 0x9d684044, 0x902b669d, 0x94ea7b2a,
    0xe0b41de7, 0xe4750050, 0xe9362689, 0xedf73b3e, 0xf3b06b3b, 0xf771768c, 0xfa325055, 0xfef34de2,
    0xc6bcf05f, 0xc27dede8, 0xcf3ecb31, 0xcbffd686, 0xd5b88683, 0xd1799b34, 0xdc3abded, 0xd8fba05a,
    0x690ce0ee, 0x6dcdfd59, 0x608edb80, 0x644fc637, 0x7a089632, 0x7ec98b85, 0x738aad5c, 0x774bb0eb,
    0x4f040d56, 0x4bc510e1, 0x46863638, 0x42472b8f, 0x5c007b8a, 0x58c1663d, 0x558240e4, 0x51435d53,
    0x251d3b9e, 0x21dc2629, 0x2c9f00f0, 0x285e1d47, 0x36194d42, 0x32d850f5, 0x3f9b762c, 0x3b5a6b9b,
    0x0315d626, 0x07d4cb91, 0x0a97ed48, 0x0e56f0ff, 0x1011a0fa, 0x14d0bd4d, 0x19939b94, 0x1d528623,
    0xf12f560e, 0xf5ee4bb9, 0xf8ad6d60, 0xfc6c70d7, 0xe22b20d2, 0xe6ea3d65, 0xeba91bbc, 0xef68060b,
    0xd727bbb6, 0xd3e6a601, 0xdea580d8, 0xda649d6f, 0xc423cd6a, 0xc0e2d0dd, 0xcda1f604, 0xc960ebb3,
    0xbd3e8d7e, 0xb9ff90c9, 0xb4bcb610, 0xb07daba7, 0xae3afba2, 0xaafbe615, 0xa7b8c0cc, 0xa379dd7b,
    0x9b3660c6, 0x9ff77d71, 0x92b45ba8, 0x9675461f, 0x8832161a, 0x8cf30bad, 0x81b02d74, 0x857130c3,
    0x5d8a9099, 0x594b8d2e, 0x5408abf7, 0x50c9b640, 0x4e8ee645, 0x4a4ffbf2, 0x470cdd2b, 0x43cdc09c,
    0x7b827d21, 0x7f436096, 0x7200464f, 0x76c15bf8, 0x68860bfd, 0x6c47164a, 0x61043093, 0x65c52d24,
    0x119b4be9, 0x155a565e, 0x18197087, 0x1cd86d30, 0x029f3d35, 0x065e2082, 0x0b1d065b, 0x0fdc1bec,
    0x3793a651, 0x3352bbe6, 0x3e119d3f, 0x3ad08088, 0x2497d08d, 0x2056cd3a, 0x2d15ebe3, 0x29d4f654,
    0xc5a92679, 0xc1683bce, 0xcc2b1d17, 0xc8ea00a0, 0xd6ad50a5, 0xd26c4d12, 0xdf2f6bcb, 0xdbee767c,
    0xe3a1cbc1, 0xe760d676, 0xea23f0af, 0xeee2ed18, 0xf0a5bd1d, 0xf464a0aa, 0xf9278673, 0xfde69bc4,
    0x89b8fd09, 0x8d79e0be, 0x803ac667, 0x84fbdbd0, 0x9abc8bd5, 0x9e7d9662, 0x933eb0bb, 0x97ffad0c,
    0xafb010b1, 0xab710d06, 0xa6322bdf, 0xa2f33668, 0xbcb4666d, 0xb8757bda, 0xb5365d03, 0xb1f740b4]

def calcCrc32 (data : List UInt8) : UInt32 :=
  let step (crc : UInt32) (byte : UInt8) : UInt32 :=
    let index : UInt32 := ((crc >>> 24) ^^^ byte.toUInt32) &&& 0xff
    (crc <<< 8) ^^^ crcTab.getD index.toNat 0
  data.foldl step 0xffffffff

def bswap16c (x : UInt32) : UInt32 :=
  let high : UInt32 := x <<< 8
  let low : UInt32 := x >>> 8
  (high &&& 0xff00) ||| (low &&& 0x00ff)

def bswap32c (x : UInt32) : UInt32 := bswap16c x <<< 16 ||| bswap16c (x >>> 16)

/-- `Zwg_ntohl` on a little-endian host. -/
def zwgNtohl (s : UInt32) : UInt32 := bswap32c s

/-- The four bytes that `memcpy` takes from an `unsigned int` of a little-endian host. -/
def hostBytes (x : UInt32) : List UInt8 :=
  [x.toUInt8, (x >>> 8).toUInt8, (x >>> 16).toUInt8, (x >>> 24).toUInt8]

end LiveStreaming.HappyHls

namespace LiveStreaming.HappyHls
open Library

def tsPacketSize : Nat := 188
def maxOneFrameSize : Nat := 1024 * 1024
def tsPatPid : UInt32 := 0x00
def tsPmtPid : UInt32 := 0xFFF
def tsH264Pid : UInt32 := 0x100
def tsAacPid : UInt32 := 0x101
def tsH264StreamId : UInt8 := 0xE0
def tsAacStreamId : UInt8 := 0xC0
def pmtStreamTypeVideo : BitVec 8 := 0x1B
def pmtStreamTypeAudio : BitVec 8 := 0x0F

structure TsPacketHeader where
  syncByte : BitVec 8
  trasError : BitVec 1
  playInit : BitVec 1
  trasPrio : BitVec 1
  pid : BitVec 13
  trasScramb : BitVec 2
  adaFieldC : BitVec 2
  contiCter : BitVec 4

structure ContinuityCounter where
  pat : UInt8
  pmt : UInt8
  video : UInt8
  audio : UInt8
  deriving DecidableEq

/-- The counter of a PID as it stands, and the counters behind it. -/
def ContinuityCounter.next (c : ContinuityCounter) (pid : UInt32) : Option (UInt8 × ContinuityCounter) :=
  if pid = tsPatPid then some (c.pat, { c with pat := c.pat + 1 })
  else if pid = tsPmtPid then some (c.pmt, { c with pmt := c.pmt + 1 })
  else if pid = tsH264Pid then some (c.video, { c with video := c.video + 1 })
  else if pid = tsAacPid then some (c.audio, { c with audio := c.audio + 1 })
  else none

def TsPacketHeader.bytes (h : TsPacketHeader) : List UInt8 :=
  [UInt8.ofNat h.syncByte.toNat,
    UInt8.ofNat (h.trasError.toNat <<< 7 ||| h.playInit.toNat <<< 6 ||| h.trasPrio.toNat <<< 5 |||
      (h.pid.toNat >>> 8 &&& 0x1f)),
    UInt8.ofNat (h.pid.toNat &&& 0x00ff),
    UInt8.ofNat (h.trasScramb.toNat <<< 6 ||| h.adaFieldC.toNat <<< 4 ||| h.contiCter.toNat)]

/-- `write_ts_packet_header`; `none` is `ARGUMENT_ERROR`. -/
def writeTsPacketHeader (buf : List UInt8) (pid : UInt32) (playInit : BitVec 1) (adaFieldC : BitVec 2)
    (c : ContinuityCounter) : Option (List UInt8 × ContinuityCounter) :=
  (c.next pid).map fun (counter, c) =>
    let header : TsPacketHeader :=
      { syncByte := 0x47, trasError := 0, playInit, trasPrio := 0, pid := BitVec.ofNat 13 pid.toNat,
        trasScramb := 0, adaFieldC, contiCter := BitVec.ofNat 4 (counter % 16).toNat }
    (Buffer.overwrite buf 0 header.bytes, c)

structure TsPat where
  tableId : BitVec 8
  sectionSyntaxIndicator : BitVec 1
  zero : BitVec 1
  reserved1 : BitVec 2
  sectionLength : BitVec 12
  transportStreamId : BitVec 16
  reserved2 : BitVec 2
  versionNumber : BitVec 5
  currentNextIndicator : BitVec 1
  sectionNumber : BitVec 8
  lastSectionNumber : BitVec 8
  programNumber : BitVec 16
  reserved3 : BitVec 3
  programMapPid : BitVec 13

def tsPat : TsPat where
  tableId := 0x00
  sectionSyntaxIndicator := 0x01
  zero := 0x00
  reserved1 := 0x03
  sectionLength := 0x0d
  transportStreamId := 0x01
  reserved2 := 0x03
  versionNumber := 0x00
  currentNextIndicator := 0x01
  sectionNumber := 0x00
  lastSectionNumber := 0x00
  programNumber := 0x01
  reserved3 := 0x07
  programMapPid := BitVec.ofNat 13 tsPmtPid.toNat

def TsPat.bytes (t : TsPat) : List UInt8 :=
  [t.tableId.toNat,
    t.sectionSyntaxIndicator.toNat <<< 7 ||| t.zero.toNat <<< 6 ||| t.reserved1.toNat <<< 4 |||
      (t.sectionLength.toNat >>> 8 &&& 0x0F),
    t.sectionLength.toNat &&& 0x00FF,
    t.transportStreamId.toNat >>> 8,
    t.transportStreamId.toNat &&& 0x00FF,
    t.reserved2.toNat <<< 6 ||| t.versionNumber.toNat <<< 1 ||| t.currentNextIndicator.toNat,
    t.sectionNumber.toNat,
    t.lastSectionNumber.toNat,
    t.programNumber.toNat >>> 8,
    t.programNumber.toNat &&& 0x00FF,
    t.reserved3.toNat <<< 5 ||| (t.programMapPid.toNat >>> 8 &&& 0x0F),
    t.programMapPid.toNat &&& 0x00FF].map UInt8.ofNat

/-- A section of a table and its checksum, at `pos` of a packet. -/
def writeSection (buf : List UInt8) (pos : Nat) (table : List UInt8) : List UInt8 :=
  let buf := Buffer.overwrite buf pos table
  Buffer.overwrite buf (pos + table.length) (hostBytes (zwgNtohl (calcCrc32 table)))

/-- `write_ts_pat`: the packet, which replaces the first 188 bytes of the buffer, and the counters. -/
def writeTsPat (c : ContinuityCounter) : List UInt8 × ContinuityCounter :=
  let buf := List.replicate tsPacketSize 0xFF
  let (buf, c) := (writeTsPacketHeader buf tsPatPid 1 1 c).getD (buf, c)
  let buf := Buffer.overwrite buf 4 [0]
  (writeSection buf 5 tsPat.bytes, c)

structure TsPmt where
  tableId : BitVec 8
  sectionSyntaxIndicator : BitVec 1
  zero : BitVec 1
  reserved1 : BitVec 2
  sectionLength : BitVec 12
  programNumber : BitVec 16
  reserved2 : BitVec 2
  versionNumber : BitVec 5
  currentNextIndicator : BitVec 1
  sectionNumber : BitVec 8
  lastSectionNumber : BitVec 8
  reserved3 : BitVec 3
  pcrPid : BitVec 13
  reserved4 : BitVec 4
  programInfoLength : BitVec 12
  streamTypeVideo : BitVec 8
  reserved5Video : BitVec 3
  elementaryPidVideo : BitVec 13
  reserved6Video : BitVec 4
  esInfoLengthVideo : BitVec 12
  streamTypeAudio : BitVec 8
  reserved5Audio : BitVec 3
  elementaryPidAudio : BitVec 13
  reserved6Audio : BitVec 4
  esInfoLengthAudio : BitVec 12

def tsPmt : TsPmt where
  tableId := 0x02
  sectionSyntaxIndicator := 0x01
  zero := 0x00
  reserved1 := 0x03
  sectionLength := 0x17
  programNumber := 0x01
  reserved2 := 0x03
  versionNumber := 0x00
  currentNextIndicator := 0x01
  sectionNumber := 0x00
  lastSectionNumber := 0x00
  reserved3 := 0x07
  pcrPid := BitVec.ofNat 13 tsH264Pid.toNat
  reserved4 := 0x0F
  programInfoLength := 0x00
  streamTypeVideo := pmtStreamTypeVideo
  reserved5Video := 0x07
  elementaryPidVideo := BitVec.ofNat 13 tsH264Pid.toNat
  reserved6Video := 0x0F
  esInfoLengthVideo := 0x00
  streamTypeAudio := pmtStreamTypeAudio
  reserved5Audio := 0x07
  elementaryPidAudio := BitVec.ofNat 13 tsAacPid.toNat
  reserved6Audio := 0x0F
  esInfoLengthAudio := 0x00

def TsPmt.bytes (t : TsPmt) : List UInt8 :=
  [t.tableId.toNat,
    t.sectionSyntaxIndicator.toNat <<< 7 ||| t.zero.toNat <<< 6 ||| t.reserved1.toNat <<< 4 |||
      (t.sectionLength.toNat >>> 8 &&& 0x0F),
    t.sectionLength.toNat &&& 0x00FF,
    t.programNumber.toNat >>> 8,
    t.programNumber.toNat &&& 0x00FF,
    t.reserved2.toNat <<< 6 ||| t.versionNumber.toNat <<< 1 ||| t.currentNextIndicator.toNat,
    t.sectionNumber.toNat,
    t.lastSectionNumber.toNat,
    t.reserved3.toNat <<< 5 ||| (t.pcrPid.toNat >>> 8 &&& 0x1F),
    t.pcrPid.toNat &&& 0x0FF,
    t.reserved4.toNat <<< 4 ||| (t.programInfoLength.toNat >>> 8 &&& 0x0F),
    t.programInfoLength.toNat &&& 0xFF,
    t.streamTypeVideo.toNat,
    t.reserved5Video.toNat <<< 5 ||| (t.elementaryPidVideo.toNat >>> 8 &&& 0x1F),
    t.elementaryPidVideo.toNat &&& 0x00FF,
    t.reserved6Video.toNat <<< 4 ||| (t.esInfoLengthVideo.toNat >>> 8 &&& 0x0F),
    t.esInfoLengthVideo.toNat &&& 0x0FF,
    t.streamTypeAudio.toNat,
    t.reserved5Audio.toNat <<< 5 ||| (t.elementaryPidAudio.toNat >>> 8 &&& 0x1F),
    t.elementaryPidAudio.toNat &&& 0x00FF,
    t.reserved6Audio.toNat <<< 4 ||| (t.esInfoLengthAudio.toNat >>> 8 &&& 0x0F),
    t.esInfoLengthAudio.toNat &&& 0x0FF].map UInt8.ofNat

/-- `write_ts_pmt`, which writes the section length once more before the checksum. -/
def writeTsPmt (c : ContinuityCounter) : List UInt8 × ContinuityCounter :=
  let buf := List.replicate tsPacketSize 0xFF
  let (buf, c) := (writeTsPacketHeader buf tsPmtPid 1 1 c).getD (buf, c)
  let buf := Buffer.overwrite buf 4 [0]
  let pmtPos := 5 + tsPmt.bytes.length
  let len := if pmtPos - 8 + 4 > 0xffff then 0 else pmtPos - 8 + 4
  let table := Buffer.overwrite tsPmt.bytes 1 [UInt8.ofNat (0xb0 ||| len >>> 8), UInt8.ofNat len]
  (writeSection buf 5 table, c)

open TransportPacket (Packet)

theorem tsPacketHeader_bytes (p : Packet) :
    TsPacketHeader.bytes
      { syncByte := 0x47, trasError := 0, playInit := BitVec.ofBool p.unitStart, trasPrio := 0,
        pid := BitVec.ofNat 13 p.pid, trasScramb := 0, adaFieldC := if p.adaptation.isSome then 3 else 1,
        contiCter := BitVec.ofNat 4 p.continuity } = p.header := by
  have pid : (BitVec.ofNat 13 p.pid).toNat = p.pid := Nat.mod_eq_of_lt p.pid.isLt
  have continuity : (BitVec.ofNat 4 p.continuity).toNat = p.continuity := Nat.mod_eq_of_lt p.continuity.isLt
  have high : (p.pid : Nat) >>> 8 &&& 31 = p.pid / 256 := by
    rw [Nat.and_two_pow_sub_one_eq_mod _ 5, Nat.shiftRight_eq_div_pow, Nat.mod_eq_of_lt]
    have := p.pid.isLt
    omega
  have low : (p.pid : Nat) &&& 255 = p.pid % 256 := Nat.and_two_pow_sub_one_eq_mod _ 8
  have start : ∀ n < 64, (BitVec.ofBool p.unitStart).toNat <<< 6 ||| n = p.unitStart.toNat * 64 + n := by
    intro n small
    rw [← Nat.shiftLeft_add_eq_or_of_lt (i := 6) small, Nat.shiftLeft_eq]
    cases p.unitStart <;> rfl
  have control : ∀ n < 16, (if p.adaptation.isSome then 3 else 1 : BitVec 2).toNat <<< 4 ||| n =
      (if p.adaptation.isSome then 48 else 16) + n := by
    intro n small
    rw [← Nat.shiftLeft_add_eq_or_of_lt (i := 4) small, Nat.shiftLeft_eq]
    split <;> rfl
  have small : (p.pid : Nat) / 256 < 64 := by
    have := p.pid.isLt
    omega
  refine congrArg₂ List.cons rfl (congrArg₂ List.cons (congrArg UInt8.ofNat ?_)
    (congrArg₂ List.cons (congrArg UInt8.ofNat ?_) (congrArg₂ List.cons (congrArg UInt8.ofNat ?_) rfl)))
  · simp only [pid, high]
    simpa using start _ small
  · rw [pid, low]
  · simp only [continuity]
    simpa using control _ p.continuity.isLt

theorem writeTsPacketHeader_eq (p : Packet) {buf : List UInt8} {pid : UInt32} {c c' : ContinuityCounter}
    {counter : UInt8} (next : c.next pid = some (counter, c')) (pid_eq : pid.toNat = p.pid)
    (continuity : (counter % 16).toNat = p.continuity) :
    writeTsPacketHeader buf pid (BitVec.ofBool p.unitStart) (if p.adaptation.isSome then 3 else 1) c =
      some (Buffer.overwrite buf 0 p.header, c') := by
  rw [writeTsPacketHeader, next, Option.map_some]
  simp only [pid_eq, continuity]
  rw [tsPacketHeader_bytes]

def patPayload : List UInt8 :=
  0 :: tsPat.bytes ++ hostBytes (zwgNtohl (calcCrc32 tsPat.bytes)) ++ List.replicate 167 0xFF

def patPacket (counter : UInt8) : Packet where
  pid := 0
  unitStart := true
  continuity := Fin.ofNat 16 counter.toNat
  adaptation := none
  payload := patPayload
  full := by decide +kernel

def pmtSection : List UInt8 := Buffer.overwrite tsPmt.bytes 1 [0xb0, 23]

def pmtPayload : List UInt8 :=
  0 :: pmtSection ++ hostBytes (zwgNtohl (calcCrc32 pmtSection)) ++ List.replicate 157 0xFF

def pmtPacket (counter : UInt8) : Packet where
  pid := 0xFFF
  unitStart := true
  continuity := Fin.ofNat 16 counter.toNat
  adaptation := none
  payload := pmtPayload
  full := by decide +kernel

theorem writeSection_padded {size : Nat} {blank : UInt8} {done : List UInt8} (table : List UInt8) :
    writeSection (Buffer.padded size blank done) done.length table =
      Buffer.padded size blank (done ++ table ++ hostBytes (zwgNtohl (calcCrc32 table))) := by
  rw [writeSection, Buffer.overwrite_padded rfl, Buffer.overwrite_padded (List.length_append).symm]

theorem writeSection_bytes {p : Packet} {table : List UInt8} (plain : p.adaptation = none)
    (payload : p.payload = 0 :: table ++ hostBytes (zwgNtohl (calcCrc32 table)) ++
      List.replicate (188 - (5 + table.length + 4)) 0xFF) :
    writeSection (Buffer.overwrite (Buffer.overwrite (List.replicate tsPacketSize 0xFF) 0 p.header) 4 [0]) 5 table =
      p.bytes := by
  have blank : List.replicate tsPacketSize (0xFF : UInt8) = Buffer.padded 188 0xFF [] := rfl
  have length : (p.header ++ [0]).length = 5 := rfl
  have written := @writeSection_padded 188 0xFF (p.header ++ [0]) table
  rw [blank, @Buffer.overwrite_padded _ 188 0 _ [] rfl, List.nil_append,
    @Buffer.overwrite_padded _ 188 4 _ p.header rfl]
  rw [length] at written
  rw [written, Packet.bytes, Packet.field, plain, payload, Buffer.padded]
  simp [Packet.header, hostBytes]
  omega

theorem writeTsPat_eq (c : ContinuityCounter) :
    writeTsPat c = ((patPacket c.pat).bytes, { c with pat := c.pat + 1 }) := by
  have start : writeTsPacketHeader (List.replicate tsPacketSize 0xFF) tsPatPid 1 1 c = _ :=
    @writeTsPacketHeader_eq (patPacket c.pat) (List.replicate tsPacketSize 0xFF) tsPatPid c _ _ rfl rfl
      (UInt8.toNat_mod _ _)
  rw [writeTsPat, start]
  exact congrArg (·, _) (writeSection_bytes rfl rfl)

theorem writeTsPmt_eq (c : ContinuityCounter) :
    writeTsPmt c = ((pmtPacket c.pmt).bytes, { c with pmt := c.pmt + 1 }) := by
  have start : writeTsPacketHeader (List.replicate tsPacketSize 0xFF) tsPmtPid 1 1 c = _ :=
    @writeTsPacketHeader_eq (pmtPacket c.pmt) (List.replicate tsPacketSize 0xFF) tsPmtPid c _ _ rfl rfl
      (UInt8.toNat_mod _ _)
  rw [writeTsPmt, start]
  exact congrArg (·, _) (writeSection_bytes rfl rfl)

end LiveStreaming.HappyHls
