import LiveStreaming.Library.ByteReader

/-!
# The boxes of an MP4 file

The box that stands at the cursor is known by its type, which is read together with its size before the box itself. The
parser keeps what it has read in the package, where a trak, its media and the boxes within are filled in by the boxes
that come after them.
-/

namespace LiveStreaming.PeonyMediaParser
open Library ByteReader

abbrev BoxType := Vector UInt8 4

def boxType (a b c d : Char) : BoxType := #v[a.toNat.toUInt8, b.toNat.toUInt8, c.toNat.toUInt8, d.toNat.toUInt8]

structure BoxHeader where
  size : UInt32
  type : BoxType
  version : UInt8
  flags : Vector UInt8 3

structure MvhdBox where
  boxHeader : BoxHeader
  creationTime : UInt32
  modificationTime : UInt32
  timescale : UInt32
  duration : UInt32
  rate : Vector UInt8 4
  volume : Vector UInt8 2
  reserved : Vector UInt8 10
  matrix : Vector UInt8 36
  predefined : Vector UInt8 24
  nextTrakID : UInt32

/-- `IodsBox` and `UdtaBox`, which are a header and what is behind it. -/
structure DataBox where
  size : UInt32
  type : BoxType
  data : List UInt8

structure TkhdBox where
  boxHeader : BoxHeader
  creationTime : UInt32
  modificationTime : UInt32
  trakID : UInt32
  reserved1 : Vector UInt8 4
  duration : UInt32
  reserved2 : Vector UInt8 8
  layer : Vector UInt8 2
  alternateGroup : Vector UInt8 2
  volume : Vector UInt8 2
  reserved3 : Vector UInt8 2
  matrix : Vector UInt8 36
  width : Vector UInt8 4
  height : Vector UInt8 4

structure MdhdBox where
  boxHeader : BoxHeader
  creationTime : UInt32
  modificationTime : UInt32
  timescale : UInt32
  duration : UInt32
  language : Vector UInt8 2
  predefined : Vector UInt8 2

structure HdlrBox where
  boxHeader : BoxHeader
  componentType : Vector UInt8 4
  componentSubType : Vector UInt8 4
  reserved : Vector UInt8 12
  name : List UInt8

structure VmhdBox where
  boxHeader : BoxHeader
  graphics : Vector UInt8 2
  opcolor : Vector UInt8 6

structure SmhdBox where
  boxHeader : BoxHeader
  balance : Vector UInt8 2
  reserved : Vector UInt8 2

structure DrefBox where
  boxHeader : BoxHeader
  entryCount : UInt32
  urls : List UInt8

/-- A box that stands for a pointer that may not be set is an `Option`. -/
structure DinfBox where
  size : UInt32
  type : BoxType
  drefBox : Option DrefBox

structure StblBox where
  size : UInt32
  type : BoxType
  stsdBox : Option BoxHeader
  sttsBox : Option BoxHeader
  stscBox : Option BoxHeader
  stszBox : Option BoxHeader
  stcoBox : Option BoxHeader
  stssBox : Option BoxHeader

structure MinfBox where
  size : UInt32
  type : BoxType
  vmhdBox : Option VmhdBox
  smhdBox : Option SmhdBox
  dinfBox : Option DinfBox
  stblBox : Option StblBox

structure MdiaBox where
  size : UInt32
  type : BoxType
  mdhdBox : Option MdhdBox
  hdlrBox : Option HdlrBox
  minfBox : Option MinfBox

structure TrakBox where
  size : UInt32
  type : BoxType
  tkhdBox : Option TkhdBox
  mdiaBox : Option MdiaBox

structure MoovBox where
  size : UInt32
  type : BoxType
  mvhdBox : Option MvhdBox
  iodsBox : Option DataBox
  traks : List TrakBox
  udtaBox : Option DataBox

/-! ### The fields of a box -/

section
variable (size : UInt32) (type : BoxType)

def readBoxHeader : ByteReader BoxHeader := do
  let version ← byte
  let flags ← field 3
  pure { size, type, version, flags }

def readMvhd : ByteReader MvhdBox := do
  let boxHeader ← readBoxHeader size type
  let creationTime ← uint32
  let modificationTime ← uint32
  let timescale ← uint32
  let duration ← uint32
  let rate ← field 4
  let volume ← field 2
  let reserved ← field 10
  let matrix ← field 36
  let predefined ← field 24
  let nextTrakID ← uint32
  pure { boxHeader, creationTime, modificationTime, timescale, duration, rate, volume, reserved, matrix, predefined,
         nextTrakID }

def readTkhd : ByteReader TkhdBox := do
  let boxHeader ← readBoxHeader size type
  let creationTime ← uint32
  let modificationTime ← uint32
  let trakID ← uint32
  let reserved1 ← field 4
  let duration ← uint32
  let reserved2 ← field 8
  let layer ← field 2
  let alternateGroup ← field 2
  let volume ← field 2
  let reserved3 ← field 2
  let matrix ← field 36
  let width ← field 4
  let height ← field 4
  pure { boxHeader, creationTime, modificationTime, trakID, reserved1, duration, reserved2, layer, alternateGroup,
         volume, reserved3, matrix, width, height }

def readMdhd : ByteReader MdhdBox := do
  let boxHeader ← readBoxHeader size type
  let creationTime ← uint32
  let modificationTime ← uint32
  let timescale ← uint32
  let duration ← uint32
  let language ← field 2
  let predefined ← field 2
  pure { boxHeader, creationTime, modificationTime, timescale, duration, language, predefined }

def readHdlr : ByteReader HdlrBox := do
  let boxHeader ← readBoxHeader size type
  let componentType ← field 4
  let componentSubType ← field 4
  let reserved ← field 12
  let name ← bytes (size - 32).toNat
  pure { boxHeader, componentType, componentSubType, reserved, name }

/-- `memcpy` from the four bytes of `type`. -/
def copyType (n : Nat) : ByteReader (Vector UInt8 n) :=
  if inside : n ≤ 4 then pure ⟨type.toArray.take n, by simp [inside]⟩ else fun _ => none

/-- The two fields are copied from `type`, not from the box. -/
def readSmhd : ByteReader SmhdBox := do
  let boxHeader ← readBoxHeader size type
  let balance ← copyType type 2
  let reserved ← copyType type 2
  pure { boxHeader, balance, reserved }

/-- The two fields are copied from `type`, which has fewer bytes than the second. -/
def readVmhd : ByteReader VmhdBox := do
  let boxHeader ← readBoxHeader size type
  let graphics ← copyType type 2
  let opcolor ← copyType type 6
  pure { boxHeader, graphics, opcolor }

def readDref : ByteReader DrefBox := do
  let boxHeader ← readBoxHeader size type
  let entryCount ← uint32
  let urls ← bytes (size - 16).toNat
  pure { boxHeader, entryCount, urls }

def readUdta : ByteReader DataBox := do
  let data ← bytes (size - 8).toNat
  pure { size, type, data }

end

/-! ### The package -/

/-- What is read, with the last trak, `prevTrakBox`, still apart from the others. -/
structure Package where
  moovBox : MoovBox
  prevTrakBox : Option TrakBox

namespace Package
variable (package : Package)

def moov : MoovBox :=
  { package.moovBox with traks := package.moovBox.traks ++ package.prevTrakBox.toList }

def putMvhd : Option (MvhdBox → Package) :=
  some fun mvhdBox => { package with moovBox := { package.moovBox with mvhdBox := some mvhdBox } }

def putIods : Option (DataBox → Package) :=
  some fun iodsBox => { package with moovBox := { package.moovBox with iodsBox := some iodsBox } }

def putUdta : Option (DataBox → Package) :=
  some fun udtaBox => { package with moovBox := { package.moovBox with udtaBox := some udtaBox } }

def putTrak : Option (TrakBox → Package) :=
  some fun trakBox => { moovBox := package.moov, prevTrakBox := some trakBox }

def putTkhd : Option (TkhdBox → Package) := do
  let trak ← package.prevTrakBox
  some fun tkhdBox => { package with prevTrakBox := some { trak with tkhdBox := some tkhdBox } }

def putMdia : Option (MdiaBox → Package) := do
  let trak ← package.prevTrakBox
  some fun mdiaBox => { package with prevTrakBox := some { trak with mdiaBox := some mdiaBox } }

def mdia : Option MdiaBox := package.prevTrakBox.bind TrakBox.mdiaBox

def putMdhd : Option (MdhdBox → Package) := do
  let mdia ← package.mdia
  let put ← package.putMdia
  some fun mdhdBox => put { mdia with mdhdBox := some mdhdBox }

def putHdlr : Option (HdlrBox → Package) := do
  let mdia ← package.mdia
  let put ← package.putMdia
  some fun hdlrBox => put { mdia with hdlrBox := some hdlrBox }

def putMinf : Option (MinfBox → Package) := do
  let mdia ← package.mdia
  let put ← package.putMdia
  some fun minfBox => put { mdia with minfBox := some minfBox }

def minf : Option MinfBox := package.mdia.bind MdiaBox.minfBox

def putSmhd : Option (SmhdBox → Package) := do
  let minf ← package.minf
  let put ← package.putMinf
  some fun smhdBox => put { minf with smhdBox := some smhdBox }

def putVmhd : Option (VmhdBox → Package) := do
  let minf ← package.minf
  let put ← package.putMinf
  some fun vmhdBox => put { minf with vmhdBox := some vmhdBox }

def putDinf : Option (DinfBox → Package) := do
  let minf ← package.minf
  let put ← package.putMinf
  some fun dinfBox => put { minf with dinfBox := some dinfBox }

def dinf : Option DinfBox := package.minf.bind MinfBox.dinfBox

def putDref : Option (DrefBox → Package) := do
  let dinf ← package.dinf
  let put ← package.putDinf
  some fun drefBox => put { dinf with drefBox := some drefBox }

def putStbl : Option (StblBox → Package) := do
  let minf ← package.minf
  let put ← package.putMinf
  some fun stblBox => put { minf with stblBox := some stblBox }

def stbl : Option StblBox := package.minf.bind MinfBox.stblBox

def putTable (set : StblBox → BoxHeader → StblBox) : Option (BoxHeader → Package) := do
  let stbl ← package.stbl
  let put ← package.putStbl
  some fun boxHeader => put (set stbl boxHeader)

def putStsd : Option (BoxHeader → Package) := package.putTable fun stbl box => { stbl with stsdBox := some box }
def putStts : Option (BoxHeader → Package) := package.putTable fun stbl box => { stbl with sttsBox := some box }
def putStsc : Option (BoxHeader → Package) := package.putTable fun stbl box => { stbl with stscBox := some box }
def putStsz : Option (BoxHeader → Package) := package.putTable fun stbl box => { stbl with stszBox := some box }
def putStss : Option (BoxHeader → Package) := package.putTable fun stbl box => { stbl with stssBox := some box }
def putStco : Option (BoxHeader → Package) := package.putTable fun stbl box => { stbl with stcoBox := some box }

end Package

end LiveStreaming.PeonyMediaParser
