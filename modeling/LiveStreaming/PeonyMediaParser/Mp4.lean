import LiveStreaming.PeonyMediaParser.Boxes

/-!
# Parsing an MP4 file

`onMoovBoxParse` goes from box to box. In every turn of its loop the type of the box at the cursor is compared with all
that are known, one after the other, and a box that is parsed leaves the size and the type of the one behind it for the
comparisons that follow.
-/

namespace LiveStreaming.PeonyMediaParser
open Library ByteReader

/-- A byte that is not there is read, or a box is filled in that has never been parsed. -/
inductive Fault where
  | outside
  | missing
  deriving DecidableEq

structure Parser where
  pos : UInt32
  size : UInt32
  type : BoxType
  package : Package

/-- Why a turn of the loop does not come to its end. -/
inductive Leave where
  | ended (s : Parser)
  | fault (fault : Fault)

section
variable (buffer : List UInt8)

def bufferSize : UInt32 := UInt32.ofNat buffer.length

/-- What a reader makes of the bytes from a position on, and the position behind them. -/
def readAt {α : Type} (r : ByteReader α) (pos : UInt32) : Except Leave (α × UInt32) :=
  match r (buffer.drop pos.toNat) with
  | some (a, rest) => .ok (a, pos + UInt32.ofNat ((buffer.drop pos.toNat).length - rest.length))
  | none => .error (.fault .outside)

def readSizeType : ByteReader (UInt32 × BoxType) := do
  let size ← uint32
  let type ← field 4
  pure (size, type)

/-- `GET_SIZE_TYPE` -/
def getSizeType (s : Parser) : Except Leave Parser :=
  if s.pos + 4 < bufferSize buffer then do
    let ((size, type), pos) ← readAt buffer readSizeType s.pos
    .ok { s with size, type, pos }
  else .error (.ended s)

/-- A box is allocated, read, and put in its place, with `skip` bytes behind what is read of it. -/
def parseBox {α : Type} (put : Package → Option (α → Package)) (r : ByteReader α) (skip : UInt32) (s : Parser) :
    Except Leave Parser :=
  match put s.package with
  | none => .error (.fault .missing)
  | some place => do
    let (box, pos) ← readAt buffer r s.pos
    getSizeType buffer { s with pos := pos + skip, package := place box }

def parseMvhd (s : Parser) : Except Leave Parser := parseBox buffer Package.putMvhd (readMvhd s.size s.type) 0 s

/-- The data is copied from behind the box. A box without data leaves the cursor where it is. -/
def parseIods (s : Parser) : Except Leave Parser :=
  if s.size - 8 > 0 then do
    let pos := s.pos + (s.size - 8)
    let (data, _) ← readAt buffer (bytes (s.size - 8).toNat) pos
    let iodsBox := some { size := s.size, type := s.type, data }
    getSizeType buffer
      { s with pos, package := { s.package with moovBox := { s.package.moovBox with iodsBox } } }
  else
    let iodsBox := some { size := s.size, type := s.type, data := [] }
    .ok { s with package := { s.package with moovBox := { s.package.moovBox with iodsBox } } }

def parseTrak (s : Parser) : Except Leave Parser :=
  parseBox buffer Package.putTrak (pure { size := s.size, type := s.type, tkhdBox := none, mdiaBox := none }) 0 s

def parseTkhd (s : Parser) : Except Leave Parser := parseBox buffer Package.putTkhd (readTkhd s.size s.type) 0 s

/-- `hdlrBox` and `minfBox` are not set at first. -/
def parseMdia (s : Parser) : Except Leave Parser :=
  parseBox buffer Package.putMdia
    (pure { size := s.size, type := s.type, mdhdBox := none, hdlrBox := none, minfBox := none }) 0 s

def parseMdhd (s : Parser) : Except Leave Parser := parseBox buffer Package.putMdhd (readMdhd s.size s.type) 0 s

def parseHdlr (s : Parser) : Except Leave Parser := parseBox buffer Package.putHdlr (readHdlr s.size s.type) 0 s

def parseMinf (s : Parser) : Except Leave Parser :=
  parseBox buffer Package.putMinf
    (pure { size := s.size, type := s.type, vmhdBox := none, smhdBox := none, dinfBox := none, stblBox := none }) 0 s

def parseSmhd (s : Parser) : Except Leave Parser := parseBox buffer Package.putSmhd (readSmhd s.size s.type) 4 s

def parseVmhd (s : Parser) : Except Leave Parser := parseBox buffer Package.putVmhd (readVmhd s.size s.type) 8 s

def parseDinf (s : Parser) : Except Leave Parser :=
  parseBox buffer Package.putDinf (pure { size := s.size, type := s.type, drefBox := none }) 0 s

def parseDref (s : Parser) : Except Leave Parser := parseBox buffer Package.putDref (readDref s.size s.type) 0 s

def parseStbl (s : Parser) : Except Leave Parser :=
  parseBox buffer Package.putStbl
    (pure { size := s.size, type := s.type, stsdBox := none, sttsBox := none, stscBox := none, stszBox := none,
            stcoBox := none, stssBox := none }) 0 s

/-- The boxes of `stbl`, whose tables are passed by. -/
def parseTable (put : Package → Option (BoxHeader → Package)) (s : Parser) : Except Leave Parser :=
  parseBox buffer put (readBoxHeader s.size s.type) (s.size - 12) s

def parseStsd (s : Parser) : Except Leave Parser := parseTable buffer Package.putStsd s
def parseStts (s : Parser) : Except Leave Parser := parseTable buffer Package.putStts s
def parseStsc (s : Parser) : Except Leave Parser := parseTable buffer Package.putStsc s
def parseStsz (s : Parser) : Except Leave Parser := parseTable buffer Package.putStsz s
def parseStss (s : Parser) : Except Leave Parser := parseTable buffer Package.putStss s
def parseStco (s : Parser) : Except Leave Parser := parseTable buffer Package.putStco s

/-- The loop is left behind this box. -/
def parseUdta (s : Parser) : Except Leave Parser := do
  let s ← parseBox buffer Package.putUdta (readUdta s.size s.type) 0 s
  .error (.ended s)

inductive BoxKind where
  | mvhd | iods | trak | tkhd | mdia | mdhd | hdlr | minf | smhd | vmhd | dinf | dref | stbl | stsd | stts | stsc | stsz
  | stss | stco | udta
  deriving DecidableEq

/-- The order of the comparisons. -/
def boxKinds : List BoxKind :=
  [.mvhd, .iods, .trak, .tkhd, .mdia, .mdhd, .hdlr, .minf, .smhd, .vmhd, .dinf, .dref, .stbl, .stsd, .stts, .stsc,
    .stsz, .stss, .stco, .udta]

def BoxKind.type : BoxKind → BoxType
  | .mvhd => boxType 'm' 'v' 'h' 'd'
  | .iods => boxType 'i' 'o' 'd' 's'
  | .trak => boxType 't' 'r' 'a' 'k'
  | .tkhd => boxType 't' 'k' 'h' 'd'
  | .mdia => boxType 'm' 'd' 'i' 'a'
  | .mdhd => boxType 'm' 'd' 'h' 'd'
  | .hdlr => boxType 'h' 'd' 'l' 'r'
  | .minf => boxType 'm' 'i' 'n' 'f'
  | .smhd => boxType 's' 'm' 'h' 'd'
  | .vmhd => boxType 'v' 'm' 'h' 'd'
  | .dinf => boxType 'd' 'i' 'n' 'f'
  | .dref => boxType 'd' 'r' 'e' 'f'
  | .stbl => boxType 's' 't' 'b' 'l'
  | .stsd => boxType 's' 't' 's' 'd'
  | .stts => boxType 's' 't' 't' 's'
  | .stsc => boxType 's' 't' 's' 'c'
  | .stsz => boxType 's' 't' 's' 'z'
  | .stss => boxType 's' 't' 's' 's'
  | .stco => boxType 's' 't' 'c' 'o'
  | .udta => boxType 'u' 'd' 't' 'a'

def BoxKind.parse : BoxKind → Parser → Except Leave Parser
  | .mvhd => parseMvhd buffer
  | .iods => parseIods buffer
  | .trak => parseTrak buffer
  | .tkhd => parseTkhd buffer
  | .mdia => parseMdia buffer
  | .mdhd => parseMdhd buffer
  | .hdlr => parseHdlr buffer
  | .minf => parseMinf buffer
  | .smhd => parseSmhd buffer
  | .vmhd => parseVmhd buffer
  | .dinf => parseDinf buffer
  | .dref => parseDref buffer
  | .stbl => parseStbl buffer
  | .stsd => parseStsd buffer
  | .stts => parseStts buffer
  | .stsc => parseStsc buffer
  | .stsz => parseStsz buffer
  | .stss => parseStss buffer
  | .stco => parseStco buffer
  | .udta => parseUdta buffer

/-- One of the comparisons. -/
def compareType (s : Parser) (kind : BoxKind) : Except Leave Parser :=
  if s.type = kind.type then kind.parse buffer s else .ok s

def moovTurn (s : Parser) : Except Leave Parser := boxKinds.foldlM (compareType buffer) s

def moovLoop : Nat → Parser → Option Leave
  | 0, _ => none
  | fuel + 1, s =>
    if s.pos - 8 + s.size ≤ bufferSize buffer then
      match moovTurn buffer s with
      | .ok s => moovLoop fuel s
      | .error leave => some leave
    else some (.ended s)

/-- `size` and `type` are not set at first. -/
def allocateMoovBox (size : UInt32) (type : BoxType) : MoovBox :=
  { size, type, mvhdBox := none, iodsBox := none, traks := [], udtaBox := none }

/-- The type of the moov box, and the size and the type of the first box in it. -/
def readMoovStart : ByteReader (BoxType × UInt32 × BoxType) := do
  let moovType ← field 4
  let first ← readSizeType
  pure (moovType, first)

/-- The run of the loop, from the first box on. -/
def moovRun (fuel : Nat) (moovBox : MoovBox) : Option Leave :=
  match readAt buffer readMoovStart 4 with
  | .error leave => some leave
  | .ok ((moovType, size, type), pos) =>
    let moovBox := { moovBox with size := bufferSize buffer, type := moovType }
    moovLoop buffer fuel { pos, size, type, package := { moovBox, prevTrakBox := none } }

def Leave.result : Leave → Except Fault (Bool × MoovBox)
  | .ended s => .ok (true, s.package.moov)
  | .fault reason => .error reason

/-- `none` where the loop has not come to its end. -/
def onMoovBoxParse (fuel : Nat) (moovBox : MoovBox) : Option (Except Fault (Bool × MoovBox)) :=
  if bufferSize buffer < 16 then some (.ok (false, moovBox))
  else (moovRun buffer fuel moovBox).map Leave.result

end

end LiveStreaming.PeonyMediaParser
