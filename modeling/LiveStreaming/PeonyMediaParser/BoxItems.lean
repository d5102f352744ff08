import LiveStreaming.PeonyMediaParser.BoxWalk

/-!
# Boxes as they are written

A moov box is written as a list of items, one for each box in it. A box that holds others is an item that is nothing but
its header, and those that it holds follow.
-/

namespace LiveStreaming.PeonyMediaParser
open Library ByteReader

inductive TableKind where
  | stsd | stts | stsc | stsz | stss | stco
  deriving DecidableEq

namespace TableKind

def boxKind : TableKind → BoxKind
  | .stsd => .stsd
  | .stts => .stts
  | .stsc => .stsc
  | .stsz => .stsz
  | .stss => .stss
  | .stco => .stco

def put : TableKind → Package → Option (BoxHeader → Package)
  | .stsd => Package.putStsd
  | .stts => Package.putStts
  | .stsc => Package.putStsc
  | .stsz => Package.putStsz
  | .stss => Package.putStss
  | .stco => Package.putStco

end TableKind

inductive Item where
  | mvhd (box : MvhdBox)
  | iods (box : DataBox)
  | trak (size : UInt32)
  | tkhd (box : TkhdBox)
  | mdia (size : UInt32)
  | mdhd (box : MdhdBox)
  | hdlr (box : HdlrBox)
  | minf (size : UInt32)
  | smhd (box : SmhdBox)
  | vmhd (box : VmhdBox)
  | dinf (size : UInt32)
  | dref (box : DrefBox)
  | stbl (size : UInt32)
  | table (kind : TableKind) (box : BoxHeader) (entries : List UInt8)
  | udta (box : DataBox)

/-! ### The fields -/

def BoxHeader.bytes (box : BoxHeader) : List UInt8 := [[box.version], box.flags.toList].flatten

def MvhdBox.bytes (box : MvhdBox) : List UInt8 :=
  [box.boxHeader.bytes, (numberBytes box.creationTime).toList, (numberBytes box.modificationTime).toList,
    (numberBytes box.timescale).toList, (numberBytes box.duration).toList, box.rate.toList, box.volume.toList,
    box.reserved.toList, box.matrix.toList, box.predefined.toList, (numberBytes box.nextTrakID).toList].flatten

def TkhdBox.bytes (box : TkhdBox) : List UInt8 :=
  [box.boxHeader.bytes, (numberBytes box.creationTime).toList, (numberBytes box.modificationTime).toList,
    (numberBytes box.trakID).toList, box.reserved1.toList, (numberBytes box.duration).toList, box.reserved2.toList,
    box.layer.toList, box.alternateGroup.toList, box.volume.toList, box.reserved3.toList, box.matrix.toList,
    box.width.toList, box.height.toList].flatten

def MdhdBox.bytes (box : MdhdBox) : List UInt8 :=
  [box.boxHeader.bytes, (numberBytes box.creationTime).toList, (numberBytes box.modificationTime).toList,
    (numberBytes box.timescale).toList, (numberBytes box.duration).toList, box.language.toList,
    box.predefined.toList].flatten

def HdlrBox.bytes (box : HdlrBox) : List UInt8 :=
  [box.boxHeader.bytes, box.componentType.toList, box.componentSubType.toList, box.reserved.toList, box.name].flatten

def VmhdBox.bytes (box : VmhdBox) : List UInt8 :=
  [box.boxHeader.bytes, box.graphics.toList, box.opcolor.toList].flatten

def SmhdBox.fields (box : SmhdBox) : List UInt8 := [box.balance.toList, box.reserved.toList].flatten

def DrefBox.bytes (box : DrefBox) : List UInt8 :=
  [box.boxHeader.bytes, (numberBytes box.entryCount).toList, box.urls].flatten

namespace Item

def kind : Item → BoxKind
  | mvhd _ => .mvhd
  | iods _ => .iods
  | trak _ => .trak
  | tkhd _ => .tkhd
  | mdia _ => .mdia
  | mdhd _ => .mdhd
  | hdlr _ => .hdlr
  | minf _ => .minf
  | smhd _ => .smhd
  | vmhd _ => .vmhd
  | dinf _ => .dinf
  | dref _ => .dref
  | stbl _ => .stbl
  | table kind _ _ => kind.boxKind
  | udta _ => .udta

def size : Item → UInt32
  | trak size | mdia size | minf size | dinf size | stbl size => size
  | mvhd box => box.boxHeader.size
  | tkhd box => box.boxHeader.size
  | mdhd box => box.boxHeader.size
  | hdlr box => box.boxHeader.size
  | smhd box => box.boxHeader.size
  | vmhd box => box.boxHeader.size
  | dref box => box.boxHeader.size
  | table _ box _ => box.size
  | iods box | udta box => box.size

/-- The type that the box has. -/
def type : Item → BoxType
  | trak _ => BoxKind.trak.type
  | mdia _ => BoxKind.mdia.type
  | minf _ => BoxKind.minf.type
  | dinf _ => BoxKind.dinf.type
  | stbl _ => BoxKind.stbl.type
  | mvhd box => box.boxHeader.type
  | tkhd box => box.boxHeader.type
  | mdhd box => box.boxHeader.type
  | hdlr box => box.boxHeader.type
  | smhd box => box.boxHeader.type
  | vmhd box => box.boxHeader.type
  | dref box => box.boxHeader.type
  | table _ box _ => box.type
  | iods box | udta box => box.type

/-- What is written behind the size and the type. -/
def body : Item → List UInt8
  | trak _ | mdia _ | minf _ | dinf _ | stbl _ => []
  | mvhd box => box.bytes
  | tkhd box => box.bytes
  | mdhd box => box.bytes
  | hdlr box => box.bytes
  | smhd box => box.boxHeader.bytes ++ box.fields
  | vmhd box => box.bytes
  | dref box => box.bytes
  | table _ box entries => box.bytes ++ entries
  | iods box | udta box => box.data

def bytes (item : Item) : List UInt8 :=
  [(numberBytes item.size).toList, item.kind.type.toList, item.body].flatten

/-- The boxes that others follow in. -/
def Holds : Item → Prop
  | trak _ | mdia _ | minf _ | dinf _ | stbl _ => True
  | _ => False

/-- A box has its own type, and its size if it holds no others. -/
structure Formed (item : Item) : Prop where
  type : item.type = item.kind.type
  size : ¬ item.Holds → item.size.toNat = item.bytes.length

end Item

def bytesOf (items : List Item) : List UInt8 := items.flatMap Item.bytes

/-- No box is longer than what is left. -/
def Formed : List Item → Prop
  | [] => True
  | item :: rest => item.Formed ∧ item.size.toNat ≤ (bytesOf (item :: rest)).length ∧ Formed rest

theorem length_bytes (item : Item) : item.bytes.length = 8 + item.body.length := by
  rw [Item.bytes, List.length_flatten]
  simp only [List.map_cons, List.map_nil, List.sum_cons, List.sum_nil, Vector.length_toList]
  omega

theorem bytesOf_cons (item : Item) (rest : List Item) : bytesOf (item :: rest) = item.bytes ++ bytesOf rest := rfl

theorem bytesOf_append (front rest : List Item) : bytesOf (front ++ rest) = bytesOf front ++ bytesOf rest :=
  List.flatMap_append

theorem Formed.append {front rest : List Item} (first : Formed front) (second : Formed rest) :
    Formed (front ++ rest) := by
  induction front with
  | nil => exact second
  | cons item front ih =>
    have fits : item.size.toNat ≤ (bytesOf (item :: front)).length := first.2.1
    have split : bytesOf (item :: (front ++ rest)) = bytesOf (item :: front) ++ bytesOf rest :=
      bytesOf_append (item :: front) rest
    refine ⟨first.1, ?_, ih first.2.2⟩
    show _ ≤ (bytesOf (item :: (front ++ rest))).length
    rw [split, List.length_append]
    omega

/-! ### What the readers make of the fields -/

theorem reads_readBoxHeader (box : BoxHeader) : Reads (readBoxHeader box.size box.type) box.bytes box :=
  (reads_byte box.version).bind ((reads_field box.flags).bind (.pure _))

theorem reads_readMvhd (box : MvhdBox) : Reads (readMvhd box.boxHeader.size box.boxHeader.type) box.bytes box :=
  (reads_readBoxHeader box.boxHeader).bind <| (reads_uint32 box.creationTime).bind <|
    (reads_uint32 box.modificationTime).bind <| (reads_uint32 box.timescale).bind <| (reads_uint32 box.duration).bind <|
    (reads_field box.rate).bind <| (reads_field box.volume).bind <| (reads_field box.reserved).bind <|
    (reads_field box.matrix).bind <| (reads_field box.predefined).bind <| (reads_uint32 box.nextTrakID).bind <|
    .pure _

theorem reads_readTkhd (box : TkhdBox) : Reads (readTkhd box.boxHeader.size box.boxHeader.type) box.bytes box :=
  (reads_readBoxHeader box.boxHeader).bind <| (reads_uint32 box.creationTime).bind <|
    (reads_uint32 box.modificationTime).bind <| (reads_uint32 box.trakID).bind <| (reads_field box.reserved1).bind <|
    (reads_uint32 box.duration).bind <| (reads_field box.reserved2).bind <| (reads_field box.layer).bind <|
    (reads_field box.alternateGroup).bind <| (reads_field box.volume).bind <| (reads_field box.reserved3).bind <|
    (reads_field box.matrix).bind <| (reads_field box.width).bind <| (reads_field box.height).bind <| .pure _

theorem reads_readMdhd (box : MdhdBox) : Reads (readMdhd box.boxHeader.size box.boxHeader.type) box.bytes box :=
  (reads_readBoxHeader box.boxHeader).bind <| (reads_uint32 box.creationTime).bind <|
    (reads_uint32 box.modificationTime).bind <| (reads_uint32 box.timescale).bind <| (reads_uint32 box.duration).bind <|
    (reads_field box.language).bind <| (reads_field box.predefined).bind <| .pure _

theorem reads_readHdlr (box : HdlrBox) (length : (box.boxHeader.size - 32).toNat = box.name.length) :
    Reads (readHdlr box.boxHeader.size box.boxHeader.type) box.bytes box :=
  (reads_readBoxHeader box.boxHeader).bind <| (reads_field box.componentType).bind <|
    (reads_field box.componentSubType).bind <| (reads_field box.reserved).bind <|
    (reads_bytes length.symm).bind <| .pure _

theorem reads_readDref (box : DrefBox) (length : (box.boxHeader.size - 16).toNat = box.urls.length) :
    Reads (readDref box.boxHeader.size box.boxHeader.type) box.bytes box :=
  (reads_readBoxHeader box.boxHeader).bind <| (reads_uint32 box.entryCount).bind <|
    (reads_bytes length.symm).bind <| .pure _

/-- The letters that an smhd box is read with. -/
def smhdLetters : Vector UInt8 2 := #v['s'.toNat.toUInt8, 'm'.toNat.toUInt8]

/-- The box that is kept of an smhd box. -/
def SmhdBox.stored (box : SmhdBox) : SmhdBox := { box with balance := smhdLetters, reserved := smhdLetters }

theorem reads_readSmhd (box : SmhdBox) (type : box.boxHeader.type = BoxKind.smhd.type) :
    Reads (readSmhd box.boxHeader.size box.boxHeader.type) box.boxHeader.bytes box.stored := by
  have copied : copyType box.boxHeader.type 2 = pure smhdLetters := by
    rw [type]
    rfl
  have read : Reads (readSmhd box.boxHeader.size box.boxHeader.type) (box.boxHeader.bytes ++ []) box.stored := by
    unfold readSmhd
    rw [copied]
    exact (reads_readBoxHeader box.boxHeader).bind ((Reads.pure _).bind ((Reads.pure _).bind (.pure _)))
  rwa [List.append_nil] at read

end LiveStreaming.PeonyMediaParser
