import LiveStreaming.Library.EarlyExit
import LiveStreaming.Library.Walk
import LiveStreaming.PeonyMediaParser.Mp4
import Mathlib.Data.FinEnum

/-!
# Where the parser goes

What `onMoovBoxParse` does with a box depends on its header and on which boxes it has parsed before. A walk over the
buffer goes from header to header as the parser does, and leaves out what is stored.
-/

namespace LiveStreaming.PeonyMediaParser
open Library ByteReader EarlyExit

/-- Which of the boxes that others are put in have been parsed, in the last trak. -/
structure Parents where
  trak : Bool
  mdia : Bool
  minf : Bool
  dinf : Bool
  stbl : Bool
  deriving DecidableEq

def Package.parents (package : Package) : Parents :=
  ⟨package.prevTrakBox.isSome, package.mdia.isSome, package.minf.isSome, package.dinf.isSome, package.stbl.isSome⟩

/-- The position behind the header of a box. -/
structure Cursor where
  pos : UInt32
  parents : Parents
  deriving DecidableEq

namespace BoxKind

/-- The box that a box of this kind is put in is there. -/
def hasParent : BoxKind → Parents → Bool
  | .mvhd | .iods | .trak | .udta => fun _ => true
  | .tkhd | .mdia => Parents.trak
  | .mdhd | .hdlr | .minf => Parents.mdia
  | .smhd | .vmhd | .dinf | .stbl => Parents.minf
  | .dref => Parents.dinf
  | .stsd | .stts | .stsc | .stsz | .stss | .stco => Parents.stbl

/-- The boxes that are there behind a box of this kind. -/
def enter : BoxKind → Parents → Parents
  | .trak => fun _ => ⟨true, false, false, false, false⟩
  | .mdia => fun parents => ⟨parents.trak, true, false, false, false⟩
  | .minf => fun parents => ⟨parents.trak, parents.mdia, true, false, false⟩
  | .dinf => fun parents => { parents with dinf := true }
  | .stbl => fun parents => { parents with stbl := true }
  | _ => id

/-- How many bytes behind its header are read of a box. -/
def reads (size : UInt32) : BoxKind → Nat
  | .mvhd => 100
  | .tkhd => 84
  | .mdhd => 24
  | .hdlr => 24 + (size - 32).toNat
  | .dref => 8 + (size - 16).toNat
  | .smhd | .vmhd | .stsd | .stts | .stsc | .stsz | .stss | .stco => 4
  | .udta => (size - 8).toNat
  | .iods | .trak | .mdia | .minf | .dinf | .stbl => 0

/-- How many more are passed by. -/
def skips (size : UInt32) : BoxKind → UInt32
  | .iods => size - 8
  | .smhd => 4
  | .vmhd => 8
  | .stsd | .stts | .stsc | .stsz | .stss | .stco => size - 12
  | _ => 0

end BoxKind

section
variable (buffer : List UInt8)

/-- The size and the type before a position. -/
def headerAt (pos : UInt32) : UInt32 × BoxType :=
  ((readSizeType (buffer.drop (pos.toNat - 8))).map Prod.fst).getD (0, Vector.replicate 4 0)

def sizeAt (pos : UInt32) : UInt32 := (headerAt buffer pos).1
def typeAt (pos : UInt32) : BoxType := (headerAt buffer pos).2

/-- Where the header behind a box is. -/
def behind (kind : BoxKind) (pos : UInt32) : UInt32 :=
  pos + UInt32.ofNat (kind.reads (sizeAt buffer pos)) + kind.skips (sizeAt buffer pos)

/-- A header is read where four bytes are left, and needs eight. -/
def HeaderFits (pos : UInt32) : Prop := pos + 4 < bufferSize buffer → pos.toNat + 8 ≤ buffer.length

/-- What is read of a box, and the header behind it, are inside the buffer. -/
def Inside (kind : BoxKind) (pos : UInt32) : Prop :=
  if kind = .vmhd then False
  else if kind = .iods then sizeAt buffer pos ≠ 8 →
    (behind buffer kind pos).toNat + (sizeAt buffer pos - 8).toNat ≤ buffer.length ∧
      HeaderFits buffer (behind buffer kind pos)
  else pos.toNat + kind.reads (sizeAt buffer pos) ≤ buffer.length ∧ HeaderFits buffer (behind buffer kind pos)

/-- The parser stays inside the buffer, and has a box to put this one in. -/
def Contained (kind : BoxKind) (c : Cursor) : Prop := kind.hasParent c.parents ∧ Inside buffer kind c.pos

instance decidableHeaderFits (pos : UInt32) : Decidable (HeaderFits buffer pos) :=
  inferInstanceAs (Decidable (_ → _))

instance decidableInside (kind : BoxKind) (pos : UInt32) : Decidable (Inside buffer kind pos) :=
  inferInstanceAs (Decidable (if kind = .vmhd then False else if kind = .iods then _ → _ ∧ HeaderFits buffer _ else
    _ ∧ HeaderFits buffer _))

instance decidableContained (kind : BoxKind) (c : Cursor) : Decidable (Contained buffer kind c) :=
  inferInstanceAs (Decidable (_ ∧ _))

/-- The cursor behind a box, where there is another one. -/
def Cursor.next (kind : BoxKind) (c : Cursor) : Option Cursor :=
  if kind = .iods ∧ sizeAt buffer c.pos = 8 then some c
  else if behind buffer kind c.pos + 4 < bufferSize buffer ∧ kind ≠ .udta then
    some { pos := behind buffer kind c.pos + 8, parents := kind.enter c.parents }
  else none

/-- One comparison of a turn. `none` where the parser does not go on. -/
def Cursor.visit (c : Cursor) (kind : BoxKind) : Option Cursor :=
  if typeAt buffer c.pos = kind.type then if Contained buffer kind c then c.next buffer kind else none else some c

/-- The test of the loop. -/
def Cursor.Fits (c : Cursor) : Prop := c.pos - 8 + sizeAt buffer c.pos ≤ bufferSize buffer

instance decidableFits (c : Cursor) : Decidable (c.Fits buffer) := inferInstanceAs (Decidable (_ ≤ _))

def Cursor.turn (c : Cursor) : Option Cursor := if c.Fits buffer then boxKinds.foldlM (Cursor.visit buffer) c else none

def Cursor.start : Cursor := ⟨16, ⟨false, false, false, false, false⟩⟩

/-- Where the turns of the loop begin. -/
def walk : Nat → Option Cursor := Walk.path (Cursor.turn buffer) .start

/-- Every box that a turn comes to is contained. -/
def Sound : List BoxKind → Cursor → Prop
  | [], _ => True
  | kind :: kinds, c => (typeAt buffer c.pos = kind.type → Contained buffer kind c) ∧
      ∀ c', c.visit buffer kind = some c' → Sound kinds c'

end

/-! ### One box -/

def Parser.cursor (s : Parser) : Cursor := ⟨s.pos, s.package.parents⟩

variable {buffer : List UInt8} {s : Parser}

/-- The size and the type are those of the header before the cursor. -/
structure Loaded (buffer : List UInt8) (s : Parser) : Prop where
  inside : s.pos.toNat ≤ buffer.length
  size : s.size = sizeAt buffer s.pos
  type : s.type = typeAt buffer s.pos

theorem wide_readSizeType : Wide readSizeType 8 := wide_uint32.bind fun _ => (wide_field 4).bind fun _ => .pure _

theorem readAt_wide {α : Type} {r : ByteReader α} {n : Nat} (wide : Wide r n) {pos : UInt32}
    (inside : pos.toNat + n ≤ buffer.length) :
    ∃ a, r (buffer.drop pos.toNat) = some (a, buffer.drop (pos.toNat + n)) ∧
      readAt buffer r pos = .ok (a, pos + UInt32.ofNat n) := by
  obtain ⟨a, read⟩ := wide.some (buffer.drop pos.toNat) (by rw [List.length_drop]; omega)
  rw [List.drop_drop] at read
  have taken : (buffer.drop pos.toNat).length - (buffer.drop (pos.toNat + n)).length = n := by
    rw [List.length_drop, List.length_drop]
    omega
  refine ⟨a, read, ?_⟩
  rw [readAt, read]
  dsimp only
  rw [taken]

theorem readAt_short {α : Type} {r : ByteReader α} {n : Nat} (wide : Wide r n) {pos : UInt32}
    (some_ : 0 < n ∨ pos.toNat ≤ buffer.length) (short : buffer.length < pos.toNat + n) :
    readAt buffer r pos = .error (.fault .outside) := by
  rw [readAt, wide.none (by rw [List.length_drop]; omega)]

theorem bufferSize_toNat (small : buffer.length < 2 ^ 32) : (bufferSize buffer).toNat = buffer.length :=
  UInt32.toNat_ofNat_of_lt' small

theorem add_toNat {pos : UInt32} {n : Nat} (small : buffer.length < 2 ^ 32) (inside : pos.toNat + n ≤ buffer.length) :
    (pos + UInt32.ofNat n).toNat = pos.toNat + n := by
  rw [UInt32.toNat_add, UInt32.toNat_ofNat_of_lt' (by rw [UInt32.size]; omega), Nat.mod_eq_of_lt (by omega)]

/-- What the header before the next cursor is read as. -/
theorem getSizeType_ends (small : buffer.length < 2 ^ 32) (s : Parser) :
    Ends (fun leave => match leave with
        | .fault _ => ¬ HeaderFits buffer s.pos
        | .ended s' => s' = s ∧ ¬ s.pos + 4 < bufferSize buffer)
      (fun s' => s.pos + 4 < bufferSize buffer ∧ HeaderFits buffer s.pos ∧ s'.pos = s.pos + 8 ∧
        s'.package = s.package ∧ Loaded buffer s')
      (getSizeType buffer s) := by
  unfold getSizeType
  by_cases more : s.pos + 4 < bufferSize buffer
  · rw [if_pos more]
    by_cases inside : s.pos.toNat + 8 ≤ buffer.length
    · obtain ⟨⟨size, type⟩, read, at_⟩ := readAt_wide wide_readSizeType inside
      have next : (s.pos + 8).toNat = s.pos.toNat + 8 := add_toNat small inside
      have header : headerAt buffer (s.pos + 8) = (size, type) := by
        rw [headerAt, next, Nat.add_sub_cancel, read]
        rfl
      rw [at_]
      refine ⟨more, fun _ => inside, rfl, rfl, ?_, ?_, ?_⟩
      · exact next ▸ inside
      · exact (congrArg Prod.fst header).symm
      · exact (congrArg Prod.snd header).symm
    · rw [readAt_short wide_readSizeType (.inl (by decide)) (by omega)]
      exact fun fits => inside (fits more)
  · rw [if_neg more]
    exact ⟨rfl, more⟩

theorem parseBox_ends {α : Type} {put : Package → Option (α → Package)} {r : ByteReader α} {n : Nat} {skip : UInt32}
    (small : buffer.length < 2 ^ 32) (wide : Wide r n) (loaded : Loaded buffer s) :
    Ends (fun leave => match leave with
        | .fault _ => put s.package = none ∨ ¬ s.pos.toNat + n ≤ buffer.length ∨
            ¬ HeaderFits buffer (s.pos + UInt32.ofNat n + skip)
        | .ended _ => (put s.package).isSome ∧ s.pos.toNat + n ≤ buffer.length ∧
            ¬ s.pos + UInt32.ofNat n + skip + 4 < bufferSize buffer)
      (fun s' => s.pos.toNat + n ≤ buffer.length ∧ HeaderFits buffer (s.pos + UInt32.ofNat n + skip) ∧
        s.pos + UInt32.ofNat n + skip + 4 < bufferSize buffer ∧ s'.pos = s.pos + UInt32.ofNat n + skip + 8 ∧
        (∃ place box input rest, put s.package = some place ∧ r input = some (box, rest) ∧ s'.package = place box) ∧
        Loaded buffer s')
      (parseBox buffer put r skip s) := by
  unfold parseBox
  cases slot : put s.package with
  | none => exact .inl rfl
  | some place =>
    by_cases inside : s.pos.toNat + n ≤ buffer.length
    · obtain ⟨box, taken, read⟩ := readAt_wide wide inside
      rw [read]
      refine (getSizeType_ends small _).mono (fun leave left => ?_) fun s' on => ?_
      · cases leave with
        | fault _ => exact .inr (.inr left)
        | ended _ => exact ⟨rfl, inside, left.2⟩
      · obtain ⟨more, fits, pos, package, after⟩ := on
        exact ⟨inside, fits, more, pos, ⟨place, box, _, _, rfl, taken, package⟩, after⟩
    · dsimp only
      rw [readAt_short wide (.inr loaded.inside) (by omega)]
      exact .inr (.inl inside)

/-- A body does with the box at the cursor what the walk says. -/
def Follows (buffer : List UInt8) (kind : BoxKind) (s : Parser) (body : Except Leave Parser) : Prop :=
  Ends (fun leave => match leave with
      | .fault _ => ¬ Contained buffer kind s.cursor
      | .ended _ => Contained buffer kind s.cursor ∧ s.cursor.next buffer kind = none)
    (fun s' => Contained buffer kind s.cursor ∧ s.cursor.next buffer kind = some s'.cursor ∧ Loaded buffer s') body

/-- A box of a kind has a place exactly if its parent is there, and changes which of the boxes are there. -/
structure Slot {α : Type} (put : Package → Option (α → Package)) (r : ByteReader α) (kind : BoxKind) : Prop where
  parent : ∀ package, (put package).isSome = kind.hasParent package.parents
  enter : ∀ package place input box rest, put package = some place → r input = some (box, rest) →
    (place box).parents = kind.enter package.parents

/-- The kinds of boxes that are read from their first field to their last. -/
theorem follows_of_parseBox {α : Type} {put : Package → Option (α → Package)} {r : ByteReader α} {skip : UInt32}
    {kind : BoxKind} (slot : Slot put r kind) (small : buffer.length < 2 ^ 32) (loaded : Loaded buffer s)
    (plain : kind ≠ .iods ∧ kind ≠ .vmhd ∧ kind ≠ .udta) (wide : Wide r (kind.reads s.size))
    (skips : skip = kind.skips s.size) : Follows buffer kind s (parseBox buffer put r skip s) := by
  have place : s.pos + UInt32.ofNat (kind.reads s.size) + skip = behind buffer kind s.pos := by
    rw [behind, ← loaded.size, skips]
  have contained : Contained buffer kind s.cursor ↔ (put s.package).isSome ∧
      s.pos.toNat + kind.reads s.size ≤ buffer.length ∧ HeaderFits buffer (behind buffer kind s.pos) := by
    rw [Contained, Inside, if_neg plain.2.1, if_neg plain.1, slot.parent, loaded.size]
    rfl
  refine (parseBox_ends small wide loaded).mono (fun leave left => ?_) fun s' on => ?_
  · rw [place] at left
    cases leave with
    | fault _ =>
      refine fun inside => ?_
      obtain ⟨there, fields, fits⟩ := contained.mp inside
      rcases left with none | short | header
      · rw [none] at there
        cases there
      · exact short fields
      · exact header fits
    | ended _ =>
      obtain ⟨there, fields, last⟩ := left
      refine ⟨contained.mpr ⟨there, fields, fun more => absurd more last⟩, ?_⟩
      rw [Cursor.next, if_neg fun iods => plain.1 iods.1, if_neg fun more => last more.1]
  · rw [place] at on
    obtain ⟨fields, fits, more, pos, ⟨put', box, input, rest, there, read, package⟩, after⟩ := on
    refine ⟨contained.mpr ⟨by rw [there]; rfl, fields, fits⟩, ?_, after⟩
    rw [Cursor.next, if_neg fun iods => plain.1 iods.1, if_pos ⟨more, plain.2.2⟩]
    have cursor : s'.cursor = ⟨s'.pos, s'.package.parents⟩ := rfl
    rw [cursor, pos, package, slot.enter _ put' input box rest there read]
    rfl

theorem wide_readBoxHeader (size : UInt32) (type : BoxType) : Wide (readBoxHeader size type) 4 :=
  wide_byte.bind fun _ => (wide_field 3).bind fun _ => .pure _

theorem wide_readMvhd (size : UInt32) (type : BoxType) : Wide (readMvhd size type) 100 :=
  (wide_readBoxHeader size type).bind fun _ => wide_uint32.bind fun _ => wide_uint32.bind fun _ =>
    wide_uint32.bind fun _ => wide_uint32.bind fun _ => (wide_field 4).bind fun _ => (wide_field 2).bind fun _ =>
    (wide_field 10).bind fun _ => (wide_field 36).bind fun _ => (wide_field 24).bind fun _ =>
    wide_uint32.bind fun _ => .pure _

theorem wide_readTkhd (size : UInt32) (type : BoxType) : Wide (readTkhd size type) 84 :=
  (wide_readBoxHeader size type).bind fun _ => wide_uint32.bind fun _ => wide_uint32.bind fun _ =>
    wide_uint32.bind fun _ => (wide_field 4).bind fun _ => wide_uint32.bind fun _ => (wide_field 8).bind fun _ =>
    (wide_field 2).bind fun _ => (wide_field 2).bind fun _ => (wide_field 2).bind fun _ => (wide_field 2).bind fun _ =>
    (wide_field 36).bind fun _ => (wide_field 4).bind fun _ => (wide_field 4).bind fun _ => .pure _

theorem wide_readMdhd (size : UInt32) (type : BoxType) : Wide (readMdhd size type) 24 :=
  (wide_readBoxHeader size type).bind fun _ => wide_uint32.bind fun _ => wide_uint32.bind fun _ =>
    wide_uint32.bind fun _ => wide_uint32.bind fun _ => (wide_field 2).bind fun _ => (wide_field 2).bind fun _ =>
    .pure _

theorem wide_readHdlr (size : UInt32) (type : BoxType) : Wide (readHdlr size type) (24 + (size - 32).toNat) := by
  have wide : Wide (readHdlr size type) (4 + (4 + (4 + (12 + ((size - 32).toNat + 0))))) :=
    (wide_readBoxHeader size type).bind fun _ => (wide_field 4).bind fun _ => (wide_field 4).bind fun _ =>
      (wide_field 12).bind fun _ => (wide_bytes _).bind fun _ => .pure _
  rwa [show 4 + (4 + (4 + (12 + ((size - 32).toNat + 0)))) = 24 + (size - 32).toNat by omega] at wide

theorem wide_copyType (type : BoxType) {n : Nat} (inside : n ≤ 4) : Wide (copyType type n) 0 := by
  rw [copyType, dif_pos inside]
  exact .pure _

theorem wide_readSmhd (size : UInt32) (type : BoxType) : Wide (readSmhd size type) 4 :=
  (wide_readBoxHeader size type).bind fun _ => (wide_copyType type (by decide)).bind fun _ =>
    (wide_copyType type (by decide)).bind fun _ => .pure _

theorem wide_readDref (size : UInt32) (type : BoxType) : Wide (readDref size type) (8 + (size - 16).toNat) := by
  have wide : Wide (readDref size type) (4 + (4 + ((size - 16).toNat + 0))) :=
    (wide_readBoxHeader size type).bind fun _ => wide_uint32.bind fun _ => (wide_bytes _).bind fun _ => .pure _
  rwa [show 4 + (4 + ((size - 16).toNat + 0)) = 8 + (size - 16).toNat by omega] at wide

theorem wide_readUdta (size : UInt32) (type : BoxType) : Wide (readUdta size type) (size - 8).toNat :=
  (wide_bytes _).bind fun _ => .pure _

/-- The second field of a vmhd box leaves the bytes of the type. -/
theorem readVmhd_none (size : UInt32) (type : BoxType) (input : List UInt8) : readVmhd size type input = none := by
  have header := wide_readBoxHeader size type input
  unfold readVmhd
  by_cases enough : 4 ≤ input.length
  · rw [if_pos enough] at header
    obtain ⟨boxHeader, read⟩ := header
    simp [StateT.bind, bind, read, copyType]
  · rw [if_neg enough] at header
    simp [StateT.bind, bind, header]

/-! ### The boxes that others are put in -/

theorem slot_mvhd (r : ByteReader MvhdBox) : Slot Package.putMvhd r .mvhd where
  parent _ := rfl
  enter package place input box rest there read := by
    obtain rfl := Option.some.inj there
    rfl

theorem slot_trak (size : UInt32) (type : BoxType) :
    Slot Package.putTrak (pure { size, type, tkhdBox := none, mdiaBox := none }) .trak where
  parent _ := rfl
  enter package place input box rest there read := by
    obtain rfl := Option.some.inj there
    obtain ⟨rfl, rfl⟩ := Prod.mk.inj (Option.some.inj read)
    rfl

theorem slot_tkhd (r : ByteReader TkhdBox) : Slot Package.putTkhd r .tkhd where
  parent package := by
    obtain ⟨moovBox, _ | trak⟩ := package <;> rfl
  enter package place input box rest there read := by
    obtain ⟨moovBox, _ | trak⟩ := package
    · cases there
    · obtain rfl := Option.some.inj there
      rfl

theorem slot_mdia (size : UInt32) (type : BoxType) : Slot Package.putMdia
    (pure { size, type, mdhdBox := none, hdlrBox := none, minfBox := none }) .mdia where
  parent package := by
    obtain ⟨moovBox, _ | trak⟩ := package <;> rfl
  enter package place input box rest there read := by
    obtain ⟨moovBox, _ | trak⟩ := package
    · cases there
    · obtain rfl := Option.some.inj there
      obtain ⟨rfl, rfl⟩ := Prod.mk.inj (Option.some.inj read)
      rfl

theorem slot_mdhd (r : ByteReader MdhdBox) : Slot Package.putMdhd r .mdhd where
  parent package := by
    obtain ⟨moovBox, _ | ⟨size, type, tkhd, _ | mdia⟩⟩ := package <;> rfl
  enter package place input box rest there read := by
    obtain ⟨moovBox, _ | ⟨size, type, tkhd, _ | mdia⟩⟩ := package
    · cases there
    · cases there
    · obtain rfl := Option.some.inj there
      rfl

theorem slot_hdlr (r : ByteReader HdlrBox) : Slot Package.putHdlr r .hdlr where
  parent package := by
    obtain ⟨moovBox, _ | ⟨size, type, tkhd, _ | mdia⟩⟩ := package <;> rfl
  enter package place input box rest there read := by
    obtain ⟨moovBox, _ | ⟨size, type, tkhd, _ | mdia⟩⟩ := package
    · cases there
    · cases there
    · obtain rfl := Option.some.inj there
      rfl

theorem slot_minf (size : UInt32) (type : BoxType) : Slot Package.putMinf
    (pure { size, type, vmhdBox := none, smhdBox := none, dinfBox := none, stblBox := none }) .minf where
  parent package := by
    obtain ⟨moovBox, _ | ⟨size, type, tkhd, _ | mdia⟩⟩ := package <;> rfl
  enter package place input box rest there read := by
    obtain ⟨moovBox, _ | ⟨size, type, tkhd, _ | mdia⟩⟩ := package
    · cases there
    · cases there
    · obtain rfl := Option.some.inj there
      obtain ⟨rfl, rfl⟩ := Prod.mk.inj (Option.some.inj read)
      rfl

theorem slot_smhd (r : ByteReader SmhdBox) : Slot Package.putSmhd r .smhd where
  parent package := by
    obtain ⟨moovBox, _ | ⟨size, type, tkhd, _ | ⟨size, type, mdhd, hdlr, _ | minf⟩⟩⟩ := package <;> rfl
  enter package place input box rest there read := by
    obtain ⟨moovBox, _ | ⟨size, type, tkhd, _ | ⟨size, type, mdhd, hdlr, _ | minf⟩⟩⟩ := package
    · cases there
    · cases there
    · cases there
    · obtain rfl := Option.some.inj there
      rfl

theorem slot_dinf (size : UInt32) (type : BoxType) : Slot Package.putDinf
    (pure { size, type, drefBox := none }) .dinf where
  parent package := by
    obtain ⟨moovBox, _ | ⟨size, type, tkhd, _ | ⟨size, type, mdhd, hdlr, _ | minf⟩⟩⟩ := package <;> rfl
  enter package place input box rest there read := by
    obtain ⟨moovBox, _ | ⟨size, type, tkhd, _ | ⟨size, type, mdhd, hdlr, _ | minf⟩⟩⟩ := package
    · cases there
    · cases there
    · cases there
    · obtain rfl := Option.some.inj there
      obtain ⟨rfl, rfl⟩ := Prod.mk.inj (Option.some.inj read)
      rfl

theorem slot_dref (r : ByteReader DrefBox) : Slot Package.putDref r .dref where
  parent package := by
    obtain ⟨moovBox, _ | ⟨size, type, tkhd, _ | ⟨size, type, mdhd, hdlr, _ |
      ⟨size, type, vmhd, smhd, _ | dinf, stbl⟩⟩⟩⟩ := package <;> rfl
  enter package place input box rest there read := by
    obtain ⟨moovBox, _ | ⟨size, type, tkhd, _ | ⟨size, type, mdhd, hdlr, _ |
      ⟨size, type, vmhd, smhd, _ | dinf, stbl⟩⟩⟩⟩ := package
    · cases there
    · cases there
    · cases there
    · cases there
    · obtain rfl := Option.some.inj there
      rfl

theorem slot_stbl (size : UInt32) (type : BoxType) : Slot Package.putStbl
    (pure { size, type, stsdBox := none, sttsBox := none, stscBox := none, stszBox := none, stcoBox := none,
            stssBox := none }) .stbl where
  parent package := by
    obtain ⟨moovBox, _ | ⟨size, type, tkhd, _ | ⟨size, type, mdhd, hdlr, _ | minf⟩⟩⟩ := package <;> rfl
  enter package place input box rest there read := by
    obtain ⟨moovBox, _ | ⟨size, type, tkhd, _ | ⟨size, type, mdhd, hdlr, _ | minf⟩⟩⟩ := package
    · cases there
    · cases there
    · cases there
    · obtain rfl := Option.some.inj there
      obtain ⟨rfl, rfl⟩ := Prod.mk.inj (Option.some.inj read)
      rfl

theorem slot_table (set : StblBox → BoxHeader → StblBox) {kind : BoxKind} (parent : kind.hasParent = Parents.stbl)
    (enter : kind.enter = id) (r : ByteReader BoxHeader) : Slot (fun package => package.putTable set) r kind where
  parent package := by
    rw [parent]
    obtain ⟨moovBox, _ | ⟨size, type, tkhd, _ | ⟨size, type, mdhd, hdlr, _ |
      ⟨size, type, vmhd, smhd, dinf, _ | stbl⟩⟩⟩⟩ := package <;> rfl
  enter package place input box rest there read := by
    rw [enter]
    obtain ⟨moovBox, _ | ⟨size, type, tkhd, _ | ⟨size, type, mdhd, hdlr, _ |
      ⟨size, type, vmhd, smhd, dinf, _ | stbl⟩⟩⟩⟩ := package
    · cases there
    · cases there
    · cases there
    · cases there
    · obtain rfl := Option.some.inj there
      rfl

/-! ### Every box -/

theorem follows_table {set : StblBox → BoxHeader → StblBox} {kind : BoxKind} (small : buffer.length < 2 ^ 32)
    (loaded : Loaded buffer s) (plain : kind ≠ .iods ∧ kind ≠ .vmhd ∧ kind ≠ .udta)
    (parent : kind.hasParent = Parents.stbl) (enter : kind.enter = id) (reads : kind.reads s.size = 4)
    (skips : kind.skips s.size = s.size - 12) :
    Follows buffer kind s (parseTable buffer (fun package => package.putTable set) s) :=
  follows_of_parseBox (slot_table set parent enter _) small loaded plain
    (by rw [reads]; exact wide_readBoxHeader s.size s.type) skips.symm

theorem follows_iods (small : buffer.length < 2 ^ 32) (loaded : Loaded buffer s) :
    Follows buffer .iods s (parseIods buffer s) := by
  have place : s.pos + (s.size - 8) = behind buffer .iods s.pos := by
    rw [behind, ← loaded.size]
    exact congrArg (· + (s.size - 8)) (UInt32.add_zero s.pos).symm
  have contained : Contained buffer .iods s.cursor ↔ (s.size ≠ 8 →
      (behind buffer .iods s.pos).toNat + (s.size - 8).toNat ≤ buffer.length ∧
        HeaderFits buffer (behind buffer .iods s.pos)) := by
    rw [Contained, Inside, if_neg (by decide), if_pos rfl, loaded.size]
    exact ⟨fun both => both.2, fun inside => ⟨rfl, inside⟩⟩
  unfold parseIods
  by_cases data : s.size - 8 > 0
  · have some_ : s.size ≠ 8 := by
      intro eight
      rw [eight] at data
      exact absurd data (by decide)
    have positive : 0 < (s.size - 8).toNat := UInt32.lt_iff_toNat_lt.mp data
    rw [if_pos data, place]
    dsimp only
    by_cases inside : (behind buffer .iods s.pos).toNat + (s.size - 8).toNat ≤ buffer.length
    · obtain ⟨bytes_, -, read⟩ := readAt_wide (wide_bytes _) inside
      rw [read]
      refine (getSizeType_ends small _).mono (fun leave left => ?_) fun s' on => ?_
      · cases leave with
        | fault _ => exact fun within => left (contained.mp within some_).2
        | ended _ =>
          refine ⟨contained.mpr fun _ => ⟨inside, fun more => absurd more left.2⟩, ?_⟩
          rw [Cursor.next, if_neg fun eight => some_ (loaded.size.trans eight.2), if_neg fun more => left.2 more.1]
      · obtain ⟨more, fits, pos, package, after⟩ := on
        refine ⟨contained.mpr fun _ => ⟨inside, fits⟩, ?_, after⟩
        rw [Cursor.next, if_neg fun eight => some_ (loaded.size.trans eight.2), if_pos ⟨more, by decide⟩]
        have cursor : s'.cursor = ⟨s'.pos, s'.package.parents⟩ := rfl
        rw [cursor, pos, package]
        rfl
    · rw [readAt_short (wide_bytes _) (.inl positive) (by omega)]
      exact fun within => inside (contained.mp within some_).1
  · have eight : s.size = 8 := by
      have zero : s.size - 8 = 0 := by
        have := mt UInt32.lt_iff_toNat_lt.mpr data
        apply UInt32.toNat_inj.mp
        rw [UInt32.toNat_zero] at this ⊢
        omega
      have back := UInt32.sub_add_cancel s.size 8
      rw [zero] at back
      exact back.symm
    rw [if_neg data]
    refine ⟨contained.mpr fun some_ => absurd eight some_, ?_, loaded.inside, loaded.size, loaded.type⟩
    rw [Cursor.next, if_pos ⟨rfl, loaded.size.symm.trans eight⟩]
    rfl

theorem follows_vmhd (buffer : List UInt8) (s : Parser) : Follows buffer .vmhd s (parseVmhd buffer s) := by
  have never : ¬ Contained buffer .vmhd s.cursor := by
    rw [Contained, Inside, if_pos rfl]
    exact fun both => both.2
  unfold parseVmhd parseBox
  cases slot : s.package.putVmhd with
  | none => exact never
  | some place =>
    dsimp only
    rw [readAt, readVmhd_none]
    exact never

theorem follows_udta (small : buffer.length < 2 ^ 32) (loaded : Loaded buffer s) :
    Follows buffer .udta s (parseUdta buffer s) := by
  have place : s.pos + UInt32.ofNat (s.size - 8).toNat + 0 = behind buffer .udta s.pos := by
    rw [behind, ← loaded.size]
    rfl
  have contained : Contained buffer .udta s.cursor ↔ s.pos.toNat + (s.size - 8).toNat ≤ buffer.length ∧
      HeaderFits buffer (behind buffer .udta s.pos) := by
    rw [Contained, Inside, if_neg (by decide), if_neg (by decide), loaded.size]
    exact ⟨fun both => both.2, fun inside => ⟨rfl, inside⟩⟩
  have last : s.cursor.next buffer .udta = none := by
    rw [Cursor.next, if_neg fun iods => absurd iods.1 (by decide), if_neg fun more => more.2 rfl]
  refine Ends.bind (parseBox_ends small (wide_readUdta s.size s.type) loaded |>.mono (fun leave left => ?_)
    fun s' on => on) fun s' on => ?_
  · rw [place] at left
    cases leave with
    | fault _ =>
      refine fun within => ?_
      rcases left with none | short | header
      · cases none
      · exact short (contained.mp within).1
      · exact header (contained.mp within).2
    | ended _ => exact ⟨contained.mpr ⟨left.2.1, fun more => absurd more left.2.2⟩, last⟩
  · rw [place] at on
    exact ⟨contained.mpr ⟨on.1, on.2.1⟩, last⟩

theorem parse_follows (small : buffer.length < 2 ^ 32) (loaded : Loaded buffer s) (kind : BoxKind) :
    Follows buffer kind s (kind.parse buffer s) := by
  cases kind with
  | mvhd => exact follows_of_parseBox (slot_mvhd _) small loaded (by decide) (wide_readMvhd _ _) rfl
  | iods => exact follows_iods small loaded
  | trak => exact follows_of_parseBox (slot_trak _ _) small loaded (by decide) (.pure _) rfl
  | tkhd => exact follows_of_parseBox (slot_tkhd _) small loaded (by decide) (wide_readTkhd _ _) rfl
  | mdia => exact follows_of_parseBox (slot_mdia _ _) small loaded (by decide) (.pure _) rfl
  | mdhd => exact follows_of_parseBox (slot_mdhd _) small loaded (by decide) (wide_readMdhd _ _) rfl
  | hdlr => exact follows_of_parseBox (slot_hdlr _) small loaded (by decide) (wide_readHdlr _ _) rfl
  | minf => exact follows_of_parseBox (slot_minf _ _) small loaded (by decide) (.pure _) rfl
  | smhd => exact follows_of_parseBox (slot_smhd _) small loaded (by decide) (wide_readSmhd _ _) rfl
  | vmhd => exact follows_vmhd buffer s
  | dinf => exact follows_of_parseBox (slot_dinf _ _) small loaded (by decide) (.pure _) rfl
  | dref => exact follows_of_parseBox (slot_dref _) small loaded (by decide) (wide_readDref _ _) rfl
  | stbl => exact follows_of_parseBox (slot_stbl _ _) small loaded (by decide) (.pure _) rfl
  | stsd => exact follows_table small loaded (by decide) rfl rfl rfl rfl
  | stts => exact follows_table small loaded (by decide) rfl rfl rfl rfl
  | stsc => exact follows_table small loaded (by decide) rfl rfl rfl rfl
  | stsz => exact follows_table small loaded (by decide) rfl rfl rfl rfl
  | stss => exact follows_table small loaded (by decide) rfl rfl rfl rfl
  | stco => exact follows_table small loaded (by decide) rfl rfl rfl rfl
  | udta => exact follows_udta small loaded

/-! ### The turns of the loop -/

/-- The comparisons of a turn, from one of them on. -/
theorem compareType_ends (small : buffer.length < 2 ^ 32) (kinds : List BoxKind) (loaded : Loaded buffer s) :
    Ends (fun leave => kinds.foldlM (Cursor.visit buffer) s.cursor = none ∧
        match leave with
        | .fault _ => ¬ Sound buffer kinds s.cursor
        | .ended _ => Sound buffer kinds s.cursor)
      (fun s' => kinds.foldlM (Cursor.visit buffer) s.cursor = some s'.cursor ∧ Sound buffer kinds s.cursor ∧
        Loaded buffer s')
      (kinds.foldlM (compareType buffer) s) := by
  induction kinds generalizing s with
  | nil => exact ⟨rfl, trivial, loaded⟩
  | cons kind kinds ih =>
    rw [List.foldlM_cons, List.foldlM_cons, Cursor.visit, compareType, Sound, Cursor.visit]
    have type : typeAt buffer s.cursor.pos = s.type := loaded.type.symm
    rw [type]
    by_cases match_ : s.type = kind.type
    · rw [if_pos match_, if_pos match_]
      have follows := parse_follows small loaded kind
      cases result : kind.parse buffer s with
      | error leave =>
        rw [result] at follows
        cases leave with
        | fault fault =>
          rw [if_neg follows]
          exact ⟨rfl, fun sound => follows (sound.1 match_)⟩
        | ended s' =>
          rw [if_pos follows.1, follows.2]
          exact ⟨rfl, fun _ => follows.1, fun c' next => by cases next⟩
      | ok s' =>
        rw [result] at follows
        obtain ⟨contained, next, loaded'⟩ := follows
        rw [if_pos contained, next]
        have sound : ((s.type = kind.type → Contained buffer kind s.cursor) ∧
            ∀ c', some s'.cursor = some c' → Sound buffer kinds c') ↔ Sound buffer kinds s'.cursor :=
          ⟨fun both => both.2 _ rfl, fun rest => ⟨fun _ => contained, fun c' same => Option.some.inj same ▸ rest⟩⟩
        rw [sound]
        exact ih loaded'
    · rw [if_neg match_, if_neg match_]
      have sound : ((s.type = kind.type → Contained buffer kind s.cursor) ∧
          ∀ c', some s.cursor = some c' → Sound buffer kinds c') ↔ Sound buffer kinds s.cursor :=
        ⟨fun both => both.2 _ rfl,
          fun rest => ⟨fun same => absurd same match_, fun c' same => Option.some.inj same ▸ rest⟩⟩
      rw [sound]
      exact ih loaded

end LiveStreaming.PeonyMediaParser
