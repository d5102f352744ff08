import LiveStreaming.PeonyMediaParser.MoovRun
import Mathlib.Data.List.Perm.Basic

/-!
# A moov box as a tree

The boxes of a moov box, each of which is within one other. A box may hold its parts in any order, so a tree has the
parts by their kinds, and the order in which they are written besides.
-/

namespace LiveStreaming.PeonyMediaParser
open Library ByteReader

structure Table where
  header : BoxHeader
  entries : List UInt8

structure Stbl where
  size : UInt32
  table : TableKind → Option Table
  order : List TableKind

structure Dinf where
  size : UInt32
  dref : Option DrefBox

inductive MinfPart where
  | vmhd | smhd | dinf | stbl
  deriving DecidableEq

structure Minf where
  size : UInt32
  vmhd : Option VmhdBox
  smhd : Option SmhdBox
  dinf : Option Dinf
  stbl : Option Stbl
  order : List MinfPart

inductive MdiaPart where
  | mdhd | hdlr | minf
  deriving DecidableEq

structure Mdia where
  size : UInt32
  mdhd : Option MdhdBox
  hdlr : Option HdlrBox
  minf : Option Minf
  order : List MdiaPart

inductive TrakPart where
  | tkhd | mdia
  deriving DecidableEq

structure Trak where
  size : UInt32
  tkhd : Option TkhdBox
  mdia : Option Mdia
  order : List TrakPart

/-- What is directly in a moov box. -/
inductive MoovChild where
  | mvhd (box : MvhdBox)
  | iods (box : DataBox)
  | trak (trak : Trak)
  | udta (box : DataBox)

/-! ### The boxes of a tree -/

def Stbl.box (stbl : Stbl) : StblBox where
  size := stbl.size
  type := BoxKind.stbl.type
  stsdBox := (stbl.table .stsd).map Table.header
  sttsBox := (stbl.table .stts).map Table.header
  stscBox := (stbl.table .stsc).map Table.header
  stszBox := (stbl.table .stsz).map Table.header
  stcoBox := (stbl.table .stco).map Table.header
  stssBox := (stbl.table .stss).map Table.header

def Dinf.box (dinf : Dinf) : DinfBox where
  size := dinf.size
  type := BoxKind.dinf.type
  drefBox := dinf.dref

def Minf.box (minf : Minf) : MinfBox where
  size := minf.size
  type := BoxKind.minf.type
  vmhdBox := minf.vmhd
  smhdBox := minf.smhd
  dinfBox := minf.dinf.map Dinf.box
  stblBox := minf.stbl.map Stbl.box

def Mdia.box (mdia : Mdia) : MdiaBox where
  size := mdia.size
  type := BoxKind.mdia.type
  mdhdBox := mdia.mdhd
  hdlrBox := mdia.hdlr
  minfBox := mdia.minf.map Minf.box

def Trak.box (trak : Trak) : TrakBox where
  size := trak.size
  type := BoxKind.trak.type
  tkhdBox := trak.tkhd
  mdiaBox := trak.mdia.map Mdia.box

def MoovBox.add (moovBox : MoovBox) : MoovChild → MoovBox
  | .mvhd box => { moovBox with mvhdBox := some box }
  | .iods box => { moovBox with iodsBox := some box }
  | .trak trak => { moovBox with traks := moovBox.traks ++ [trak.box] }
  | .udta box => { moovBox with udtaBox := some box }

/-! ### The items of a tree -/

def Stbl.part (stbl : Stbl) (kind : TableKind) : List Item :=
  (stbl.table kind).toList.map fun table => .table kind table.header table.entries

def Stbl.items (stbl : Stbl) : List Item := .stbl stbl.size :: stbl.order.flatMap stbl.part

def Dinf.items (dinf : Dinf) : List Item := .dinf dinf.size :: dinf.dref.toList.map .dref

def Minf.part (minf : Minf) : MinfPart → List Item
  | .vmhd => minf.vmhd.toList.map .vmhd
  | .smhd => minf.smhd.toList.map .smhd
  | .dinf => minf.dinf.elim [] Dinf.items
  | .stbl => minf.stbl.elim [] Stbl.items

def Minf.items (minf : Minf) : List Item := .minf minf.size :: minf.order.flatMap minf.part

def Mdia.part (mdia : Mdia) : MdiaPart → List Item
  | .mdhd => mdia.mdhd.toList.map .mdhd
  | .hdlr => mdia.hdlr.toList.map .hdlr
  | .minf => mdia.minf.elim [] Minf.items

def Mdia.items (mdia : Mdia) : List Item := .mdia mdia.size :: mdia.order.flatMap mdia.part

def Trak.part (trak : Trak) : TrakPart → List Item
  | .tkhd => trak.tkhd.toList.map .tkhd
  | .mdia => trak.mdia.elim [] Mdia.items

def Trak.items (trak : Trak) : List Item := .trak trak.size :: trak.order.flatMap trak.part

def MoovChild.items : MoovChild → List Item
  | .mvhd box => [.mvhd box]
  | .iods box => [.iods box]
  | .trak tree => tree.items
  | .udta box => [.udta box]

def itemsOf (children : List MoovChild) : List Item := children.flatMap MoovChild.items

/-! ### Well-formed trees -/

def MoovChild.kind : MoovChild → BoxKind
  | .mvhd _ => .mvhd
  | .iods _ => .iods
  | .trak _ => .trak
  | .udta _ => .udta

/-- Every part is written once. -/
def Stbl.Arranged (stbl : Stbl) : Prop := stbl.order.Perm [.stsd, .stts, .stsc, .stsz, .stss, .stco]
def Minf.Arranged (minf : Minf) : Prop :=
  minf.order.Perm [.vmhd, .smhd, .dinf, .stbl] ∧ ∀ stbl ∈ minf.stbl, stbl.Arranged
def Mdia.Arranged (mdia : Mdia) : Prop :=
  mdia.order.Perm [.mdhd, .hdlr, .minf] ∧ ∀ minf ∈ mdia.minf, minf.Arranged
def Trak.Arranged (trak : Trak) : Prop :=
  trak.order.Perm [.tkhd, .mdia] ∧ ∀ mdia ∈ trak.mdia, mdia.Arranged

/-- A box that holds others is as long as they are, and its header. -/
def Stbl.Sized (stbl : Stbl) : Prop := stbl.size.toNat = (bytesOf stbl.items).length
def Dinf.Sized (dinf : Dinf) : Prop := dinf.size.toNat = (bytesOf dinf.items).length
def Minf.Sized (minf : Minf) : Prop :=
  minf.size.toNat = (bytesOf minf.items).length ∧ (∀ dinf ∈ minf.dinf, dinf.Sized) ∧ ∀ stbl ∈ minf.stbl, stbl.Sized
def Mdia.Sized (mdia : Mdia) : Prop :=
  mdia.size.toNat = (bytesOf mdia.items).length ∧ ∀ minf ∈ mdia.minf, minf.Sized
def Trak.Sized (trak : Trak) : Prop :=
  trak.size.toNat = (bytesOf trak.items).length ∧ ∀ mdia ∈ trak.mdia, mdia.Sized

/-- The boxes in a moov box have their own types and sizes, and there is one of a kind, except for traks. -/
structure WellFormed (children : List MoovChild) : Prop where
  items : ∀ item ∈ itemsOf children, item.Formed
  arranged : ∀ trak, .trak trak ∈ children → trak.Arranged
  sized : ∀ trak, .trak trak ∈ children → trak.Sized
  once : children.Pairwise fun child child' => child.kind = child'.kind → child.kind = .trak

theorem formed_flatMap {κ : Type} {part : κ → List Item} {order : List κ} (formed : ∀ k ∈ order, Formed (part k)) :
    Formed (order.flatMap part) := by
  induction order with
  | nil => exact trivial
  | cons k order ih =>
    rw [List.flatMap_cons]
    exact (formed k List.mem_cons_self).append (ih fun k' within => formed k' (List.mem_cons_of_mem k within))

theorem formed_leaves {α : Type} {box : Option α} {item : α → Item} (leaf : ∀ a, ¬ (item a).Holds)
    (formed : ∀ it ∈ box.toList.map item, it.Formed) : Formed (box.toList.map item) := by
  cases box with
  | none => exact trivial
  | some a =>
    have own : (item a).Formed := formed _ List.mem_cons_self
    refine ⟨own, ?_, trivial⟩
    show (item a).size.toNat ≤ ((item a).bytes ++ bytesOf []).length
    rw [own.size (leaf a), List.length_append]
    exact Nat.le_add_right _ _

theorem formed_elim {α : Type} {tree : Option α} {items : α → List Item} (formed : ∀ a ∈ tree, Formed (items a)) :
    Formed (tree.elim [] items) := by
  cases tree with
  | none => exact trivial
  | some a => exact formed a rfl

theorem Stbl.formed {stbl : Stbl} (sized : stbl.Sized) (items : ∀ item ∈ stbl.items, item.Formed) :
    Formed stbl.items := by
  refine ⟨items _ List.mem_cons_self, sized.le, formed_flatMap fun kind within => formed_leaves (fun _ => id) ?_⟩
  exact fun item there => items item (List.mem_cons_of_mem _ (List.mem_flatMap.mpr ⟨kind, within, there⟩))

theorem Dinf.formed {dinf : Dinf} (sized : dinf.Sized) (items : ∀ item ∈ dinf.items, item.Formed) :
    Formed dinf.items :=
  ⟨items _ List.mem_cons_self, sized.le,
    formed_leaves (fun _ => id) fun item there => items item (List.mem_cons_of_mem _ there)⟩

theorem Minf.formed {minf : Minf} (sized : minf.Sized) (items : ∀ item ∈ minf.items, item.Formed) :
    Formed minf.items := by
  refine ⟨items _ List.mem_cons_self, sized.1.le, formed_flatMap fun part within => ?_⟩
  have formed (item : Item) (there : item ∈ minf.part part) : item.Formed :=
    items item (List.mem_cons_of_mem _ (List.mem_flatMap.mpr ⟨part, within, there⟩))
  cases part with
  | vmhd => exact formed_leaves (fun _ => id) formed
  | smhd => exact formed_leaves (fun _ => id) formed
  | dinf =>
    refine formed_elim fun dinf there => dinf.formed (sized.2.1 dinf there) fun item within => formed item ?_
    rw [Minf.part, there]
    exact within
  | stbl =>
    refine formed_elim fun stbl there => stbl.formed (sized.2.2 stbl there) fun item within => formed item ?_
    rw [Minf.part, there]
    exact within

theorem Mdia.formed {mdia : Mdia} (sized : mdia.Sized) (items : ∀ item ∈ mdia.items, item.Formed) :
    Formed mdia.items := by
  refine ⟨items _ List.mem_cons_self, sized.1.le, formed_flatMap fun part within => ?_⟩
  have formed (item : Item) (there : item ∈ mdia.part part) : item.Formed :=
    items item (List.mem_cons_of_mem _ (List.mem_flatMap.mpr ⟨part, within, there⟩))
  cases part with
  | mdhd => exact formed_leaves (fun _ => id) formed
  | hdlr => exact formed_leaves (fun _ => id) formed
  | minf =>
    refine formed_elim fun minf there => minf.formed (sized.2 minf there) fun item within => formed item ?_
    rw [Mdia.part, there]
    exact within

theorem Trak.formed {trak : Trak} (sized : trak.Sized) (items : ∀ item ∈ trak.items, item.Formed) :
    Formed trak.items := by
  refine ⟨items _ List.mem_cons_self, sized.1.le, formed_flatMap fun part within => ?_⟩
  have formed (item : Item) (there : item ∈ trak.part part) : item.Formed :=
    items item (List.mem_cons_of_mem _ (List.mem_flatMap.mpr ⟨part, within, there⟩))
  cases part with
  | tkhd => exact formed_leaves (fun _ => id) formed
  | mdia =>
    refine formed_elim fun mdia there => mdia.formed (sized.2 mdia there) fun item within => formed item ?_
    rw [Trak.part, there]
    exact within

/-- The items of a well-formed moov box are formed. -/
theorem WellFormed.formed {children : List MoovChild} (well : WellFormed children) : Formed (itemsOf children) := by
  refine formed_flatMap fun child within => ?_
  have formed (item : Item) (there : item ∈ child.items) : item.Formed :=
    well.items item (List.mem_flatMap.mpr ⟨child, within, there⟩)
  cases child with
  | mvhd box => exact @formed_leaves _ (some box) _ (fun _ => id) formed
  | iods box => exact @formed_leaves _ (some box) _ (fun _ => id) formed
  | trak trak => exact trak.formed (well.sized trak within) formed
  | udta box => exact @formed_leaves _ (some box) _ (fun _ => id) formed

end LiveStreaming.PeonyMediaParser
