import LiveStreaming.PeonyMediaParser.MoovLoop
import LiveStreaming.PeonyMediaParser.MoovTree

/-!
# What the package holds of a tree

The parts of a box are put in it in any order. A moov box is found again as it was written if it has no vmhd box, every
smhd box has the letters in it that its type begins with, the data of an iods box comes again behind it, and a udta box
is the last.
-/

namespace LiveStreaming.PeonyMediaParser
open Library ByteReader

/-- Reading these items leads from one package to another, whatever comes behind them. -/
def Passes (front : List Item) (package package' : Package) : Prop :=
  ∀ rest, readItems (front ++ rest) package = readItems rest package'

def Faults (front : List Item) (package : Package) : Prop := ∀ rest, readItems (front ++ rest) package = .fault

theorem Passes.nil (package : Package) : Passes [] package package := fun _ => rfl

theorem Passes.cons {item : Item} {front : List Item} {package package' package'' : Package}
    (first : ∀ after, item.read after package = .ok package') (rest : Passes front package' package'') :
    Passes (item :: front) package package'' := by
  intro behind
  rw [List.cons_append, readItems, first]
  exact rest behind

theorem Faults.cons {item : Item} {front : List Item} {package package' : Package}
    (first : ∀ after, item.read after package = .ok package') (rest : Faults front package') :
    Faults (item :: front) package := by
  intro behind
  rw [List.cons_append, readItems, first]
  exact rest behind

theorem Passes.append {front back : List Item} {package package' package'' : Package}
    (first : Passes front package package') (second : Passes back package' package'') :
    Passes (front ++ back) package package'' := by
  intro behind
  rw [List.append_assoc, first]
  exact second behind

section
variable {κ β : Type} {part : κ → List Item} {set : κ → β → β} {inside : β → Package}

/-- Parts that are each put in a box. -/
theorem passes_flatMap (put : ∀ k b, Passes (part k) (inside b) (inside (set k b))) (order : List κ) (b : β) :
    Passes (order.flatMap part) (inside b) (inside (order.foldl (fun b k => set k b) b)) := by
  induction order generalizing b with
  | nil => exact .nil _
  | cons k order ih =>
    rw [List.flatMap_cons, List.foldl_cons]
    exact (put k b).append (ih (set k b))

/-- The order of the parts does not matter. -/
theorem passes_arranged (put : ∀ k b, Passes (part k) (inside b) (inside (set k b)))
    (comm : ∀ b k k', set k' (set k b) = set k (set k' b)) {order all : List κ} (arranged : order.Perm all) (b : β) :
    Passes (order.flatMap part) (inside b) (inside (all.foldl (fun b k => set k b) b)) := by
  have passes := passes_flatMap put order b
  rwa [arranged.foldl_eq' (fun k _ k' _ b => comm b k k') b] at passes

theorem faults_flatMap {bad : κ} (put : ∀ k ≠ bad, ∀ b, Passes (part k) (inside b) (inside (set k b)))
    (faults : ∀ b, Faults (part bad) (inside b)) {order : List κ} (there : bad ∈ order) (b : β) :
    Faults (order.flatMap part) (inside b) := by
  induction order generalizing b with
  | nil => cases there
  | cons k order ih =>
    intro rest
    rw [List.flatMap_cons, List.append_assoc]
    by_cases own : k = bad
    · rw [own]
      exact faults b _
    · rw [put k own b]
      exact ih (List.mem_of_ne_of_mem (Ne.symm own) there) _ rest

end

/-! ### The boxes that hold others -/

section
variable (moovBox : MoovBox) (trakBox : TrakBox) (mdiaBox : MdiaBox) (minfBox : MinfBox)

/-- The package with a box that is being filled in. -/
def inTrak : Package := ⟨moovBox, some trakBox⟩
def inMdia : Package := inTrak moovBox { trakBox with mdiaBox := some mdiaBox }
def inMinf : Package := inMdia moovBox trakBox { mdiaBox with minfBox := some minfBox }
def inDinf (dinfBox : DinfBox) : Package :=
  inMinf moovBox trakBox mdiaBox { minfBox with dinfBox := some dinfBox }
def inStbl (stblBox : StblBox) : Package :=
  inMinf moovBox trakBox mdiaBox { minfBox with stblBox := some stblBox }

end

variable (moovBox : MoovBox) (trakBox : TrakBox) (mdiaBox : MdiaBox) (minfBox : MinfBox)

def TableKind.set (header : Option BoxHeader) (box : StblBox) : TableKind → StblBox
  | .stsd => { box with stsdBox := header.or box.stsdBox }
  | .stts => { box with sttsBox := header.or box.sttsBox }
  | .stsc => { box with stscBox := header.or box.stscBox }
  | .stsz => { box with stszBox := header.or box.stszBox }
  | .stss => { box with stssBox := header.or box.stssBox }
  | .stco => { box with stcoBox := header.or box.stcoBox }

/-- A part is put in its place if it is there. -/
def Stbl.set (stbl : Stbl) (kind : TableKind) (box : StblBox) : StblBox :=
  kind.set ((stbl.table kind).map Table.header) box

theorem Stbl.part_passes (stbl : Stbl) (kind : TableKind) (box : StblBox) :
    Passes (stbl.part kind) (inStbl moovBox trakBox mdiaBox minfBox box)
      (inStbl moovBox trakBox mdiaBox minfBox (stbl.set kind box)) := by
  rw [Stbl.part, Stbl.set]
  cases stbl.table kind with
  | none => cases kind <;> exact .nil _
  | some table => cases kind <;> exact .cons (fun _ => rfl) (.nil _)

theorem Stbl.passes {stbl : Stbl} (arranged : stbl.Arranged) :
    Passes stbl.items (inMinf moovBox trakBox mdiaBox minfBox)
      (inMinf moovBox trakBox mdiaBox { minfBox with stblBox := some stbl.box }) := by
  have comm (box : StblBox) (kind kind' : TableKind) :
      stbl.set kind' (stbl.set kind box) = stbl.set kind (stbl.set kind' box) := by
    cases kind <;> cases kind' <;> rfl
  have filled : [TableKind.stsd, .stts, .stsc, .stsz, .stss, .stco].foldl (fun box kind => stbl.set kind box)
      ⟨stbl.size, BoxKind.stbl.type, none, none, none, none, none, none⟩ = stbl.box := by
    simp [Stbl.set, TableKind.set, Stbl.box]
  rw [← filled]
  refine .cons (fun _ => rfl) ?_
  exact passes_arranged (stbl.part_passes moovBox trakBox mdiaBox minfBox) comm arranged _

theorem Dinf.passes (dinf : Dinf) :
    Passes dinf.items (inMinf moovBox trakBox mdiaBox minfBox)
      (inMinf moovBox trakBox mdiaBox { minfBox with dinfBox := some dinf.box }) := by
  obtain ⟨size, dref⟩ := dinf
  cases dref with
  | none => exact .cons (fun _ => rfl) (.nil _)
  | some dref => exact .cons (fun _ => rfl) (.cons (fun _ => rfl) (.nil _))

/-- What is kept of the parts of a minf box. -/
def Minf.set (minf : Minf) (part : MinfPart) (box : MinfBox) : MinfBox :=
  match part with
  | .vmhd => box
  | .smhd => { box with smhdBox := (minf.smhd.map SmhdBox.stored).or box.smhdBox }
  | .dinf => { box with dinfBox := (minf.dinf.map Dinf.box).or box.dinfBox }
  | .stbl => { box with stblBox := (minf.stbl.map Stbl.box).or box.stblBox }

def MinfBox.stored (box : MinfBox) : MinfBox := { box with smhdBox := box.smhdBox.map SmhdBox.stored }

theorem Minf.part_passes {minf : Minf} (arranged : minf.Arranged) (part : MinfPart) (other : part ≠ .vmhd)
    (box : MinfBox) :
    Passes (minf.part part) (inMinf moovBox trakBox mdiaBox box)
      (inMinf moovBox trakBox mdiaBox (minf.set part box)) := by
  cases part with
  | vmhd => exact absurd rfl other
  | smhd =>
    rw [Minf.part, Minf.set]
    cases minf.smhd with
    | none => exact .nil _
    | some smhd => exact .cons (fun _ => rfl) (.nil _)
  | dinf =>
    rw [Minf.part, Minf.set]
    cases minf.dinf with
    | none => exact .nil _
    | some dinf => exact dinf.passes moovBox trakBox mdiaBox box
  | stbl =>
    rw [Minf.part, Minf.set]
    cases there : minf.stbl with
    | none => exact .nil _
    | some stbl => exact stbl.passes moovBox trakBox mdiaBox box (arranged.2 stbl there)

theorem Minf.faults {minf : Minf} (arranged : minf.Arranged) {vmhd : VmhdBox} (there : minf.vmhd = some vmhd) :
    Faults minf.items (inMdia moovBox trakBox mdiaBox) := by
  have bad (box : MinfBox) : Faults (minf.part .vmhd) (inMinf moovBox trakBox mdiaBox box) := by
    rw [Minf.part, there]
    exact fun _ => rfl
  refine .cons (fun _ => rfl) ?_
  exact faults_flatMap (minf.part_passes moovBox trakBox mdiaBox arranged) bad
    (arranged.1.mem_iff.mpr List.mem_cons_self) ⟨minf.size, BoxKind.minf.type, none, none, none, none⟩

theorem Minf.passes {minf : Minf} (arranged : minf.Arranged) (none_ : minf.vmhd = none) :
    Passes minf.items (inMdia moovBox trakBox mdiaBox)
      (inMdia moovBox trakBox { mdiaBox with minfBox := some minf.box.stored }) := by
  have put (part : MinfPart) (box : MinfBox) : Passes (minf.part part) (inMinf moovBox trakBox mdiaBox box)
      (inMinf moovBox trakBox mdiaBox (minf.set part box)) := by
    by_cases other : part = .vmhd
    · rw [other, Minf.part, none_]
      exact .nil _
    · exact minf.part_passes moovBox trakBox mdiaBox arranged part other box
  have comm (box : MinfBox) (part part' : MinfPart) :
      minf.set part' (minf.set part box) = minf.set part (minf.set part' box) := by
    cases part <;> cases part' <;> rfl
  have filled : [MinfPart.vmhd, .smhd, .dinf, .stbl].foldl (fun box part => minf.set part box)
      ⟨minf.size, BoxKind.minf.type, none, none, none, none⟩ = minf.box.stored := by
    simp [Minf.set, Minf.box, MinfBox.stored, none_]
  rw [← filled]
  refine .cons (fun _ => rfl) ?_
  exact passes_arranged put comm arranged.1 _

def Mdia.set (mdia : Mdia) (part : MdiaPart) (box : MdiaBox) : MdiaBox :=
  match part with
  | .mdhd => { box with mdhdBox := mdia.mdhd.or box.mdhdBox }
  | .hdlr => { box with hdlrBox := mdia.hdlr.or box.hdlrBox }
  | .minf => { box with minfBox := (mdia.minf.map fun minf => minf.box.stored).or box.minfBox }

def MdiaBox.stored (box : MdiaBox) : MdiaBox := { box with minfBox := box.minfBox.map MinfBox.stored }

/-- No minf box has a vmhd box. -/
def Mdia.Plain (mdia : Mdia) : Prop := ∀ minf ∈ mdia.minf, minf.vmhd = none

theorem Mdia.part_passes {mdia : Mdia} (part : MdiaPart) (other : part ≠ .minf) (box : MdiaBox) :
    Passes (mdia.part part) (inMdia moovBox trakBox box) (inMdia moovBox trakBox (mdia.set part box)) := by
  cases part with
  | mdhd =>
    rw [Mdia.part, Mdia.set]
    cases mdia.mdhd with
    | none => exact .nil _
    | some mdhd => exact .cons (fun _ => rfl) (.nil _)
  | hdlr =>
    rw [Mdia.part, Mdia.set]
    cases mdia.hdlr with
    | none => exact .nil _
    | some hdlr => exact .cons (fun _ => rfl) (.nil _)
  | minf => exact absurd rfl other

theorem Mdia.faults {mdia : Mdia} (arranged : mdia.Arranged) (plain : ¬ mdia.Plain) :
    Faults mdia.items (inTrak moovBox trakBox) := by
  unfold Mdia.Plain at plain
  push Not at plain
  obtain ⟨minf, there, some_⟩ := plain
  obtain ⟨vmhd, vmhdThere⟩ := Option.ne_none_iff_exists'.mp some_
  have bad (box : MdiaBox) : Faults (mdia.part .minf) (inMdia moovBox trakBox box) := by
    rw [Mdia.part, there]
    exact minf.faults moovBox trakBox box (arranged.2 minf there) vmhdThere
  refine .cons (fun _ => rfl) ?_
  exact faults_flatMap (mdia.part_passes moovBox trakBox) bad (arranged.1.mem_iff.mpr (by decide))
    ⟨mdia.size, BoxKind.mdia.type, none, none, none⟩

theorem Mdia.passes {mdia : Mdia} (arranged : mdia.Arranged) (plain : mdia.Plain) :
    Passes mdia.items (inTrak moovBox trakBox)
      (inTrak moovBox { trakBox with mdiaBox := some mdia.box.stored }) := by
  have put (part : MdiaPart) (box : MdiaBox) :
      Passes (mdia.part part) (inMdia moovBox trakBox box) (inMdia moovBox trakBox (mdia.set part box)) := by
    by_cases own : part = .minf
    · rw [own, Mdia.part, Mdia.set]
      cases there : mdia.minf with
      | none => exact .nil _
      | some minf => exact minf.passes moovBox trakBox box (arranged.2 minf there) (plain minf there)
    · exact mdia.part_passes moovBox trakBox part own box
  have comm (box : MdiaBox) (part part' : MdiaPart) :
      mdia.set part' (mdia.set part box) = mdia.set part (mdia.set part' box) := by
    cases part <;> cases part' <;> rfl
  have filled : [MdiaPart.mdhd, .hdlr, .minf].foldl (fun box part => mdia.set part box)
      ⟨mdia.size, BoxKind.mdia.type, none, none, none⟩ = mdia.box.stored := by
    simp [Mdia.set, Mdia.box, MdiaBox.stored, Function.comp_def]
  rw [← filled]
  refine .cons (fun _ => rfl) ?_
  exact passes_arranged put comm arranged.1 _

def Trak.set (trak : Trak) (part : TrakPart) (box : TrakBox) : TrakBox :=
  match part with
  | .tkhd => { box with tkhdBox := trak.tkhd.or box.tkhdBox }
  | .mdia => { box with mdiaBox := (trak.mdia.map fun mdia => mdia.box.stored).or box.mdiaBox }

def TrakBox.stored (box : TrakBox) : TrakBox := { box with mdiaBox := box.mdiaBox.map MdiaBox.stored }

def Trak.Plain (trak : Trak) : Prop := ∀ mdia ∈ trak.mdia, mdia.Plain

theorem Trak.tkhd_passes (trak : Trak) (box : TrakBox) :
    Passes (trak.part .tkhd) (inTrak moovBox box) (inTrak moovBox (trak.set .tkhd box)) := by
  rw [Trak.part, Trak.set]
  cases trak.tkhd with
  | none => exact .nil _
  | some tkhd => exact .cons (fun _ => rfl) (.nil _)

theorem Trak.faults {trak : Trak} (arranged : trak.Arranged) (plain : ¬ trak.Plain) (package : Package) :
    Faults trak.items package := by
  unfold Trak.Plain at plain
  push Not at plain
  obtain ⟨mdia, there, bad⟩ := plain
  have put (part : TrakPart) (other : part ≠ .mdia) (box : TrakBox) :
      Passes (trak.part part) (inTrak package.moov box) (inTrak package.moov (trak.set part box)) := by
    cases part with
    | tkhd => exact trak.tkhd_passes package.moov box
    | mdia => exact absurd rfl other
  have faults (box : TrakBox) : Faults (trak.part .mdia) (inTrak package.moov box) := by
    rw [Trak.part, there]
    exact mdia.faults package.moov box (arranged.2 mdia there) bad
  refine .cons (fun _ => rfl) ?_
  exact faults_flatMap put faults (arranged.1.mem_iff.mpr (by decide)) ⟨trak.size, BoxKind.trak.type, none, none⟩

/-- A trak takes the place of the one before it. -/
theorem Trak.passes {trak : Trak} (arranged : trak.Arranged) (plain : trak.Plain) (package : Package) :
    Passes trak.items package (inTrak package.moov trak.box.stored) := by
  have put (part : TrakPart) (box : TrakBox) :
      Passes (trak.part part) (inTrak package.moov box) (inTrak package.moov (trak.set part box)) := by
    cases part with
    | tkhd => exact trak.tkhd_passes package.moov box
    | mdia =>
      rw [Trak.part, Trak.set]
      cases there : trak.mdia with
      | none => exact .nil _
      | some mdia => exact mdia.passes package.moov box (arranged.2 mdia there) (plain mdia there)
  have comm (box : TrakBox) (part part' : TrakPart) :
      trak.set part' (trak.set part box) = trak.set part (trak.set part' box) := by
    cases part <;> cases part' <;> rfl
  have filled : [TrakPart.tkhd, .mdia].foldl (fun box part => trak.set part box)
      ⟨trak.size, BoxKind.trak.type, none, none⟩ = trak.box.stored := by
    simp [Trak.set, Trak.box, TrakBox.stored, Function.comp_def]
  rw [← filled]
  refine .cons (fun _ => rfl) ?_
  exact passes_arranged put comm arranged.1 _

/-! ### The moov box -/

instance decidablePlain (trak : Trak) : Decidable trak.Plain :=
  inferInstanceAs (Decidable (∀ mdia ∈ trak.mdia, ∀ minf ∈ mdia.minf, minf.vmhd = none))

/-- What is read of the boxes in a moov box, and which of them are left. -/
def readChildren : List MoovChild → MoovBox → Option (List MoovChild × MoovBox)
  | [], moovBox => some ([], moovBox)
  | .mvhd box :: rest, moovBox => readChildren rest (moovBox.add (.mvhd box))
  | .iods box :: rest, moovBox =>
    let after := bytesOf (itemsOf rest)
    if box.data = [] ∨ after.length < box.data.length then none
    else readChildren rest (moovBox.add (.iods { box with data := after.take box.data.length }))
  | .trak trak :: rest, moovBox =>
    if trak.Plain then readChildren rest { moovBox with traks := moovBox.traks ++ [trak.box.stored] } else none
  | .udta box :: rest, moovBox => some (rest, moovBox.add (.udta box))

theorem itemsOf_cons (child : MoovChild) (rest : List MoovChild) :
    itemsOf (child :: rest) = child.items ++ itemsOf rest := rfl

theorem readItems_itemsOf {children : List MoovChild}
    (arranged : ∀ trak, .trak trak ∈ children → trak.Arranged) (package : Package) :
    (∀ left moov, readChildren children package.moov = some (left, moov) →
      ∃ package', readItems (itemsOf children) package = .ended (itemsOf left) package' ∧ package'.moov = moov) ∧
    (readChildren children package.moov = none →
      ∀ left package', readItems (itemsOf children) package ≠ .ended left package') := by
  induction children generalizing package with
  | nil =>
    constructor
    · intro left moov read
      obtain ⟨rfl, rfl⟩ := Prod.mk.inj (Option.some.inj read)
      exact ⟨package, rfl, rfl⟩
    · intro none_
      cases none_
  | cons child rest ih =>
    have behind := ih fun trak within => arranged trak (List.mem_cons_of_mem _ within)
    rw [itemsOf_cons]
    cases child with
    | mvhd box =>
      have passes : Passes [.mvhd box] package ⟨package.moovBox.add (.mvhd box), package.prevTrakBox⟩ :=
        .cons (fun _ => rfl) (.nil _)
      rw [MoovChild.items, passes]
      exact behind ⟨package.moovBox.add (.mvhd box), package.prevTrakBox⟩
    | iods box =>
      rw [MoovChild.items, List.singleton_append, readItems, readChildren, Item.read]
      by_cases stuck : box.data = []
      · rw [if_pos stuck, if_pos (.inl stuck)]
        constructor
        · intro left moov read
          cases read
        · intro _ left package' ended
          cases ended
      · by_cases short : (bytesOf (itemsOf rest)).length < box.data.length
        · rw [if_neg stuck, if_pos short, if_pos (.inr short)]
          constructor
          · intro left moov read
            cases read
          · intro _ left package' ended
            cases ended
        · rw [if_neg stuck, if_neg short, if_neg (not_or.mpr ⟨stuck, short⟩)]
          exact behind ⟨package.moovBox.add (.iods { box with data := _ }), package.prevTrakBox⟩
    | trak trak =>
      by_cases plain : trak.Plain
      · rw [MoovChild.items, trak.passes (arranged trak List.mem_cons_self) plain package, readChildren, if_pos plain]
        exact behind (inTrak package.moov trak.box.stored)
      · rw [MoovChild.items, trak.faults (arranged trak List.mem_cons_self) plain package, readChildren, if_neg plain]
        constructor
        · intro left moov read
          cases read
        · intro _ left package' ended
          cases ended
    | udta box =>
      constructor
      · intro left moov read
        obtain ⟨rfl, rfl⟩ := Prod.mk.inj (Option.some.inj read)
        exact ⟨⟨package.moovBox.add (.udta box), package.prevTrakBox⟩, rfl, rfl⟩
      · intro none_
        cases none_

/-! ### What is found again -/

/-- The box has the letters in it that an smhd box is read with. -/
def SmhdBox.Lettered (box : SmhdBox) : Prop := box.balance = smhdLetters ∧ box.reserved = smhdLetters

def Trak.Lettered (trak : Trak) : Prop :=
  ∀ mdia ∈ trak.mdia, ∀ minf ∈ mdia.minf, ∀ smhd ∈ minf.smhd, smhd.Lettered

/-- A moov box whose package is what was written. -/
def Kept : List MoovChild → Prop
  | [] => True
  | .mvhd _ :: rest => Kept rest
  | .iods box :: rest => (box.data ≠ [] ∧ box.data <+: bytesOf (itemsOf rest)) ∧ Kept rest
  | .trak trak :: rest => (trak.Plain ∧ trak.Lettered) ∧ Kept rest
  | .udta _ :: rest => rest = []

theorem map_eq_self_iff {α : Type} {f : α → α} {a : Option α} : a.map f = a ↔ ∀ x ∈ a, f x = x := by
  cases a with
  | none => simp
  | some x => simp

theorem SmhdBox.stored_eq_iff (box : SmhdBox) : box.stored = box ↔ box.Lettered := by
  obtain ⟨header, balance, reserved⟩ := box
  simp only [SmhdBox.stored, SmhdBox.Lettered, SmhdBox.mk.injEq, true_and, eq_comm]

theorem Trak.stored_eq_iff (trak : Trak) : trak.box.stored = trak.box ↔ trak.Lettered := by
  have minfs (minf : Minf) : minf.box.stored = minf.box ↔ ∀ smhd ∈ minf.smhd, smhd.Lettered := by
    simp only [MinfBox.stored, Minf.box, MinfBox.mk.injEq, true_and, and_true, map_eq_self_iff, SmhdBox.stored_eq_iff]
  have mdias (mdia : Mdia) :
      mdia.box.stored = mdia.box ↔ ∀ minf ∈ mdia.minf, ∀ smhd ∈ minf.smhd, smhd.Lettered := by
    simp only [MdiaBox.stored, Mdia.box, MdiaBox.mk.injEq, true_and, map_eq_self_iff, Option.mem_map,
      forall_exists_index, and_imp, forall_apply_eq_imp_iff₂, minfs]
  simp only [TrakBox.stored, Trak.box, TrakBox.mk.injEq, true_and, map_eq_self_iff, Option.mem_map,
    forall_exists_index, and_imp, forall_apply_eq_imp_iff₂, mdias, Trak.Lettered]

/-- A place in the package that a box of this kind has been put in. -/
def MoovBox.has (moovBox : MoovBox) : MoovChild → Bool
  | .mvhd _ => moovBox.mvhdBox.isSome
  | .iods _ => moovBox.iodsBox.isSome
  | .trak _ => false
  | .udta _ => moovBox.udtaBox.isSome

def MoovBox.count (moovBox : MoovBox) : Nat :=
  moovBox.mvhdBox.isSome.toNat + moovBox.iodsBox.isSome.toNat + moovBox.traks.length + moovBox.udtaBox.isSome.toNat

/-- The children that are left have places of their own. -/
def Free (children : List MoovChild) (moovBox : MoovBox) : Prop := ∀ child ∈ children, moovBox.has child = false

abbrev Once (children : List MoovChild) : Prop :=
  children.Pairwise fun child child' => child.kind = child'.kind → child.kind = .trak

theorem count_add {moovBox : MoovBox} {child : MoovChild} (free : moovBox.has child = false) :
    (moovBox.add child).count = moovBox.count + 1 := by
  cases child with
  | mvhd box =>
    have none_ : moovBox.mvhdBox.isSome = false := free
    simp only [MoovBox.count, MoovBox.add, none_, Option.isSome_some, Bool.toNat_false, Bool.toNat_true]
    omega
  | iods box =>
    have none_ : moovBox.iodsBox.isSome = false := free
    simp only [MoovBox.count, MoovBox.add, none_, Option.isSome_some, Bool.toNat_false, Bool.toNat_true]
    omega
  | trak trak =>
    simp only [MoovBox.count, MoovBox.add, List.length_append, List.length_singleton]
    omega
  | udta box =>
    have none_ : moovBox.udtaBox.isSome = false := free
    simp only [MoovBox.count, MoovBox.add, none_, Option.isSome_some, Bool.toNat_false, Bool.toNat_true]

theorem Free.add {child : MoovChild} {rest : List MoovChild} {moovBox : MoovBox} (once : Once (child :: rest))
    (free : Free (child :: rest) moovBox) : Free rest (moovBox.add child) := by
  intro child' within
  have before := free child' (List.mem_cons_of_mem _ within)
  have other := (List.pairwise_cons.mp once).1 child' within
  cases child <;> cases child' <;>
    first | exact before | cases other rfl

theorem count_foldl {children : List MoovChild} {moovBox : MoovBox} (once : Once children)
    (free : Free children moovBox) : (children.foldl MoovBox.add moovBox).count = moovBox.count + children.length := by
  induction children generalizing moovBox with
  | nil => rfl
  | cons child rest ih =>
    rw [List.foldl_cons, ih (List.pairwise_cons.mp once).2 (free.add once),
      count_add (free child List.mem_cons_self), List.length_cons]
    omega

/-- A place is not filled again once its box has been read. -/
theorem readChildren_frame {children left : List MoovChild} {moovBox moov : MoovBox}
    (read : readChildren children moovBox = some (left, moov)) :
    ((∀ child ∈ children, child.kind ≠ .iods) → moov.iodsBox = moovBox.iodsBox) ∧
      ∃ traks, moov.traks = moovBox.traks ++ traks := by
  induction children generalizing moovBox with
  | nil =>
    obtain ⟨rfl, rfl⟩ := Prod.mk.inj (Option.some.inj read)
    exact ⟨fun _ => rfl, [], (List.append_nil _).symm⟩
  | cons child rest ih =>
    have tail (none_ : ∀ child' ∈ child :: rest, child'.kind ≠ .iods) : ∀ child' ∈ rest, child'.kind ≠ .iods :=
      fun child' within => none_ child' (List.mem_cons_of_mem _ within)
    cases child with
    | mvhd box =>
      obtain ⟨iods, traks⟩ := ih read
      exact ⟨fun none_ => iods (tail none_), traks⟩
    | iods box =>
      rw [readChildren] at read
      split at read
      · cases read
      · exact ⟨fun none_ => absurd rfl (none_ _ List.mem_cons_self), (ih read).2⟩
    | trak trak =>
      rw [readChildren] at read
      split at read
      · obtain ⟨iods, traks, behind⟩ := ih read
        exact ⟨fun none_ => iods (tail none_), trak.box.stored :: traks, by rw [behind, List.append_assoc]; rfl⟩
      · cases read
    | udta box =>
      obtain ⟨rfl, rfl⟩ := Prod.mk.inj (Option.some.inj read)
      exact ⟨fun _ => rfl, [], (List.append_nil _).symm⟩

theorem foldl_add_frame (children : List MoovChild) (moovBox : MoovBox) :
    ((∀ child ∈ children, child.kind ≠ .iods) → (children.foldl MoovBox.add moovBox).iodsBox = moovBox.iodsBox) ∧
      ∃ traks, (children.foldl MoovBox.add moovBox).traks = moovBox.traks ++ traks := by
  induction children generalizing moovBox with
  | nil => exact ⟨fun _ => rfl, [], (List.append_nil _).symm⟩
  | cons child rest ih =>
    obtain ⟨iods, traks, behind⟩ := ih (moovBox.add child)
    rw [List.foldl_cons]
    constructor
    · intro none_
      rw [iods fun child' within => none_ child' (List.mem_cons_of_mem _ within)]
      cases child with
      | iods box => exact absurd rfl (none_ _ List.mem_cons_self)
      | mvhd box => rfl
      | trak trak => rfl
      | udta box => rfl
    · cases child with
      | trak trak => exact ⟨trak.box :: traks, by rw [behind]; exact List.append_assoc _ _ _⟩
      | iods box => exact ⟨traks, behind⟩
      | mvhd box => exact ⟨traks, behind⟩
      | udta box => exact ⟨traks, behind⟩

theorem readChildren_kept {children : List MoovChild} (kept : Kept children) (moovBox : MoovBox) :
    readChildren children moovBox = some ([], children.foldl MoovBox.add moovBox) := by
  induction children generalizing moovBox with
  | nil => rfl
  | cons child rest ih =>
    cases child with
    | mvhd box => exact ih kept _
    | iods box =>
      obtain ⟨⟨some_, front⟩, kept⟩ := kept
      have enough : ¬ (bytesOf (itemsOf rest)).length < box.data.length := Nat.not_lt.mpr front.length_le
      rw [readChildren, if_neg (not_or.mpr ⟨some_, enough⟩), ← List.prefix_iff_eq_take.mp front]
      exact ih kept _
    | trak trak =>
      obtain ⟨⟨plain, lettered⟩, kept⟩ := kept
      rw [readChildren, if_pos plain, trak.stored_eq_iff.mpr lettered]
      exact ih kept _
    | udta box =>
      obtain rfl : rest = [] := kept
      rfl

theorem kept_of_read {children left : List MoovChild} {moovBox : MoovBox} (once : Once children)
    (free : Free children moovBox)
    (read : readChildren children moovBox = some (left, children.foldl MoovBox.add moovBox)) : Kept children := by
  induction children generalizing moovBox with
  | nil => exact trivial
  | cons child rest ih =>
    have others := (List.pairwise_cons.mp once).1
    have behind := @ih (moovBox.add child) (List.pairwise_cons.mp once).2 (free.add once)
    rw [List.foldl_cons] at read
    cases child with
    | mvhd box => exact behind read
    | iods box =>
      have none_ (child : MoovChild) (within : child ∈ rest) : child.kind ≠ .iods := by
        intro own
        cases others child within own.symm
      rw [readChildren] at read
      split at read
      · cases read
      · rename_i go
        have stored := ((readChildren_frame read).1 none_).symm.trans ((foldl_add_frame rest _).1 none_)
        obtain ⟨some_, enough⟩ := not_or.mp go
        have data : (bytesOf (itemsOf rest)).take box.data.length = box.data :=
          congrArg DataBox.data (Option.some.inj stored)
        rw [data] at read
        exact ⟨⟨some_, List.prefix_iff_eq_take.mpr data.symm⟩, behind read⟩
    | trak trak =>
      rw [readChildren] at read
      split at read
      · rename_i plain
        obtain ⟨traks, first⟩ := (readChildren_frame read).2
        obtain ⟨traks', second⟩ := (foldl_add_frame rest (moovBox.add (.trak trak))).2
        have same : trak.box.stored = trak.box := by
          rw [second, MoovBox.add, List.append_assoc, List.append_assoc] at first
          exact ((List.cons.inj (List.append_cancel_left first)).1).symm
        rw [same] at read
        exact ⟨⟨plain, trak.stored_eq_iff.mp same⟩, behind read⟩
      · cases read
    | udta box =>
      obtain ⟨-, same⟩ := Prod.mk.inj (Option.some.inj read)
      have count := count_foldl (List.pairwise_cons.mp once).2 (free.add once)
      rw [← same] at count
      exact List.length_eq_zero_iff.mp (by omega)

/-! ### The whole run -/

theorem moovLoop_later {buffer : List UInt8} {s : Parser} {fuel : Nat} {leave : Leave}
    (ran : moovLoop buffer fuel s = some leave) (more : Nat) : moovLoop buffer (fuel + more) s = some leave := by
  induction fuel generalizing s with
  | zero => cases ran
  | succ fuel ih =>
    rw [Nat.add_right_comm, moovLoop]
    rw [moovLoop] at ran
    split at ran
    · rename_i fits
      rw [if_pos fits]
      cases turn : moovTurn buffer s with
      | ok s' =>
        rw [turn] at ran
        exact ih ran
      | error leave' =>
        rw [turn] at ran
        exact ran
    · rename_i past
      rw [if_neg past]
      exact ran

/-- Two runs that come to an end leave the loop in one way. -/
theorem moovRun_agree {buffer : List UInt8} {moovBox : MoovBox} {fuel fuel' : Nat} {leave leave' : Leave}
    (ran : moovRun buffer fuel moovBox = some leave) (ran' : moovRun buffer fuel' moovBox = some leave') :
    leave = leave' := by
  unfold moovRun at ran ran'
  cases start : readAt buffer readMoovStart 4 with
  | error fault =>
    rw [start] at ran ran'
    exact Option.some.inj (ran.symm.trans ran')
  | ok first =>
    rw [start] at ran ran'
    have one := moovLoop_later ran fuel'
    rw [Nat.add_comm] at one
    exact Option.some.inj (one.symm.trans (moovLoop_later ran' fuel))

/-- The parser comes to the end of the box, and the package is what the boxes hold. -/
def Recovered (children : List MoovChild) (moovBox : MoovBox) : Prop :=
  let buffer := moovBytes (itemsOf children)
  ∃ fuel s, moovRun buffer fuel moovBox = some (.ended s) ∧ s.pos.toNat = buffer.length ∧
    onMoovBoxParse buffer fuel moovBox =
      some (.ok (true, children.foldl MoovBox.add { moovBox with size := bufferSize buffer, type := moovType }))

theorem itemsOf_ne_nil (child : MoovChild) (rest : List MoovChild) :
    ∃ item items, itemsOf (child :: rest) = item :: items := by
  cases child with
  | mvhd box => exact ⟨_, _, rfl⟩
  | iods box => exact ⟨_, _, rfl⟩
  | trak trak => exact ⟨_, _, rfl⟩
  | udta box => exact ⟨_, _, rfl⟩

/-- A moov box is found again if it is not empty, four more than its length is still a number, and it is kept. -/
theorem moov_recovered_iff {children : List MoovChild} (well : WellFormed children)
    (small : (moovBytes (itemsOf children)).length < 2 ^ 32) (size : UInt32) (type : BoxType) :
    Recovered children (allocateMoovBox size type) ↔
      children ≠ [] ∧ (moovBytes (itemsOf children)).length + 4 < 2 ^ 32 ∧ Kept children := by
  unfold Recovered
  dsimp only
  cases children with
  | nil =>
    constructor
    · rintro ⟨fuel, s, -, -, parsed⟩
      rw [onMoovBoxParse, if_pos (by decide)] at parsed
      cases parsed
    · exact fun kept => absurd rfl kept.1
  | cons child rest =>
    obtain ⟨item, items, there⟩ := itemsOf_ne_nil child rest
    have formed := well.formed
    have free : Free (child :: rest) (startPackage (itemsOf (child :: rest)) (allocateMoovBox size type)).moov := by
      intro child' _
      cases child' <;> rfl
    have reading := readItems_itemsOf well.arranged (startPackage (itemsOf (child :: rest)) (allocateMoovBox size type))
    have enough : 16 ≤ (moovBytes (itemsOf (child :: rest))).length := by
      rw [length_moovBytes, there, bytesOf_cons, List.length_append, length_bytes]
      omega
    have becomes : Becomes (moovBytes (itemsOf (child :: rest)))
        (fun fuel => moovRun (moovBytes (itemsOf (child :: rest))) fuel (allocateMoovBox size type))
        (readItems (itemsOf (child :: rest)) (startPackage (itemsOf (child :: rest)) (allocateMoovBox size type))) := by
      rw [there] at small formed ⊢
      exact moovRun_becomes _ small formed
    constructor
    · rintro ⟨fuel, s, ran, -, parsed⟩
      rw [onMoovBoxParse_run small enough, ran] at parsed
      have put : s.package.moov = _ := congrArg Prod.snd (Except.ok.inj (Option.some.inj parsed))
      rcases becomes with ⟨-, without⟩ | ⟨fuel', leave, ran', shows_⟩
      · rw [show moovRun _ fuel _ = none from without fuel] at ran
        cases ran
      · obtain rfl := moovRun_agree ran ran'
        cases read : readItems (itemsOf (child :: rest))
          (startPackage (itemsOf (child :: rest)) (allocateMoovBox size type)) with
        | never =>
          rw [read] at shows_
          exact shows_.elim
        | fault =>
          rw [read] at shows_
          obtain ⟨fault, left⟩ := shows_
          cases left
        | ended left package =>
          rw [read, Reading.Shows] at shows_
          split at shows_
          · obtain ⟨fault, left⟩ := shows_
            cases left
          · rename_i room
            obtain ⟨s', same, rfl, -⟩ := shows_
            obtain rfl := Leave.ended.inj same
            cases children : readChildren (child :: rest)
              (startPackage (itemsOf (child :: rest)) (allocateMoovBox size type)).moov with
            | none => exact absurd read (reading.2 children _ _)
            | some result =>
              obtain ⟨left', moov⟩ := result
              obtain ⟨package, ended, rfl⟩ := reading.1 _ _ children
              obtain ⟨rfl, rfl⟩ := Reading.ended.inj (read.symm.trans ended)
              rw [put] at children
              have kept := kept_of_read well.once free children
              rw [readChildren_kept kept] at children
              obtain ⟨rfl, -⟩ := Prod.mk.inj (Option.some.inj children)
              exact ⟨List.cons_ne_nil _ _, Nat.lt_of_not_le fun past => room ⟨rfl, past⟩, kept⟩
    · rintro ⟨-, room, kept⟩
      obtain ⟨package, read, put⟩ := reading.1 _ _ (readChildren_kept kept _)
      rcases becomes with ⟨never, -⟩ | ⟨fuel, leave, ran, shows_⟩
      · rw [read] at never
        cases never
      · rw [read, Reading.Shows, if_neg fun both => absurd both.2 (by omega)] at shows_
        obtain ⟨s, rfl, rfl, stop⟩ := shows_
        have whole : moovRun (moovBytes (itemsOf (child :: rest))) fuel (allocateMoovBox size type) =
            some (.ended s) := ran
        refine ⟨fuel, s, whole, stop rfl, ?_⟩
        rw [onMoovBoxParse_run small enough, whole]
        show some (Except.ok (true, s.package.moov)) = _
        rw [put]
        rfl

/-- A trak without parts. -/
def bareTrak : Trak := ⟨8, none, none, [.tkhd, .mdia]⟩

theorem bareTrak_wellFormed : WellFormed [.trak bareTrak] where
  items item there := by
    rw [List.mem_singleton.mp (there : item ∈ [Item.trak 8])]
    exact ⟨rfl, fun leaf => absurd trivial leaf⟩
  arranged trak there := by
    cases List.mem_singleton.mp there
    exact ⟨.refl _, fun mdia there => by cases there⟩
  sized trak there := by
    cases List.mem_singleton.mp there
    exact ⟨by decide, fun mdia there => by cases there⟩
  once := List.pairwise_singleton _ _

theorem moov_recovered_sample : Recovered [.trak bareTrak] (allocateMoovBox 0 moovType) ↔
    [MoovChild.trak bareTrak] ≠ [] ∧ (moovBytes (itemsOf [.trak bareTrak])).length + 4 < 2 ^ 32 ∧
      Kept [.trak bareTrak] :=
  moov_recovered_iff bareTrak_wellFormed (by decide) 0 moovType

/-- A moov box with nothing but an iods box of one byte. -/
def lastIods : List MoovChild := [.iods ⟨9, BoxKind.iods.type, [0x10]⟩]

theorem lastIods_wellFormed : WellFormed lastIods where
  items item there := by
    rw [List.mem_singleton.mp (there : item ∈ [Item.iods ⟨9, BoxKind.iods.type, [0x10]⟩])]
    exact ⟨rfl, fun _ => rfl⟩
  arranged trak there := by cases List.mem_singleton.mp there
  sized trak there := by cases List.mem_singleton.mp there
  once := List.pairwise_singleton _ _

theorem recovered_refuted : ¬ ∀ children, WellFormed children → (moovBytes (itemsOf children)).length < 2 ^ 32 →
    Recovered children (allocateMoovBox 0 moovType) := by
  intro recovered
  obtain ⟨fuel, s, -, -, parsed⟩ := recovered lastIods lastIods_wellFormed (by decide)
  cases fuel with
  | zero => cases parsed
  | succ fuel =>
    have outside : onMoovBoxParse (moovBytes (itemsOf lastIods)) (fuel + 1) (allocateMoovBox 0 moovType) =
        some (.error .outside) := rfl
    rw [outside] at parsed
    cases parsed

end LiveStreaming.PeonyMediaParser
