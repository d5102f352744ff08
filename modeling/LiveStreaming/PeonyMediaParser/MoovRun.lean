import LiveStreaming.PeonyMediaParser.BoxItems

/-!
# What is read of the items

Every item is found by the one comparison that knows its type, in this turn of the loop or in the next. What the run
makes of the items is what reading one after the other makes of them.
-/

namespace LiveStreaming.PeonyMediaParser
open Library ByteReader

/-- Why there is no reading on: the loop stays where it is, stops at a fault, or is left. -/
inductive Halt where
  | never
  | fault
  | last (package : Package)

def place {α : Type} (put : Option (α → Package)) (box : α) : Except Halt Package :=
  match put with
  | some put => .ok (put box)
  | none => .error .fault

/-- What is kept of an item, where `after` is written behind it. -/
def Item.read (after : List UInt8) (package : Package) : Item → Except Halt Package
  | .mvhd box => place package.putMvhd box
  | .iods box =>
    if box.data = [] then .error .never
    else if after.length < box.data.length then .error .fault
    else place package.putIods { box with data := after.take box.data.length }
  | .trak size => place package.putTrak { size, type := BoxKind.trak.type, tkhdBox := none, mdiaBox := none }
  | .tkhd box => place package.putTkhd box
  | .mdia size =>
    place package.putMdia { size, type := BoxKind.mdia.type, mdhdBox := none, hdlrBox := none, minfBox := none }
  | .mdhd box => place package.putMdhd box
  | .hdlr box => place package.putHdlr box
  | .minf size =>
    place package.putMinf
      { size, type := BoxKind.minf.type, vmhdBox := none, smhdBox := none, dinfBox := none, stblBox := none }
  | .smhd box => place package.putSmhd box.stored
  | .vmhd _ => .error .fault
  | .dinf size => place package.putDinf { size, type := BoxKind.dinf.type, drefBox := none }
  | .dref box => place package.putDref box
  | .stbl size =>
    place package.putStbl
      { size, type := BoxKind.stbl.type, stsdBox := none, sttsBox := none, stscBox := none, stszBox := none,
        stcoBox := none, stssBox := none }
  | .table kind box _ => place (kind.put package) box
  | .udta box => (place package.putUdta box).bind fun package => .error (.last package)

/-- What becomes of a list of items: what is left of it and what has been put in the package. -/
inductive Reading where
  | never
  | fault
  | ended (left : List Item) (package : Package)

def readItems : List Item → Package → Reading
  | [], package => .ended [] package
  | item :: rest, package =>
    match item.read (bytesOf rest) package with
    | .ok package => readItems rest package
    | .error .never => .never
    | .error .fault => .fault
    | .error (.last package) => .ended rest package

variable {buffer : List UInt8} {item : Item} {rest : List Item} {s : Parser}

/-- The cursor is behind the header of an item. -/
structure At (buffer : List UInt8) (item : Item) (rest : List Item) (s : Parser) : Prop where
  size : s.size = item.size
  type : s.type = item.kind.type
  header : 8 ≤ s.pos.toNat
  inside : s.pos.toNat ≤ buffer.length
  here : buffer.drop s.pos.toNat = item.body ++ bytesOf rest

/-- The cursor has come to the next item, or to the end, where four more must not be too many for a number. -/
def Behind (buffer : List UInt8) (rest : List Item) (package : Package) (result : Except Leave Parser) : Prop :=
  match rest with
  | [] =>
    if buffer.length + 4 < 2 ^ 32 then
      ∃ s', result = .error (.ended s') ∧ s'.package = package ∧ s'.pos.toNat = buffer.length
    else ∃ fault, result = .error (.fault fault)
  | next :: rest => ∃ s', result = .ok s' ∧ s'.package = package ∧ At buffer next rest s'

theorem four_more (small : buffer.length < 2 ^ 32) (inside : s.pos.toNat ≤ buffer.length) :
    s.pos + 4 < bufferSize buffer ↔
      s.pos.toNat + 4 < buffer.length ∨ 2 ^ 32 ≤ s.pos.toNat + 4 ∧ 4 ≤ buffer.length := by
  rw [UInt32.lt_iff_toNat_lt, bufferSize_toNat small, UInt32.toNat_add, show (4 : UInt32).toNat = 4 from rfl]
  omega

theorem Item.bytes_eq (item : Item) :
    item.bytes = [(numberBytes item.size).toList, item.kind.type.toList].flatten ++ item.body := by
  simp only [Item.bytes, List.flatten_cons, List.flatten_nil, List.append_nil, List.append_assoc]

theorem length_header (item : Item) : [(numberBytes item.size).toList, item.kind.type.toList].flatten.length = 8 := by
  simp only [List.flatten_cons, List.flatten_nil, List.length_append, Vector.length_toList, List.length_nil]

theorem readSizeType_header (size : UInt32) (type : BoxType) :
    Reads readSizeType [(numberBytes size).toList, type.toList].flatten (size, type) :=
  (reads_uint32 size).bind ((reads_field type).bind (.pure _))

theorem readAt_reads {α : Type} {r : ByteReader α} {front after : List UInt8} {a : α} {pos : UInt32}
    (reads : Reads r front a) (here : buffer.drop pos.toNat = front ++ after) :
    readAt buffer r pos = .ok (a, pos + UInt32.ofNat front.length) := by
  rw [readAt, here, reads]
  dsimp only
  rw [List.length_append, Nat.add_sub_cancel]

theorem length_inside {front after : List UInt8} {pos : Nat} (inside : pos ≤ buffer.length)
    (here : buffer.drop pos = front ++ after) :
    pos + front.length + after.length = buffer.length ∧ buffer.drop (pos + front.length) = after := by
  have left := congrArg List.length here
  rw [List.length_drop, List.length_append] at left
  refine ⟨by omega, ?_⟩
  rw [← List.drop_drop, here, List.drop_left]

theorem getSizeType_behind (small : buffer.length < 2 ^ 32) (inside : s.pos.toNat ≤ buffer.length)
    (here : buffer.drop s.pos.toNat = bytesOf rest) : Behind buffer rest s.package (getSizeType buffer s) := by
  have left := congrArg List.length here
  rw [List.length_drop] at left
  unfold getSizeType
  cases rest with
  | nil =>
    have stop : s.pos.toNat = buffer.length := by
      rw [bytesOf, List.flatMap_nil, List.length_nil] at left
      omega
    have more := four_more small inside
    rw [stop] at more
    by_cases room : buffer.length + 4 < 2 ^ 32
    · rw [Behind, if_pos room, if_neg (mt more.mp (by omega))]
      exact ⟨s, rfl, rfl, stop⟩
    · rw [Behind, if_neg room, if_pos (more.mpr (by omega)),
        readAt_short wide_readSizeType (.inl (by decide)) (by omega)]
      exact ⟨.outside, rfl⟩
  | cons next rest =>
    have header := readSizeType_header next.size next.kind.type
    rw [bytesOf_cons, next.bytes_eq, List.append_assoc] at here
    obtain ⟨whole, body⟩ := length_inside inside here
    have eight := length_header next
    have behind : (s.pos + 8).toNat = s.pos.toNat + 8 := add_toNat (n := 8) small (by omega)
    rw [if_pos ((four_more small inside).mpr (by omega)), readAt_reads header here, eight]
    refine ⟨_, rfl, rfl, rfl, rfl, ?_, ?_, ?_⟩
    · show 8 ≤ (s.pos + 8).toNat
      omega
    · show (s.pos + 8).toNat ≤ buffer.length
      omega
    · show buffer.drop (s.pos + 8).toNat = next.body ++ bytesOf rest
      rw [behind, ← eight]
      exact body

/-! ### One item -/

/-- What a comparison leaves behind that knows the type, as reading the item tells. -/
def Follow (buffer : List UInt8) (rest : List Item) (s : Parser) :
    Except Halt Package → Except Leave Parser → Prop
  | .ok package, result => Behind buffer rest package result
  | .error .never, result => ∃ package, result = .ok { s with package }
  | .error .fault, result => ∃ fault, result = .error (.fault fault)
  | .error (.last package), result =>
    if rest = [] then Behind buffer rest package result else ∃ s', result = .error (.ended s') ∧ s'.package = package

theorem parseBox_follow {α : Type} (put : Package → Option (α → Package)) {r : ByteReader α} {front back : List UInt8}
    {a : α} {skip : UInt32} (small : buffer.length < 2 ^ 32) (at_ : At buffer item rest s)
    (body : item.body = front ++ back) (skipped : skip = UInt32.ofNat back.length) (reads : Reads r front a) :
    Follow buffer rest s (place (put s.package) a) (parseBox buffer put r skip s) := by
  have here := at_.here
  rw [body, List.append_assoc] at here
  obtain ⟨inside, behind⟩ := length_inside at_.inside here
  obtain ⟨whole, after⟩ := length_inside (by omega) behind
  rw [List.length_append] at inside
  have first : (s.pos + UInt32.ofNat front.length).toNat = s.pos.toNat + front.length := add_toNat small (by omega)
  have second : (s.pos + UInt32.ofNat front.length + skip).toNat = s.pos.toNat + front.length + back.length := by
    rw [skipped, add_toNat small (by omega), first]
  unfold parseBox
  cases put s.package with
  | none => exact ⟨.missing, rfl⟩
  | some put =>
    dsimp only [place]
    rw [readAt_reads reads here]
    refine getSizeType_behind (s := { s with pos := _, package := put a }) small ?_ ?_
    · show (s.pos + UInt32.ofNat front.length + skip).toNat ≤ buffer.length
      omega
    · show buffer.drop (s.pos + UInt32.ofNat front.length + skip).toNat = bytesOf rest
      rw [second]
      exact after

theorem parseBox_whole {α : Type} (put : Package → Option (α → Package)) {r : ByteReader α} {a : α}
    (small : buffer.length < 2 ^ 32) (at_ : At buffer item rest s) (reads : Reads r item.body a) :
    Follow buffer rest s (place (put s.package) a) (parseBox buffer put r 0 s) :=
  parseBox_follow put small at_ (List.append_nil _).symm rfl reads

theorem sub_toNat {size : UInt32} {n k : Nat} (length : size.toNat = n + k) : (size - UInt32.ofNat n).toNat = k := by
  have small := size.toNat_lt
  have front : (UInt32.ofNat n).toNat = n := UInt32.toNat_ofNat_of_lt' (by rw [UInt32.size]; omega)
  rw [UInt32.toNat_sub_of_le _ _ (UInt32.le_iff_toNat_le.mpr (by omega)), front]
  omega

theorem length_boxHeader (box : BoxHeader) : box.bytes.length = 4 := by
  simp [BoxHeader.bytes]

theorem length_data {box : DataBox} (formed : box.size.toNat = 8 + box.data.length) :
    (box.size - 8).toNat = box.data.length := sub_toNat (n := 8) formed

/-- The data is behind the cursor when it is copied. -/
theorem parseIods_follow {box : DataBox} (small : buffer.length < 2 ^ 32) (at_ : At buffer (.iods box) rest s)
    (formed : (Item.iods box).Formed) :
    Follow buffer rest s ((Item.iods box).read (bytesOf rest) s.package) (parseIods buffer s) := by
  have size : s.size = box.size := at_.size
  have type : s.type = box.type := at_.type.trans formed.type.symm
  have length : (box.size - 8).toNat = box.data.length := by
    have whole := formed.size id
    rw [length_bytes] at whole
    exact length_data whole
  have here : buffer.drop s.pos.toNat = box.data ++ bytesOf rest := at_.here
  obtain ⟨inside, after⟩ := length_inside at_.inside here
  have behind : (s.pos + (box.size - 8)).toNat = s.pos.toNat + box.data.length := by
    rw [UInt32.toNat_add, length, Nat.mod_eq_of_lt (by omega)]
  have data : s.size - 8 > 0 ↔ box.data ≠ [] := by
    rw [size, gt_iff_lt, UInt32.lt_iff_toNat_lt, length, ← List.length_pos_iff]
    rfl
  unfold parseIods
  rw [Item.read]
  by_cases none_ : box.data = []
  · rw [if_neg (mt data.mp (not_not.mpr none_)), if_pos none_]
    exact ⟨_, rfl⟩
  · rw [if_pos (data.mpr none_), if_neg none_, size]
    dsimp only
    rw [← behind] at after
    by_cases short : (bytesOf rest).length < box.data.length
    · rw [if_pos short, readAt_short (wide_bytes _) (.inr (by omega)) (by omega)]
      exact ⟨.outside, rfl⟩
    · have enough : (box.size - 8).toNat ≤ (bytesOf rest).length := by omega
      have reads := reads_bytes (List.length_take_of_le enough)
      have split := after.trans (List.take_append_drop (box.size - 8).toNat (bytesOf rest)).symm
      rw [if_neg short, readAt_reads reads split, type, ← length]
      refine getSizeType_behind (s := ⟨s.pos + (box.size - 8), box.size, box.type, _⟩) small ?_ after
      show (s.pos + (box.size - 8)).toNat ≤ buffer.length
      omega

/-- The loop is left wherever the box ends. -/
theorem parseUdta_follow {box : DataBox} (small : buffer.length < 2 ^ 32) (at_ : At buffer (.udta box) rest s)
    (formed : (Item.udta box).Formed) :
    Follow buffer rest s ((Item.udta box).read (bytesOf rest) s.package) (parseUdta buffer s) := by
  have size : s.size = box.size := at_.size
  have type : s.type = box.type := at_.type.trans formed.type.symm
  have length : (box.size - 8).toNat = box.data.length := by
    have whole := formed.size id
    rw [length_bytes] at whole
    exact length_data whole
  have reads : Reads (readUdta s.size s.type) box.data box := by
    rw [size, type]
    have read : Reads (readUdta box.size box.type) (box.data ++ []) box := (reads_bytes length.symm).bind (.pure _)
    rwa [List.append_nil] at read
  have follow : Behind buffer rest _ _ := parseBox_whole Package.putUdta small at_ reads
  unfold parseUdta
  show if rest = [] then _ else _
  cases rest with
  | nil =>
    rw [if_pos rfl]
    unfold Behind at follow ⊢
    by_cases room : buffer.length + 4 < 2 ^ 32
    · rw [if_pos room] at follow ⊢
      obtain ⟨s', ended, package, stop⟩ := follow
      exact ⟨s', by rw [ended]; rfl, package, stop⟩
    · rw [if_neg room] at follow ⊢
      obtain ⟨fault, ended⟩ := follow
      exact ⟨fault, by rw [ended]; rfl⟩
  | cons next rest =>
    rw [if_neg (List.cons_ne_nil _ _)]
    obtain ⟨s', next_, package, -⟩ := follow
    exact ⟨s', by rw [next_]; rfl, package⟩

theorem parseVmhd_follow {package : Package} {after : List UInt8} {box : VmhdBox} :
    Follow buffer rest s ((Item.vmhd box).read after package) (parseVmhd buffer s) := by
  show ∃ fault, parseVmhd buffer s = .error (.fault fault)
  unfold parseVmhd parseBox
  cases s.package.putVmhd with
  | none => exact ⟨.missing, rfl⟩
  | some put =>
    dsimp only
    rw [readAt, readVmhd_none]
    exact ⟨.outside, rfl⟩

theorem parseTable_follow {kind : TableKind} {box : BoxHeader} {entries : List UInt8} (small : buffer.length < 2 ^ 32)
    (at_ : At buffer (.table kind box entries) rest s) (formed : (Item.table kind box entries).Formed) :
    Follow buffer rest s (place (kind.put s.package) box) (parseTable buffer kind.put s) := by
  have size : s.size = box.size := at_.size
  have type : s.type = box.type := at_.type.trans formed.type.symm
  have length : box.size.toNat = 12 + entries.length := by
    have length := formed.size id
    rw [length_bytes, Item.body, List.length_append, length_boxHeader] at length
    exact length.trans (by omega)
  have reads : Reads (readBoxHeader s.size s.type) box.bytes box := by
    rw [size, type]
    exact reads_readBoxHeader box
  refine parseBox_follow kind.put small at_ rfl ?_ reads
  rw [size, ← UInt32.toNat_inj, show (12 : UInt32) = UInt32.ofNat 12 from rfl, sub_toNat length]
  exact (UInt32.toNat_ofNat_of_lt' (by have := box.size.toNat_lt; rw [UInt32.size]; omega)).symm

theorem parse_follow (small : buffer.length < 2 ^ 32) (at_ : At buffer item rest s) (formed : item.Formed) :
    Follow buffer rest s (item.read (bytesOf rest) s.package) (item.kind.parse buffer s) := by
  have size : s.size = item.size := at_.size
  have type : s.type = item.type := at_.type.trans formed.type.symm
  have length := formed.size
  rw [length_bytes] at length
  cases item with
  | mvhd box =>
    have reads : Reads (readMvhd s.size s.type) box.bytes box := by
      rw [size, type]
      exact reads_readMvhd box
    exact parseBox_whole Package.putMvhd small at_ reads
  | iods box => exact parseIods_follow small at_ formed
  | trak size' =>
    have reads : Reads (pure (TrakBox.mk s.size s.type none none)) []
        (TrakBox.mk size' BoxKind.trak.type none none) := by
      rw [size, type]
      exact .pure _
    exact parseBox_whole Package.putTrak small at_ reads
  | tkhd box =>
    have reads : Reads (readTkhd s.size s.type) box.bytes box := by
      rw [size, type]
      exact reads_readTkhd box
    exact parseBox_whole Package.putTkhd small at_ reads
  | mdia size' =>
    have reads : Reads (pure (MdiaBox.mk s.size s.type none none none)) []
        (MdiaBox.mk size' BoxKind.mdia.type none none none) := by
      rw [size, type]
      exact .pure _
    exact parseBox_whole Package.putMdia small at_ reads
  | mdhd box =>
    have reads : Reads (readMdhd s.size s.type) box.bytes box := by
      rw [size, type]
      exact reads_readMdhd box
    exact parseBox_whole Package.putMdhd small at_ reads
  | hdlr box =>
    have name : (box.boxHeader.size - 32).toNat = box.name.length := by
      have fields : box.bytes.length = 24 + box.name.length := by
        simp [HdlrBox.bytes, length_boxHeader]
        omega
      have whole : box.boxHeader.size.toNat = 8 + box.bytes.length := length id
      exact sub_toNat (n := 32) (by omega)
    have reads : Reads (readHdlr s.size s.type) box.bytes box := by
      rw [size, type]
      exact reads_readHdlr box name
    exact parseBox_whole Package.putHdlr small at_ reads
  | minf size' =>
    have reads : Reads (pure (MinfBox.mk s.size s.type none none none none)) []
        (MinfBox.mk size' BoxKind.minf.type none none none none) := by
      rw [size, type]
      exact .pure _
    exact parseBox_whole Package.putMinf small at_ reads
  | smhd box =>
    have reads : Reads (readSmhd s.size s.type) box.boxHeader.bytes box.stored := by
      rw [size, type]
      exact reads_readSmhd box formed.type
    refine parseBox_follow Package.putSmhd small at_ rfl ?_ reads
    simp [SmhdBox.fields]
  | vmhd box => exact parseVmhd_follow
  | dinf size' =>
    have reads : Reads (pure (DinfBox.mk s.size s.type none)) []
        (DinfBox.mk size' BoxKind.dinf.type none) := by
      rw [size, type]
      exact .pure _
    exact parseBox_whole Package.putDinf small at_ reads
  | dref box =>
    have urls : (box.boxHeader.size - 16).toNat = box.urls.length := by
      have fields : box.bytes.length = 8 + box.urls.length := by
        simp [DrefBox.bytes, length_boxHeader]
        omega
      have whole : box.boxHeader.size.toNat = 8 + box.bytes.length := length id
      exact sub_toNat (n := 16) (by omega)
    have reads : Reads (readDref s.size s.type) box.bytes box := by
      rw [size, type]
      exact reads_readDref box urls
    exact parseBox_whole Package.putDref small at_ reads
  | stbl size' =>
    have reads : Reads (pure (StblBox.mk s.size s.type none none none none none none)) []
        (StblBox.mk size' BoxKind.stbl.type none none none none none none) := by
      rw [size, type]
      exact .pure _
    exact parseBox_whole Package.putStbl small at_ reads
  | table kind box entries =>
    have follow := parseTable_follow small at_ formed
    cases kind with
    | stsd => exact follow
    | stts => exact follow
    | stsc => exact follow
    | stsz => exact follow
    | stss => exact follow
    | stco => exact follow
  | udta box => exact parseUdta_follow small at_ formed

/-! ### The run -/

/-- A turn of the loop from one of its comparisons on, and the turns that follow. -/
def resume (buffer : List UInt8) (fuel : Nat) (kinds : List BoxKind) (s : Parser) : Option Leave :=
  match kinds.foldlM (compareType buffer) s with
  | .ok s => moovLoop buffer fuel s
  | .error leave => some leave

/-- What is left to run behind one comparison. -/
def goOn (buffer : List UInt8) (fuel : Nat) (kinds : List BoxKind) : Except Leave Parser → Option Leave
  | .ok s => resume buffer fuel kinds s
  | .error leave => some leave

/-- How the loop is left, as reading the items tells. -/
def Reading.Shows (buffer : List UInt8) (leave : Leave) : Reading → Prop
  | .never => False
  | .fault => ∃ fault, leave = .fault fault
  | .ended left package =>
    if left = [] ∧ 2 ^ 32 ≤ buffer.length + 4 then ∃ fault, leave = .fault fault
    else ∃ s', leave = .ended s' ∧ s'.package = package ∧ (left = [] → s'.pos.toNat = buffer.length)

def Becomes (buffer : List UInt8) (run : Nat → Option Leave) (reading : Reading) : Prop :=
  (reading = .never ∧ ∀ fuel, run fuel = none) ∨ ∃ fuel leave, run fuel = some leave ∧ reading.Shows buffer leave

theorem mem_boxKinds (kind : BoxKind) : kind ∈ boxKinds := by
  cases kind <;> decide

theorem type_injective {kind kind' : BoxKind} (same : kind.type = kind'.type) : kind = kind' := by
  have nodup : (boxKinds.map BoxKind.type).Nodup := by decide
  exact List.inj_on_of_nodup_map nodup (mem_boxKinds kind) (mem_boxKinds kind') same

theorem resume_cons (fuel : Nat) (kind : BoxKind) (kinds : List BoxKind) (s : Parser) :
    resume buffer fuel (kind :: kinds) s = goOn buffer fuel kinds (compareType buffer s kind) := by
  rw [resume, List.foldlM_cons]
  cases compareType buffer s kind <;> rfl

/-- Only the comparison with its own type is not passed by. -/
theorem resume_known {kind : BoxKind} (type : s.type = kind.type) (kinds : List BoxKind) :
    (kind ∉ kinds ∧ ∀ fuel, resume buffer fuel kinds s = moovLoop buffer fuel s) ∨
      ∃ after, ∀ fuel, resume buffer fuel kinds s = goOn buffer fuel after (kind.parse buffer s) := by
  induction kinds with
  | nil => exact .inl ⟨List.not_mem_nil, fun _ => rfl⟩
  | cons kind' kinds ih =>
    by_cases same : kind' = kind
    · refine .inr ⟨kinds, fun fuel => ?_⟩
      rw [resume_cons, compareType, same, if_pos type]
    · have other : ¬ s.type = kind'.type := fun own => same (type_injective (own.symm.trans type))
      have passed (fuel : Nat) : resume buffer fuel (kind' :: kinds) s = resume buffer fuel kinds s := by
        rw [resume_cons, compareType, if_neg other]
        rfl
      simp only [passed, List.mem_cons, Ne.symm same, false_or]
      exact ih

theorem moovLoop_known {kind : BoxKind} (type : s.type = kind.type)
    (fits : s.pos - 8 + s.size ≤ bufferSize buffer) :
    ∃ after, ∀ fuel, moovLoop buffer (fuel + 1) s = goOn buffer fuel after (kind.parse buffer s) := by
  have turn (fuel : Nat) : moovLoop buffer (fuel + 1) s = resume buffer fuel boxKinds s := by
    rw [moovLoop, if_pos fits]
    rfl
  simp only [turn]
  rcases resume_known type boxKinds with ⟨absent, -⟩ | found
  · exact absurd (mem_boxKinds kind) absent
  · exact found

/-- One of the next twenty comparisons is the one that knows the type. -/
theorem resume_parse {kind : BoxKind} (type : s.type = kind.type) (fits : s.pos - 8 + s.size ≤ bufferSize buffer)
    (kinds : List BoxKind) : ∃ after late, (∀ fuel < late, resume buffer fuel kinds s = none) ∧
      ∀ fuel, resume buffer (fuel + late) kinds s = goOn buffer fuel after (kind.parse buffer s) := by
  rcases resume_known type kinds with ⟨-, passed⟩ | ⟨after, found⟩
  · obtain ⟨after, found⟩ := moovLoop_known type fits
    refine ⟨after, 1, fun fuel early => ?_, fun fuel => (passed _).trans (found fuel)⟩
    rw [passed, show fuel = 0 by omega, moovLoop]
  · exact ⟨after, 0, fun fuel early => absurd early (Nat.not_lt_zero fuel), found⟩

theorem Becomes.late {run run' : Nat → Option Leave} {late : Nat} {reading : Reading}
    (none_ : ∀ fuel < late, run fuel = none) (later : ∀ fuel, run (fuel + late) = run' fuel)
    (becomes : Becomes buffer run' reading) : Becomes buffer run reading := by
  rcases becomes with ⟨never, without⟩ | ⟨fuel, leave, ran, shows_⟩
  · refine .inl ⟨never, fun fuel => ?_⟩
    by_cases early : fuel < late
    · exact none_ fuel early
    · rw [← Nat.sub_add_cancel (Nat.le_of_not_lt early), later]
      exact without _
  · exact .inr ⟨fuel + late, leave, (later fuel).trans ran, shows_⟩

/-- A comparison does not come past an iods box without data. -/
theorem compareType_stuck (type : s.type = BoxKind.iods.type) (size : s.size = 8) (kinds : List BoxKind) :
    ∃ package, kinds.foldlM (compareType buffer) s = .ok { s with package } := by
  induction kinds generalizing s with
  | nil => exact ⟨s.package, rfl⟩
  | cons kind kinds ih =>
    rw [List.foldlM_cons, compareType]
    by_cases own : s.type = kind.type
    · obtain rfl := type_injective (type.symm.trans own)
      have parsed : parseIods buffer s = .ok { s with package := { s.package with moovBox :=
          { s.package.moovBox with iodsBox := some { size := s.size, type := s.type, data := [] } } } } := by
        rw [parseIods, size, if_neg (by decide)]
      rw [if_pos own, BoxKind.parse, parsed]
      exact ih type size
    · rw [if_neg own]
      exact ih type size

theorem moovLoop_stuck (type : s.type = BoxKind.iods.type) (size : s.size = 8)
    (fits : s.pos - 8 + s.size ≤ bufferSize buffer) (fuel : Nat) : moovLoop buffer fuel s = none := by
  induction fuel generalizing s with
  | zero => rfl
  | succ fuel ih =>
    obtain ⟨package, turn⟩ := @compareType_stuck buffer s type size boxKinds
    rw [moovLoop, if_pos fits, moovTurn, turn]
    exact ih type size fits

theorem At.fits (small : buffer.length < 2 ^ 32) (at_ : At buffer item rest s)
    (room : item.size.toNat ≤ (bytesOf (item :: rest)).length) : s.pos - 8 + s.size ≤ bufferSize buffer := by
  have inside := at_.inside
  have header := at_.header
  obtain ⟨whole, -⟩ := length_inside at_.inside at_.here
  rw [bytesOf_cons, List.length_append, length_bytes] at room
  have back : (s.pos - 8).toNat = s.pos.toNat - 8 :=
    UInt32.toNat_sub_of_le _ _ (UInt32.le_iff_toNat_le.mpr header)
  rw [UInt32.le_iff_toNat_le, bufferSize_toNat small, UInt32.toNat_add, back, at_.size, Nat.mod_eq_of_lt (by omega)]
  omega

theorem place_ne_never {α : Type} (put : Option (α → Package)) (box : α) : place put box ≠ .error .never := by
  cases put with
  | none => exact fun never => by cases never
  | some put => exact fun never => by cases never

theorem read_never {after : List UInt8} {package : Package} (never : item.read after package = .error .never) :
    ∃ box, item = .iods box ∧ box.data = [] := by
  cases item
  case iods box =>
    by_cases none_ : box.data = []
    · exact ⟨box, rfl, none_⟩
    · rw [Item.read, if_neg none_] at never
      split at never
      · cases never
      · exact absurd never (place_ne_never _ _)
  case vmhd box => cases never
  case udta box => cases never
  all_goals
    unfold Item.read at never
    exact absurd never (place_ne_never _ _)

theorem Behind.becomes {package : Package} {result : Except Leave Parser} (kinds : List BoxKind)
    (behind : Behind buffer [] package result) :
    Becomes buffer (fun fuel => goOn buffer fuel kinds result) (.ended [] package) := by
  unfold Behind at behind
  by_cases room : buffer.length + 4 < 2 ^ 32
  · rw [if_pos room] at behind
    obtain ⟨s', rfl, ended⟩ := behind
    refine .inr ⟨0, _, rfl, ?_⟩
    rw [Reading.Shows, if_neg fun both => absurd both.2 (by omega)]
    exact ⟨s', rfl, ended.1, fun _ => ended.2⟩
  · rw [if_neg room] at behind
    obtain ⟨fault, rfl⟩ := behind
    refine .inr ⟨0, _, rfl, ?_⟩
    rw [Reading.Shows, if_pos ⟨rfl, by omega⟩]
    exact ⟨fault, rfl⟩

/-- One item, where `on` tells of those behind it. -/
theorem resume_item (small : buffer.length < 2 ^ 32) (at_ : At buffer item rest s) (formed : Formed (item :: rest))
    (on : ∀ next rest' s' kinds, rest = next :: rest' → At buffer next rest' s' →
      Becomes buffer (fun fuel => resume buffer fuel kinds s') (readItems rest s'.package)) (kinds : List BoxKind) :
    Becomes buffer (fun fuel => resume buffer fuel kinds s) (readItems (item :: rest) s.package) := by
  have fits := at_.fits small formed.2.1
  obtain ⟨after, late, none_, later⟩ := resume_parse at_.type fits kinds
  refine Becomes.late none_ later ?_
  have follow := parse_follow small at_ formed.1
  rw [readItems]
  rcases read : item.read (bytesOf rest) s.package with (_ | _ | package) | package
  · rw [read] at follow
    obtain ⟨package, parsed⟩ := follow
    obtain ⟨box, rfl, empty⟩ := read_never read
    have eight : s.size = 8 := by
      have length := formed.1.size id
      rw [length_bytes, Item.body, empty, List.length_nil] at length
      exact at_.size.trans (UInt32.toNat_inj.mp length)
    obtain ⟨package', turn⟩ := @compareType_stuck buffer { s with package } at_.type eight after
    refine .inl ⟨rfl, fun fuel => ?_⟩
    show goOn buffer fuel after (BoxKind.iods.parse buffer s) = none
    rw [show BoxKind.iods.parse buffer s = .ok { s with package } from parsed]
    show resume buffer fuel after { s with package } = none
    rw [resume, turn]
    exact moovLoop_stuck (s := { s with package := package' }) at_.type eight fits fuel
  · rw [read] at follow
    obtain ⟨fault, parsed⟩ := follow
    exact .inr ⟨0, .fault fault, by rw [parsed]; rfl, fault, rfl⟩
  · rw [read] at follow
    dsimp only [Follow] at follow
    by_cases end_ : rest = []
    · rw [if_pos end_, end_] at follow
      rw [end_]
      exact follow.becomes after
    · rw [if_neg end_] at follow
      obtain ⟨s', parsed, put⟩ := follow
      refine .inr ⟨0, .ended s', by rw [parsed]; rfl, ?_⟩
      dsimp only
      rw [Reading.Shows, if_neg fun both => end_ both.1]
      exact ⟨s', rfl, put, fun none_ => absurd none_ end_⟩
  · rw [read] at follow
    cases rest with
    | nil => exact Behind.becomes after follow
    | cons next rest =>
      obtain ⟨s', parsed, rfl, next_⟩ := follow
      rw [parsed]
      exact on next rest s' after rfl next_

/-- A turn of the loop that comes to an item makes of it and of those behind it what reading them makes. -/
theorem resume_becomes (small : buffer.length < 2 ^ 32) (at_ : At buffer item rest s) (formed : Formed (item :: rest))
    (kinds : List BoxKind) :
    Becomes buffer (fun fuel => resume buffer fuel kinds s) (readItems (item :: rest) s.package) := by
  induction rest generalizing item s kinds with
  | nil =>
    refine resume_item small at_ formed (fun next rest' s' kinds same => ?_) kinds
    cases same
  | cons next rest ih =>
    refine resume_item small at_ formed (fun next' rest' s' kinds same at' => ?_) kinds
    obtain ⟨rfl, rfl⟩ := List.cons.inj same
    exact ih at' formed.2.2 kinds

/-! ### A whole moov box -/

def moovType : BoxType := boxType 'm' 'o' 'o' 'v'

/-- The bytes of a moov box with these items in it. -/
def moovBytes (items : List Item) : List UInt8 :=
  [(numberBytes (UInt32.ofNat (8 + (bytesOf items).length))).toList, moovType.toList, bytesOf items].flatten

theorem length_moovBytes (items : List Item) : (moovBytes items).length = 8 + (bytesOf items).length := by
  rw [moovBytes]
  simp only [List.flatten_cons, List.flatten_nil, List.length_append, Vector.length_toList, List.length_nil]
  omega

/-- What the package is before the first of the items has been read. -/
def startPackage (items : List Item) (moovBox : MoovBox) : Package :=
  { moovBox := { moovBox with size := bufferSize (moovBytes items), type := moovType }, prevTrakBox := none }

theorem moovRun_becomes (moovBox : MoovBox) (small : (moovBytes (item :: rest)).length < 2 ^ 32)
    (formed : Formed (item :: rest)) :
    Becomes (moovBytes (item :: rest)) (fun fuel => moovRun (moovBytes (item :: rest)) fuel moovBox)
      (readItems (item :: rest) (startPackage (item :: rest) moovBox)) := by
  have length := length_moovBytes (item :: rest)
  rw [bytesOf_cons, List.length_append, length_bytes] at length
  have read : Reads readMoovStart
      [moovType.toList, [(numberBytes item.size).toList, item.kind.type.toList].flatten].flatten
      (moovType, item.size, item.kind.type) :=
    (reads_field moovType).bind ((readSizeType_header item.size item.kind.type).bind (.pure _))
  have twelve :
      [moovType.toList, [(numberBytes item.size).toList, item.kind.type.toList].flatten].flatten.length = 12 := by
    simp only [List.flatten_cons, List.flatten_nil, List.length_append, Vector.length_toList, List.length_nil]
  have here : (moovBytes (item :: rest)).drop (4 : UInt32).toNat =
      [moovType.toList, [(numberBytes item.size).toList, item.kind.type.toList].flatten].flatten ++
        (item.body ++ bytesOf rest) := by
    rw [moovBytes, List.flatten_cons, show (4 : UInt32).toNat = 4 from rfl,
      List.drop_left' Vector.length_toList, bytesOf_cons, item.bytes_eq]
    simp only [List.flatten_cons, List.flatten_nil, List.append_nil, List.append_assoc]
  obtain ⟨whole, behind⟩ := length_inside (by rw [show (4 : UInt32).toNat = 4 from rfl]; omega) here
  have start := readAt_reads read here
  rw [twelve] at start behind
  have loop (fuel : Nat) : moovRun (moovBytes (item :: rest)) fuel moovBox = resume (moovBytes (item :: rest)) fuel []
      { pos := 16, size := item.size, type := item.kind.type, package := startPackage (item :: rest) moovBox } := by
    rw [moovRun, start]
    rfl
  simp only [loop]
  refine resume_becomes (s := ⟨16, item.size, item.kind.type, startPackage (item :: rest) moovBox⟩) small
    ⟨rfl, rfl, (by decide : 8 ≤ (16 : UInt32).toNat), ?_, behind⟩ formed []
  show 16 ≤ (moovBytes (item :: rest)).length
  omega

end LiveStreaming.PeonyMediaParser
