import LiveStreaming.Streamer.Delivery

/-!
# How far the header phase is

The header phase is a writer of five parts that may stop after any byte. `Progress` says what it has
written so far, by rules for a write and for the end of a part.
-/

namespace LiveStreaming.Streamer
open Library

/-! ### What is owed to a viewer -/

/-- The content of a part, given the camera's stream header and the packets received. -/
def HeaderPart.owed (header : List UInt8) (packets : List (List UInt8)) : HeaderPart → Option (List UInt8)
  | httpResponse => some Streamer.httpResponse
  | flvHeader => some header
  | scriptTag => latest .scriptTag packets
  | avcSequenceHeader => latest .avcSequenceHeader packets
  | aacSequenceHeader => latest .aacSequenceHeader packets

theorem latest_mono {kind : TagKind} {packets : List (List UInt8)} (more : List (List UInt8))
    (some_ : (latest kind packets).isSome) : (latest kind (packets ++ more)).isSome := by
  unfold latest at some_ ⊢
  rw [List.filter_append, List.getLast?_append, Option.isSome_or, some_, Bool.or_true]

theorem HeaderPart.owed_mono {header : List UInt8} {packets : List (List UInt8)} {part : HeaderPart}
    (more : List (List UInt8)) (some_ : (part.owed header packets).isSome) :
    (part.owed header (packets ++ more)).isSome := by
  cases part with
  | httpResponse => rfl
  | flvHeader => rfl
  | _ => exact latest_mono more some_

/-- The first bytes of the camera's stream. -/
def streamHeader (socket₀ : CameraSocket) : List UInt8 :=
  (Socket.incoming socket₀).take (flvHeaderSize + previousTagSize)

theorem Sound.owed {socket₀ : CameraSocket} {s : Relay} (sound : Sound socket₀ s) {c : Cameras}
    (camera : s.camera = some c) (some_ : s.packets ≠ []) (part : HeaderPart) :
    part.owed (streamHeader socket₀) s.packets = if part.present c then some (part.buffer c) else none := by
  obtain ⟨exists_, script, avc, aac⟩ := sound.saves c camera
  have nonempty : ∀ {kind : TagKind} {p : List UInt8}, latest kind s.packets = some p → p.length ≠ 0 := by
    intro kind p found
    have long := (sound.whole p (latest_mem found).1).1
    simp only [tagHeaderSize] at long
    omega
  cases part with
  | httpResponse => rfl
  | flvHeader =>
    obtain ⟨consumed, stream, framing⟩ := sound.framing c camera
    rcases framing.parse with ⟨_, none_⟩ | ⟨length, split, _⟩
    · exact absurd none_ some_
    · simp only [HeaderPart.owed, HeaderPart.present, HeaderPart.buffer, if_true, streamHeader]
      rw [stream, split, List.append_assoc, ← length, List.take_left]
  | scriptTag =>
    simp only [HeaderPart.owed, HeaderPart.present, HeaderPart.buffer, exists_, script]
    cases latest .scriptTag s.packets <;> rfl
  | avcSequenceHeader =>
    simp only [HeaderPart.owed, HeaderPart.present, HeaderPart.buffer, avc]
    cases found : latest .avcSequenceHeader s.packets with
    | none => rfl
    | some p => simp [nonempty found]
  | aacSequenceHeader =>
    simp only [HeaderPart.owed, HeaderPart.present, HeaderPart.buffer, aac]
    cases found : latest .aacSequenceHeader s.packets with
    | none => rfl
    | some p => simp [nonempty found]

/-! ### How far a viewer is -/

def Item.isPart (part : HeaderPart) : Item → Bool
  | .header other _ => other == part
  | .tag _ => false

def sentOf (part : HeaderPart) (log : List Entry) : List UInt8 :=
  bytesOf (log.filter (·.write.item.isPart part))

def headersOf (log : List Entry) : List Entry := log.filter (!·.write.item.isTag)

theorem sentOf_headersOf (part : HeaderPart) (log : List Entry) : sentOf part (headersOf log) = sentOf part log := by
  unfold sentOf headersOf
  rw [List.filter_filter]
  congr 2
  funext e
  cases e.write.item <;> simp [Item.isPart, Item.isTag]

theorem sentOf_concat (part other : HeaderPart) (log : List Entry) (clock start : Nat) (buffer taken : List UInt8) :
    sentOf part (log ++ [⟨clock, ⟨.header other buffer, start, taken⟩⟩]) =
      if part = other then sentOf part log ++ taken else sentOf part log := by
  unfold sentOf
  rw [List.filter_append, bytesOf_append]
  by_cases same : part = other
  · subst same
    rw [if_pos rfl]
    simp [Item.isPart, bytesOf]
  · rw [if_neg same]
    simp [Item.isPart, bytesOf, Ne.symm same]

/-- The header phase after the writes `hs`: the parts that are not `todo` have been sent with the given
content, and a part of `cur`. -/
structure Progress (owed : Nat → HeaderPart → Option (List UInt8)) (hs : List Entry) (todo : HeaderPart → Bool)
    (content : HeaderPart → List UInt8) (cur : Option HeaderPart) : Prop where
  bytes : bytesOf hs = (HeaderPart.order.filter (!todo ·)).flatMap content ++ cur.elim [] (sentOf · hs)
  origin : ∀ part, todo part = false ∨ cur = some part →
    ∃ e ∈ hs, e.write.item = .header part (content part) ∧ owed e.clock part = some (content part)
  current : ∀ part, cur = some part → todo part = true ∧ sentOf part hs <+: content part ∧
    ∀ pre later, HeaderPart.order = pre ++ part :: later → ∀ q ∈ later, todo q = true
  untouched : ∀ part, todo part = true → cur ≠ some part → sentOf part hs = []
  /-- Every write goes on where the viewer's own last write of the part ended. -/
  starts : ∀ pre e post, hs = pre ++ e :: post → ∀ part buffer, e.write.item = .header part buffer →
    e.write.start = (sentOf part pre).length

theorem Progress.new (owed : Nat → HeaderPart → Option (List UInt8)) :
    Progress owed [] (fun _ => true) (fun _ => []) none := by
  constructor
  · rfl
  · rintro part (done | current)
    · cases done
    · cases current
  · rintro part current
    cases current
  · intro part _ _
    rfl
  · intro pre e post split
    exact absurd split (by simp)

theorem Progress.congr {owed owed' : Nat → HeaderPart → Option (List UInt8)} {hs : List Entry}
    {todo : HeaderPart → Bool} {content : HeaderPart → List UInt8} {cur : Option HeaderPart}
    (h : Progress owed hs todo content cur) (same : ∀ e ∈ hs, ∀ part, owed' e.clock part = owed e.clock part) :
    Progress owed' hs todo content cur := by
  obtain ⟨bytes, origin, current, untouched, starts⟩ := h
  refine ⟨bytes, fun part done => ?_, current, untouched, starts⟩
  obtain ⟨e, member, item, was⟩ := origin part done
  exact ⟨e, member, item, (same e member part).trans was⟩

/-- A part that has been begun but not sent a byte of does not count. -/
theorem Progress.forget {owed : Nat → HeaderPart → Option (List UInt8)} {hs : List Entry} {todo : HeaderPart → Bool}
    {content : HeaderPart → List UInt8} {part : HeaderPart} (h : Progress owed hs todo content (some part))
    (none_ : sentOf part hs = []) : Progress owed hs todo content none := by
  obtain ⟨bytes, origin, current, untouched, starts⟩ := h
  refine ⟨?_, ?_, ?_, ?_, starts⟩
  · rw [bytes, Option.elim_some, none_, Option.elim_none]
  · rintro other (done | current)
    · exact origin other (.inl done)
    · cases current
  · rintro other current
    cases current
  · intro other due _
    by_cases same : part = other
    · exact same ▸ none_
    · exact untouched other due (by simpa using same)

theorem Progress.write {owed : Nat → HeaderPart → Option (List UInt8)} {hs : List Entry} {todo : HeaderPart → Bool}
    {content : HeaderPart → List UInt8} {cur : Option HeaderPart} (h : Progress owed hs todo content cur)
    {part : HeaderPart} (due : todo part = true) (free : cur = none ∨ cur = some part)
    (later : ∀ pre later, HeaderPart.order = pre ++ part :: later → ∀ q ∈ later, todo q = true)
    {buffer taken : List UInt8} {start clock : Nat} (own : sentOf part hs = buffer.take start)
    (inside : start ≤ buffer.length) (cut : taken <+: buffer.drop start) (now : owed clock part = some buffer) :
    Progress owed (hs ++ [⟨clock, ⟨.header part buffer, start, taken⟩⟩]) todo (Function.update content part buffer)
      (some part) := by
  obtain ⟨bytes, origin, current, untouched, starts⟩ := h
  have sent : cur.elim [] (sentOf · hs) = sentOf part hs := by
    rcases free with rfl | rfl
    · exact (untouched part due (by simp)).symm
    · rfl
  have added := fun q => sentOf_concat q part hs clock start buffer taken
  have others : (HeaderPart.order.filter (!todo ·)).flatMap (Function.update content part buffer) =
      (HeaderPart.order.filter (!todo ·)).flatMap content := by
    apply List.flatMap_congr
    intro q member
    have done := (List.mem_filter.mp member).2
    apply Function.update_of_ne
    rintro rfl
    rw [due] at done
    cases done
  constructor
  · rw [bytesOf_append, bytes, sent, others, Option.elim_some, added, if_pos rfl, List.append_assoc]
    simp [bytesOf]
  · rintro q done
    by_cases same : q = part
    · subst same
      rw [Function.update_self]
      exact ⟨_, List.mem_append_right _ List.mem_cons_self, rfl, now⟩
    · have before : todo q = false ∨ cur = some q := by
        rcases done with done | current
        · exact .inl done
        · exact absurd (Option.some.inj current).symm same
      obtain ⟨e, member, item, was⟩ := origin q before
      rw [Function.update_of_ne same]
      exact ⟨e, List.mem_append_left _ member, item, was⟩
  · rintro q current
    obtain rfl := Option.some.inj current
    refine ⟨due, ?_, later⟩
    rw [added, if_pos rfl, own, Function.update_self]
    conv_rhs => rw [← List.take_append_drop start buffer]
    exact (List.prefix_append_right_inj _).mpr cut
  · intro q todo_ other
    have different : q ≠ part := by
      rintro rfl
      exact other rfl
    rw [added, if_neg different]
    apply untouched q todo_
    rcases free with rfl | rfl
    · simp
    · simpa using different.symm
  · intro pre e post split q b item
    rcases List.eq_nil_or_concat' post with rfl | ⟨more, x, rfl⟩
    · obtain ⟨rfl, same⟩ := List.append_inj' split rfl
      obtain rfl := List.singleton_inj.mp same
      obtain ⟨rfl, rfl⟩ := Item.header.inj item
      rw [own, List.length_take, Nat.min_eq_left inside]
    · rw [← List.cons_append, ← List.append_assoc] at split
      exact starts pre e more (List.append_inj' split rfl).1 q b item

theorem order_filter_update {todo : HeaderPart → Bool} {part : HeaderPart} (due : todo part = true)
    (later : ∀ pre later, HeaderPart.order = pre ++ part :: later → ∀ q ∈ later, todo q = true) :
    HeaderPart.order.filter (!Function.update todo part false ·) = HeaderPart.order.filter (!todo ·) ++ [part] := by
  obtain ⟨pre, post, split⟩ : ∃ pre post, HeaderPart.order = pre ++ part :: post :=
    List.append_of_mem (by cases part <;> decide)
  have nodup : (pre ++ part :: post).Nodup := split ▸ by decide
  have notPre : part ∉ pre := fun member =>
    (List.disjoint_of_nodup_append nodup) member List.mem_cons_self
  have notPost : part ∉ post := (List.nodup_cons.mp nodup.of_append_right).1
  have after := later pre post split
  have same : pre.filter (!Function.update todo part false ·) = pre.filter (!todo ·) := by
    apply List.filter_congr
    intro q member
    rw [Function.update_of_ne (show q ≠ part from fun same => notPre (same ▸ member))]
  have none_ : post.filter (!todo ·) = [] := by
    rw [List.filter_eq_nil_iff]
    intro q member
    simp [after q member]
  have none' : post.filter (!Function.update todo part false ·) = [] := by
    rw [List.filter_eq_nil_iff]
    intro q member
    rw [Function.update_of_ne (show q ≠ part from fun same => notPost (same ▸ member))]
    simp [after q member]
  rw [split, List.filter_append, List.filter_append, same, List.filter_cons_of_pos (by simp), none',
    List.filter_cons_of_neg (by simp [due]), none_, List.append_nil]

theorem Progress.finish {owed : Nat → HeaderPart → Option (List UInt8)} {hs : List Entry} {todo : HeaderPart → Bool}
    {content : HeaderPart → List UInt8} {part : HeaderPart} (h : Progress owed hs todo content (some part))
    (all : sentOf part hs = content part) : Progress owed hs (Function.update todo part false) content none := by
  obtain ⟨bytes, origin, current, untouched, starts⟩ := h
  obtain ⟨due, _, later⟩ := current part rfl
  refine ⟨?_, ?_, ?_, ?_, starts⟩
  · rw [order_filter_update due later, bytes, Option.elim_some, all]
    simp
  · rintro q (done | current)
    · by_cases same : q = part
      · exact origin q (.inr (by rw [same]))
      · rw [Function.update_of_ne same] at done
        exact origin q (.inl done)
    · cases current
  · rintro q current
    cases current
  · intro q todo_ _
    by_cases same : q = part
    · subst same
      rw [Function.update_self] at todo_
      cases todo_
    · rw [Function.update_of_ne same] at todo_
      exact untouched q todo_ (by simpa using Ne.symm same)

end LiveStreaming.Streamer
