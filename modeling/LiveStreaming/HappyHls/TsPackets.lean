import LiveStreaming.HappyHls.TsMuxer

/-!
# Packets and tables

What a stretch of the muxer appends to the file is a list of packets, each with the next value of its
counter. The tables among them are built over the front of the frame.
-/

namespace LiveStreaming.HappyHls
open Library

open TransportPacket (Packet)


/-! ### Counters -/

def ContinuityCounter.of (c : ContinuityCounter) (pid : UInt32) : Option UInt8 := (c.next pid).map Prod.fst

theorem ContinuityCounter.of_next {c c' : ContinuityCounter} {pid : UInt32} {counter : UInt8}
    (next : c.next pid = some (counter, c')) (other : UInt32) :
    c'.of other = if other = pid then some (counter + 1) else c.of other := by
  have distinct : tsPatPid ≠ tsPmtPid ∧ tsPatPid ≠ tsH264Pid ∧ tsPatPid ≠ tsAacPid ∧ tsPmtPid ≠ tsH264Pid ∧
      tsPmtPid ≠ tsAacPid ∧ tsH264Pid ≠ tsAacPid := by decide
  unfold ContinuityCounter.of
  unfold ContinuityCounter.next at next ⊢
  grind

/-- One packet after another takes the value of its counter and moves it on. -/
def Counted (c : ContinuityCounter) : List Packet → ContinuityCounter → Prop
  | [], c' => c' = c
  | p :: packets, c' => ∃ counter c₁, c.next (UInt32.ofNat p.pid) = some (counter, c₁) ∧
      p.continuity = Fin.ofNat 16 counter.toNat ∧ Counted c₁ packets c'

theorem Counted.append {c c₁ c₂ : ContinuityCounter} {ps qs : List Packet} (first : Counted c ps c₁)
    (second : Counted c₁ qs c₂) : Counted c (ps ++ qs) c₂ := by
  induction ps generalizing c with
  | nil =>
    obtain rfl := first
    exact second
  | cons p ps ih =>
    obtain ⟨counter, c', next, continuity, rest⟩ := first
    exact ⟨counter, c', next, continuity, ih rest⟩

/-- The packets of one PID count up by one modulo 16, and the counter moves on by their number. -/
theorem Counted.continuity {c c' : ContinuityCounter} {ps : List Packet} (counted : Counted c ps c') {pid : UInt32}
    {start : UInt8} (counter : c.of pid = some start) :
    let own := ps.filter fun p => UInt32.ofNat p.pid = pid
    own.map (fun p => p.continuity.val) = (List.range own.length).map (fun i => (start.toNat + i) % 16) ∧
      c'.of pid = some (start + UInt8.ofNat own.length) := by
  induction ps generalizing c start with
  | nil =>
    obtain rfl := counted
    simp [counter]
  | cons p ps ih =>
    obtain ⟨value, c₁, next, continuity, rest⟩ := counted
    have moved := ContinuityCounter.of_next next pid
    by_cases own : UInt32.ofNat p.pid = pid
    · rw [if_pos own.symm] at moved
      obtain ⟨ih, after⟩ := ih rest moved
      have first : value = start := by
        rw [ContinuityCounter.of, ← own, next] at counter
        exact Option.some.inj counter
      simp only [List.filter_cons, own, decide_true, if_true, List.map_cons, List.length_cons, ih, after,
        List.range_succ_eq_map, List.map_map, continuity, first]
      refine ⟨congrArg₂ List.cons rfl (List.map_congr_left fun i _ => ?_), ?_⟩
      · rw [Function.comp_apply, UInt8.toNat_add, UInt8.toNat_one]
        omega
      · rw [UInt8.ofNat_add, UInt8.add_assoc, UInt8.add_comm 1]
        rfl
    · rw [if_neg (Ne.symm own)] at moved
      simpa [own] using ih rest (moved.trans counter)

/-! ### One packet -/

/-- What a stretch of the muxer has appended to the file. -/
def Emits (m : Muxer) (packets : List Packet) (m' : Muxer) : Prop :=
  m'.file = m.file ++ packets.map Packet.bytes ∧ Counted m.continuityCounter packets m'.continuityCounter

theorem Emits.append {m m₁ m₂ : Muxer} {ps qs : List Packet} (first : Emits m ps m₁) (second : Emits m₁ qs m₂) :
    Emits m (ps ++ qs) m₂ := by
  refine ⟨?_, first.2.append second.2⟩
  rw [second.1, first.1, List.map_append, List.append_assoc]

def Media (pid : UInt32) : Prop := pid = tsH264Pid ∨ pid = tsAacPid

theorem next_media {pid : UInt32} (media : Media pid) (c : ContinuityCounter) :
    ∃ counter c', c.next pid = some (counter, c') := by
  rcases media with rfl | rfl
  · exact ⟨_, _, rfl⟩
  · exact ⟨_, _, rfl⟩

theorem media_pid {pid : UInt32} (media : Media pid) : pid.toNat = (Fin.ofNat 8192 pid.toNat).val := by
  rcases media with rfl | rfl <;> rfl

theorem writeHeader_emits (m : Muxer) {pid : UInt32} (media : Media pid) (unitStart : Bool)
    {adaptation : Option (List UInt8)} {payload : List UInt8}
    (full : 4 + (adaptation.elim 0 (·.length + 1)) + payload.length = 188) {tsBuf : List UInt8}
    (write : List UInt8 → List UInt8)
    (fills : ∀ p : Packet, p.adaptation = adaptation → p.payload = payload →
      write (Buffer.overwrite tsBuf 0 p.header) = p.bytes) :
    ∃ header m₁ p, m.writeHeader tsBuf pid (BitVec.ofBool unitStart)
      (if adaptation.isSome then 3 else 1) = (header, m₁) ∧
      m₁.writePacketNo = m.writePacketNo ∧ Emits m [p] (m₁.fwrite (write header)) ∧
      UInt32.ofNat p.pid = pid ∧ p.unitStart = unitStart ∧ p.payload = payload := by
  obtain ⟨counter, c', next⟩ := next_media media m.continuityCounter
  let p : Packet := ⟨Fin.ofNat 8192 pid.toNat, unitStart, Fin.ofNat 16 counter.toNat, adaptation, payload, full⟩
  have pid_eq : UInt32.ofNat p.pid = pid := by
    show UInt32.ofNat (Fin.ofNat 8192 pid.toNat).val = pid
    rw [← media_pid media, UInt32.ofNat_toNat]
  refine ⟨Buffer.overwrite tsBuf 0 p.header, { m with continuityCounter := c' }, p, ?_, rfl, ⟨?_, ?_⟩, pid_eq, rfl, rfl⟩
  · have written := @writeTsPacketHeader_eq p tsBuf pid m.continuityCounter c' counter next (media_pid media)
      (UInt8.toNat_mod _ _)
    rw [Muxer.writeHeader]
    rw [show writeTsPacketHeader tsBuf pid (BitVec.ofBool unitStart) (if adaptation.isSome then 3 else 1)
      m.continuityCounter = _ from written]
  · rw [fills p rfl rfl, Muxer.fwrite, List.take_of_length_le
      (by rw [TransportPacket.length_bytes]; exact Nat.le_refl _)]
    rfl
  · exact ⟨counter, c', by rw [pid_eq]; exact next, rfl, rfl⟩

/-! ### Tables -/

/-- The tables that are written before the next packet. -/
def Muxer.tables (m : Muxer) : List Packet :=
  if m.writePacketNo % 40 = 0 then [patPacket m.continuityCounter.pat, pmtPacket m.continuityCounter.pmt] else []

theorem writeTables_emits (m : Muxer) (es : Nat → UInt8) :
    Emits m m.tables (m.writeTables es).1 ∧ (m.writeTables es).1.writePacketNo = m.writePacketNo := by
  rw [Muxer.tables, Muxer.writeTables]
  split
  · have whole : ∀ p : Packet, p.bytes.take tsPacketSize = p.bytes := fun p =>
      List.take_of_length_le (by rw [TransportPacket.length_bytes]; exact Nat.le_refl _)
    simp only [Muxer.writeTsPat2File, Muxer.writeTsPmt2File, writeTsPat_eq, writeTsPmt_eq, Muxer.fwrite, whole]
    refine ⟨⟨by simp, ?_⟩, trivial⟩
    exact ⟨_, _, rfl, rfl, _, _, rfl, rfl, rfl⟩
  · exact ⟨⟨by simp, rfl⟩, rfl⟩

theorem tables_pid {m : Muxer} {p : Packet} (member : p ∈ m.tables) {pid : UInt32} (media : Media pid) :
    UInt32.ofNat p.pid ≠ pid := by
  rw [Muxer.tables] at member
  split at member
  · have table : p.pid = 0 ∨ p.pid = 0xFFF := by
      rcases List.mem_pair.mp member with rfl | rfl
      · exact .inl rfl
      · exact .inr rfl
    rcases media with rfl | rfl <;> rcases table with table | table <;> rw [table] <;> decide
  · simp at member

/-! ### The frame and the tables that are built over it -/

@[simp] theorem length_slice (es : Nat → UInt8) (start length : Nat) : (slice es start length).length = length := by
  simp [slice]

/-- What has been stored behind `xs` is found there. -/
theorem slice_store (es : Nat → UInt8) (xs ys : List UInt8) : slice (store es (xs ++ ys)) xs.length ys.length = ys := by
  refine List.ext_getElem (length_slice _ _ _) fun i _ inside => ?_
  simp [slice, store, inside]

theorem slice_append (es : Nat → UInt8) (start a b : Nat) :
    slice es start a ++ slice es (start + a) b = slice es start (a + b) := by
  rw [slice, slice, slice, ← List.map_append, List.range'_append_1]

theorem slice_eq_iff {es es' : Nat → UInt8} {start length : Nat} :
    slice es start length = slice es' start length ↔ ∀ i, start ≤ i → i < start + length → es i = es' i := by
  simp only [slice, List.map_inj_left, List.mem_range'_1, and_imp]

theorem writeTables_es (m : Muxer) (es : Nat → UInt8) (i : Nat) :
    (m.writeTables es).2 i =
      if m.writePacketNo % 40 = 0 then (pmtPacket m.continuityCounter.pmt).bytes[i]?.getD (es i) else es i := by
  rw [Muxer.writeTables]
  split
  · simp only [Muxer.writeTsPat2File, Muxer.writeTsPmt2File, writeTsPat_eq, writeTsPmt_eq, Muxer.fwrite, store]
    rcases Nat.lt_or_ge i 188 with inside | outside
    · rw [List.getElem?_eq_getElem (by rwa [TransportPacket.length_bytes])]
      rfl
    · rw [List.getElem?_eq_none (by rwa [TransportPacket.length_bytes]),
        List.getElem?_eq_none (by rwa [TransportPacket.length_bytes])]
      rfl
  · rfl

/-- The array behind the first 31 bytes, in which a PMT differs from nothing but stuffing. -/
def stamped (no : UInt32) (es : Nat → UInt8) : Nat → UInt8 := fun i =>
  if no % 40 = 0 ∧ i < 188 then 0xFF else es i

theorem pmtPacket_stuffing {counter : UInt8} {i : Nat} (behind : 31 ≤ i) (inside : i < 188) :
    (pmtPacket counter).bytes[i]? = some 0xFF := by
  have split : (pmtPacket counter).bytes = ((pmtPacket counter).header ++ 0 :: pmtSection ++
      hostBytes (zwgNtohl (calcCrc32 pmtSection))) ++ List.replicate 157 0xFF := by
    simp [Packet.bytes, Packet.field, pmtPacket, pmtPayload]
  have length : ((pmtPacket counter).header ++ 0 :: pmtSection ++
      hostBytes (zwgNtohl (calcCrc32 pmtSection))).length = 31 := by
    simp [Packet.header, hostBytes]
    rfl
  rw [split, List.getElem?_append_right (by rwa [length]), length, List.getElem?_replicate, if_pos (by omega)]

theorem writeTables_above (m : Muxer) (es : Nat → UInt8) {i : Nat} (behind : 31 ≤ i) :
    (m.writeTables es).2 i = stamped m.writePacketNo es i := by
  rw [writeTables_es, stamped]
  by_cases due : m.writePacketNo % 40 = 0
  · rcases Nat.lt_or_ge i 188 with inside | outside
    · rw [if_pos due, if_pos ⟨due, inside⟩, pmtPacket_stuffing behind inside]
      rfl
    · rw [if_pos due, if_neg (by omega), List.getElem?_eq_none (by rwa [TransportPacket.length_bytes])]
      rfl
  · rw [if_neg due, if_neg (by simp [due])]

/-- Two arrays that agree but for the first 31 bytes. -/
def SameBehind (es es' : Nat → UInt8) : Prop := ∀ i, 31 ≤ i → es i = es' i

theorem slice_same {es es' : Nat → UInt8} (same : SameBehind es es') {start : Nat} (behind : 31 ≤ start)
    (length : Nat) : slice es start length = slice es' start length :=
  slice_eq_iff.mpr fun i above _ => same i (Nat.le_trans behind above)

theorem writeTables_same (m : Muxer) (es : Nat → UInt8) :
    SameBehind (m.writeTables es).2 (stamped m.writePacketNo es) := fun _ => writeTables_above m es

theorem writeTables_again {m : Muxer} {es es₁ : Nat → UInt8} (same : SameBehind es₁ (stamped m.writePacketNo es)) :
    SameBehind (m.writeTables es₁).2 (stamped m.writePacketNo es) := by
  intro i behind
  rw [writeTables_above m es₁ behind, stamped, same i behind, stamped]
  split <;> rfl

theorem slice_rest {no no' : UInt32} {es es₁ : Nat → UInt8} (same : SameBehind es₁ (stamped no es)) {start a b : Nat}
    (behind : 31 ≤ start) (past : 188 ≤ start + a) (fits : a ≤ b) :
    slice es₁ start a ++ slice (stamped no' es₁) (start + a) (b - a) = slice (stamped no es) start b := by
  have later : slice (stamped no' es₁) (start + a) (b - a) = slice es₁ (start + a) (b - a) :=
    slice_eq_iff.mpr fun i above _ => if_neg (by omega)
  rw [later, slice_append, Nat.add_sub_cancel' fits, slice_same same behind]

end LiveStreaming.HappyHls
