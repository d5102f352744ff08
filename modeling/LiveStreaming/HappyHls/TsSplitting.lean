import LiveStreaming.HappyHls.TsPackets

/-!
# The packets of a PES

The four shapes of a packet and the loop of `pes_2_ts`: what the packets of one PES carry, for every
length and every phase of the packet counter.
-/

namespace LiveStreaming.HappyHls
open Library

open TransportPacket (Packet)

variable {pid : UInt32} {m m₁ m₂ : Muxer}


def own (pid : UInt32) (packets : List Packet) : List Packet := packets.filter fun p => UInt32.ofNat p.pid = pid

theorem own_append (pid : UInt32) (ps qs : List Packet) : own pid (ps ++ qs) = own pid ps ++ own pid qs :=
  List.filter_append ..

theorem own_tables {pid : UInt32} (media : Media pid) (m : Muxer) : own pid m.tables = [] :=
  List.filter_eq_nil_iff.mpr fun _ member => by simpa using tables_pid member media

theorem own_single {pid : UInt32} {p : Packet} (mine : UInt32.ofNat p.pid = pid) : own pid [p] = [p] := by
  simp [own, mine]

/-- A stretch of the muxer that carries `payload` for a PID, in packets with the given start flags. -/
structure Carries (pid : UInt32) (m m' : Muxer) (packets : List Packet) (starts : List Bool) (payload : List UInt8) :
    Prop where
  emits : Emits m packets m'
  starts : (own pid packets).map Packet.unitStart = starts
  payload : (own pid packets).flatMap Packet.payload = payload


theorem Carries.append {ps qs : List Packet} {a b : List Bool} {xs ys : List UInt8} (first : Carries pid m m₁ ps a xs)
    (second : Carries pid m₁ m₂ qs b ys) : Carries pid m m₂ (ps ++ qs) (a ++ b) (xs ++ ys) where
  emits := first.emits.append second.emits
  starts := by rw [own_append, List.map_append, first.starts, second.starts]
  payload := by rw [own_append, List.flatMap_append, first.payload, second.payload]

theorem Carries.count {ps : List Packet} {a : List Bool} {xs : List UInt8} (carries : Carries pid m m₁ ps a xs) :
    Carries pid m m₁.count ps a xs :=
  ⟨carries.emits, carries.starts, carries.payload⟩

theorem carries_tables (media : Media pid) (m : Muxer) (es : Nat → UInt8) :
    Carries pid m (m.writeTables es).1 m.tables [] [] where
  emits := (writeTables_emits m es).1
  starts := by rw [own_tables media, List.map_nil]
  payload := by rw [own_tables media, List.flatMap_nil]

theorem carries_single {p : Packet} (emits : Emits m [p] m₁) (mine : UInt32.ofNat p.pid = pid) :
    Carries pid m m₁ [p] [p.unitStart] p.payload where
  emits := emits
  starts := by rw [own_single mine, List.map_singleton]
  payload := by rw [own_single mine, List.flatMap_singleton]

theorem overwrite_header (blank : UInt8) (p : Packet) :
    Buffer.overwrite (List.replicate tsPacketSize blank) 0 p.header = Buffer.padded 188 blank p.header :=
  @Buffer.overwrite_padded _ 188 0 blank [] rfl p.header

theorem length_header (p : Packet) : p.header.length = 4 := rfl

theorem fills_plain {blank : UInt8} {p : Packet} (plain : p.adaptation = none) :
    Buffer.overwrite (Buffer.overwrite (List.replicate tsPacketSize blank) 0 p.header) 4 p.payload = p.bytes := by
  have field : p.field = [] := by rw [Packet.field, plain]; rfl
  have bytes : p.header ++ p.payload = p.bytes := by rw [Packet.bytes, field, List.append_nil]
  rw [overwrite_header, Buffer.overwrite_padded (length_header p).symm, bytes]
  exact Buffer.padded_eq (TransportPacket.length_bytes p)

theorem overwrite_stuffing {blank : UInt8} {p : Packet} {stuffing : Nat}
    (stuffed : p.adaptation = some (0 :: List.replicate stuffing 0xFF)) :
    Buffer.overwrite (Buffer.overwrite (Buffer.overwrite (List.replicate tsPacketSize blank) 0 p.header) 4
      [UInt8.ofNat (stuffing + 1), 0]) 6 (List.replicate stuffing 0xFF) =
      Buffer.padded 188 blank (p.header ++ p.field) := by
  have front : (p.header ++ [UInt8.ofNat (stuffing + 1), 0]).length = 6 := rfl
  rw [overwrite_header, Buffer.overwrite_padded (length_header p).symm, Buffer.overwrite_padded front.symm,
    Packet.field, stuffed]
  simp

theorem length_stuffed {p : Packet} {stuffing : Nat}
    (stuffed : p.adaptation = some (0 :: List.replicate stuffing 0xFF)) :
    (p.header ++ p.field).length = 6 + stuffing := by
  rw [Packet.field, stuffed]
  simp [Packet.header]
  omega

theorem writeHeader_carries (m : Muxer) (media : Media pid) (unitStart : Bool)
    {adaptation : Option (List UInt8)} {payload : List UInt8}
    (full : 4 + (adaptation.elim 0 (·.length + 1)) + payload.length = 188) {tsBuf : List UInt8}
    (write : List UInt8 → List UInt8)
    (fills : ∀ p : Packet, p.adaptation = adaptation → p.payload = payload →
      write (Buffer.overwrite tsBuf 0 p.header) = p.bytes) :
    ∃ header m₁ p, m.writeHeader tsBuf pid (BitVec.ofBool unitStart)
      (if adaptation.isSome then 3 else 1) = (header, m₁) ∧
      m₁.writePacketNo = m.writePacketNo ∧ Carries pid m (m₁.fwrite (write header)) [p] [unitStart] payload := by
  obtain ⟨header, m₁, p, written, no, emits, mine, start, carried⟩ :=
    writeHeader_emits m media unitStart full write fills
  have packet := carries_single emits mine
  rw [start, carried] at packet
  exact ⟨header, m₁, p, written, no, packet⟩

theorem carries_full (media : Media pid) (m : Muxer) (es : Nat → UInt8) (neafBuf : Nat) :
    ∃ header m₁ p, m.writeHeader (List.replicate tsPacketSize 0) pid 0 1 = (header, m₁) ∧
      m₁.writePacketNo = m.writePacketNo ∧
      Carries pid m (m₁.fwrite (Buffer.overwrite header 4 (slice es neafBuf 184))) [p] [false] (slice es neafBuf 184) :=
  @writeHeader_carries pid m media false none (slice es neafBuf 184) (by simp) (List.replicate tsPacketSize 0)
    (Buffer.overwrite · 4 (slice es neafBuf 184)) fun p plain payload => by rw [← payload]; exact fills_plain plain

/-- The last packets, and the only packet of a short PES: `stuffing` bytes make up for what is missing. -/
theorem carries_stuffed (media : Media pid) (m : Muxer) (unitStart : Bool) (blank : UInt8) {stuffing : Nat}
    {payload : List UInt8} (full : 6 + stuffing + payload.length = 188) :
    ∃ header m₁ p, m.writeHeader (List.replicate tsPacketSize blank) pid (BitVec.ofBool unitStart) 3 = (header, m₁) ∧
      m₁.writePacketNo = m.writePacketNo ∧
      Carries pid m (m₁.fwrite (Buffer.overwrite (Buffer.overwrite (Buffer.overwrite header 4
        [UInt8.ofNat (stuffing + 1), 0]) 6 (List.replicate stuffing 0xFF)) (6 + stuffing) payload))
        [p] [unitStart] payload := by
  refine @writeHeader_carries pid m media unitStart (some (0 :: List.replicate stuffing 0xFF)) payload ?_
    (List.replicate tsPacketSize blank) (fun header => Buffer.overwrite (Buffer.overwrite (Buffer.overwrite header 4
        [UInt8.ofNat (stuffing + 1), 0]) 6 (List.replicate stuffing 0xFF)) (6 + stuffing) payload) ?_
  · simp only [Option.elim_some, List.length_cons, List.length_replicate]
    omega
  · intro p stuffed carried
    rw [overwrite_stuffing stuffed, Buffer.overwrite_padded (length_stuffed stuffed).symm, ← carried]
    exact Buffer.padded_eq (TransportPacket.length_bytes p)

/-- What a run of the loop has to show for itself. -/
def LoopCarries (pid : UInt32) (m : Muxer) (result : Option (Muxer × (Nat → UInt8))) (payload : List UInt8) : Prop :=
  ∃ m' es' packets count, result = some (m', es') ∧ Carries pid m m' packets (List.replicate count false) payload

theorem loop_round {m m₁ m₂ : Muxer} {es es₁ : Nat → UInt8} {ps : List Packet} {p : Packet} {neafBuf beyond a : Nat}
    {result : Option (Muxer × (Nat → UInt8))} (tables : Carries pid m m₁ ps [] [])
    (packet : Carries pid m₁ m₂ [p] [false] (slice es₁ neafBuf a)) (same : SameBehind es₁ (stamped m.writePacketNo es))
    (past : 162 ≤ neafBuf) (large : 182 ≤ a) (fits : a ≤ beyond)
    (rest : LoopCarries pid m₂ result (slice (stamped m₂.writePacketNo es₁) (neafBuf + a) (beyond - a))) :
    LoopCarries pid m result (slice (stamped m.writePacketNo es) neafBuf beyond) := by
  obtain ⟨m', es', packets, count, ran, carries⟩ := rest
  have all := (tables.append packet).append carries
  simp only [List.nil_append, slice_rest same (by omega : 31 ≤ neafBuf) (by omega) fits] at all
  exact ⟨m', es', _, count + 1, ran, all⟩

/-- The loop carries the rest of the frame as it stands when the first of its packets is built. It ends
as soon as its fuel exceeds the bytes that are left. Induction on the fuel; only the tables before the
first packet can touch what is still to be sent. -/
theorem pes2TsLoop_carries (media : Media pid) {fuel : Nat} {m : Muxer} {es : Nat → UInt8} {neafBuf beyond : Nat}
    (enough : beyond < fuel) (past : 162 ≤ neafBuf) :
    LoopCarries pid m (pes2TsLoop pid fuel m es neafBuf beyond)
      (slice (stamped m.writePacketNo es) neafBuf beyond) := by
  induction fuel generalizing m es neafBuf beyond with
  | zero => omega
  | succ fuel ih =>
    rw [pes2TsLoop]
    by_cases done : beyond = 0
    · rw [if_pos done, done]
      exact ⟨m, es, [], 0, rfl, ⟨⟨by simp, rfl⟩, rfl, rfl⟩⟩
    rw [if_neg done]
    have tables := carries_tables media m es
    have same := writeTables_same m es
    have no := (writeTables_emits m es).2
    generalize m.writeTables es = written at tables same no ⊢
    obtain ⟨m₁, es₁⟩ := written
    dsimp only at tables same no ⊢
    split
    · next whole =>
      obtain ⟨header, m₂, p, written, no₂, packet⟩ := carries_full media m₁ es₁ neafBuf
      rw [written]
      exact loop_round tables packet.count same past (by decide) whole (ih (by omega) (by omega))
    have again := carries_tables media m₁ es₁
    have same₂ : SameBehind (m₁.writeTables es₁).2 (stamped m.writePacketNo es) :=
      no ▸ writeTables_again (no ▸ same)
    generalize m₁.writeTables es₁ = written at again same₂ ⊢
    obtain ⟨m₂, es₂⟩ := written
    dsimp only at again same₂ ⊢
    split
    · next nearly =>
      obtain ⟨header, m₃, p, written, _, packet⟩ :=
        @carries_stuffed pid media m₂ false 0 0 (slice es₂ neafBuf 182) (by simp)
      rw [show m₂.writeHeader (List.replicate tsPacketSize 0) pid 0 3 = _ from written]
      rw [List.replicate_zero, Buffer.overwrite_nil] at packet
      exact loop_round (tables.append again) packet.count same₂ past (Nat.le_refl _)
        (by omega) (ih (by omega) (by omega))
    · next short =>
      obtain ⟨stuffing, size⟩ : ∃ stuffing, stuffing + beyond = 182 := ⟨182 - beyond, by omega⟩
      obtain ⟨header, m₃, p, written, _, packet⟩ :=
        @carries_stuffed pid media m₂ false 0 stuffing (slice es₂ neafBuf beyond) (by rw [length_slice]; omega)
      rw [show m₂.writeHeader (List.replicate tsPacketSize 0) pid 0 3 = _ from written,
        show 184 - beyond - 1 = stuffing + 1 by omega, show 184 - beyond - 2 = stuffing by omega]
      obtain ⟨fuel, rfl⟩ : ∃ k, fuel = k + 1 := ⟨fuel - 1, by omega⟩
      rw [pes2TsLoop, if_pos rfl]
      refine ⟨_, es₂, m.tables ++ m₁.tables ++ [p], 1, rfl, ?_⟩
      rw [← slice_same same₂ (by omega)]
      exact (tables.append again).append packet.count.count

/-! ### The whole call -/

/-- An adaptation field as one of the two functions leaves it. -/
def WrittenField (head : TsAdaptationField) : Prop :=
  (∃ field videopts, head = writeAdaptiveHeadFields field videopts) ∨ ∃ field, head = writeAdaptiveTailFields field

theorem createAdaptiveTs_head (field : TsAdaptationField) (videopts : UInt32) {buf : List UInt8} {start : Nat} (n : Nat)
    (room : start + 7 ≤ buf.length) : createAdaptiveTs (writeAdaptiveHeadFields field videopts) buf start n =
      Buffer.overwrite buf start ([0x10] ++ pcrBytes (videopts * 300).toUInt64) := by
  have flags_last : createAdaptiveTs (writeAdaptiveHeadFields field videopts) buf start n =
      Buffer.overwrite (Buffer.overwrite buf (start + 1) (pcrBytes (videopts * 300).toUInt64)) start [0x10] := by
    simp [createAdaptiveTs, writeAdaptiveHeadFields]
  rw [flags_last]
  exact @Buffer.overwrite_front _ buf [0x10] (pcrBytes (videopts * 300).toUInt64) start
    (show start + 1 + 6 ≤ buf.length by omega)

theorem createAdaptiveTs_fills {head : TsAdaptationField} (written : WrittenField head) :
    ∃ field : List UInt8, head.adaptationFieldLength = UInt8.ofNat field.length ∧
      (field.length = 7 ∨ field.length = 1) ∧
      ∀ buf start n, start + field.length ≤ buf.length →
        createAdaptiveTs head buf start n = Buffer.overwrite buf start field := by
  rcases written with ⟨field, videopts, rfl⟩ | ⟨field, rfl⟩
  · exact ⟨[0x10] ++ pcrBytes (videopts * 300).toUInt64, rfl, .inl rfl, fun buf start n room =>
      createAdaptiveTs_head field videopts n room⟩
  · refine ⟨[0], rfl, .inr rfl, fun buf start n _ => ?_⟩
    simp [createAdaptiveTs, writeAdaptiveTailFields]

theorem firstPacketLoadLength_eq {head : TsAdaptationField} {field : List UInt8}
    (announced : head.adaptationFieldLength = UInt8.ofNat field.length) (size : field.length = 7 ∨ field.length = 1) :
    firstPacketLoadLength head = 169 - field.length := by
  rw [firstPacketLoadLength, announced]
  rcases size with size | size <;> rw [size] <;> rfl

theorem length_streamTime {pes : TsPes} {videopts audiopts : UInt64} {time : List UInt8}
    (timed : streamTime pes videopts audiopts = some time) : time.length = 5 := by
  rw [streamTime] at timed
  split at timed
  · obtain rfl := Option.some.inj timed
    rfl
  · split at timed
    · obtain rfl := Option.some.inj timed
      rfl
    · simp at timed

theorem fills_start {blank : UInt8} {p : Packet} {front header time es : List UInt8} {pos : Nat}
    (before : front = p.header ++ p.field) (at_ : pos = front.length) (nine : header.length = 9)
    (five : time.length = 5) (payload : p.payload = header ++ time ++ es) :
    Buffer.overwrite (Buffer.overwrite (Buffer.overwrite (Buffer.padded 188 blank front) pos header) (pos + 9) time)
      (pos + 9 + 5) es = p.bytes := by
  have second : pos + 9 = (front ++ header).length := by rw [List.length_append, at_, nine]
  have third : pos + 9 + 5 = (front ++ header ++ time).length := by rw [List.length_append, second, five]
  rw [Buffer.overwrite_padded at_, Buffer.overwrite_padded second, Buffer.overwrite_padded third]
  have bytes : front ++ header ++ time ++ es = p.bytes := by
    rw [Packet.bytes, payload, before]
    simp only [List.append_assoc]
  rw [bytes]
  exact Buffer.padded_eq (TransportPacket.length_bytes p)

theorem carries_first (media : Media pid) (m : Muxer) {head : TsAdaptationField} (written : WrittenField head)
    (pes : TsPes) {time : List UInt8} (five : time.length = 5) (es : Nat → UInt8) :
    ∃ header m₁ p, m.writeHeader (List.replicate tsPacketSize 0) pid 1 3 = (header, m₁) ∧
      m₁.writePacketNo = m.writePacketNo ∧
      Carries pid m (m₁.fwrite (Buffer.overwrite (Buffer.overwrite (Buffer.overwrite (createAdaptiveTs head
        (Buffer.overwrite header 4 [head.adaptationFieldLength]) 5 (188 - 4 - 1 - 14))
        (5 + head.adaptationFieldLength.toNat) (pesHeader pes)) (5 + head.adaptationFieldLength.toNat + 9) time)
        (5 + head.adaptationFieldLength.toNat + 9 + 5) (slice es 0 (firstPacketLoadLength head))))
        [p] [true] (pesHeader pes ++ time ++ slice es 0 (firstPacketLoadLength head)) := by
  obtain ⟨field, announced, size, fills⟩ := createAdaptiveTs_fills written
  have first := firstPacketLoadLength_eq announced size
  have length : head.adaptationFieldLength.toNat = field.length := by
    rw [announced]
    rcases size with size | size <;> rw [size] <;> rfl
  refine @writeHeader_carries pid m media true (some field) _ ?_ (List.replicate tsPacketSize 0) (fun header =>
    Buffer.overwrite (Buffer.overwrite (Buffer.overwrite (createAdaptiveTs head (Buffer.overwrite header 4
      [head.adaptationFieldLength]) 5 (188 - 4 - 1 - 14)) (5 + head.adaptationFieldLength.toNat) (pesHeader pes))
      (5 + head.adaptationFieldLength.toNat + 9) time) (5 + head.adaptationFieldLength.toNat + 9 + 5)
      (slice es 0 (firstPacketLoadLength head))) ?_
  · simp only [Option.elim_some, List.length_append, five, length_slice, first]
    have : (pesHeader pes).length = 9 := rfl
    omega
  · intro p adaptation payload
    have front : 5 = (p.header ++ [head.adaptationFieldLength]).length := rfl
    have all : p.header ++ [head.adaptationFieldLength] ++ field = p.header ++ p.field := by
      rw [Packet.field, adaptation, announced]
      simp
    rw [overwrite_header, Buffer.overwrite_padded (length_header p).symm, fills, Buffer.overwrite_padded front]
    · exact fills_start all (by rw [length, List.length_append, ← front]) rfl five payload
    · rw [Buffer.padded, List.length_append, List.length_replicate, ← front]
      omega

theorem carries_only (media : Media pid) (m : Muxer) (pes : TsPes) {time : List UInt8} (five : time.length = 5)
    (es : Nat → UInt8) {beyond stuffing : Nat} (full : stuffing + beyond = 168) :
    ∃ header m₁ p, m.writeHeader (List.replicate tsPacketSize 0xFF) pid 1 3 = (header, m₁) ∧
      m₁.writePacketNo = m.writePacketNo ∧
      Carries pid m (m₁.fwrite (Buffer.overwrite (Buffer.overwrite (Buffer.overwrite (Buffer.overwrite (Buffer.overwrite
        header 4 [UInt8.ofNat (stuffing + 1), 0]) 6 (List.replicate stuffing 0xFF)) (6 + stuffing) (pesHeader pes))
        (6 + stuffing + 9) time) (6 + stuffing + 9 + 5) (slice es 0 beyond)))
        [p] [true] (pesHeader pes ++ time ++ slice es 0 beyond) := by
  refine @writeHeader_carries pid m media true (some (0 :: List.replicate stuffing 0xFF)) _ ?_
    (List.replicate tsPacketSize 0xFF) (fun header => Buffer.overwrite (Buffer.overwrite (Buffer.overwrite
      (Buffer.overwrite (Buffer.overwrite header 4 [UInt8.ofNat (stuffing + 1), 0]) 6 (List.replicate stuffing 0xFF))
      (6 + stuffing) (pesHeader pes)) (6 + stuffing + 9) time) (6 + stuffing + 9 + 5) (slice es 0 beyond)) ?_
  · simp only [Option.elim_some, List.length_cons, List.length_replicate, List.length_append, five, length_slice]
    have : (pesHeader pes).length = 9 := rfl
    omega
  · intro p stuffed payload
    rw [overwrite_stuffing stuffed]
    exact fills_start rfl (length_stuffed stuffed).symm rfl five payload

/-- The bytes that a call takes from the array of the PES. -/
def carried (m : Muxer) (pes : TsPes) (head : TsAdaptationField) : List UInt8 :=
  let first := firstPacketLoadLength head
  if pes.pesPacketLengthBeyond < first then slice pes.es 0 pes.pesPacketLengthBeyond
  else
    let es := (m.writeTables pes.es).2
    slice es 0 first ++ slice (stamped (m.writePacketNo + 1) es) first (pes.pesPacketLengthBeyond - first)

theorem length_carried (m : Muxer) (pes : TsPes) (head : TsAdaptationField) :
    (carried m pes head).length = pes.pesPacketLengthBeyond := by
  rw [carried]
  dsimp only
  split
  · rw [length_slice]
  · rw [List.length_append, length_slice, length_slice]
    omega

theorem pes2Ts_carries (media : Media pid) {head tail : TsAdaptationField} (written : WrittenField head)
    (m : Muxer) {pes : TsPes} {videopts audiopts : UInt64} {time : List UInt8}
    (timed : streamTime pes videopts audiopts = some time) :
    ∃ w packets count, pes2Ts m pes pid head tail videopts audiopts = some w ∧
      Carries pid m w.muxer packets (true :: List.replicate count false)
        (pesHeader pes ++ time ++ carried m pes head) := by
  obtain ⟨field, announced, size, _⟩ := createAdaptiveTs_fills written
  have first := firstPacketLoadLength_eq announced size
  have five := length_streamTime timed
  rw [pes2Ts, carried]
  dsimp only
  by_cases short : pes.pesPacketLengthBeyond < firstPacketLoadLength head
  · obtain ⟨stuffing, full⟩ : ∃ stuffing, stuffing + pes.pesPacketLengthBeyond = 168 :=
      ⟨168 - pes.pesPacketLengthBeyond, by omega⟩
    obtain ⟨header, m₁, p, wrote, _, packet⟩ := carries_only media m pes five pes.es full
    rw [if_pos short, if_pos short, wrote, timed,
      show 184 - pes.pesPacketLengthBeyond - 9 - 5 - 1 = stuffing + 1 by omega,
      show 184 - pes.pesPacketLengthBeyond - 9 - 5 - 2 = stuffing by omega]
    exact ⟨_, [p], 0, rfl, packet.count⟩
  · have tables := carries_tables media m pes.es
    have no := (writeTables_emits m pes.es).2
    rw [if_neg short, if_neg short]
    generalize m.writeTables pes.es = state at tables no ⊢
    obtain ⟨m₁, es⟩ := state
    dsimp only at tables no ⊢
    obtain ⟨header, m₂, p, wrote, no₂, packet⟩ := carries_first media m₁ written pes five es
    rw [wrote, timed]
    dsimp only
    obtain ⟨m', es', packets, count, ran, rest⟩ := @pes2TsLoop_carries pid media
      (pes.pesPacketLengthBeyond - firstPacketLoadLength head + 1) _ es (firstPacketLoadLength head)
      (pes.pesPacketLengthBeyond - firstPacketLoadLength head) (Nat.lt_succ_self _) (by omega)
    rw [ran]
    refine ⟨_, m.tables ++ [p] ++ packets, count, rfl, ?_⟩
    have all := (tables.append packet.count).append rest
    have counted : m₂.writePacketNo + 1 = m.writePacketNo + 1 := congrArg (· + 1) (no₂.trans no)
    rw [← counted, ← List.append_assoc]
    exact all

end LiveStreaming.HappyHls
