import LiveStreaming.HappyHls.TsConformance

/-!
# The payload of a PES

The tables are built in the array that holds the frame. What the packets carry is the frame only as long
as no table is written over bytes that are still to be sent.
-/

namespace LiveStreaming.HappyHls
open Library
open TransportPacket (Packet)

/-- The call ends and the packets of the PES carry its header and its frame. -/
def Conserves (m : Muxer) (pes : TsPes) (pid : UInt32) (head tail : TsAdaptationField) (videopts audiopts : UInt64) :
    Prop :=
  ∃ w packets time, pes2Ts m pes pid head tail videopts audiopts = some w ∧ w.muxer.file = m.file ++ packets ∧
    streamTime pes videopts audiopts = some time ∧
    (ownPackets pid packets).flatMap TransportPacket.payload =
      pesHeader pes ++ time ++ slice pes.es 0 pes.pesPacketLengthBeyond

/-- No table is written over bytes of the frame that are still to be sent, or it happens to hold the same
bytes there. Tables are due before the first of several packets, when they cover the first 188 bytes, and
before the second, when only stuffing falls on what is left of these. -/
def Undamaged (m : Muxer) (pes : TsPes) (head : TsAdaptationField) : Prop :=
  pes.pesPacketLengthBeyond < firstPacketLoadLength head ∨
    ((m.writePacketNo % 40 = 0 → ∀ i < min pes.pesPacketLengthBeyond 188,
        (writeTsPmt m.continuityCounter).1[i]? = some (pes.es i)) ∧
      ((m.writePacketNo + 1) % 40 = 0 → ∀ i, firstPacketLoadLength head ≤ i → i < min pes.pesPacketLengthBeyond 188 →
        pes.es i = 0xFF))

theorem conserves_iff_carried {pid : UInt32} (media : Media pid) {head : TsAdaptationField}
    (written : WrittenField head)
    (tail : TsAdaptationField) (m : Muxer) {pes : TsPes}
    (stream : pes.streamId = tsH264StreamId ∨ pes.streamId = tsAacStreamId) (videopts audiopts : UInt64) :
    Conserves m pes pid head tail videopts audiopts ↔
      carried m pes head = slice pes.es 0 pes.pesPacketLengthBeyond := by
  obtain ⟨time, timed⟩ := streamTime_known stream videopts audiopts
  obtain ⟨w, packets, count, ran, carries⟩ := @pes2Ts_carries pid media head tail written m pes videopts
    audiopts time timed
  constructor
  · rintro ⟨w', packets', time', ran', file, timed', conserved⟩
    obtain rfl := Option.some.inj (ran.symm.trans ran')
    obtain rfl := Option.some.inj (timed.symm.trans timed')
    rw [carries.emits.1, List.append_cancel_left_eq] at file
    rw [← file, ownPackets_payload, carries.payload] at conserved
    exact List.append_cancel_left conserved
  · intro same
    refine ⟨w, packets.map Packet.bytes, time, ran, carries.emits.1, timed, ?_⟩
    rw [ownPackets_payload, carries.payload, same]

/-- Tables are never due before both of the first two packets. -/
theorem not_due_twice {no : UInt32} (due : no % 40 = 0) : (no + 1) % 40 ≠ 0 := by
  intro again
  have first := congrArg UInt32.toNat due
  have second := congrArg UInt32.toNat again
  rw [UInt32.toNat_mod] at first second
  rw [UInt32.toNat_add] at second
  simp at first second
  omega

theorem carried_eq_iff {m : Muxer} {pes : TsPes} {head : TsAdaptationField}
    (several : firstPacketLoadLength head ≤ pes.pesPacketLengthBeyond) :
    carried m pes head = slice pes.es 0 pes.pesPacketLengthBeyond ↔
      (∀ i < firstPacketLoadLength head, (m.writeTables pes.es).2 i = pes.es i) ∧
      ∀ i, firstPacketLoadLength head ≤ i → i < pes.pesPacketLengthBeyond →
        stamped (m.writePacketNo + 1) (m.writeTables pes.es).2 i = pes.es i := by
  have whole := slice_append pes.es 0 (firstPacketLoadLength head)
    (pes.pesPacketLengthBeyond - firstPacketLoadLength head)
  rw [Nat.zero_add, Nat.add_sub_cancel' several] at whole
  rw [carried]
  dsimp only
  rw [if_neg (Nat.not_lt.mpr several), ← whole]
  have split : ∀ xs ys : List UInt8, xs.length = firstPacketLoadLength head →
      (xs ++ ys = slice pes.es 0 (firstPacketLoadLength head) ++
          slice pes.es (firstPacketLoadLength head) (pes.pesPacketLengthBeyond - firstPacketLoadLength head) ↔
        xs = slice pes.es 0 (firstPacketLoadLength head) ∧
          ys = slice pes.es (firstPacketLoadLength head) (pes.pesPacketLengthBeyond - firstPacketLoadLength head)) :=
    fun xs ys length => ⟨fun same => List.append_inj same
      (by rw [length, length_slice]), fun same => by rw [same.1, same.2]⟩
  rw [split _ _ (length_slice _ _ _), slice_eq_iff, slice_eq_iff, Nat.zero_add, Nat.add_sub_cancel' several]
  simp only [Nat.zero_le, true_implies]

/-- Tables before the first packet: the PMT lies over the front of the frame. -/
theorem due_first {m : Muxer} {pes : TsPes} {head : TsAdaptationField} (due : m.writePacketNo % 40 = 0)
    (several : firstPacketLoadLength head ≤ pes.pesPacketLengthBeyond) :
    carried m pes head = slice pes.es 0 pes.pesPacketLengthBeyond ↔
      ∀ i < min pes.pesPacketLengthBeyond 188, (writeTsPmt m.continuityCounter).1[i]? = some (pes.es i) := by
  have covered : ∀ i, (m.writeTables pes.es).2 i = pes.es i ↔
      (i < 188 → (writeTsPmt m.continuityCounter).1[i]? = some (pes.es i)) := by
    intro i
    rw [writeTables_es, if_pos due, writeTsPmt_eq]
    rcases Nat.lt_or_ge i 188 with inside | outside
    · rw [List.getElem?_eq_getElem (by rwa [TransportPacket.length_bytes])]
      simp [inside]
    · rw [List.getElem?_eq_none (by rwa [TransportPacket.length_bytes])]
      simp [Nat.not_lt.mpr outside]
  have alone : stamped (m.writePacketNo + 1) (m.writeTables pes.es).2 = (m.writeTables pes.es).2 :=
    funext fun i => if_neg fun again => not_due_twice due again.1
  rw [carried_eq_iff several, alone]
  simp only [covered]
  constructor
  · rintro ⟨first, others⟩ i small
    rcases Nat.lt_or_ge i (firstPacketLoadLength head) with front | back
    · exact first i front (by omega)
    · exact others i back (by omega) (by omega)
  · intro same
    exact ⟨fun i front inside => same i (by omega), fun i _ below inside => same i (by omega)⟩

/-- No tables before the first packet: at most the stuffing of a PMT lies over what is left. -/
theorem not_due_first {m : Muxer} {pes : TsPes} {head : TsAdaptationField} (not_due : m.writePacketNo % 40 ≠ 0)
    (several : firstPacketLoadLength head ≤ pes.pesPacketLengthBeyond) :
    carried m pes head = slice pes.es 0 pes.pesPacketLengthBeyond ↔
      ((m.writePacketNo + 1) % 40 = 0 → ∀ i, firstPacketLoadLength head ≤ i →
        i < min pes.pesPacketLengthBeyond 188 → pes.es i = 0xFF) := by
  have untouched : (m.writeTables pes.es).2 = pes.es := funext fun i => by rw [writeTables_es, if_neg not_due]
  rw [carried_eq_iff several, untouched]
  constructor
  · rintro ⟨_, others⟩ due i back small
    have same := others i back (by omega)
    rw [stamped, if_pos ⟨due, by omega⟩] at same
    exact same.symm
  · intro stuffing
    refine ⟨fun _ _ => rfl, fun i back below => ?_⟩
    rw [stamped]
    split
    · next due => exact (stuffing due.1 i back (by omega)).symm
    · rfl

/-- A PES goes through unchanged exactly when no table is written over it while it is sent. -/
theorem pes2Ts_conserves {pid : UInt32} (media : Media pid) {head : TsAdaptationField} (written : WrittenField head)
    (tail : TsAdaptationField) (m : Muxer) {pes : TsPes}
    (stream : pes.streamId = tsH264StreamId ∨ pes.streamId = tsAacStreamId) (videopts audiopts : UInt64) :
    Conserves m pes pid head tail videopts audiopts ↔ Undamaged m pes head := by
  rw [conserves_iff_carried media written tail m stream, Undamaged]
  rcases Nat.lt_or_ge pes.pesPacketLengthBeyond (firstPacketLoadLength head) with short | several
  · rw [carried]
    simp [short]
  · rw [or_iff_right (Nat.not_lt.mpr several)]
    by_cases due : m.writePacketNo % 40 = 0
    · rw [due_first due several]
      exact ⟨fun same => ⟨fun _ => same, fun again => (not_due_twice due again).elim⟩, fun both => both.1 due⟩
    · rw [not_due_first due several]
      exact ⟨fun stuffing => ⟨fun again => (due again).elim, stuffing⟩, And.right⟩

theorem pes2Ts_conserves_sample :
    Conserves ⟨⟨0, 0, 0, 0⟩, 7, []⟩ samplePes tsH264Pid (writeAdaptiveHeadFields blankField 3000)
        (writeAdaptiveTailFields blankField) 3000 0 ↔
      Undamaged ⟨⟨0, 0, 0, 0⟩, 7, []⟩ samplePes (writeAdaptiveHeadFields blankField 3000) :=
  pes2Ts_conserves (.inl rfl) (.inl ⟨blankField, 3000, rfl⟩) (writeAdaptiveTailFields blankField)
    ⟨⟨0, 0, 0, 0⟩, 7, []⟩ (.inl rfl) 3000 0

/-- The very first frame of a file: its front is replaced by the PMT. -/
theorem tables_replace_frame :
    ¬ ∀ (m : Muxer) (pes : TsPes) (videopts audiopts : UInt64), 0 < pes.pesPacketLengthBeyond →
      pes.pesPacketLengthBeyond ≤ maxOneFrameSize → pes.streamId = tsH264StreamId →
        Conserves m pes tsH264Pid (writeAdaptiveHeadFields blankField 3000) (writeAdaptiveTailFields blankField)
          videopts audiopts := by
  intro conserves
  have carried := (conserves_iff_carried (.inl rfl) (.inl ⟨blankField, 3000, rfl⟩) (writeAdaptiveTailFields blankField)
    ⟨⟨0, 0, 0, 0⟩, 0, []⟩ (.inl rfl) 3000 0).mp (conserves ⟨⟨0, 0, 0, 0⟩, 0, []⟩ samplePes 3000 0
      (by decide +kernel) (by decide +kernel) rfl)
  exact absurd (congrArg List.head? carried) (by decide +kernel)

end LiveStreaming.HappyHls
