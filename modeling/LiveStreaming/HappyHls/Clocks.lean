import LiveStreaming.HappyHls.TableSpacing
import LiveStreaming.Library.MpegClock

/-!
# The clocks in the packets

`pes_2_ts` writes the time of a frame behind the PES header, and `create_adaptive_ts` the time of a picture into
the adaptation field. The second is narrowed to 32 bits on its way there, and multiplied before it is divided.
-/

namespace LiveStreaming.HappyHls
open Library Library.MpegClock Library.Transition

/-! ### Time stamps -/

/-- Such a mask keeps `n` bits, and the one behind them is set. -/
theorem masked_marker (x n : Nat) : x &&& 2 * (2 ^ n - 1) ||| 1 = x / 2 % 2 ^ n * 2 + 1 := by
  apply Nat.eq_of_testBit_eq
  intro i
  cases i with
  | zero => simp
  | succ i =>
    have half : (x / 2 % 2 ^ n * 2 + 1) / 2 = x / 2 % 2 ^ n := by omega
    have mask : 2 * (2 ^ n - 1) / 2 = 2 ^ n - 1 := by omega
    rw [Nat.testBit_or, Nat.testBit_and]
    simp only [Nat.testBit_succ, half, mask, Nat.testBit_two_pow_sub_one, Nat.testBit_mod_two_pow]
    simp [Bool.and_comm]

theorem pts_top (pts : UInt64) : (0x3 <<< (4 : UInt64) ||| (pts >>> (29 : UInt64) &&& 0x0E) ||| 0x01 : UInt64).toNat =
    3 * 16 + pts.toNat / 2 ^ 30 % 8 * 2 + 1 := by
  have masked := masked_marker (pts.toNat >>> 29) 3
  have guarded : ∀ k < 8, 48 ||| (k * 2 + 1) = 48 + k * 2 + 1 := by decide
  have small : pts.toNat / 2 ^ 30 % 8 < 8 := Nat.mod_lt _ (by decide)
  simp [Nat.shiftRight_eq_div_pow, Nat.div_div_eq_div_mul, Nat.or_assoc] at masked small ⊢
  rw [masked, guarded _ small]

theorem pts_high (pts : UInt64) :
    (pts >>> (14 : UInt64) &&& 0xfffe ||| 0x01).toNat = pts.toNat / 2 ^ 15 % 2 ^ 15 * 2 + 1 := by
  have masked := masked_marker (pts.toNat >>> 14) 15
  simp [Nat.shiftRight_eq_div_pow, Nat.div_div_eq_div_mul] at masked ⊢
  exact masked

theorem pts_low (pts : UInt64) : (pts <<< (1 : UInt64) &&& 0xfffe ||| 0x01).toNat = pts.toNat % 2 ^ 15 * 2 + 1 := by
  have masked := masked_marker (pts.toNat <<< 1 % 2 ^ 64) 15
  simp at masked ⊢
  rw [masked]
  omega

theorem toNat_shiftRight_eight (x : UInt64) : (x >>> 8).toNat = x.toNat / 2 ^ 8 := by
  rw [UInt64.toNat_shiftRight]
  simp [Nat.shiftRight_eq_div_pow]

theorem timestamp_ptsBytes (pts : UInt64) : timestamp (ptsBytes pts) = some (pts.toNat % 2 ^ 33) := by
  apply @timestamp_fields _ _ _ _ _ 3
  · rw [UInt64.toNat_toUInt8, pts_top]
    omega
  · rw [UInt64.toNat_toUInt8, toNat_shiftRight_eight, pts_high]
    omega
  · rw [UInt64.toNat_toUInt8, pts_high]
    omega
  · rw [UInt64.toNat_toUInt8, toNat_shiftRight_eight, pts_low]
    omega
  · rw [UInt64.toNat_toUInt8, pts_low]
    omega

/-- The PES that is carried begins with a header of nine bytes, the last of which is the length of what follows, and
with the time of its stream. -/
theorem pes2Ts_timestamp {pid : UInt32} (media : Media pid) {head : TsAdaptationField} (written : WrittenField head)
    (tail : TsAdaptationField) (m : Muxer) {pes : TsPes}
    (stream : pes.streamId = tsH264StreamId ∨ pes.streamId = tsAacStreamId) (videopts audiopts : UInt64) :
    ∃ w packets header time es, pes2Ts m pes pid head tail videopts audiopts = some w ∧
      w.muxer.file = m.file ++ packets.map TransportPacket.Packet.bytes ∧
      (own pid packets).flatMap TransportPacket.Packet.payload = header ++ time ++ es ∧
      header.length = 9 ∧ header.getLast? = some pes.pesHeaderDataLength ∧ time.length = 5 ∧
      timestamp time = some ((if pes.streamId = tsH264StreamId then videopts else audiopts).toNat % 2 ^ 33) := by
  have timed : streamTime pes videopts audiopts =
      some (ptsBytes (if pes.streamId = tsH264StreamId then videopts else audiopts)) := by
    unfold streamTime
    split
    · rfl
    · next other => rw [if_pos (stream.resolve_left other)]
  obtain ⟨w, packets, count, ran, carries⟩ := @pes2Ts_carries pid media head tail written m pes videopts
    audiopts _ timed
  exact ⟨w, packets, pesHeader pes, _, carried m pes head, ran, carries.emits.1, carries.payload, rfl, rfl, rfl,
    timestamp_ptsBytes _⟩

/-- A frame that fits one packet, at a time of more than 32 bits. -/
theorem pes2Ts_timestamp_sample :
    ∃ w packets header time es, pes2Ts Segments.start.muxer (h264Frame2Pes sampleSps 0x100000005 blankPes) tsH264Pid
        (writeAdaptiveHeadFields blankField 5) (writeAdaptiveTailFields blankField) 0x100000005 0 = some w ∧
      w.muxer.file = [] ++ packets.map TransportPacket.Packet.bytes ∧
      (own tsH264Pid packets).flatMap TransportPacket.Packet.payload = header ++ time ++ es ∧
      header.length = 9 ∧ header.getLast? = some 5 ∧ time.length = 5 ∧
      timestamp time = some ((0x100000005 : UInt64).toNat % 2 ^ 33) :=
  pes2Ts_timestamp (.inl rfl) (.inl ⟨_, _, rfl⟩) (writeAdaptiveTailFields blankField) Segments.start.muxer (.inl rfl)
    0x100000005 0

/-! ### Clock references -/

theorem pcr_mixed (base extension : UInt64) (fits : extension.toNat < 2 ^ 9) :
    (base <<< 7 ||| extension >>> 8 ||| 0x7e).toUInt8.toNat =
      base.toNat % 2 * 2 ^ 7 + 63 * 2 + extension.toNat / 2 ^ 8 := by
  have bits : ∀ b < 2, ∀ e < 2, (b * 128 ||| e ||| 126) = b * 128 + 126 + e := by decide
  have shifted : base.toNat <<< 7 % 256 = base.toNat % 2 * 128 := by omega
  have top : extension.toNat >>> 8 % 256 = extension.toNat / 256 := by omega
  rw [UInt64.toNat_toUInt8, UInt64.toNat_or, UInt64.toNat_or, UInt64.toNat_shiftLeft, UInt64.toNat_shiftRight,
    Nat.or_mod_two_pow, Nat.or_mod_two_pow]
  simp
  rw [shifted, top]
  exact bits _ (Nat.mod_lt _ (by decide)) _ (by omega)

theorem clockReference_pcrBytes {pcr : UInt64} (small : pcr.toNat < 2 ^ 33 * 300) :
    clockReference (pcrBytes pcr) = some pcr.toNat := by
  have base : (pcr / 300).toNat = pcr.toNat / 300 := UInt64.toNat_div pcr 300
  have extension : (pcr % 300).toNat = pcr.toNat % 300 := UInt64.toNat_mod pcr 300
  have shift : ∀ k : UInt64, k.toNat < 64 → ((pcr / 300) >>> k).toUInt8.toNat =
    pcr.toNat / 300 / 2 ^ k.toNat % 256 := by
    intro k fits
    rw [UInt64.toNat_toUInt8, UInt64.toNat_shiftRight, base, Nat.mod_eq_of_lt fits, Nat.shiftRight_eq_div_pow]
  rw [pcrBytes, @clockReference_fields _ _ _ _ _ _ (pcr.toNat / 300) (pcr.toNat % 300) 63]
  · congr 1
    omega
  · exact shift 25 (by decide)
  · exact shift 17 (by decide)
  · exact shift 9 (by decide)
  · exact shift 1 (by decide)
  · rw [pcr_mixed, base, extension]
    omega
  · rw [UInt64.toNat_toUInt8, extension]
  · omega
  · omega
  · decide

/-- The time wraps where 32 bits do not hold the product. -/
theorem toNat_narrowed (pts : UInt64) : (pts.toUInt32 * 300).toUInt64.toNat = pts.toNat * 300 % 2 ^ 32 := by
  have factor : (300 : UInt32).toNat = 300 := rfl
  rw [UInt32.toNat_toUInt64, UInt32.toNat_mul, UInt64.toNat_toUInt32, factor, Nat.mod_mul_mod]

/-- The clock of the pictures is right for 159 seconds. -/
theorem pcr_decoded_iff (field : TsAdaptationField) (pts : UInt64) {buf : List UInt8} {start : Nat}
    (room : start + 7 ≤ buf.length) (adaptiveLength : Nat) :
    clockReference (((createAdaptiveTs (writeAdaptiveHeadFields field pts.toUInt32) buf start adaptiveLength).drop
      (start + 1)).take 6) = some (pts.toNat * 300) ↔ pts.toNat ≤ 14316557 := by
  have bytes : ((createAdaptiveTs (writeAdaptiveHeadFields field pts.toUInt32) buf start adaptiveLength).drop
      (start + 1)).take 6 = pcrBytes (pts.toUInt32 * 300).toUInt64 := by
    rw [createAdaptiveTs_head field pts.toUInt32 adaptiveLength room,
      Buffer.read_overwrite (Nat.le_trans (Nat.le_add_right _ _) room) (Nat.le_refl 7)]
    rfl
  have wrapped := toNat_narrowed pts
  rw [bytes, clockReference_pcrBytes (by omega), wrapped, Option.some.injEq]
  omega

/-- The narrow product is right for 159 seconds. -/
theorem pcr_decoded_iff_sample : clockReference (((createAdaptiveTs (writeAdaptiveHeadFields blankField
    (14316557 : UInt64).toUInt32) (List.replicate 188 0) 5 169).drop 6).take 6) =
      some ((14316557 : UInt64).toNat * 300) := by
  have room : 5 + 7 ≤ (List.replicate 188 (0 : UInt8)).length := by
    rw [List.length_replicate]
    decide
  exact (pcr_decoded_iff blankField 14316557 room 169).mpr (by decide)

theorem h264Pts_frames (s : Segments) (k : Nat) : ∃ s', exec segmentStep s (List.replicate k (sampleEvent sampleSps)) =
    some s' ∧ s'.h264Pts = s.h264Pts + UInt64.ofNat (3000 * k) := by
  induction k generalizing s with
  | zero => exact ⟨s, rfl, by simp⟩
  | succ k ih =>
    obtain ⟨muxer, step⟩ := writeH264_eq s (by decide : sampleSps ≠ []) blankPes blankField blankField
    obtain ⟨s', rest, later⟩ := ih { s with muxer, h264Pts := s.h264Pts + 3000 }
    refine ⟨s', ?_, ?_⟩
    · rw [List.replicate_succ, exec, sampleEvent, segmentStep, step]
      exact rest
    · rw [later, Nat.mul_add, UInt64.ofNat_add, UInt64.add_assoc, UInt64.add_comm 3000]
      rfl

/-- The clock has wrapped when 4773 pictures are written. -/
theorem pcr_wrapped : ∃ s, exec segmentStep .start (List.replicate 4773 (sampleEvent sampleSps)) = some s ∧
    s.h264Pts = 14319000 ∧
    clockReference (((createAdaptiveTs (writeAdaptiveHeadFields blankField s.h264Pts.toUInt32)
      (List.replicate 188 0) 5 169).drop 6).take 6) ≠ some (s.h264Pts.toNat * 300) := by
  obtain ⟨s, ran, clock⟩ := h264Pts_frames .start 4773
  have reached : s.h264Pts = 14319000 := clock
  refine ⟨s, ran, reached, ?_⟩
  rw [reached]
  decide

end LiveStreaming.HappyHls
