import LiveStreaming.HappyHls.TsSplitting

/-!
# The packets as bytes

Every packet of a PES is whole, filled, marked and counted as it should be.
-/

namespace LiveStreaming.HappyHls
open Library

open TransportPacket (Packet)

variable {pid : UInt32}


def ownPackets (pid : UInt32) (file : List (List UInt8)) : List (List UInt8) :=
  file.filter fun packet => TransportPacket.pid packet = pid.toNat

theorem ownPackets_bytes (pid : UInt32) (packets : List Packet) :
    ownPackets pid (packets.map Packet.bytes) = (own pid packets).map Packet.bytes := by
  rw [ownPackets, own, List.filter_map]
  congr 1
  refine List.filter_congr fun p _ => ?_
  have small := p.pid.isLt
  rw [Function.comp_apply, TransportPacket.pid_bytes, decide_eq_decide]
  constructor
  · intro same
    rw [same, UInt32.ofNat_toNat]
  · rintro rfl
    rw [UInt32.toNat_ofNat', Nat.mod_eq_of_lt (by omega)]

theorem ownPackets_payload (pid : UInt32) (packets : List Packet) :
    (ownPackets pid (packets.map Packet.bytes)).flatMap TransportPacket.payload =
      (own pid packets).flatMap Packet.payload := by
  rw [ownPackets_bytes, List.flatMap_map]
  simp only [TransportPacket.payload_bytes]

theorem streamTime_known {pes : TsPes} (stream : pes.streamId = tsH264StreamId ∨ pes.streamId = tsAacStreamId)
    (videopts audiopts : UInt64) : ∃ time, streamTime pes videopts audiopts = some time := by
  rcases stream with stream | stream
  · exact ⟨_, by rw [streamTime, if_pos stream]⟩
  · exact ⟨_, by rw [streamTime, if_neg (by rw [stream]; decide), if_pos stream]⟩

/-- What has to hold of the packets that a call appends. -/
structure Packed (pid : UInt32) (c c' : ContinuityCounter) (packets : List (List UInt8)) (pesBytes : Nat) : Prop where
  whole : ∀ packet ∈ packets, packet.length = 188 ∧ packet.head? = some 0x47
  filled : ∀ packet ∈ packets, TransportPacket.hasAdaptation packet →
    5 + TransportPacket.byte packet 4 + (TransportPacket.payload packet).length = 188
  payload : ((ownPackets pid packets).flatMap TransportPacket.payload).length = pesBytes
  start : ∃ count, (ownPackets pid packets).map TransportPacket.unitStart = true :: List.replicate count false
  continuity : ∀ any counter, c.of any = some counter →
    (ownPackets any packets).map TransportPacket.continuity =
      (List.range (ownPackets any packets).length).map (fun i => (counter.toNat + i) % 16) ∧
    c'.of any = some (counter + UInt8.ofNat (ownPackets any packets).length)

theorem Carries.packed {m m' : Muxer} {packets : List Packet} {count : Nat} {payload : List UInt8}
    (carries : Carries pid m m' packets (true :: List.replicate count false) payload) :
    Packed pid m.continuityCounter m'.continuityCounter (packets.map Packet.bytes) payload.length where
  whole := by
    intro packet member
    obtain ⟨p, _, rfl⟩ := List.mem_map.mp member
    exact ⟨TransportPacket.length_bytes p, TransportPacket.head_bytes p⟩
  filled := by
    intro packet member adapted
    obtain ⟨p, _, rfl⟩ := List.mem_map.mp member
    rw [TransportPacket.hasAdaptation_bytes, Option.isSome_iff_exists] at adapted
    obtain ⟨field, adaptation⟩ := adapted
    have full := p.full
    rw [TransportPacket.byte_four p adaptation, TransportPacket.payload_bytes]
    rw [adaptation, Option.elim_some] at full
    omega
  payload := by rw [ownPackets_payload, carries.payload]
  start := by
    refine ⟨count, ?_⟩
    rw [ownPackets_bytes, List.map_map, ← carries.starts]
    exact List.map_congr_left fun p _ => TransportPacket.unitStart_bytes p
  continuity := by
    intro any counter value
    obtain ⟨counts, after⟩ := carries.emits.2.continuity value
    rw [ownPackets_bytes, List.map_map, List.length_map]
    refine ⟨Eq.trans (List.map_congr_left fun p _ => ?_) counts, after⟩
    exact TransportPacket.continuity_bytes p

/-- Every call ends, and its packets are whole, filled, marked and counted as they should be. -/
theorem pes2Ts_packets (media : Media pid) {head : TsAdaptationField} (written : WrittenField head)
    (tail : TsAdaptationField) (m : Muxer) {pes : TsPes}
    (stream : pes.streamId = tsH264StreamId ∨ pes.streamId = tsAacStreamId) (videopts audiopts : UInt64) :
    ∃ w packets, pes2Ts m pes pid head tail videopts audiopts = some w ∧ w.muxer.file = m.file ++ packets ∧
      Packed pid m.continuityCounter w.muxer.continuityCounter packets (14 + pes.pesPacketLengthBeyond) := by
  obtain ⟨time, timed⟩ := streamTime_known stream videopts audiopts
  obtain ⟨w, packets, count, ran, carries⟩ := @pes2Ts_carries pid media head tail written m pes videopts
    audiopts time timed
  have packed := carries.packed
  rw [List.length_append, List.length_append, length_streamTime timed, length_carried] at packed
  exact ⟨w, packets.map Packet.bytes, ran, carries.emits.1, packed⟩

/-- The fields of a PES before the first frame is put into it, and an adaptation field likewise. -/
def blankField : TsAdaptationField := ⟨0, 0, 0, 0, 0, 0, 0, 0, 0, 0, 0, 0, 0, []⟩

def blankPes : TsPes :=
  ⟨0, 0, 0, 0, 0, 0, 0, 0, 0, 0, 0, 0, 0, 0, 0, 0, 0, ⟨0, 0, 0, 0, 0, 0, 0⟩, fun _ => 0, 0⟩

def sampleFrame : List UInt8 := [0, 0, 0, 1, 0x65] ++ List.replicate 395 0x88

def samplePes : TsPes := h264Frame2Pes sampleFrame 3000 blankPes

theorem pes2Ts_packets_sample :
    ∃ w packets, pes2Ts ⟨⟨0, 0, 0, 0⟩, 0, []⟩ samplePes tsH264Pid (writeAdaptiveHeadFields blankField 3000)
      (writeAdaptiveTailFields blankField) 3000 0 = some w ∧ w.muxer.file = [] ++ packets ∧
      Packed tsH264Pid ⟨0, 0, 0, 0⟩ w.muxer.continuityCounter packets (14 + samplePes.pesPacketLengthBeyond) :=
  pes2Ts_packets (.inl rfl) (.inl ⟨blankField, 3000, rfl⟩) (writeAdaptiveTailFields blankField)
    ⟨⟨0, 0, 0, 0⟩, 0, []⟩ (.inl rfl) 3000 0

end LiveStreaming.HappyHls
