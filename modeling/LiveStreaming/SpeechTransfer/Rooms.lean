import LiveStreaming.SpeechTransfer.Transfer

/-!
# Rooms apart

What the members of a room are sent, against what they would be sent by a server that had their room only.
-/

namespace LiveStreaming.SpeechTransfer
open Library

variable {δ ε : Type*} {opus : Opus δ ε} {decoder : δ} {encoder : ε}

/-! ### A server for one room -/

/-- Its memory and its arrays of samples hold nothing but what has been received and decoded. -/
def serve (opus : Opus δ ε) (server : Mixer δ ε × List (ID × List UInt8)) (spoken : Spoken) :
    Mixer δ ε × List (ID × List UInt8) :=
  let (mixer, sent) :=
    server.1.handleSpeech opus (receivedInto (fun _ => 0) spoken.rtpPacket) (fun _ => ⟨fun _ => 0, fun _ => 0⟩) spoken
  (mixer, server.2 ++ sent)

def ownServer (opus : Opus δ ε) (decoder : δ) (encoder : ε) (spoken : List Spoken) :
    Mixer δ ε × List (ID × List UInt8) :=
  spoken.foldl (serve opus) (.start decoder encoder, [])

/-- Every room is sent what its own server would send it. -/
def OwnSpeech (opus : Opus δ ε) (decoder : δ) (encoder : ε) (s : Transfer δ ε) : Prop :=
  ∀ channel, s.heard channel = (ownServer opus decoder encoder (s.spoken channel)).2

/-- For a datagram from a member of a room: nothing behind it is read as its header. Where it is taken for speech it
has all the bytes that are passed on, the pool holds no other room's packets, and the room's own clock says as the
common one whether they are to be sent. Where they are to be mixed, no other room's have been, and the decoded
samples fill their arrays. -/
def Apart (opus : Opus δ ε) (s : Transfer δ ε) : Event → Prop
  | .request _ _ => True
  | .speech id rtpPacket garbage now time stack =>
    let rtpPacket := rtpPacket.take signallingBufferSize
    let memory := receivedInto garbage rtpPacket
    ∀ channel clients, roomOf s.chatRoom id = some (channel, clients) →
      speechTimestamp memory rtpPacket.length =
        speechTimestamp (receivedInto (fun _ => 0) rtpPacket) rtpPacket.length ∧
      ∀ timestamp, speechTimestamp memory rtpPacket.length = some timestamp →
        let sorpPool := insertPacket s.mixer.sorpPool id timestamp (pooledBytes memory)
        rtpHeaderSize + opusRtpBufferSize ≤ rtpPacket.length ∧ (∀ other ∈ s.pooled, other = channel) ∧
        elapsed s.mixer.prev now = elapsed (s.clocks channel) now ∧
        (elapsed s.mixer.prev now → 1 < sorpPool.entries.length →
          (∀ other ∈ s.mixed, other = channel) ∧
          RoundsFill opus stack time (maxBufferSize (speakers sorpPool)) (speakers sorpPool)
            ⟨s.mixer.opusDecoder, s.mixer.opusEncoder, []⟩)

/-! ### One datagram -/

theorem pooledBytes_received {rtpPacket : List UInt8} (whole : rtpHeaderSize + opusRtpBufferSize ≤ rtpPacket.length)
    (garbage garbage' : Nat → UInt8) :
    pooledBytes (receivedInto garbage rtpPacket) = pooledBytes (receivedInto garbage' rtpPacket) := by
  unfold pooledBytes
  apply List.map_congr_left
  intro i inside
  have bound : i < rtpPacket.length := lt_of_lt_of_le (List.mem_range'_1.mp inside).2 whole
  unfold receivedInto
  rw [List.getD_eq_getElem?_getD, List.getD_eq_getElem?_getD, List.getElem?_eq_getElem bound]
  rfl

section Flush

variable {speakers : List Speaker}

theorem doMixAndBroadcastS_few (few : ¬ 1 < speakers.length) :
    ∃ broadcasts, ∀ stack time decoder encoder,
      doMixAndBroadcastS opus stack time speakers decoder encoder = ⟨decoder, encoder, broadcasts⟩ := by
  rcases speakers with _ | ⟨speaker, _ | ⟨second, rest⟩⟩
  · exact ⟨_, fun _ _ _ _ => rfl⟩
  · exact ⟨_, fun _ _ _ _ => rfl⟩
  · exact absurd (by simp) few

theorem doMixAndBroadcastS_filled {stack : Nat → Stack} {time : UInt32}
    (fills : RoundsFill opus stack time (maxBufferSize speakers) speakers ⟨decoder, encoder, []⟩)
    (stack' : Nat → Stack) :
    doMixAndBroadcastS opus stack time speakers decoder encoder =
      doMixAndBroadcastS opus stack' time speakers decoder encoder := by
  unfold doMixAndBroadcastS
  split
  · rfl
  · rfl
  · exact mixRounds_filled fills stack'

end Flush

section Handling

variable {m : Mixer δ ε} {memory : Nat → UInt8} {stack : Nat → Stack} {spoken : Spoken} {timestamp : Nat}

theorem handleSpeech_ignored (other : speechTimestamp memory spoken.rtpPacket.length = none) :
    m.handleSpeech opus memory stack spoken = (m, []) := by
  unfold Mixer.handleSpeech
  rw [other]

theorem handleSpeech_waits (taken : speechTimestamp memory spoken.rtpPacket.length = some timestamp)
    (early : elapsed m.prev spoken.now = false) :
    m.handleSpeech opus memory stack spoken =
      ({ m with
        sorpPool := insertPacket m.sorpPool spoken.speaker timestamp (pooledBytes memory)
        prev := some (m.prev.getD spoken.now) }, []) := by
  unfold Mixer.handleSpeech
  rw [taken]
  dsimp only
  rw [if_neg (by rw [early]; decide)]

theorem handleSpeech_flushes (taken : speechTimestamp memory spoken.rtpPacket.length = some timestamp)
    (due : elapsed m.prev spoken.now = true) {flushed : Flushed δ ε}
    (result : doMixAndBroadcastS opus stack spoken.time
      (speakers (insertPacket m.sorpPool spoken.speaker timestamp (pooledBytes memory))) m.opusDecoder m.opusEncoder =
        flushed) :
    m.handleSpeech opus memory stack spoken =
      (⟨.empty, some spoken.now, flushed.decoder, flushed.encoder⟩,
        flushed.broadcasts.flatMap fun sent => broadcastSpeechMessage spoken.clients sent.2 sent.1) := by
  unfold Mixer.handleSpeech
  rw [taken]
  dsimp only
  rw [if_pos due, result]

end Handling

section Datagram

variable {s : Transfer δ ε} {id : ID} {rtpPacket : List UInt8} {garbage : Nat → UInt8} {now : UInt64} {time : UInt32}
  {stack : Nat → Stack} {channel : Channel} {clients : Clients} {timestamp : Nat}

/-- What is recorded of a datagram. -/
abbrev heardFrom (id : ID) (rtpPacket : List UInt8) (now : UInt64) (time : UInt32) (clients : Clients) : Spoken :=
  ⟨id, rtpPacket.take signallingBufferSize, now, time, clients.entries.map Prod.fst⟩

theorem handleUdpMsg_ignored (found : roomOf s.chatRoom id = some (channel, clients))
    (other : speechTimestamp (receivedInto garbage (rtpPacket.take signallingBufferSize))
      (rtpPacket.take signallingBufferSize).length = none) :
    s.handleUdpMsg opus (.speech id rtpPacket garbage now time stack) =
      s.recordSpeech channel (heardFrom id rtpPacket now time clients) [] := by
  unfold Transfer.handleUdpMsg
  dsimp only
  rw [found]
  dsimp only
  rw [handleSpeech_ignored other, other]

theorem handleUdpMsg_waits (found : roomOf s.chatRoom id = some (channel, clients))
    (taken : speechTimestamp (receivedInto garbage (rtpPacket.take signallingBufferSize))
      (rtpPacket.take signallingBufferSize).length = some timestamp)
    (early : elapsed s.mixer.prev now = false) :
    ∃ mixing, s.handleUdpMsg opus (.speech id rtpPacket garbage now time stack) =
      ({ s with
        mixer := { s.mixer with
          sorpPool := insertPacket s.mixer.sorpPool id timestamp
            (pooledBytes (receivedInto garbage (rtpPacket.take signallingBufferSize)))
          prev := some (s.mixer.prev.getD now) } }.recordSpeech channel (heardFrom id rtpPacket now time clients)
        []).recordTaken channel now false mixing := by
  unfold Transfer.handleUdpMsg
  dsimp only
  rw [found]
  dsimp only
  rw [@handleSpeech_waits δ ε opus s.mixer _ stack (heardFrom id rtpPacket now time clients) timestamp taken early,
    taken,
    early]
  exact ⟨_, rfl⟩

theorem handleUdpMsg_flushes (found : roomOf s.chatRoom id = some (channel, clients))
    (taken : speechTimestamp (receivedInto garbage (rtpPacket.take signallingBufferSize))
      (rtpPacket.take signallingBufferSize).length = some timestamp)
    (due : elapsed s.mixer.prev now = true) {flushed : Flushed δ ε} {sorpPool : SpeakersOpusRtpPacketsPool}
    (pool : insertPacket s.mixer.sorpPool id timestamp
      (pooledBytes (receivedInto garbage (rtpPacket.take signallingBufferSize))) = sorpPool)
    (result : doMixAndBroadcastS opus stack time (speakers sorpPool) s.mixer.opusDecoder s.mixer.opusEncoder =
      flushed) :
    s.handleUdpMsg opus (.speech id rtpPacket garbage now time stack) =
      ({ s with mixer := ⟨.empty, some now, flushed.decoder, flushed.encoder⟩ }.recordSpeech channel
        (heardFrom id rtpPacket now time clients)
        (flushed.broadcasts.flatMap fun (sent : ID × List UInt8) =>
          broadcastSpeechMessage (clients.entries.map Prod.fst) sent.2 sent.1)).recordTaken channel now true
        (1 < sorpPool.entries.length) := by
  subst pool
  unfold Transfer.handleUdpMsg
  dsimp only
  rw [found]
  dsimp only
  rw [@handleSpeech_flushes δ ε opus s.mixer _ stack (heardFrom id rtpPacket now time clients) timestamp
    taken due _ result,
    taken, due]

end Datagram

/-! ### The invariant -/

structure Isolated (opus : Opus δ ε) (decoder : δ) (encoder : ε) (s : Transfer δ ε) : Prop where
  heard : OwnSpeech opus decoder encoder s
  clock : ∀ channel, (ownServer opus decoder encoder (s.spoken channel)).1.prev = s.clocks channel
  pool : ∀ channel, (ownServer opus decoder encoder (s.spoken channel)).1.sorpPool =
    if channel ∈ s.pooled then s.mixer.sorpPool else .empty
  drained : s.pooled = [] → s.mixer.sorpPool = .empty
  codec : ∀ channel, (∀ other ∈ s.mixed, other = channel) →
    (ownServer opus decoder encoder (s.spoken channel)).1.opusDecoder = s.mixer.opusDecoder ∧
      (ownServer opus decoder encoder (s.spoken channel)).1.opusEncoder = s.mixer.opusEncoder

theorem start_isolated : Isolated opus decoder encoder (.start decoder encoder) :=
  ⟨fun _ => rfl, fun _ => rfl, fun _ => rfl, fun _ => rfl, fun _ _ => ⟨rfl, rfl⟩⟩

theorem ownServer_snoc (spoken : List Spoken) (next : Spoken) :
    ownServer opus decoder encoder (spoken ++ [next]) = serve opus (ownServer opus decoder encoder spoken) next := by
  unfold ownServer
  rw [List.foldl_append]
  rfl

/-- While the pool has nothing of another room in it, the room's own server has the same pool. -/
theorem Isolated.own_pool {s : Transfer δ ε} (isolated : Isolated opus decoder encoder s) {channel : Channel}
    (only : ∀ other ∈ s.pooled, other = channel) :
    (ownServer opus decoder encoder (s.spoken channel)).1.sorpPool = s.mixer.sorpPool := by
  rw [isolated.pool]
  split
  · rfl
  · next absent =>
    have empty : s.pooled = [] := List.eq_nil_iff_forall_not_mem.mpr fun other member =>
      absent (only other member ▸ member)
    exact (isolated.drained empty).symm

section Step

variable {s s' : Transfer δ ε} {channel : Channel} {spoken : Spoken} {sent : List (ID × List UInt8)} {own : Mixer δ ε}

/-- A datagram from a member of `channel`: what its own server does with it, and what has to be known about the
others. -/
theorem Isolated.spoke (isolated : Isolated opus decoder encoder s)
    (served : (ownServer opus decoder encoder (s.spoken channel)).1.handleSpeech opus
      (receivedInto (fun _ => 0) spoken.rtpPacket) (fun _ => ⟨fun _ => 0, fun _ => 0⟩) spoken = (own, sent))
    (records : s'.spoken = Function.update s.spoken channel (s.spoken channel ++ [spoken]) ∧
      s'.heard = Function.update s.heard channel (s.heard channel ++ sent))
    (clock : own.prev = s'.clocks channel) (clocks : ∀ other, other ≠ channel → s'.clocks other = s.clocks other)
    (pool : own.sorpPool = if channel ∈ s'.pooled then s'.mixer.sorpPool else .empty)
    (pools : ∀ other, other ≠ channel → (if other ∈ s.pooled then s.mixer.sorpPool else .empty) =
      if other ∈ s'.pooled then s'.mixer.sorpPool else .empty)
    (drained : s'.pooled = [] → s'.mixer.sorpPool = .empty)
    (codec : (∀ other ∈ s'.mixed, other = channel) →
      own.opusDecoder = s'.mixer.opusDecoder ∧ own.opusEncoder = s'.mixer.opusEncoder)
    (codecs : ∀ other, other ≠ channel → (∀ r ∈ s'.mixed, r = other) → (∀ r ∈ s.mixed, r = other) ∧
      s.mixer.opusDecoder = s'.mixer.opusDecoder ∧ s.mixer.opusEncoder = s'.mixer.opusEncoder) :
    Isolated opus decoder encoder s' := by
  have mine : ownServer opus decoder encoder (s'.spoken channel) =
      (own, (ownServer opus decoder encoder (s.spoken channel)).2 ++ sent) := by
    rw [records.1, Function.update_self, ownServer_snoc]
    unfold serve
    rw [served]
  have others : ∀ other, other ≠ channel → s'.spoken other = s.spoken other := by
    intro other different
    rw [records.1, Function.update_of_ne different]
  refine ⟨fun other => ?_, fun other => ?_, fun other => ?_, drained, fun other only => ?_⟩ <;>
    by_cases same : other = channel
  · subst same
    rw [mine, records.2, Function.update_self, isolated.heard]
  · rw [others other same, records.2, Function.update_of_ne same, isolated.heard]
  · subst same
    rw [mine, clock]
  · rw [others other same, clocks other same, isolated.clock]
  · subst same
    rw [mine, pool]
  · rw [others other same, isolated.pool, pools other same]
  · subst same
    rw [mine]
    exact codec only
  · obtain ⟨before, same_decoder, same_encoder⟩ := codecs other same only
    rw [others other same, (isolated.codec other before).1, (isolated.codec other before).2]
    exact ⟨same_decoder, same_encoder⟩

variable {memory : Nat → UInt8} {stack : Nat → Stack} {timestamp : Nat}

theorem Isolated.ignored (isolated : Isolated opus decoder encoder s)
    (other : speechTimestamp (receivedInto (fun _ => 0) spoken.rtpPacket) spoken.rtpPacket.length = none) :
    Isolated opus decoder encoder (s.recordSpeech channel spoken []) :=
  isolated.spoke (handleSpeech_ignored other) ⟨rfl, rfl⟩ (isolated.clock channel) (fun _ _ => rfl)
    (isolated.pool channel) (fun _ _ => rfl) isolated.drained (isolated.codec channel)
    fun _ _ only => ⟨only, rfl, rfl⟩

theorem pools_of_only {pool pool' : SpeakersOpusRtpPacketsPool} {pooled pooled' : List Channel}
    (only : ∀ other ∈ pooled, other = channel) (only' : ∀ other ∈ pooled', other = channel) (other : Channel)
    (different : other ≠ channel) :
    (if other ∈ pooled then pool else .empty) = if other ∈ pooled' then pool' else .empty := by
  rw [if_neg fun member => different (only other member), if_neg fun member => different (only' other member)]

theorem Isolated.waits (isolated : Isolated opus decoder encoder s)
    (taken : speechTimestamp (receivedInto (fun _ => 0) spoken.rtpPacket) spoken.rtpPacket.length = some timestamp)
    (only : ∀ other ∈ s.pooled, other = channel) (early : elapsed s.mixer.prev spoken.now = false)
    (clocks : elapsed s.mixer.prev spoken.now = elapsed (s.clocks channel) spoken.now) (mixing : Bool) :
    Isolated opus decoder encoder
      (({ s with
        mixer := { s.mixer with
          sorpPool := insertPacket s.mixer.sorpPool spoken.speaker timestamp
            (pooledBytes (receivedInto (fun _ => 0) spoken.rtpPacket))
          prev := some (s.mixer.prev.getD spoken.now) } }.recordSpeech channel spoken []).recordTaken channel spoken.now
        false mixing) := by
  have own_early : elapsed (ownServer opus decoder encoder (s.spoken channel)).1.prev spoken.now = false := by
    rw [isolated.clock, ← clocks, early]
  refine isolated.spoke (handleSpeech_waits taken own_early) ⟨rfl, rfl⟩ ?_ ?_ ?_ ?_ ?_ (isolated.codec channel)
    fun _ _ only => ⟨only, rfl, rfl⟩
  · rw [isolated.clock]
    exact (Function.update_self channel _ s.clocks).symm
  · exact fun other different => Function.update_of_ne different _ s.clocks
  · rw [isolated.own_pool only]
    exact (if_pos List.mem_cons_self).symm
  · exact pools_of_only only fun other member => (List.mem_cons.mp member).elim id (only other)
  · exact fun none_ => absurd none_ (List.cons_ne_nil _ _)

/-- The pool is emptied. `flushed` is what the common decoder and encoder make of it, `own` what the room's own do. -/
theorem Isolated.flushes (isolated : Isolated opus decoder encoder s) {flushed own : Flushed δ ε} {mixing : Bool}
    (taken : speechTimestamp (receivedInto (fun _ => 0) spoken.rtpPacket) spoken.rtpPacket.length = some timestamp)
    (only : ∀ other ∈ s.pooled, other = channel) (due : elapsed s.mixer.prev spoken.now = true)
    (clocks : elapsed s.mixer.prev spoken.now = elapsed (s.clocks channel) spoken.now)
    (result : doMixAndBroadcastS opus (fun _ => ⟨fun _ => 0, fun _ => 0⟩) spoken.time
      (speakers (insertPacket s.mixer.sorpPool spoken.speaker timestamp
        (pooledBytes (receivedInto (fun _ => 0) spoken.rtpPacket))))
      (ownServer opus decoder encoder (s.spoken channel)).1.opusDecoder
      (ownServer opus decoder encoder (s.spoken channel)).1.opusEncoder = own)
    (broadcasts : own.broadcasts = flushed.broadcasts)
    (codec : if mixing then own.decoder = flushed.decoder ∧ own.encoder = flushed.encoder ∧
        ∀ other ∈ s.mixed, other = channel
      else flushed.decoder = s.mixer.opusDecoder ∧ flushed.encoder = s.mixer.opusEncoder ∧
        own.decoder = (ownServer opus decoder encoder (s.spoken channel)).1.opusDecoder ∧
        own.encoder = (ownServer opus decoder encoder (s.spoken channel)).1.opusEncoder) :
    Isolated opus decoder encoder
      (({ s with mixer := ⟨.empty, some spoken.now, flushed.decoder, flushed.encoder⟩ }.recordSpeech channel spoken
        (flushed.broadcasts.flatMap fun (sent : ID × List UInt8) =>
          broadcastSpeechMessage spoken.clients sent.2 sent.1)).recordTaken channel spoken.now true mixing) := by
  have own_due : elapsed (ownServer opus decoder encoder (s.spoken channel)).1.prev spoken.now = true := by
    rw [isolated.clock, ← clocks, due]
  rw [← isolated.own_pool only] at result
  have served := handleSpeech_flushes taken own_due result
  rw [broadcasts] at served
  refine isolated.spoke served ⟨rfl, rfl⟩ ?_ ?_ ?_ ?_ (fun _ => rfl) ?_ ?_
  · exact (Function.update_self channel _ s.clocks).symm
  · exact fun other different => Function.update_of_ne different _ s.clocks
  · exact (if_neg List.not_mem_nil).symm
  · exact pools_of_only only fun _ member => absurd member List.not_mem_nil
  · intro after
    cases mixing with
    | true => exact ⟨codec.1, codec.2.1⟩
    | false =>
      obtain ⟨same_decoder, same_encoder, own_decoder, own_encoder⟩ := codec
      have before := isolated.codec channel after
      exact ⟨own_decoder.trans (before.1.trans same_decoder.symm), own_encoder.trans (before.2.trans same_encoder.symm)⟩
  · intro other different after
    cases mixing with
    | true => exact absurd (after channel (List.mem_append_left _ List.mem_cons_self)).symm different
    | false => exact ⟨after, codec.1.symm, codec.2.1.symm⟩

end Step

theorem length_speakers (pool : SpeakersOpusRtpPacketsPool) : (speakers pool).length = pool.entries.length :=
  List.length_map _

theorem step_isolated {s s' : Transfer δ ε} {e : Event} (isolated : Isolated opus decoder encoder s)
    (apart : Apart opus s e) (next : step opus s e = some s') : Isolated opus decoder encoder s' := by
  obtain rfl := Option.some.inj next
  cases e with
  | request id request =>
    exact ⟨isolated.heard, isolated.clock, isolated.pool, isolated.drained, isolated.codec⟩
  | speech id rtpPacket garbage now time stack =>
    cases found : roomOf s.chatRoom id with
    | none =>
      unfold Transfer.handleUdpMsg
      dsimp only
      rw [found]
      exact isolated
    | some room =>
      obtain ⟨channel, clients⟩ := room
      obtain ⟨same, taken⟩ := apart channel clients found
      cases parsed : speechTimestamp (receivedInto garbage (rtpPacket.take signallingBufferSize))
        (rtpPacket.take signallingBufferSize).length with
      | none =>
        rw [handleUdpMsg_ignored found parsed]
        exact isolated.ignored (same.symm.trans parsed)
      | some timestamp =>
        obtain ⟨whole, only, clocks, mixing⟩ := taken timestamp parsed
        have bytes := pooledBytes_received whole garbage fun _ => 0
        have alone := same.symm.trans parsed
        cases due : elapsed s.mixer.prev now with
        | false =>
          obtain ⟨mixing, after⟩ := @handleUdpMsg_waits δ ε opus s id rtpPacket garbage now time stack channel clients
            timestamp found parsed due
          rw [after, bytes]
          exact @Isolated.waits δ ε opus decoder encoder s channel (heardFrom id rtpPacket now time clients) timestamp
            isolated alone only due clocks mixing
        | true =>
          generalize pool : insertPacket s.mixer.sorpPool id timestamp (pooledBytes (receivedInto garbage
            (rtpPacket.take signallingBufferSize))) = sorpPool at mixing
          generalize result : doMixAndBroadcastS opus stack time (speakers sorpPool) s.mixer.opusDecoder
            s.mixer.opusEncoder = flushed
          rw [handleUdpMsg_flushes found parsed due pool result]
          rw [bytes] at pool
          subst pool
          by_cases many : 1 < (insertPacket s.mixer.sorpPool id timestamp (pooledBytes (receivedInto (fun _ => 0)
            (rtpPacket.take signallingBufferSize)))).entries.length
          · obtain ⟨before, fills⟩ := mixing due many
            obtain ⟨same_decoder, same_encoder⟩ := isolated.codec channel before
            rw [doMixAndBroadcastS_filled fills fun _ => ⟨fun _ => 0, fun _ => 0⟩, ← same_decoder,
              ← same_encoder] at result
            rw [decide_eq_true many]
            exact @Isolated.flushes δ ε opus decoder encoder s channel
              (heardFrom id rtpPacket now time clients) timestamp
              isolated flushed flushed true alone only due clocks result rfl ⟨rfl, rfl, before⟩
          · obtain ⟨broadcasts, few⟩ := @doMixAndBroadcastS_few δ ε opus _ (length_speakers _ ▸ many)
            obtain rfl := (few _ _ _ _).symm.trans result
            rw [decide_eq_false many]
            exact @Isolated.flushes δ ε opus decoder encoder s channel
              (heardFrom id rtpPacket now time clients) timestamp
              isolated _ _ false alone only due clocks (few _ _ _ _) rfl ⟨rfl, rfl, rfl, rfl⟩

/-! ### Runs -/

theorem speech_stays_in_room {s : Transfer δ ε}
    (run : Transition.Reach (step opus) (Apart opus) (.start decoder encoder) s) : OwnSpeech opus decoder encoder s :=
  (run.invariant start_isolated fun _ _ _ isolated apart next => step_isolated isolated apart next).heard

def samplePacket (timestamp speech : UInt8) : List UInt8 :=
  List.replicate 12 0 ++ [0x80, 0, 0, 0, 0, 0, 0, timestamp, 0, 0, 0, 0] ++ List.replicate 40 speech

def sampleSpeech (id : ID) (timestamp speech : UInt8) (now : UInt64) : Event :=
  .speech id (samplePacket timestamp speech) (fun _ => 0) now 0 fun _ => ⟨fun _ => 0, fun _ => 0⟩

theorem sampleSpeech_apart {s : Transfer δ ε} {id : ID} {timestamp speech : UInt8} {now : UInt64}
    {channel : Channel} {n : Nat}
    (room : (roomOf s.chatRoom id).map Prod.fst = some channel)
    (taken : speechTimestamp (receivedInto (fun _ => 0) (samplePacket timestamp speech)) 64 = some n)
    (only : ∀ other ∈ s.pooled, other = channel) (clocks : elapsed s.mixer.prev now = elapsed (s.clocks channel) now)
    (one : ¬ 1 < (insertPacket s.mixer.sorpPool id n ((samplePacket timestamp speech).drop 12)).entries.length) :
    Apart opus s (sampleSpeech id timestamp speech now) := by
  intro found clients here
  rw [here] at room
  obtain rfl := Option.some.inj room
  refine ⟨rfl, fun m again => ⟨le_of_eq rfl, only, clocks, fun _ many => ?_⟩⟩
  obtain rfl := Option.some.inj (again.symm.trans taken)
  exact absurd many one

def deafOpus : Opus Unit Unit where
  packetGetNbChannels := fun _ => 1
  packetGetNbSamples := fun _ => none
  decode := fun _ _ _ => ((), none)
  encode := fun _ _ => ((), none)
  constantBitRate := fun _ _ _ encoded => by cases encoded

/-- The first room's packets have been sent when the second room speaks. -/
theorem speech_stays_in_room_sample : ∃ s, OwnSpeech deafOpus () () s ∧
    s.heard [11] = [([3], (samplePacket 1 5).drop 12), ([3], (samplePacket 2 6).drop 12)] ∧
    (s.spoken [12]).map Spoken.speaker = [[2]] := by
  have own := @speech_stays_in_room _ _ deafOpus () () _ <|
    .tail (e := sampleSpeech [2] 1 7 400000) (.tail (e := sampleSpeech [1] 2 6 300000)
      (.tail (e := sampleSpeech [1] 1 5 0) (.tail (e := .request [2] ⟨.CAMERA, .join, [12]⟩)
        (.tail (e := .request [3] ⟨.PC, .join, [11]⟩)
          (.tail (e := .request [1] ⟨.CAMERA, .join, [11]⟩) .refl trivial rfl)
          trivial rfl) trivial rfl)
        (@sampleSpeech_apart _ _ _ _ _ _ _ _ [11] 1 (by decide) (by decide) (by decide)
          (by decide) (by decide)) rfl)
      (@sampleSpeech_apart _ _ _ _ _ _ _ _ [11] 2 (by decide) (by decide) (by decide)
        (by decide) (by decide)) rfl)
    (@sampleSpeech_apart _ _ _ _ _ _ _ _ [12] 1 (by decide) (by decide) (by decide)
      (by decide) (by decide)) rfl
  exact ⟨_, own, by decide, by decide⟩

/-- A camera has created a room, and another camera a second one, which a third client has joined. -/
def twoRooms : OrderedMap Channel Clients :=
  handleRequest (handleRequest (handleRequest .empty [1] ⟨.CAMERA, .join, [11]⟩) [2] ⟨.CAMERA, .join, [12]⟩) [3]
    ⟨.PC, .join, [12]⟩

def opening : List Event :=
  [.request [1] ⟨.CAMERA, .join, [11]⟩, .request [2] ⟨.CAMERA, .join, [12]⟩, .request [3] ⟨.PC, .join, [12]⟩]

/-- The first room's two packets are in the pool when the second room speaks. -/
def crosstalk : List Event :=
  opening ++ [sampleSpeech [1] 1 5 0, sampleSpeech [1] 2 6 100000, sampleSpeech [2] 1 7 300000]

/-- The first speaker's packets `packets` are waiting, and the second room has been silent. -/
def Waiting (packets : SpeakersOpusRtpPacketsPool) (decoder : δ) (encoder : ε) (s : Transfer δ ε) : Prop :=
  s.chatRoom = twoRooms ∧ s.mixer = ⟨packets, some 0, decoder, encoder⟩ ∧ s.spoken [12] = [] ∧ s.heard [12] = []

theorem first_waits (opus : Opus δ ε) (decoder : δ) (encoder : ε) :
    Waiting (insertPacket .empty [1] 1 ((samplePacket 1 5).drop 12)) decoder encoder
      (Transfer.handleUdpMsg opus { Transfer.start decoder encoder with chatRoom := twoRooms }
        (sampleSpeech [1] 1 5 0)) := by
  obtain ⟨mixing, after⟩ := @handleUdpMsg_waits δ ε opus
    { Transfer.start decoder encoder with chatRoom := twoRooms } [1]
    (samplePacket 1 5) (fun _ => 0) 0 0 (fun _ => ⟨fun _ => 0, fun _ => 0⟩) [11] _ 1 rfl rfl rfl
  unfold sampleSpeech
  rw [after]
  exact ⟨rfl, rfl, rfl, rfl⟩

theorem second_waits {s : Transfer δ ε} {packets : SpeakersOpusRtpPacketsPool}
    (waiting : Waiting packets decoder encoder s) :
    Waiting (insertPacket packets [1] 2 ((samplePacket 2 6).drop 12)) decoder encoder
      (s.handleUdpMsg opus (sampleSpeech [1] 2 6 100000)) := by
  obtain ⟨rooms, mixer, spoken, heard⟩ := waiting
  obtain ⟨mixing, after⟩ := @handleUdpMsg_waits δ ε opus s [1] (samplePacket 2 6) (fun _ => 0) 100000 0
    (fun _ => ⟨fun _ => 0, fun _ => 0⟩) [11] (OrderedMap.empty.set [1] ()) 2
      (by rw [rooms]; rfl) rfl (by rw [mixer]; rfl)
  unfold sampleSpeech
  rw [after, mixer]
  exact ⟨rooms, rfl, spoken, heard⟩

def crosstalkPool : SpeakersOpusRtpPacketsPool :=
  insertPacket (insertPacket (insertPacket .empty [1] 1 ((samplePacket 1 5).drop 12)) [1] 2
    ((samplePacket 2 6).drop 12)) [2] 1 ((samplePacket 1 7).drop 12)

theorem speakers_crosstalkPool : speakers crosstalkPool =
    [([1], [(samplePacket 1 5).drop 12, (samplePacket 2 6).drop 12]), ([2], [(samplePacket 1 7).drop 12])] := by
  decide

/-- Whatever the codec makes of the first packets, the second is sent to the other room as it is. -/
theorem crosstalk_heard (opus : Opus δ ε) (decoder : δ) (encoder : ε) :
    ∃ s, Transition.exec (step opus) (.start decoder encoder) crosstalk = some s ∧
      ([3], (samplePacket 2 6).drop 12) ∈ s.heard [12] ∧ (ownServer opus decoder encoder (s.spoken [12])).2 = [] := by
  obtain ⟨rooms, mixer, spoken, heard⟩ := @second_waits δ ε opus decoder encoder _ _ (first_waits opus decoder encoder)
  refine ⟨Transfer.handleUdpMsg opus (Transfer.handleUdpMsg opus (Transfer.handleUdpMsg opus
    { Transfer.start decoder encoder with chatRoom := twoRooms } (sampleSpeech [1] 1 5 0))
      (sampleSpeech [1] 2 6 100000))
    (sampleSpeech [2] 1 7 300000), rfl, ?_⟩
  generalize Transfer.handleUdpMsg opus (Transfer.handleUdpMsg opus _ _) (sampleSpeech [1] 2 6 100000) = s at *
  obtain ⟨broadcasts, mixed⟩ : ∃ broadcasts, (doMixAndBroadcastS opus (fun _ => ⟨fun _ => 0, fun _ => 0⟩) 0
      [([1], [(samplePacket 1 5).drop 12, (samplePacket 2 6).drop 12]), ([2], [(samplePacket 1 7).drop 12])] decoder
      encoder).broadcasts = broadcasts ++ [([1], (samplePacket 2 6).drop 12)] := ⟨_, rfl⟩
  have after := @handleUdpMsg_flushes δ ε opus s [2] (samplePacket 1 7) (fun _ => 0) 300000 0
    (fun _ => ⟨fun _ => 0, fun _ => 0⟩) [12] ((OrderedMap.empty.set [2] ()).set [3] ()) 1 (by rw [rooms]; rfl) rfl
    (by rw [mixer]; rfl) _ crosstalkPool (by rw [mixer]; rfl) (by rw [speakers_crosstalkPool, mixer])
  unfold sampleSpeech
  rw [after]
  constructor
  · change _ ∈ s.heard [12] ++ List.flatMap _ _
    rw [heard, mixed, List.flatMap_append]
    exact List.mem_append_right _ (List.mem_append_right _ (by decide))
  · change (ownServer opus decoder encoder (s.spoken [12] ++ [_])).2 = []
    rw [spoken]
    rfl

theorem pool_of_all_rooms : ¬ ∃ (δ ε : Type) (opus : Opus δ ε) (decoder : δ) (encoder : ε), ∀ s,
    Transition.Reach (step opus) (fun _ _ => True) (.start decoder encoder) s → OwnSpeech opus decoder encoder s := by
  rintro ⟨δ, ε, opus, decoder, encoder, own⟩
  obtain ⟨s, ran, heard, silent⟩ := crosstalk_heard opus decoder encoder
  have nothing := own s (Transition.reach_of_exec .refl (fun _ _ _ => trivial) ran) [12]
  rw [nothing, silent] at heard
  cases heard

end LiveStreaming.SpeechTransfer
