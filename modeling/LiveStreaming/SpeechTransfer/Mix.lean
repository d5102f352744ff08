import LiveStreaming.Library.CString
import LiveStreaming.Library.OrderedMap
import LiveStreaming.SpeechTransfer.Rtp

/-!
# Mixing the pooled packets

`do_mix_and_broadcast_S` empties the pool of speech packets. Where there is more than one speaker it decodes
one packet of each, mixes the samples and encodes the mixture, and one decoder and one encoder serve all.
-/

namespace LiveStreaming.SpeechTransfer
open Library

def complexity : Nat := 8
def minFrameSamp : Nat := 320
def maxPacket : Nat := 1500
def opusRtpBufferSize : Nat := 12 + 40

/-- What the program uses of the Opus library. A frame is decoded to two bytes a sample, and the encoder,
which is set to a constant bit rate of 8000, gives 40 bytes for its 320 samples. -/
structure Opus (δ ε : Type*) where
  packetGetNbChannels : List UInt8 → Nat
  packetGetNbSamples : List UInt8 → Option Nat
  decode : δ → List UInt8 → Nat → δ × Option (List UInt8)
  encode : ε → List UInt8 → ε × Option (List UInt8)
  constantBitRate : ∀ encoder pcm data, (encode encoder pcm).2 = some data → data.length = 40

variable {δ ε : Type*}

/-- The loop of `decode_opus_stream`: the samples written, and whether it ran to its end. -/
def decodeFrames (opus : Opus δ ε) (frameSize compressedSize maxSize : Nat) :
    Nat → δ → List UInt8 → List UInt8 → δ × List UInt8 × Bool
  | 0, decoder, _, pcmStream => (decoder, pcmStream, true)
  | frames + 1, decoder, data, pcmStream =>
    match opus.decode decoder (data.take compressedSize) frameSize with
    | (decoder, none) => (decoder, pcmStream, false)
    | (decoder, some pcm) =>
      if frameSize < pcm.length / 2 ∨ maxSize < (pcmStream ++ pcm).length / 2 then (decoder, pcmStream ++ pcm, false)
      else decodeFrames opus frameSize compressedSize maxSize frames decoder (data.drop compressedSize)
        (pcmStream ++ pcm)

/-- `decode_opus_stream` returns the number of samples, which is positive where this gives `true`. -/
def decodeOpusStream (opus : Opus δ ε) (decoder : δ) (data : List UInt8) (maxSize : Nat) : δ × List UInt8 × Bool :=
  match opus.packetGetNbSamples data with
  | none => (decoder, [], false)
  | some frameSize =>
    let compressedSize := frameSize * opus.packetGetNbChannels data / complexity
    if compressedSize = 0 then (decoder, [], false)
    else
      let (decoder, pcmStream, done) :=
        decodeFrames opus frameSize compressedSize maxSize (data.length / compressedSize) decoder data []
      (decoder, pcmStream, done && !pcmStream.isEmpty)

def signed (b : UInt8) : Int := if b < 128 then b.toNat else (b.toNat : Int) - 256

/-- One step of `generate_speech_mix`: the sum less the product over 32767, or plus it where both are
negative, without its fraction and cut down to a `char`. -/
def mixByte (a b : UInt8) : UInt8 :=
  let product := if signed a < 0 ∧ signed b < 0 then -(signed a * signed b) else signed a * signed b
  let mixed := (32767 * (signed a + signed b) - product).tdiv 32767
  UInt8.ofNat (mixed % 256).toNat

def generateSpeechMix (pcmBuffer1 pcmBuffer2 : List UInt8) : List UInt8 := List.zipWith mixByte pcmBuffer1 pcmBuffer2

/-- An array of 640 bytes after `written` has been stored at its start. -/
def pcmBuffer (written : List UInt8) (before : Nat → UInt8) : List UInt8 :=
  (List.range 640).map fun i => written.getD i (before i)

/-- What is in the two arrays of samples before anything is stored there. -/
structure Stack where
  decodedPcmBuffer1 : Nat → UInt8
  decodedPcmBuffer2 : Nat → UInt8

/-- The 40 bytes behind the RTP header of a packet. -/
def opusData (packet : List UInt8) : List UInt8 := (packet.drop rtpHeaderLeastSize).take 40

/-- The loop over the third and further packets. -/
def mixFurther (opus : Opus δ ε) (decoder : δ) (decodedPcmBuffer1 mixedPcmBuffer : List UInt8) :
    List (List UInt8) → δ × List UInt8
  | [] => (decoder, mixedPcmBuffer)
  | packet :: packets =>
    let (decoder, written, decoded) := decodeOpusStream opus decoder (opusData packet) minFrameSamp
    let decodedPcmBuffer1 := pcmBuffer written (decodedPcmBuffer1.getD · 0)
    if decoded then
      mixFurther opus decoder decodedPcmBuffer1 (generateSpeechMix decodedPcmBuffer1 mixedPcmBuffer) packets
    else mixFurther opus decoder decodedPcmBuffer1 mixedPcmBuffer packets

/-- The decoder and the encoder, and what has been handed to `broadcast_speech_message`: the speaker who is
left out and the datagram. -/
structure Flushed (δ ε : Type*) where
  decoder : δ
  encoder : ε
  broadcasts : List (List UInt8 × List UInt8)

def MIX : List UInt8 := CString.ascii "MIX"

/-- The results of the first two calls of `decode_opus_stream` are not looked at. -/
def mixPackets (opus : Opus δ ε) (f : Flushed δ ε) (stack : Stack) (time : UInt32) (first second : List UInt8)
    (packets : List (List UInt8)) : Flushed δ ε :=
  let (decoder, written, _) := decodeOpusStream opus f.decoder (opusData first) minFrameSamp
  let decodedPcmBuffer1 := pcmBuffer written stack.decodedPcmBuffer1
  let (decoder, written, _) := decodeOpusStream opus decoder (opusData second) minFrameSamp
  let decodedPcmBuffer2 := pcmBuffer written stack.decodedPcmBuffer2
  let (decoder, mixedPcmBuffer) :=
    mixFurther opus decoder decodedPcmBuffer1 (generateSpeechMix decodedPcmBuffer1 decodedPcmBuffer2) packets
  match opus.encode f.encoder mixedPcmBuffer with
  | (encoder, none) => { f with decoder, encoder }
  | (encoder, some data) =>
    { decoder
      encoder
      broadcasts := f.broadcasts ++ [(MIX, rtpPacketEncapsulate data { initReplyRtpHeader with timestamp := time })] }

/-- A speaker and the speaker's packets in the order of their time stamps. -/
abbrev Speaker := List UInt8 × List (List UInt8)

/-- The last speaker with one packet left. -/
def lastSpeaker (speakers : List Speaker) : List UInt8 :=
  ((speakers.filter fun s => s.2.length = 1).getLast?.map Prod.fst).getD (CString.ascii "127.0.0.1:12345")

/-- The rounds of `do_mix_and_broadcast_S`, each of which takes one packet of every speaker who has one left. -/
def mixRounds (opus : Opus δ ε) (stack : Nat → Stack) (time : UInt32) :
    Nat → List Speaker → Flushed δ ε → Flushed δ ε
  | 0, _, f => f
  | rounds + 1, speakers, f =>
    let rest := speakers.map fun s => (s.1, s.2.tail)
    match speakers.filterMap (·.2.head?) with
    | [] => mixRounds opus stack time rounds rest f
    | [packet] =>
      mixRounds opus stack time rounds rest { f with broadcasts := f.broadcasts ++ [(lastSpeaker speakers, packet)] }
    | first :: second :: packets =>
      mixRounds opus stack time rounds rest (mixPackets opus f (stack rounds) time first second packets)

def maxBufferSize (speakers : List Speaker) : Nat := speakers.foldl (fun n s => max n s.2.length) 0

/-- `do_mix_and_broadcast_S` on the packets of the pool. -/
def doMixAndBroadcastS (opus : Opus δ ε) (stack : Nat → Stack) (time : UInt32) (speakers : List Speaker) (decoder : δ)
    (encoder : ε) : Flushed δ ε :=
  match speakers with
  | [] => ⟨decoder, encoder, []⟩
  | [(id, packets)] => ⟨decoder, encoder, packets.map fun packet => (id, packet)⟩
  | speakers => mixRounds opus stack time (maxBufferSize speakers) speakers ⟨decoder, encoder, []⟩

/-! ### Where nothing uninitialised is mixed -/

/-- No further packet decodes to more than 320 samples. -/
def FurtherFit (opus : Opus δ ε) : δ → List (List UInt8) → Prop
  | _, [] => True
  | decoder, packet :: packets =>
    let (decoder, written, _) := decodeOpusStream opus decoder (opusData packet) minFrameSamp
    written.length ≤ 640 ∧ FurtherFit opus decoder packets

/-- The first two packets of a round decode to 320 samples each, and no other to more. -/
def FillsBuffers (opus : Opus δ ε) (decoder : δ) (first second : List UInt8) (packets : List (List UInt8)) : Prop :=
  let (decoder, written, _) := decodeOpusStream opus decoder (opusData first) minFrameSamp
  let (decoder, written', _) := decodeOpusStream opus decoder (opusData second) minFrameSamp
  written.length = 640 ∧ written'.length = 640 ∧ FurtherFit opus decoder packets

def RoundsFill (opus : Opus δ ε) (stack : Nat → Stack) (time : UInt32) : Nat → List Speaker → Flushed δ ε → Prop
  | 0, _, _ => True
  | rounds + 1, speakers, f =>
    let rest := speakers.map fun s => (s.1, s.2.tail)
    match speakers.filterMap (·.2.head?) with
    | [] => RoundsFill opus stack time rounds rest f
    | [packet] =>
      RoundsFill opus stack time rounds rest { f with broadcasts := f.broadcasts ++ [(lastSpeaker speakers, packet)] }
    | first :: second :: packets =>
      FillsBuffers opus f.decoder first second packets ∧
        RoundsFill opus stack time rounds rest (mixPackets opus f (stack rounds) time first second packets)

theorem pcmBuffer_filled {written : List UInt8} (full : written.length = 640) (before : Nat → UInt8) :
    pcmBuffer written before = written := by
  unfold pcmBuffer
  apply List.ext_getElem
  · rw [List.length_map, List.length_range, full]
  · intro i inside inside'
    rw [List.getElem_map, List.getElem_range, List.getD_eq_getElem?_getD, List.getElem?_eq_getElem inside']
    rfl

theorem mixPackets_filled {opus : Opus δ ε} {f : Flushed δ ε} {first second : List UInt8} {packets : List (List UInt8)}
    (fills : FillsBuffers opus f.decoder first second packets) (stack stack' : Stack) (time : UInt32) :
    mixPackets opus f stack time first second packets = mixPackets opus f stack' time first second packets := by
  unfold FillsBuffers at fills
  unfold mixPackets
  dsimp only at fills ⊢
  obtain ⟨one, two, _⟩ := fills
  rw [pcmBuffer_filled one, pcmBuffer_filled one, pcmBuffer_filled two, pcmBuffer_filled two]

theorem mixRounds_filled {opus : Opus δ ε} {stack : Nat → Stack} {time : UInt32} {rounds : Nat}
    {speakers : List Speaker} {f : Flushed δ ε} (fills : RoundsFill opus stack time rounds speakers f)
    (stack' : Nat → Stack) :
    mixRounds opus stack time rounds speakers f = mixRounds opus stack' time rounds speakers f := by
  induction rounds generalizing speakers f with
  | zero => rfl
  | succ rounds ih =>
    unfold RoundsFill at fills
    unfold mixRounds
    dsimp only at fills ⊢
    split at fills
    · exact ih fills
    · exact ih fills
    · obtain ⟨buffers, rest⟩ := fills
      rw [mixPackets_filled buffers (stack' rounds) (stack rounds)]
      exact ih rest

end LiveStreaming.SpeechTransfer
