import LiveStreaming.Library.Transition
import LiveStreaming.SpeechTransfer.Mix

/-!
# The speech transfer server

`handle_udp_msg`: requests make and unmake the chat rooms, and speech goes through one pool on its way to the
members of the speaker's room.
-/

namespace LiveStreaming.SpeechTransfer
open Library

abbrev Channel := List UInt8

/-- The IP address and the port of a client, which is also where datagrams for it are sent. -/
abbrev ID := List UInt8

abbrev Clients := OrderedMap ID Unit

/-- Of the memory a packet was received into only the 52 bytes behind the first 12 are ever read again. -/
abbrev SpeakersOpusRtpPacketsPool := OrderedMap ID (OrderedMap Nat (List UInt8))

def maxElapsedUsec : UInt64 := 300000
def signallingBufferSize : Nat := 12 + 12 + 64
def rtpHeaderSize : Nat := 12
def opusRtpPayloadType : UInt8 := 0

inductive ClientType where
  | CAMERA | PC

/-- The two values of `action`: JOIN and CREATE are one, and so are LEAVE and CANCEL. -/
inductive Action where
  | join | leave

structure ClientRequest where
  type : ClientType
  action : Action
  channel : Channel

/-! ### The chat rooms -/

/-- The room that `client_already_in` finds. -/
def roomOf (chatRoom : OrderedMap Channel Clients) (id : ID) : Option (Channel × Clients) :=
  chatRoom.entries.find? fun room => (room.2.find id).isSome

def clientAlreadyIn (chatRoom : OrderedMap Channel Clients) (id : ID) : Bool := (roomOf chatRoom id).isSome

def handleRequest (chatRoom : OrderedMap Channel Clients) (id : ID) (request : ClientRequest) :
    OrderedMap Channel Clients :=
  match request.type, chatRoom.find request.channel, request.action with
  | .PC, some clients, .join =>
    if clientAlreadyIn chatRoom id then chatRoom else chatRoom.set request.channel (clients.set id ())
  | .PC, some clients, .leave =>
    if clientAlreadyIn chatRoom id then chatRoom.set request.channel (clients.erase id) else chatRoom
  | .PC, none, _ => chatRoom
  | .CAMERA, some _, .join => chatRoom
  | .CAMERA, some _, .leave => chatRoom.erase request.channel
  | .CAMERA, none, .leave => chatRoom
  | .CAMERA, none, .join => chatRoom.set request.channel (OrderedMap.empty.set id ())

/-! ### Speech -/

/-- What the handling of speech keeps from datagram to datagram. `PREV` is none until the first is taken. -/
structure Mixer (δ ε : Type*) where
  sorpPool : SpeakersOpusRtpPacketsPool
  prev : Option UInt64
  opusDecoder : δ
  opusEncoder : ε

/-- `std::map::insert` leaves a packet that has the same time stamp. -/
def insertPacket (pool : SpeakersOpusRtpPacketsPool) (id : ID) (timestamp : Nat) (rtpPacket : List UInt8) :
    SpeakersOpusRtpPacketsPool :=
  match pool.find id with
  | none => pool.set id (OrderedMap.empty.set timestamp rtpPacket)
  | some packets => if (packets.find timestamp).isSome then pool else pool.set id (packets.set timestamp rtpPacket)

def speakers (pool : SpeakersOpusRtpPacketsPool) : List Speaker :=
  pool.entries.map fun speaker => (speaker.1, speaker.2.entries.map Prod.snd)

/-- A datagram from a member of a room: the bytes received, the microseconds of `gettimeofday`, the seconds of
`time` and the room's members. -/
structure Spoken where
  speaker : ID
  rtpPacket : List UInt8
  now : UInt64
  time : UInt32
  clients : List ID

/-- The time stamp of a packet that is taken for speech. -/
def speechTimestamp (memory : Nat → UInt8) (receivedBytes : Nat) : Option Nat :=
  match rtpHeaderParse (fun i => memory (rtpHeaderSize + i)) receivedBytes with
  | none => none
  | some header => if header.payloadType = opusRtpPayloadType then some header.timestamp else none

/-- Whether the packets of the pool are to be sent: the elapsed time is a number without a sign. -/
def elapsed (prev : Option UInt64) (now : UInt64) : Bool :=
  match prev with
  | none => false
  | some prev => maxElapsedUsec ≤ now - prev

def pooledBytes (memory : Nat → UInt8) : List UInt8 := (List.range' rtpHeaderSize opusRtpBufferSize).map memory

def broadcastSpeechMessage (clients : List ID) (rtpPacket : List UInt8) (id : ID) : List (ID × List UInt8) :=
  (clients.filter (· ≠ id)).map fun client => (client, rtpPacket)

variable {δ ε : Type*}

/-- The branch of `handle_udp_msg` for a member's speech, with what it sends. -/
def Mixer.handleSpeech (opus : Opus δ ε) (memory : Nat → UInt8) (stack : Nat → Stack) (spoken : Spoken)
    (m : Mixer δ ε) : Mixer δ ε × List (ID × List UInt8) :=
  match speechTimestamp memory spoken.rtpPacket.length with
  | none => (m, [])
  | some timestamp =>
    let sorpPool := insertPacket m.sorpPool spoken.speaker timestamp (pooledBytes memory)
    if elapsed m.prev spoken.now then
      let flushed := doMixAndBroadcastS opus stack spoken.time (speakers sorpPool) m.opusDecoder m.opusEncoder
      ({ sorpPool := .empty, prev := some spoken.now, opusDecoder := flushed.decoder, opusEncoder := flushed.encoder },
        flushed.broadcasts.flatMap fun sent => broadcastSpeechMessage spoken.clients sent.2 sent.1)
    else ({ m with sorpPool, prev := some (m.prev.getD spoken.now) }, [])

/-! ### The server -/

/-- Beside the state of the server: what the members of each room have sent and have been sent, when the room's
own speech was last passed on, the rooms whose packets are in the pool, and those whose packets have been through
the decoder and the encoder. -/
structure Transfer (δ ε : Type*) where
  chatRoom : OrderedMap Channel Clients
  mixer : Mixer δ ε
  spoken : Channel → List Spoken
  heard : Channel → List (ID × List UInt8)
  clocks : Channel → Option UInt64
  pooled : List Channel
  mixed : List Channel

def Mixer.start (decoder : δ) (encoder : ε) : Mixer δ ε := ⟨.empty, none, decoder, encoder⟩

def Transfer.start (decoder : δ) (encoder : ε) : Transfer δ ε :=
  ⟨.empty, .start decoder encoder, fun _ => [], fun _ => [], fun _ => none, [], []⟩

inductive Event where
  | request (id : ID) (request : ClientRequest)
  | speech (id : ID) (rtpPacket : List UInt8) (garbage : Nat → UInt8) (now : UInt64) (time : UInt32)
      (stack : Nat → Stack)

/-- The memory that `new` gave for a packet, once it has been received. -/
def receivedInto (garbage : Nat → UInt8) (rtpPacket : List UInt8) (i : Nat) : UInt8 := rtpPacket.getD i (garbage i)

def Transfer.recordSpeech (s : Transfer δ ε) (channel : Channel) (spoken : Spoken) (sent : List (ID × List UInt8)) :
    Transfer δ ε :=
  { s with
    spoken := Function.update s.spoken channel (s.spoken channel ++ [spoken])
    heard := Function.update s.heard channel (s.heard channel ++ sent) }

/-- The account of clocks and rooms when a packet of the room has been taken for speech. -/
def Transfer.recordTaken (s : Transfer δ ε) (channel : Channel) (now : UInt64) (flushing mixing : Bool) :
    Transfer δ ε :=
  if flushing then
    { s with
      clocks := Function.update s.clocks channel (some now)
      pooled := []
      mixed := if mixing then channel :: s.pooled ++ s.mixed else s.mixed }
  else
    { s with
      clocks := Function.update s.clocks channel (some ((s.clocks channel).getD now))
      pooled := channel :: s.pooled }

def Transfer.handleUdpMsg (opus : Opus δ ε) (s : Transfer δ ε) : Event → Transfer δ ε
  | .request id request => { s with chatRoom := handleRequest s.chatRoom id request }
  | .speech id rtpPacket garbage now time stack =>
    let rtpPacket := rtpPacket.take signallingBufferSize
    let memory := receivedInto garbage rtpPacket
    match roomOf s.chatRoom id with
    | none => s
    | some (channel, clients) =>
      let spoken : Spoken := ⟨id, rtpPacket, now, time, clients.entries.map Prod.fst⟩
      let (mixer, sent) := s.mixer.handleSpeech opus memory stack spoken
      let after := { s with mixer }.recordSpeech channel spoken sent
      match speechTimestamp memory rtpPacket.length with
      | none => after
      | some timestamp =>
        let sorpPool := insertPacket s.mixer.sorpPool id timestamp (pooledBytes memory)
        after.recordTaken channel now (elapsed s.mixer.prev now) (1 < sorpPool.entries.length)

def step (opus : Opus δ ε) (s : Transfer δ ε) (e : Event) : Option (Transfer δ ε) := some (s.handleUdpMsg opus e)

end LiveStreaming.SpeechTransfer
