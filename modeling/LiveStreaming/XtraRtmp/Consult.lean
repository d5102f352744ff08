import LiveStreaming.Library.SharedStatic
import LiveStreaming.Library.Transition
import LiveStreaming.XtraRtmp.Amf
import LiveStreaming.XtraRtmp.NetUtil

/-!
# Consulting with a client

`consultCallback` assembles a message in a static array of 1024 bytes, reads on behind it until it meets
the end of an AMF object, and dispatches the command it finds. The array and all that it knows of the
message are shared by the connections, and only a message that has been answered sets them back.
-/

namespace LiveStreaming.XtraRtmp
open Library Streamer

structure ConsultStatics where
  consultRequest : List UInt8
  pointer : Nat
  readChunkBasicHeaderDone : Bool
  format : UInt8
  channelID : UInt8
  chunkMsgHeaderSize : Nat
  readChunkMsgHeaderSize : Nat
  totalAmfSize : Nat
  readAmfSize : Nat
  amfType : UInt8
  consultDone : Bool

/-- What becomes of the watcher of a connection. `refused` is a connection closed over its own message. -/
inductive ConsultPhase where
  | reading
  | closed
  | refused
  | done
  deriving DecidableEq

abbrev Command := RtmpPacketHeader × AmfPacket

structure ConsultCall where
  received : List UInt8
  dispatched : List Command
  next : ConsultPhase

/-- A call never returns, or it leaves the array or the bytes received, or it returns. -/
inductive ConsultEnd where
  | hangs
  | outside
  | returns (statics : ConsultStatics) (call : ConsultCall)

/-- A call under way: what it has read and dispatched so far. -/
structure ConsultProgress where
  statics : ConsultStatics
  socket : List (Socket.ReadEvent UInt8)
  received : List UInt8
  dispatched : List Command

def ConsultProgress.leave (p : ConsultProgress) (next : ConsultPhase) : ConsultEnd :=
  .returns p.statics ⟨p.received, p.dispatched, next⟩

def chunkMsgHeaderSizeOf (chunkBasicHeader : UInt8) : Nat :=
  match (chunkBasicHeader >>> 6).toNat with
  | 0 => 11
  | 1 => 7
  | 2 => 3
  | _ => 0

/-- The first part of `consultCallback`. At the end of the stream it looks at an `errno` that some earlier
call has left: `staleErrno` says that it asks for another try. -/
def readChunkBasicHeader (staleErrno : Bool) (p : ConsultProgress) : Except ConsultEnd ConsultProgress :=
  if p.statics.readChunkBasicHeaderDone then .ok p
  else
    match Socket.read 1 p.socket with
    | (.bytes bs, socket) =>
      let chunkBasicHeader := bs.headD 0
      let s : ConsultStatics := { p.statics with
        consultRequest := Buffer.overwrite p.statics.consultRequest 0 [chunkBasicHeader]
        pointer := p.statics.pointer + 1
        readChunkBasicHeaderDone := true
        format := chunkBasicHeader >>> 6
        channelID := chunkBasicHeader &&& 0x3f
        chunkMsgHeaderSize := chunkMsgHeaderSizeOf chunkBasicHeader }
      let p := { p with statics := s, socket := socket, received := p.received ++ [chunkBasicHeader] }
      if s.channelID = 0 then
        match readSpecifySize2 1 socket with
        | none => .error .hangs
        | some r =>
          .ok { p with
            statics := { s with channelID := r.stored.headD 0 + 64 }
            -- a stream that has ended is at its end for the reads that follow
            socket := if r.ret = 0 then [.eof] else r.socket
            received := p.received ++ r.stored }
      else .ok p
    | (.eintr, _) | (.eagain, _) => .error (p.leave .reading)
    | (.eof, _) => .error (p.leave (if staleErrno then .reading else .closed))
    | (.error, _) => .error (p.leave .closed)

/-- The second part, which leaves the callback whenever it has read anything. -/
def readChunkMsgHeader (p : ConsultProgress) : Except ConsultEnd ConsultProgress :=
  let s := p.statics
  if s.readChunkMsgHeaderSize ≠ s.chunkMsgHeaderSize then
    match readSpecifySize (s.chunkMsgHeaderSize - s.readChunkMsgHeaderSize) p.socket with
    | none => .error .hangs
    | some r =>
      let start := s.pointer + s.readChunkMsgHeaderSize
      if 1024 < start + r.stored.length then .error .outside
      else
        let s : ConsultStatics := { s with consultRequest := Buffer.overwrite s.consultRequest start r.stored }
        if 0 < r.ret then
          let p := { p with received := p.received ++ r.stored }
          let s : ConsultStatics := { s with readChunkMsgHeaderSize := s.readChunkMsgHeaderSize + r.ret }
          if s.readChunkMsgHeaderSize = s.chunkMsgHeaderSize then
            if 7 ≤ s.chunkMsgHeaderSize then
              let header := s.consultRequest.drop s.pointer
              .error ({ p with statics := { s with
                totalAmfSize := bigEndian ((header.drop 3).take 3)
                amfType := (header.drop 6).headD 0
                pointer := s.pointer + s.chunkMsgHeaderSize } }.leave .reading)
            else .error ({ p with statics := s }.leave .closed)
          else .error ({ p with statics := s }.leave .reading)
        else .error ({ p with statics := s }.leave .closed)
  else .ok p

def isAmfEnd (b : UInt8) : Bool := b == 9 || b == 5

/-- The loop that reads on, byte by byte, until it meets the end of an object. `room` is what is left of
the array; `some none` is a scan that leaves the array or the bytes received. -/
def scanAmfEnd : Nat → UInt8 → List (Socket.ReadEvent UInt8) →
    Option (Option (List UInt8 × List (Socket.ReadEvent UInt8)))
  | room, last, socket =>
    if isAmfEnd last then some (some ([], socket))
    else
      match room with
      | 0 => some none
      | room + 1 =>
        match readSpecifySize2 1 socket with
        | none => none
        | some r =>
          match r.stored with
          | [] => some none
          | b :: _ => (scanAmfEnd room b r.socket).map (Option.map fun found => (b :: found.1, found.2))

/-- A message is complete: it is parsed, dispatched and answered with `answer`. -/
def dispatchMessage (stack : Nat → UInt8) (answer : Int) (p : ConsultProgress) : Except ConsultEnd ConsultProgress :=
  let s := p.statics
  match parseRtmpPacket s.consultRequest (1 + s.chunkMsgHeaderSize + s.totalAmfSize) stack with
  | none => .error (p.leave .refused)
  | some (header, payload) =>
    match parseRtmpAMF0 (some ∘ payload) header.amfSize header.amfType with
    | none => .error .hangs
    | some amfPacket =>
      let invoked := header.amfType = MESSAGE_INVOKE
      let p := if invoked then { p with dispatched := p.dispatched ++ [(header, amfPacket)] } else p
      if invoked ∧ answer < 0 then .error (p.leave .refused)
      else
        .ok { p with statics := { s with
          consultDone := s.consultDone || (invoked && decide (1 ≤ answer))
          readChunkBasicHeaderDone := false
          chunkMsgHeaderSize := 0
          readChunkMsgHeaderSize := 0
          totalAmfSize := 0
          readAmfSize := 0
          consultRequest := List.replicate 1024 0
          pointer := 0 } }

/-- The third part. -/
def readAmfPayload (stack : Nat → UInt8) (answer : Int) (p : ConsultProgress) : Except ConsultEnd ConsultProgress :=
  let s := p.statics
  if s.readAmfSize ≠ s.totalAmfSize then
    match readSpecifySize (s.totalAmfSize - s.readAmfSize) p.socket with
    | none => .error .hangs
    | some r =>
      let start := s.pointer + s.readAmfSize
      if 1024 < start + r.stored.length then .error .outside
      else
        let s : ConsultStatics := { s with consultRequest := Buffer.overwrite s.consultRequest start r.stored }
        if 0 < r.ret then
          let s : ConsultStatics := { s with readAmfSize := s.readAmfSize + r.ret }
          let p := { p with statics := s, socket := r.socket, received := p.received ++ r.stored }
          if s.readAmfSize = s.totalAmfSize then
            let stop := s.pointer + s.totalAmfSize
            if s.amfType = MESSAGE_INVOKE ∧ s.format = 0 ∧ s.channelID = 3 then
              match scanAmfEnd (1024 - stop) ((s.consultRequest.drop (stop - 1)).headD 0) r.socket with
              | none => .error .hangs
              | some none => .error .outside
              | some (some (more, socket)) =>
                dispatchMessage stack answer { p with
                  statics := { s with consultRequest := Buffer.overwrite s.consultRequest stop more }
                  socket := socket
                  received := p.received ++ more }
            else dispatchMessage stack answer p
          else .ok p
        else .error ({ p with statics := s }.leave .closed)
  else .ok p

/-- One call of `consultCallback`, with the answers of the socket, an old `errno`, what lies on the stack
where the payload is copied to, and what `onRtmpInvoke` will answer. -/
def consultCallback (s : ConsultStatics) (socket : List (Socket.ReadEvent UInt8)) (staleErrno : Bool)
    (stack : Nat → UInt8) (answer : Int) : ConsultEnd :=
  match readChunkBasicHeader staleErrno ⟨s, socket, [], []⟩ >>= readChunkMsgHeader >>= readAmfPayload stack answer with
  | .error left => left
  | .ok p => p.leave (if p.statics.consultDone then .done else .reading)

structure ConsultConnection where
  phase : ConsultPhase
  received : List UInt8
  dispatched : List Command

/-- `outside` records a call that has left the array or the bytes received. -/
structure ConsultServer where
  statics : ConsultStatics
  connections : Nat → Option ConsultConnection
  outside : Bool

namespace ConsultServer

def start : ConsultServer :=
  ⟨⟨List.replicate 1024 0, 0, false, 0, 0, 0, 0, 0, 0, 0, false⟩, fun _ => none, false⟩

/-- The handshake of a client ends, or libev finds it readable. -/
inductive Event where
  | consult (client : Nat)
  | readable (client : Nat) (socket : List (Socket.ReadEvent UInt8)) (staleErrno : Bool) (stack : Nat → UInt8)
      (answer : Int)

def after (connection : ConsultConnection) (call : ConsultCall) : ConsultConnection :=
  ⟨call.next, connection.received ++ call.received, connection.dispatched ++ call.dispatched⟩

def step (s : ConsultServer) : Event → Option ConsultServer
  | .consult client =>
    match s.connections client with
    | none => some { s with connections := Function.update s.connections client (some ⟨.reading, [], []⟩) }
    | some _ => none
  | .readable client socket staleErrno stack answer =>
    match s.connections client with
    | some connection =>
      if connection.phase = .reading then
        match consultCallback s.statics socket staleErrno stack answer with
        | .hangs => none
        -- what follows such a call is not defined
        | .outside => some { s with outside := true }
        | .returns statics call =>
          some { s with
            statics := statics
            connections := Function.update s.connections client (some (after connection call)) }
      else none
    | none => none

end ConsultServer

end LiveStreaming.XtraRtmp
