import LiveStreaming.XtraRtmp.ChunkStream
import LiveStreaming.XtraRtmp.Consult

/-!
# Receiving the stream

`receiveStreamCallback` takes the chunks of the audio and video messages apart. All that it knows of the chunk
under way is in static variables. What it reads is not looked at again, but for the message header.
-/

namespace LiveStreaming.XtraRtmp.ReceiveStream
open Library Streamer ChunkStream

def MAX_RTMP_PACKAGE_SIZE : Nat := 128
def MESSAGE_AUDIO : UInt8 := 0x08
def MESSAGE_VIDEO : UInt8 := 0x09
def MESSAGE_AMF0_DATA : UInt8 := 0x12

structure Statics where
  readChunkBasicHeaderDone : Bool
  amfDataSizeGT128 : Bool
  format : UInt8
  leftReadSize : Nat
  previousAMFDataSize : Nat
  chunkMsgHeaderSize : Nat
  readChunkMsgHeaderSize : Nat
  chunkMsgHeaderBuffer : List UInt8
  amfPayloadSize : Nat
  readAmfPayloadSize : Nat
  segmentSize : Nat
  readSegmentSize : Nat

def Statics.start : Statics := ⟨false, false, 0, 0, 0, 0, 0, List.replicate 11 0, 0, 0, 0, 0⟩

/-- A call under way, with what it has read so far. -/
structure Call where
  statics : Statics
  socket : List (Socket.ReadEvent UInt8)
  read : Bytes

/-- A call never returns, or it writes behind an array, or it deletes the channel, or it returns. -/
inductive CallEnd where
  | hangs
  | outside
  | deleted (c : Call)
  | returns (c : Call)

/-- A stream that has ended is at its end for the reads that follow. -/
def Call.took (c : Call) (part : Part) (r : Received) : Call :=
  { c with socket := if r.ret = 0 then [.eof] else r.socket, read := c.read ++ labelled part r.stored }

/-- The bytes that are read behind the first one, when it has no channel ID in it, are not checked. -/
def readChannelID (c : Call) (channelID : UInt8) : Except CallEnd Call :=
  if channelID = 0 then
    match readSpecifySize 1 c.socket with
    | none => .error .hangs
    | some r => .ok (c.took .basicHeader r)
  else if channelID = 1 then
    match readSpecifySize2 2 c.socket with
    | none => .error .hangs
    | some r => .ok (c.took .basicHeader r)
  else .ok c

def readChunkBasicHeader (c : Call) : Except CallEnd Call :=
  if c.statics.readChunkBasicHeaderDone then .ok c
  else
    match readSpecifySize 1 c.socket with
    | none => .error .hangs
    | some r =>
      let c := c.took .basicHeader r
      if r.ret = 1 then
        let chunkBasicHeader := r.stored.headD 0
        readChannelID { c with statics := { c.statics with
          readChunkBasicHeaderDone := true
          format := chunkBasicHeader >>> 6
          chunkMsgHeaderSize := chunkMsgHeaderSizeOf chunkBasicHeader } } (chunkBasicHeader &&& 0x3f)
      else .error (.deleted c)

/-- What is taken from a message header that has been read. The length and the type of one with three bytes are
those of an earlier one. -/
def Statics.parseMsgHeader (s : Statics) : Statics :=
  let amfPayloadSize := bigEndian ((s.chunkMsgHeaderBuffer.drop 3).take 3)
  let msgType := (s.chunkMsgHeaderBuffer.drop 6).headD 0
  if (msgType = MESSAGE_VIDEO ∨ msgType = MESSAGE_AUDIO) ∧ MAX_RTMP_PACKAGE_SIZE < amfPayloadSize then
    { s with
      previousAMFDataSize := amfPayloadSize
      leftReadSize := amfPayloadSize - MAX_RTMP_PACKAGE_SIZE
      amfPayloadSize := MAX_RTMP_PACKAGE_SIZE
      amfDataSizeGT128 := true }
  else { s with amfPayloadSize }

def readChunkMsgHeader (c : Call) : Except CallEnd Call :=
  let s := c.statics
  if s.readChunkMsgHeaderSize < s.chunkMsgHeaderSize then
    match readSpecifySize (s.chunkMsgHeaderSize - s.readChunkMsgHeaderSize) c.socket with
    | none => .error .hangs
    | some r =>
      let c := c.took .messageHeader r
      let s : Statics := { s with
        chunkMsgHeaderBuffer := Buffer.overwrite s.chunkMsgHeaderBuffer s.readChunkMsgHeaderSize r.stored
        readChunkMsgHeaderSize := s.readChunkMsgHeaderSize + r.ret }
      if 0 < r.ret then
        if s.readChunkMsgHeaderSize = s.chunkMsgHeaderSize then .ok { c with statics := s.parseMsgHeader }
        else .error (.returns { c with statics := s })
      else .error (.deleted { c with statics := s })
  else .ok c

def Statics.finishPayload (s : Statics) : Statics :=
  { s with readChunkBasicHeaderDone := false, readChunkMsgHeaderSize := 0, readAmfPayloadSize := 0 }

/-- The end of an AMF object that follows a payload of AMF data. -/
def readTrailer (c : Call) : CallEnd :=
  match readSpecifySize2 2 c.socket with
  | none => .hangs
  | some r =>
    let c := c.took .trailer r
    if r.ret = 0 then .deleted c
    else if r.stored = [0, 9] then .returns { c with statics := c.statics.finishPayload }
    else
      match readSpecifySize 1 c.socket with
      | none => .hangs
      | some r =>
        let c := c.took .trailer r
        if r.ret = 0 then .deleted c else .returns { c with statics := c.statics.finishPayload }

/-- The payload goes into an array of 512 bytes. -/
def readAmfPayload (c : Call) : Except CallEnd Call :=
  let s := c.statics
  if 7 ≤ s.chunkMsgHeaderSize ∧ s.readAmfPayloadSize < s.amfPayloadSize then
    match readSpecifySize (s.amfPayloadSize - s.readAmfPayloadSize) c.socket with
    | none => .error .hangs
    | some r =>
      if 512 < s.readAmfPayloadSize + r.stored.length then .error .outside
      else
        let c := c.took .payload r
        if 0 < r.ret then
          let s : Statics := { s with readAmfPayloadSize := s.readAmfPayloadSize + r.ret }
          let c := { c with statics := s }
          if s.readAmfPayloadSize = s.amfPayloadSize then
            if (s.chunkMsgHeaderBuffer.drop 6).headD 0 = MESSAGE_AMF0_DATA then .error (readTrailer c)
            else .error (.returns { c with statics := s.finishPayload })
          else .error (.returns c)
        else .error (.deleted c)
  else if s.format = 2 then
    .ok { c with statics := { s with leftReadSize := s.previousAMFDataSize, amfDataSizeGT128 := true } }
  else .ok c

def Statics.chooseSegment (s : Statics) : Statics :=
  if s.segmentSize = 0 then
    let s :=
      if MAX_RTMP_PACKAGE_SIZE ≤ s.leftReadSize then
        { s with segmentSize := MAX_RTMP_PACKAGE_SIZE, leftReadSize := s.leftReadSize - MAX_RTMP_PACKAGE_SIZE }
      else { s with segmentSize := s.leftReadSize, leftReadSize := 0 }
    if s.amfDataSizeGT128 then s else { s with segmentSize := MAX_RTMP_PACKAGE_SIZE }
  else s

def Statics.finishSegment (s : Statics) : Statics :=
  let s := { s with
    segmentSize := 0
    readSegmentSize := 0
    readChunkBasicHeaderDone := false
    amfDataSizeGT128 := s.amfDataSizeGT128 && decide (s.leftReadSize ≠ 0) }
  if s.leftReadSize = 0 ∨ ¬ s.amfDataSizeGT128 then
    { s with chunkMsgHeaderSize := 0, readChunkMsgHeaderSize := 0, amfPayloadSize := 0, readAmfPayloadSize := 0 }
  else s

def readSegment (c : Call) : CallEnd :=
  let s := c.statics
  if s.readSegmentSize < s.segmentSize then
    match readSpecifySize (s.segmentSize - s.readSegmentSize) c.socket with
    | none => .hangs
    | some r =>
      let c := c.took .payload r
      if 0 < r.ret then
        let s : Statics := { s with readSegmentSize := s.readSegmentSize + r.ret }
        if s.readSegmentSize = s.segmentSize then .returns { c with statics := s.finishSegment }
        else .returns { c with statics := s }
      else .deleted c
  else .returns c

def receiveStreamCallback (s : Statics) (socket : List (Socket.ReadEvent UInt8)) : CallEnd :=
  match readChunkBasicHeader ⟨s, socket, []⟩ >>= readChunkMsgHeader >>= readAmfPayload with
  | .error left => left
  | .ok c => readSegment { c with statics := c.statics.chooseSegment }

/-- `stalled` records that a call has returned without having read anything. -/
structure Connection where
  statics : Statics
  socket : List (Socket.ReadEvent UInt8)
  read : Bytes
  connected : Bool
  stalled : Bool

def Connection.start (socket : List (Socket.ReadEvent UInt8)) : Connection := ⟨.start, socket, [], true, false⟩

/-- libev calls `receiveStreamCallback` for as long as the watcher is there. -/
def Connection.step (s : Connection) (_ : Unit) : Option Connection :=
  if s.connected then
    match receiveStreamCallback s.statics s.socket with
    | .hangs | .outside => none
    | .deleted c =>
      some { s with statics := c.statics, socket := c.socket, read := s.read ++ c.read, connected := false }
    | .returns c =>
      some { s with
        statics := c.statics
        socket := c.socket
        read := s.read ++ c.read
        stalled := s.stalled || c.read.isEmpty }
  else none

end LiveStreaming.XtraRtmp.ReceiveStream
