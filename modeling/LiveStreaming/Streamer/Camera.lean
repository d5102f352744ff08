import LiveStreaming.Library.Buffer
import LiveStreaming.Library.Pool
import LiveStreaming.Streamer.NetUtility
import LiveStreaming.Streamer.ViewerQueue

/-!
# Receiving the camera's stream

`CAMERAS` is the state of one channel: the partly received header, tag header and tag data, the
stream headers saved for viewers that join later, and the pool of viewers. `receive_stream_cb`
reads at most one tag each time the camera's socket is readable.
-/

namespace LiveStreaming.Streamer
open Library

def flvHeaderSize : Nat := 9
def previousTagSize : Nat := 4
def tagHeaderSize : Nat := 11

/-- A viewer is known by its socket. -/
abbrev ClientId := Nat

/-- `VIEWER_INFO`; of `viewer_watcher` only `active` matters here. -/
structure ViewerInfo where
  clientFd : ClientId
  sendFirst : Bool
  registerViewerCallbackFirst : Bool
  sendKeyFrameFirst : Bool
  notSentFlvHeaderDone : Bool
  notSentHttpResponseDone : Bool
  notSentScriptTagDone : Bool
  notSentAacSequenceHeaderDone : Bool
  notSentAvcSequenceHeaderDone : Bool
  watcherActive : Bool
  viewerQueue : ViewerQueue

def newViewerInfo (clientFd : ClientId) : ViewerInfo where
  clientFd
  sendFirst := true
  registerViewerCallbackFirst := true
  sendKeyFrameFirst := true
  notSentFlvHeaderDone := true
  notSentHttpResponseDone := true
  notSentScriptTagDone := true
  notSentAacSequenceHeaderDone := true
  notSentAvcSequenceHeaderDone := true
  watcherActive := false
  viewerQueue := newViewerQueue

/-- `CAMERAS`. A heap array is the list of its bytes, empty for a NULL pointer, so the `total_bytes`
of the saved headers are their lengths. -/
structure Cameras where
  receiveFirst : Bool
  scriptTagExists : Bool
  flvHeader : List UInt8
  notReceivedFlvHeaderDone : Bool
  flvHeaderSentBytes : Nat
  flvHeaderReceivedBytes : Nat
  tagHeader : List UInt8
  notReceivedTagHeaderDone : Bool
  tagHeaderReceivedBytes : Nat
  tagData : List UInt8
  notReceivedTagDataDone : Bool
  tagDataSize : Nat
  tagDataReceivedBytes : Nat
  flvScriptTag : List UInt8
  scriptTagSentBytes : Nat
  aacSequenceHeader : List UInt8
  aacSequenceHeaderSentBytes : Nat
  avcSequenceHeader : List UInt8
  avcSequenceHeaderSentBytes : Nat
  viewerInfoPool : Pool ClientId ViewerInfo

def newCameras : Cameras where
  receiveFirst := true
  scriptTagExists := false
  flvHeader := .replicate (flvHeaderSize + previousTagSize) 0
  notReceivedFlvHeaderDone := true
  flvHeaderSentBytes := 0
  flvHeaderReceivedBytes := 0
  tagHeader := .replicate tagHeaderSize 0
  notReceivedTagHeaderDone := true
  tagHeaderReceivedBytes := 0
  tagData := []
  notReceivedTagDataDone := true
  tagDataSize := 0
  tagDataReceivedBytes := 0
  flvScriptTag := []
  scriptTagSentBytes := 0
  aacSequenceHeader := []
  aacSequenceHeaderSentBytes := 0
  avcSequenceHeader := []
  avcSequenceHeaderSentBytes := 0
  viewerInfoPool := ∅

/-! ### Reading -/

abbrev CameraSocket := List (Socket.ReadEvent UInt8)

inductive ReceiveOutcome where
  /-- It returns, perhaps with a tag extracted. -/
  | kept (camera : Cameras) (packet : Option (List UInt8)) (socket : CameraSocket)
  /-- It calls `delete_camera` and returns. -/
  | deleted (socket : CameraSocket)
  /-- It spins in `read_specify_size`. -/
  | waiting
  /-- It follows a pointer that is not there. -/
  | fault

/-- One of the three buffers after a read into it. -/
inductive PartRead where
  | complete (buffer : List UInt8) (receivedBytes : Nat) (socket : CameraSocket)
  | partly (buffer : List UInt8) (receivedBytes : Nat) (socket : CameraSocket)
  | closed (socket : CameraSocket)
  | waiting

/-- The reading that the three phases of `receive_stream_cb` share: fill `buffer` up to `size`, with
`receivedBytes` of it received by earlier calls. -/
def readPart (buffer : List UInt8) (size receivedBytes : Nat) (socket : CameraSocket) : PartRead :=
  let totalBytes := size - receivedBytes
  match readSpecifySize totalBytes socket with
  | none => .waiting
  | some r =>
    let buffer := Buffer.overwrite buffer receivedBytes r.stored
    if r.ret = 0 then .closed r.socket
    else if r.ret ≠ totalBytes then .partly buffer (receivedBytes + r.ret) r.socket
    else .complete buffer (receivedBytes + r.ret) r.socket

/-- The phase that receives the FLV header and the first previous tag size. -/
def receiveFlvHeader (c : Cameras) (socket : CameraSocket) : Except ReceiveOutcome (Cameras × CameraSocket) :=
  if c.receiveFirst then
    if c.notReceivedFlvHeaderDone then
      match readPart c.flvHeader (flvHeaderSize + previousTagSize) c.flvHeaderReceivedBytes socket with
      | .waiting => throw .waiting
      | .closed socket => throw (.deleted socket)
      | .partly flvHeader flvHeaderReceivedBytes socket =>
        throw (.kept { c with flvHeader, flvHeaderReceivedBytes } none socket)
      | .complete flvHeader flvHeaderReceivedBytes socket => pure ({ c with
          flvHeader
          flvHeaderReceivedBytes
          notReceivedFlvHeaderDone := false
          receiveFirst := false }, socket)
    else pure ({ c with receiveFirst := false }, socket)
  else pure (c, socket)

/-- The size of a tag's data and of the previous tag size behind it. -/
def tagDataSizeOf (tagHeader : List UInt8) : Nat :=
  (tagHeader.getD 1 0).toNat * 65536 + (tagHeader.getD 2 0).toNat * 256 + (tagHeader.getD 3 0).toNat +
    previousTagSize

def receiveTagHeader (c : Cameras) (socket : CameraSocket) : Except ReceiveOutcome (Cameras × CameraSocket) :=
  if c.notReceivedTagHeaderDone then
    match readPart c.tagHeader tagHeaderSize c.tagHeaderReceivedBytes socket with
    | .waiting => throw .waiting
    | .closed socket => throw (.deleted socket)
    | .partly tagHeader tagHeaderReceivedBytes socket =>
      throw (.kept { c with tagHeader, tagHeaderReceivedBytes } none socket)
    | .complete tagHeader _ socket => pure ({ c with
        tagHeader
        tagHeaderReceivedBytes := 0
        notReceivedTagHeaderDone := false
        tagDataSize := tagDataSizeOf tagHeader
        tagData := .replicate (tagDataSizeOf tagHeader) 0 }, socket)
  else pure (c, socket)

def receiveTagData (c : Cameras) (socket : CameraSocket) : Except ReceiveOutcome (Cameras × CameraSocket) :=
  if c.notReceivedTagDataDone then
    match readPart c.tagData c.tagDataSize c.tagDataReceivedBytes socket with
    | .waiting => throw .waiting
    | .closed socket => throw (.deleted socket)
    | .partly tagData tagDataReceivedBytes socket =>
      throw (.kept { c with tagData, tagDataReceivedBytes } none socket)
    | .complete tagData _ socket => pure ({ c with
        tagData
        tagDataReceivedBytes := 0
        notReceivedTagDataDone := false }, socket)
  else pure (c, socket)

/-! ### A whole tag -/

/-- What the `switch` makes of a tag, from its header and the first two bytes behind it. -/
inductive TagKind where
  | aacSequenceHeader
  | avcSequenceHeader
  | scriptTag
  | media (isKeyFrame : Bool)
  deriving DecidableEq, Repr

def tagKind (tagHeader tagData : List UInt8) : TagKind :=
  let tagType := tagHeader.getD 0 0 &&& 0x1F
  if tagType = 8 then
    if (tagData.getD 0 0 &&& 0xF0) >>> 4 = 10 ∧ tagData.getD 1 0 = 0 then .aacSequenceHeader
    else .media false
  else if tagType = 9 then
    if tagData.getD 0 0 &&& 0x0F = 7 ∧ tagData.getD 1 0 = 0 then .avcSequenceHeader
    else .media ((tagData.getD 0 0 &&& 0xF0) >>> 4 = 1)
  else if tagType = 18 then .scriptTag
  else .media false

def packetKind (packet : List UInt8) : TagKind :=
  tagKind (packet.take tagHeaderSize) (packet.drop tagHeaderSize)

/-- One round of the push loop: queue the tag, and start the viewer's watcher if it was idle. -/
def pushToViewer (flvTag : FlvTagFrame) (v : ViewerInfo) : Option ViewerInfo := do
  let v :=
    -- `ev_io_init` leaves the watcher inactive
    if v.registerViewerCallbackFirst then
      { v with registerViewerCallbackFirst := false, watcherActive := false }
    else v
  let needStartViewerCallback := viewerQueueEmpty v.viewerQueue
  let viewerQueue ← pushTag v.viewerQueue flvTag
  some { v with
    viewerQueue
    watcherActive := if needStartViewerCallback then true else v.watcherActive }

/-- The `switch` saves a stream header; any other tag goes to all viewers. -/
def handleTag (c : Cameras) (packet : List UInt8) : TagKind → Option Cameras
  | .aacSequenceHeader => some { c with aacSequenceHeader := packet, aacSequenceHeaderSentBytes := 0 }
  | .avcSequenceHeader => some { c with avcSequenceHeader := packet, avcSequenceHeaderSentBytes := 0 }
  | .scriptTag => some { c with scriptTagExists := true, flvScriptTag := packet, scriptTagSentBytes := 0 }
  | .media isKeyFrame => do
    let viewerInfoPool ← c.viewerInfoPool.traverse (pushToViewer ⟨isKeyFrame, packet, 0⟩)
    some { c with viewerInfoPool }

/-- The rest of `receive_stream_cb` once the tag data is there. -/
def finishTag (c : Cameras) : Option (Cameras × List UInt8) := do
  let packet := c.tagHeader.take tagHeaderSize ++ c.tagData.take c.tagDataSize
  let c ← handleTag c packet (tagKind c.tagHeader c.tagData)
  some ({ c with
    tagData := []
    tagHeader := .replicate tagHeaderSize 0
    notReceivedTagHeaderDone := true
    notReceivedTagDataDone := true }, packet)

def receiveParts (c : Cameras) (socket : CameraSocket) : Except ReceiveOutcome (Cameras × CameraSocket) := do
  let (c, socket) ← receiveFlvHeader c socket
  let (c, socket) ← receiveTagHeader c socket
  receiveTagData c socket

/-- `receive_stream_cb` on an active watcher whose channel is found. -/
def receiveStreamCb (c : Cameras) (socket : CameraSocket) : ReceiveOutcome :=
  match receiveParts c socket with
  | .error outcome => outcome
  | .ok (c, socket) =>
    match finishTag c with
    | none => .fault
    | some (c, packet) => .kept c (some packet) socket

end LiveStreaming.Streamer
