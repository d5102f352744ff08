import LiveStreaming.Library.Transition
import LiveStreaming.Library.EarlyExit
import LiveStreaming.Streamer.NetUtility
import LiveStreaming.HappyHls.StreamerRequest
import LiveStreaming.HappyHls.TableSpacing
import LiveStreaming.HappyHls.HttpHeader
import LiveStreaming.HappyHls.FlvTags
import LiveStreaming.HappyHls.M3u8

/-!
# Receiving the streams of the channels

`receive_request_cb` opens a connection for every channel that goes online, and `receive_stream_cb` is the
callback of all of them. A channel has its own buffers. All else that is kept between two calls is in static
variables: which part of a stream comes first, the playlist, the open segment, the queues and the clocks. The files
can be made and written, and so can the directories.
-/

namespace LiveStreaming.HappyHls.ReceiveStream
open Library Streamer Library.CString

structure Viewer where
  fd : Nat
  flvHeader : List UInt8
  previousTagSize : List UInt8
  flvTagHeader : List UInt8
  flvTagData : List UInt8
  flvTagDataTotalBytes : Nat
  tsUrlsPool : List (List UInt8)

def Viewer.start (fd : Nat) : Viewer := ⟨fd, [], [], [], [], 0, []⟩

inductive FileHandle where
  | null
  | opened
  | closed
  deriving DecidableEq

structure Statics where
  theFirst : Bool
  readHttpReplyFirst : Bool
  initFirst : Bool
  ftsHandler : FileHandle
  firstCreateTs : Bool
  m3u8Config : M3u8Config
  decoder : Decoder
  aacEsQueue : List TsPesFrame
  avcEsQueue : List TsPesFrame
  segments : Segments
  prev : Int

def Statics.start : Statics where
  theFirst := true
  readHttpReplyFirst := true
  initFirst := true
  ftsHandler := .null
  firstCreateTs := false
  m3u8Config := ⟨[], [], 0, 0, 0, 0, 0⟩
  decoder := .start
  aacEsQueue := []
  avcEsQueue := []
  segments := .start
  prev := 0

/-- A segment with the frames that `pes_2_ts` was called with for it. -/
structure TsFile where
  directory : List UInt8
  url : List UInt8
  frames : List (List UInt8)

/-- What a call finds besides the socket: the times it is told, a key flag that was never set, and what its local
variables held before. -/
structure Setting where
  header : HeaderSetting
  timestamp : Nat
  now : Nat
  later : Nat
  started : 0 < timestamp
  ordered : timestamp ≤ now
  keyFlag : Bool
  pes : TsPes
  head : TsAdaptationField
  tail : TsAdaptationField

/-- A call under way. The segments stand with the latest first; `taken` are all bytes that were read from the
connection, and `handled` all its tags that reached the `switch`. -/
structure Call where
  statics : Statics
  tsFiles : List TsFile
  playlists : Files
  viewer : Viewer
  socket : List (Socket.ReadEvent UInt8)
  taken : List UInt8
  handled : List (List UInt8)

/-- A call never returns, or it reads or writes where there is nothing, or it deletes the channel, or it returns,
with its watcher stopped or not. -/
inductive CallEnd where
  | hangs
  | outside
  | deleted (c : Call)
  | returns (c : Call)
  | stops (c : Call)

namespace Call

def took (c : Call) (bytes : List UInt8) (socket : List (Socket.ReadEvent UInt8)) : Call :=
  { c with socket, taken := c.taken ++ bytes }

def readReply (setting : Setting) (c : Call) : Except CallEnd Call :=
  if c.statics.theFirst ∧ c.statics.readHttpReplyFirst then
    match readHttpHeader 1024 setting.header c.socket with
    | none => .error .hangs
    | some r =>
      let c := c.took r.stored r.socket
      if r.ret ≤ 0 then .error (.deleted c)
      else .ok { c with statics := { c.statics with readHttpReplyFirst := false } }
  else .ok c

/-- A part of the stream of which `sofar` has been read by earlier calls. -/
def readRest (total : Nat) (sofar : List UInt8) (store : Viewer → List UInt8 → Viewer) (c : Call) :
    Except CallEnd Call :=
  match readSpecifySize (total - sofar.length) c.socket with
  | none => .error .hangs
  | some r =>
    let c := c.took r.stored r.socket
    if r.ret = 0 then .error (.deleted c)
    else
      let c := { c with viewer := store c.viewer (sofar ++ r.stored) }
      if (sofar ++ r.stored).length = total then .ok c else .error (.returns c)

/-- `create_ts_file`, and the new name in the pool of the viewer. -/
def createTs (c : Call) : Call :=
  match createTsFile c.statics.m3u8Config with
  | some url =>
    { c with
      statics := { c.statics with ftsHandler := .opened }
      tsFiles := ⟨c.statics.m3u8Config.path, url, []⟩ :: c.tsFiles
      viewer := { c.viewer with tsUrlsPool := c.viewer.tsUrlsPool ++ [url] } }
  | none =>
    { c with
      statics := { c.statics with ftsHandler := .null }
      viewer := { c.viewer with tsUrlsPool := c.viewer.tsUrlsPool ++ [[]] } }

def firstSegment (setting : Setting) (channel : List UInt8) (c : Call) : Call :=
  createTs { c with statics := { c.statics with
    theFirst := false
    m3u8Config := ⟨directoryOf channel, channel, setting.timestamp, 1, 15, 4, 3⟩
    prev := setting.timestamp } }

def readFlvHeader (setting : Setting) (channel : List UInt8) (c : Call) : Except CallEnd Call :=
  if c.statics.theFirst ∧ c.viewer.flvHeader.length < flvHeaderSize then do
    let c ← c.readRest flvHeaderSize c.viewer.flvHeader fun viewer flvHeader => { viewer with flvHeader }
    .ok (c.firstSegment setting channel)
  else .ok c

def addTsUrl (c : Call) : Except CallEnd Call :=
  match addTsUrl2M3u8File c.viewer.tsUrlsPool c.statics.m3u8Config c.playlists with
  | none => .error .outside
  | some (tsUrlsPool, playlists) => .ok { c with playlists, viewer := { c.viewer with tsUrlsPool } }

/-- The playlist is made when the first segment ends. -/
def createPlaylist (c : Call) : Except CallEnd Call :=
  if c.statics.initFirst then
    addTsUrl { c with
      statics := { c.statics with initFirst := false, firstCreateTs := true }
      playlists := (createM3u8File c.statics.m3u8Config false c.playlists).2 }
  else .ok c

/-- `fclose` of the segment and the next one. -/
def nextSegment (setting : Setting) (c : Call) : Except CallEnd Call :=
  if c.statics.ftsHandler ≠ .opened then .error .outside
  else
    addTsUrl (createTs { c with statics := { c.statics with
      prev := setting.now
      m3u8Config := { c.statics.m3u8Config with
        timestamp := setting.now
        mediaCurSequence := c.statics.m3u8Config.mediaCurSequence + 1 }
      firstCreateTs := true
      segments := c.statics.segments.createTsFile } })

def changeSegment (setting : Setting) (c : Call) : Except CallEnd Call :=
  if (c.statics.m3u8Config.targetDuration : Int) ≤ setting.now - c.statics.prev then do
    let c ← c.createPlaylist
    c.nextSegment setting
  else .ok c

def readPreviousTagSize (c : Call) : Except CallEnd Call :=
  if c.viewer.previousTagSize.length < previousTagSize then
    c.readRest HappyHls.previousTagSize c.viewer.previousTagSize fun viewer previousTagSize =>
      { viewer with previousTagSize }
  else .ok c

def readTagHeader (c : Call) : Except CallEnd Call :=
  if c.viewer.flvTagHeader.length < tagHeaderSize then do
    let c ← c.readRest tagHeaderSize c.viewer.flvTagHeader fun viewer flvTagHeader => { viewer with flvTagHeader }
    .ok { c with viewer := { c.viewer with flvTagDataTotalBytes := flvDataSize c.viewer.flvTagHeader } }
  else .ok c

def readTagData (c : Call) : Except CallEnd Call :=
  if c.viewer.flvTagData.length ≠ c.viewer.flvTagDataTotalBytes then
    c.readRest c.viewer.flvTagDataTotalBytes c.viewer.flvTagData fun viewer flvTagData => { viewer with flvTagData }
  else .ok c

def handleTag (c : Call) : Except CallEnd Call :=
  match c.statics.decoder.handleTag c.viewer.flvTagHeader c.viewer.flvTagData with
  | none => .error .outside
  | some (decoder, frames) =>
    .ok { c with
      statics := { c.statics with
        decoder
        aacEsQueue := c.statics.aacEsQueue ++ frames.aac
        avcEsQueue := c.statics.avcEsQueue ++ frames.avc }
      handled := c.handled ++ [c.viewer.previousTagSize ++ c.viewer.flvTagHeader ++ c.viewer.flvTagData] }

/-- A new segment waits for a key frame. -/
def awaitKeyFrame (setting : Setting) (c : Call) : Except CallEnd Call :=
  if c.statics.firstCreateTs then
    match c.statics.avcEsQueue with
    | [] => .error .outside
    | frame :: rest =>
      if frame.isKeyFrame.getD setting.keyFlag then
        .ok { c with statics := { c.statics with
          firstCreateTs := false
          segments := { c.statics.segments with aacPts := 0, h264Pts := 0 } } }
      else .ok { c with statics := { c.statics with prev := setting.later, avcEsQueue := rest } }
  else .ok c

/-- The open segment gets a frame. Nothing is written of one that is empty. -/
def wrote (c : Call) (frame : List UInt8) (segments : Segments) : Except CallEnd Call :=
  if frame = [] then .ok { c with statics := { c.statics with segments } }
  else
    match c.tsFiles with
    | [] => .error .outside
    | file :: files =>
      if c.statics.ftsHandler = .opened then
        .ok { c with
          statics := { c.statics with segments }
          tsFiles := { file with frames := file.frames ++ [frame] } :: files }
      else .error .outside

/-- At most one frame is written in a call. -/
def writeFrame (setting : Setting) (c : Call) : Except CallEnd Call :=
  if c.statics.firstCreateTs then .ok c
  else
    let aac := if c.statics.segments.aacPts < c.statics.segments.h264Pts then c.statics.aacEsQueue else []
    match aac, c.statics.avcEsQueue with
    | frame :: rest, _ =>
      match c.statics.segments.writeAac frame.frameBuffer setting.pes setting.head setting.tail
          c.statics.decoder.aacTag.samplingFrequencyIndex.toNat with
      | none => .error .outside
      | some segments => wrote { c with statics := { c.statics with aacEsQueue := rest } } frame.frameBuffer segments
    | [], frame :: rest =>
      match c.statics.segments.writeH264 frame.frameBuffer setting.pes setting.head setting.tail with
      | none => .error .outside
      | some segments => wrote { c with statics := { c.statics with avcEsQueue := rest } } frame.frameBuffer segments
    | [], [] => .ok c

def finish (c : Call) : Call :=
  { c with viewer := { c.viewer with
    previousTagSize := [], flvTagHeader := [], flvTagData := [], flvTagDataTotalBytes := 0 } }

end Call

def receiveStreamCb (setting : Setting) (channel : List UInt8) (c : Call) : CallEnd :=
  let body : Except CallEnd Call := do
    let c ← c.readReply setting
    let c ← c.readFlvHeader setting channel
    let c ← c.changeSegment setting
    let c ← c.readPreviousTagSize
    let c ← c.readTagHeader
    let c ← c.readTagData
    let c ← c.handleTag
    let c ← c.awaitKeyFrame setting
    c.writeFrame setting
  match body with
  | .error ended => ended
  | .ok c => .stops c.finish

/-! ### The process -/

/-- What a server sends over a connection: the reply, the header and the tags of a stream. -/
structure Stream where
  reply : List UInt8
  flvHeader : List UInt8
  tags : List FlvTag
  replied : HttpReply reply
  reply_length : reply.length ≤ 1024
  flvHeader_length : flvHeader.length = flvHeaderSize

def Stream.opening (stream : Stream) : List UInt8 := stream.reply ++ stream.flvHeader

def Stream.bytes (stream : Stream) : List UInt8 := stream.opening ++ stream.tags.flatMap FlvTag.bytes

/-- A connection has ended when a read was told so, or when the channel went offline. -/
structure Connection where
  channel : List UInt8
  named : channel ≠ []
  stream : Stream
  taken : List UInt8
  handled : List (List UInt8)
  listening : Bool
  ended : Bool

/-- The string of a watcher is the one of the key of its channel. No descriptor is used twice. -/
structure Process where
  pool : List UInt8 → Option Viewer
  connections : Nat → Option Connection
  statics : Statics
  tsFiles : List TsFile
  playlists : Files
  fault : Bool

def start : Process := ⟨fun _ => none, fun _ => none, .start, [], fun _ => none, false⟩

namespace Process

/-- The state after a call that leaves the connection as `c` has it. -/
def after (s : Process) (fd : Nat) (conn : Connection) (socket : List (Socket.ReadEvent UInt8)) (listening : Bool)
    (viewer : Option Viewer) (c : Call) : Process :=
  { s with
    pool := Function.update s.pool conn.channel viewer
    connections := Function.update s.connections fd (some { conn with
      taken := c.taken
      handled := c.handled
      listening
      ended := conn.ended || decide (Socket.stops c.socket < Socket.stops socket) })
    statics := c.statics
    tsFiles := c.tsFiles
    playlists := c.playlists }

/-- `DELETE_VIEWER_IF` closes the open segment, which stays in the variable. -/
def fclose (s : Process) : Process :=
  match s.statics.ftsHandler with
  | .null => s
  | .opened => { s with statics := { s.statics with ftsHandler := .closed } }
  | .closed => { s with fault := true }

def receive (s : Process) (fd : Nat) (conn : Connection) (viewer : Viewer) (setting : Setting)
    (socket : List (Socket.ReadEvent UInt8)) : Option Process :=
  match receiveStreamCb setting conn.channel ⟨s.statics, s.tsFiles, s.playlists, viewer, socket, conn.taken,
    conn.handled⟩ with
  | .hangs => none
  | .outside => some { s with fault := true }
  | .deleted c => some (s.after fd conn socket false none c).fclose
  | .returns c => some (s.after fd conn socket true (some c.viewer) c)
  | .stops c => some (s.after fd conn socket false (some c.viewer) c)

/-- The watcher is stopped and the channel erased. -/
def takeOff (s : Process) (channel : List UInt8) (fd : Nat) : Process :=
  { s with
    pool := Function.update s.pool channel none
    connections := Function.update s.connections fd
      ((s.connections fd).map fun conn => { conn with listening := false, ended := true }) }

def join (s : Process) (channel : List UInt8) (named : channel ≠ []) (fd : Nat) (stream : Stream) : Process :=
  { s with
    pool := Function.update s.pool channel (some (.start fd))
    connections := Function.update s.connections fd (some ⟨channel, named, stream, [], [], true, false⟩) }

/-- `connection` is the descriptor that `tcp_connect` gives, and the stream behind it. -/
def receiveRequestCb (s : Process) (httpRequest : List UInt8) (connection : Option (Nat × Stream)) : Option Process :=
  let request := parseStreamerRequest httpRequest ⟨[], [], [], [], 0⟩
  if request.method ≠ ascii "POST" then some s
  else if admitted : request.channel = [] ∨ 128 < request.channel.length then some s
  else if request.status ≠ ONLINE ∧ request.status ≠ OFFLINE then some s
  else if request.status = OFFLINE then
    match s.pool request.channel with
    | none => some s
    | some viewer => some (s.takeOff request.channel viewer.fd)
  else if (s.pool request.channel).isSome then some s
  else
    match connection with
    | none => some s
    | some (fd, stream) =>
      if (s.connections fd).isSome then none
      else some (s.join request.channel (fun empty => admitted (.inl empty)) fd stream)

end Process

inductive Event where
  | request (httpRequest : List UInt8) (connection : Option (Nat × Stream))
  | receive (fd : Nat) (setting : Setting) (socket : List (Socket.ReadEvent UInt8))

/-- The bytes that come in are the next ones of the stream. -/
def step (s : Process) : Event → Option Process
  | .request httpRequest connection => if s.fault then none else s.receiveRequestCb httpRequest connection
  | .receive fd setting socket =>
    if s.fault then none
    else
      match s.connections fd with
      | none => none
      | some conn =>
        if conn.listening ∧ conn.taken ++ Socket.incoming socket <+: conn.stream.bytes then
          match s.pool conn.channel with
          | none => some { s with fault := true }
          | some viewer => s.receive fd conn viewer setting socket
        else none

/-! ### What is asked of a process -/

/-- How many of the tags have come in whole with their first `n` bytes. -/
def complete : List FlvTag → Nat → Nat
  | [], _ => 0
  | tag :: tags, n => if tag.bytes.length ≤ n then complete tags (n - tag.bytes.length) + 1 else 0

def Connection.complete (conn : Connection) : Nat :=
  ReceiveStream.complete conn.stream.tags (conn.taken.length - conn.stream.opening.length)

/-- Every tag that has come in was handled once and in its turn, and as long as there are more the watcher
listens. -/
structure Followed (conn : Connection) : Prop where
  once : conn.handled = (conn.stream.tags.take conn.complete).map FlvTag.bytes
  heard : conn.listening ∨ conn.ended ∨ conn.taken = conn.stream.bytes

/-- No call goes astray, every stream is followed to its end, and in the files of a channel there is nothing of
another one. -/
structure Isolated (s : Process) : Prop where
  sound : s.fault = false
  followed : ∀ fd conn, s.connections fd = some conn → Followed conn
  segments : ∀ file ∈ s.tsFiles, ∀ channel, file.directory = directoryOf channel → ∀ frame ∈ file.frames,
    ∃ fd conn, s.connections fd = some conn ∧ conn.channel = channel ∧ frame ∈ framesOf .start conn.stream.tags
  playlists : ∀ channel pieces, s.playlists (playlistOf channel) = some pieces → ∀ piece ∈ pieces, Lists channel piece

/-- The segment has ended by this call, or before, and no key frame has come since. -/
def Divided (statics : Statics) (setting : Setting) : Prop :=
  statics.firstCreateTs ∨
    if statics.theFirst then (15 : Int) ≤ setting.now - setting.timestamp
    else (statics.m3u8Config.targetDuration : Int) ≤ setting.now - statics.prev

/-- The stream is the first of the process to get past its reply, and the reply is read without a break in less
than 20 seconds. The end of the first tag is not reached unless the tag is the last one and fits, and holds a
picture where a segment has ended before it. -/
structure Alone (statics : Statics) (conn : Connection) (viewer : Viewer) (setting : Setting)
    (socket : List (Socket.ReadEvent UInt8)) : Prop where
  only : viewer.flvHeader = [] → statics.readHttpReplyFirst
  prompt : statics.readHttpReplyFirst →
    (∀ gone ∈ setting.header.elapsed, gone < 20) ∧ Unbroken conn.stream.reply setting.header.junk socket
  last : ∀ tag rest, conn.stream.tags = tag :: rest →
    conn.stream.opening.length + tag.bytes.length ≤ conn.taken.length + (Socket.incoming socket).length →
    rest = [] ∧ tag.Fits ∧ (Divided statics setting → tag.IsPicture)

def Undisturbed (s : Process) : Event → Prop
  | .request _ _ => True
  | .receive fd setting socket => ∀ conn viewer, s.connections fd = some conn → s.pool conn.channel = some viewer →
      Alone s.statics conn viewer setting socket

end LiveStreaming.HappyHls.ReceiveStream
