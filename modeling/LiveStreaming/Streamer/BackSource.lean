import LiveStreaming.Library.OrderedMap
import LiveStreaming.Library.Transition
import LiveStreaming.Streamer.ChannelRequest
import LiveStreaming.Streamer.NetUtility
import Mathlib.Data.Finset.Sort

/-!
# Back sources

A viewer may ask for a channel that another streaming server has. The work thread then pulls the stream
from that server and pushes it to the viewer: `pull_stream_cb` and `push_stream_cb` hand over one block
of bytes at a time. The descriptors of all the connections of a channel are in one set.
-/

namespace LiveStreaming.Streamer
open Library

namespace BackSource

def tagDataSize : Nat := 1024

/-- `STREAM_DATA`, with those bytes of `stream` that have been received. -/
structure StreamData where
  stream : List UInt8
  receivedBytes : Nat

/-- The watchers of a connection have not been created yet, exist, or have been deleted. -/
inductive Stage where
  | waiting
  | relaying
  | ended
  deriving DecidableEq

/-- The three watchers of a connection. `request` is the `data` of the sending one, `pushFd` is `none` for
-1, and `pushing` says whether the pushing watcher is active. `pulled` and `sent` are the bytes read from
the other server and those the kernel took for the viewer. -/
structure Connection where
  worker : Nat
  channel : List UInt8
  clientFd : Nat
  requestFd : Nat
  stage : Stage
  request : Option (List UInt8)
  pushFd : Option Nat
  pushing : Bool
  data : Option StreamData
  pulled : List UInt8
  sent : List UInt8

end BackSource

open BackSource

/-- `totalBytes` and `requestBytes` are the two static variables `total_bytes`. `closes` records which
connection's callback closed which descriptor, and `fault` that a callback has read through an iterator
at its end or behind a buffer. -/
structure BackSource where
  workers : Nat
  resourceInfoPool : Nat → OrderedMap (List UInt8) (Finset Nat)
  connections : Nat → Option Connection
  totalBytes : Nat
  requestBytes : Nat
  opened : Finset Nat
  closes : List (Nat × Nat)
  fault : Bool

namespace BackSource

def start (workers : Nat) : BackSource := ⟨workers, fun _ => .empty, fun _ => none, 0, 0, ∅, [], false⟩

def setConnection (s : BackSource) (c : Nat) (conn : Connection) : BackSource :=
  { s with connections := Function.update s.connections c (some conn) }

def setResource (s : BackSource) (worker : Nat) (channel : List UInt8) (fds : Finset Nat) : BackSource :=
  { s with
    resourceInfoPool := Function.update s.resourceInfoPool worker ((s.resourceInfoPool worker).set channel fds) }

def eraseResource (s : BackSource) (worker : Nat) (channel : List UInt8) : BackSource :=
  { s with resourceInfoPool := Function.update s.resourceInfoPool worker ((s.resourceInfoPool worker).erase channel) }

def close (s : BackSource) (c fd : Nat) : BackSource :=
  { s with opened := s.opened.erase fd, closes := s.closes ++ [(c, fd)] }

/-- The worker that has a channel. -/
def resourceAlreadyIn (s : BackSource) (channel : List UInt8) : Option Nat :=
  (List.range s.workers).find? fun worker => ((s.resourceInfoPool worker).find channel).isSome

/-- The first channel of the worker whose set has the descriptor. -/
def getBackingResourceItem (s : BackSource) (worker fd : Nat) : Option (List UInt8 × Finset Nat) :=
  (s.resourceInfoPool worker).entries.find? fun e => fd ∈ e.2

def urlArg (header : SimpleRosehttpHeader) (key : String) : List UInt8 :=
  (header.urlArgs.lookup (CString.ascii key)).getD []

def imitatedRequest (header : SimpleRosehttpHeader) : List UInt8 :=
  CString.ascii "GET " ++ header.serverPath ++ CString.ascii "/" ++ CString.ascii "channel=" ++
    urlArg header "channel" ++
    CString.ascii "&type=" ++ urlArg header "type" ++ CString.ascii "&token=" ++ urlArg header "token" ++
    CString.ascii " HTTP/1.1\r\n\r\n"

/-- What `do_the_backing_source_request` leaves for the worker: a connection without watchers. -/
def waiting (worker : Nat) (header : SimpleRosehttpHeader) (requestFd localFd : Nat) : Connection where
  worker
  channel := urlArg header "channel"
  clientFd := localFd
  requestFd
  stage := .waiting
  request := some (CString.cString (imitatedRequest header))
  pushFd := some requestFd
  pushing := false
  data := none
  pulled := []
  sent := []

def handOver (s : BackSource) (c worker : Nat) (header : SimpleRosehttpHeader) (requestFd localFd : Nat) : BackSource :=
  s.setConnection c (waiting worker header requestFd localFd)

/-- `roundRobin` is the first worker in turn without a pending event, and `pending` what the flag of the
worker that has the channel says. `localFd` is `none` where `tcp_connect` fails. -/
def doTheBackingSourceRequest (s : BackSource) (c : Nat) (header : SimpleRosehttpHeader) (requestFd : Nat)
    (localFd : Option Nat) (roundRobin : Nat) (pending : Bool) : Bool × BackSource :=
  let channel := urlArg header "channel"
  if urlArg header "src" = [] ∨ channel = [] then (false, s)
  else
    match localFd with
    | none => (false, s)
    | some localFd =>
      let s := { s with opened := insert localFd (insert requestFd s.opened) }
      match s.resourceAlreadyIn channel with
      | none =>
        if localFd = requestFd then (false, s)
        else (true, (s.setResource roundRobin channel {requestFd, localFd}).handOver c roundRobin header
          requestFd localFd)
      | some worker =>
        let fds := ((s.resourceInfoPool worker).find channel).getD ∅
        let s' := s.setResource worker channel (insert localFd (insert requestFd fds))
        if requestFd ∈ fds ∨ localFd ∈ insert requestFd fds then (false, s')
        -- the descriptors stay in the set of the channel
        else if pending then (false, s')
        else (true, s'.handOver c worker header requestFd localFd)

/-- The end of `do_viewer_request`. -/
def doViewerRequest (s : BackSource) (c : Nat) (header : SimpleRosehttpHeader) (requestFd : Nat)
    (localFd : Option Nat) (roundRobin : Nat) (pending : Bool) : BackSource :=
  match s.doTheBackingSourceRequest c header requestFd localFd roundRobin pending with
  | (true, s) => s
  | (false, s) => { s with opened := s.opened.erase requestFd }

/-- The part of `async_read_cb` for a `BACKER`. -/
def asyncReadCb (s : BackSource) (c : Nat) (conn : Connection) : BackSource :=
  s.setConnection c { conn with stage := .relaying }

/-- The end of `send_backing_resource_cb`. -/
def stopSending (s : BackSource) (c : Nat) (conn : Connection) : BackSource :=
  { s.setConnection c { conn with request := none } with requestBytes := 0 }

def sendBackingResourceCb (s : BackSource) (c : Nat) (conn : Connection) (request : List UInt8)
    (socket : List Socket.WriteEvent) : BackSource :=
  if s.requestBytes = request.length then s.stopSending c conn
  else if request.length < s.requestBytes then { s with fault := true }
  else
    match (writeSpecifySize (request.drop s.requestBytes) socket).ret with
    | some sentBytes =>
      let s := { s with requestBytes := s.requestBytes + sentBytes }
      if s.requestBytes = request.length then s.stopSending c conn else s
    | none =>
      match s.getBackingResourceItem conn.worker conn.clientFd with
      | none => { s with fault := true }
      | some (channel, _) => (s.eraseResource conn.worker channel).stopSending c conn

/-- `DELETE_RESOURCE` closes the descriptors of the whole channel. -/
def deleteResource (s : BackSource) (c : Nat) (conn : Connection) (channel : List UInt8) (fds : Finset Nat) :
    BackSource :=
  let s := { s with
    opened := s.opened \ fds
    closes := s.closes ++ (fds.sort (· ≤ ·)).map fun fd => (c, fd) }
  (s.eraseResource conn.worker channel).setConnection c { conn with stage := .ended, pushing := false, data := none }

/-- `none` where `read_specify_size` does not return. -/
def pullStreamCb (s : BackSource) (c : Nat) (conn : Connection) (socket : List (Socket.ReadEvent UInt8)) :
    Option BackSource :=
  match conn.pushFd with
  | none =>
    match s.getBackingResourceItem conn.worker conn.clientFd with
    | none => some { s with fault := true }
    | some (channel, fds) =>
      let fds := fds.erase conn.clientFd
      let s := s.close c conn.clientFd
      let s := if fds = ∅ then s.eraseResource conn.worker channel else s.setResource conn.worker channel fds
      some (s.setConnection c { conn with stage := .ended })
  | some _ =>
    (readSpecifySize tagDataSize socket).map fun received =>
      let conn := { conn with pulled := conn.pulled ++ received.stored }
      if received.ret = 0 then
        match s.getBackingResourceItem conn.worker conn.clientFd with
        | none => { s with fault := true }
        | some (channel, fds) => s.deleteResource c conn channel fds
      else s.setConnection c { conn with data := some ⟨received.stored, received.ret⟩, pushing := true }

/-- The end of `push_stream_cb`. -/
def stopPushing (s : BackSource) (c : Nat) (conn : Connection) : BackSource :=
  { s.setConnection c { conn with data := none, pushing := false } with totalBytes := 0 }

def pushStreamCb (s : BackSource) (c : Nat) (conn : Connection) (socket : List Socket.WriteEvent) : BackSource :=
  match conn.data, conn.pushFd with
  | some data, some fd =>
    if s.totalBytes = data.receivedBytes then s.stopPushing c conn
    else if data.receivedBytes < s.totalBytes then { s with fault := true }
    else
      let write := writeSpecifySize (data.stream.drop s.totalBytes) socket
      let conn := { conn with sent := conn.sent ++ write.taken }
      match write.ret with
      | none =>
        match s.getBackingResourceItem conn.worker fd with
        | none => { s with fault := true }
        | some (channel, fds) =>
          -- `total_bytes` keeps its value
          ((s.setResource conn.worker channel (fds.erase fd)).close c fd).setConnection c
            { conn with data := none, pushFd := none, pushing := false }
      | some sentBytes =>
        let s := { s with totalBytes := s.totalBytes + sentBytes }
        if s.totalBytes = data.receivedBytes then s.stopPushing c conn else s.setConnection c conn
  | _, _ => { s with fault := true }

inductive Event where
  | request (c : Nat) (header : SimpleRosehttpHeader) (requestFd : Nat) (localFd : Option Nat) (roundRobin : Nat)
      (pending : Bool)
  | asyncRead (c : Nat)
  | send (c : Nat) (socket : List Socket.WriteEvent)
  | pull (c : Nat) (socket : List (Socket.ReadEvent UInt8))
  | push (c : Nat) (socket : List Socket.WriteEvent)

/-- The kernel gives out descriptors that are not open. A callback is called where its watcher has been
started, and nothing happens after a fault. -/
def step (s : BackSource) (e : Event) : Option BackSource :=
  if s.fault then none
  else
    match e with
    | .request c header requestFd localFd roundRobin pending =>
      if (s.connections c).isNone ∧ requestFd ∉ s.opened ∧ (∀ fd ∈ localFd, fd ∉ s.opened ∧ fd ≠ requestFd) ∧
          roundRobin < s.workers then
        some (s.doViewerRequest c header requestFd localFd roundRobin pending)
      else none
    | .asyncRead c => (s.connections c).bind fun conn =>
      if conn.stage = .waiting then some (s.asyncReadCb c conn) else none
    | .send c socket => (s.connections c).bind fun conn =>
      if conn.stage = .waiting then none
      else conn.request.map fun request => s.sendBackingResourceCb c conn request socket
    | .pull c socket => (s.connections c).bind fun conn =>
      if conn.stage = .relaying then s.pullStreamCb c conn socket else none
    | .push c socket => (s.connections c).bind fun conn =>
      if conn.pushing then some (s.pushStreamCb c conn socket) else none

def sampleHeader : SimpleRosehttpHeader where
  method := CString.ascii "GET"
  serverPath := CString.ascii "/live"
  urlArgs := ((∅ : Pool (List UInt8) (List UInt8)).insert (CString.ascii "src") (CString.ascii "10.0.0.1")).insert
    (CString.ascii "channel") (CString.ascii "7")
  httpVersion := CString.ascii "HTTP/1.1"

def opening : List Event := [.request 0 sampleHeader 10 (some 11) 0 false, .asyncRead 0]

end BackSource

end LiveStreaming.Streamer
