import LiveStreaming.Library.EarlyExit
import LiveStreaming.Streamer.Camera

/-!
# Sending to a viewer

`send_tags_cb` runs when a viewer's socket is writable. It first sends the stream headers, a part at
a time, and then the tags of the viewer's queue, a tag each time. Every call that writes is recorded.
-/

namespace LiveStreaming.Streamer
open Library

/-- `http_response` -/
def httpResponse : List UInt8 :=
  "HTTP/1.1 200 OK\r\nContent-type:video/x-flv\r\n\r\n".toList.map fun c => c.toNat.toUInt8

inductive HeaderPart where
  | httpResponse
  | flvHeader
  | scriptTag
  | avcSequenceHeader
  | aacSequenceHeader
  deriving DecidableEq, Repr

/-- What a call of `write_specify_size` is about. -/
inductive Item where
  | header (part : HeaderPart) (buffer : List UInt8)
  | tag (flvTag : FlvTagFrame)
  deriving DecidableEq, Repr

/-- A call of `write_specify_size`: the offset it started from and the bytes the kernel took. -/
structure Write where
  item : Item
  start : Nat
  taken : List UInt8
  deriving DecidableEq, Repr

/-- The data that `send_tags_cb` works on; `sent_http_response_bytes` is a static variable. -/
structure SendState where
  camera : Cameras
  viewer : ViewerInfo
  sentHttpResponseBytes : Nat
  socket : List Socket.WriteEvent
  writes : List Write

inductive SendOutcome where
  | returned (s : SendState)
  /-- It calls `delete_viewer` and returns. -/
  | deleted (s : SendState)
  /-- It spins in `write_specify_size2`. -/
  | waiting
  /-- It follows a pointer that is not there. -/
  | fault

/-! ### The header phase -/

namespace HeaderPart

def buffer (c : Cameras) : HeaderPart → List UInt8
  | httpResponse => Streamer.httpResponse
  | flvHeader => c.flvHeader
  | scriptTag => c.flvScriptTag
  | avcSequenceHeader => c.avcSequenceHeader
  | aacSequenceHeader => c.aacSequenceHeader

def present (c : Cameras) : HeaderPart → Bool
  | httpResponse | flvHeader => true
  | scriptTag => c.scriptTagExists
  | avcSequenceHeader => c.avcSequenceHeader.length != 0
  | aacSequenceHeader => c.aacSequenceHeader.length != 0

def notSentDone (v : ViewerInfo) : HeaderPart → Bool
  | httpResponse => v.notSentHttpResponseDone
  | flvHeader => v.notSentFlvHeaderDone
  | scriptTag => v.notSentScriptTagDone
  | avcSequenceHeader => v.notSentAvcSequenceHeaderDone
  | aacSequenceHeader => v.notSentAacSequenceHeaderDone

def setDone (v : ViewerInfo) : HeaderPart → ViewerInfo
  | httpResponse => { v with notSentHttpResponseDone := false }
  | flvHeader => { v with notSentFlvHeaderDone := false }
  | scriptTag => { v with notSentScriptTagDone := false }
  | avcSequenceHeader => { v with notSentAvcSequenceHeaderDone := false }
  | aacSequenceHeader => { v with notSentAacSequenceHeaderDone := false }

/-- The counter of the bytes sent. None of them belongs to the viewer. -/
def sentBytes (c : Cameras) (sentHttpResponseBytes : Nat) : HeaderPart → Nat
  | httpResponse => sentHttpResponseBytes
  | flvHeader => c.flvHeaderSentBytes
  | scriptTag => c.scriptTagSentBytes
  | avcSequenceHeader => c.avcSequenceHeaderSentBytes
  | aacSequenceHeader => c.aacSequenceHeaderSentBytes

/-- The counter after a write that left something to send. -/
def advance (s : SendState) (n : Nat) : HeaderPart → SendState
  | httpResponse => { s with sentHttpResponseBytes := s.sentHttpResponseBytes + n }
  | flvHeader => { s with camera := { s.camera with flvHeaderSentBytes := s.camera.flvHeaderSentBytes + n } }
  | scriptTag => { s with camera := { s.camera with scriptTagSentBytes := s.camera.scriptTagSentBytes + n } }
  | avcSequenceHeader => { s with
      camera := { s.camera with avcSequenceHeaderSentBytes := s.camera.avcSequenceHeaderSentBytes + n } }
  | aacSequenceHeader => { s with
      camera := { s.camera with aacSequenceHeaderSentBytes := s.camera.aacSequenceHeaderSentBytes + n } }

/-- The end of the part. Only the counter of the HTTP response is set back. -/
def finish (s : SendState) : HeaderPart → SendState
  | httpResponse => { s with viewer := httpResponse.setDone s.viewer, sentHttpResponseBytes := 0 }
  | part => { s with viewer := part.setDone s.viewer }

def write (buffer : List UInt8) (socket : List Socket.WriteEvent) : HeaderPart → Option Sent
  | httpResponse => writeSpecifySize2 buffer socket
  | _ => some (writeSpecifySize buffer socket)

end HeaderPart

/-- One `if` of the header phase. -/
def sendHeaderPart (part : HeaderPart) (s : SendState) : Except SendOutcome SendState :=
  if part.present s.camera && part.notSentDone s.viewer then
    let buffer := part.buffer s.camera
    let sent := part.sentBytes s.camera s.sentHttpResponseBytes
    let totalBytes := buffer.length - sent
    match part.write (buffer.drop sent) s.socket with
    | none => throw .waiting
    | some r =>
      let s := { s with
        socket := r.socket
        writes := s.writes ++ [⟨.header part buffer, sent, r.taken⟩] }
      match r.ret with
      | none => throw (.deleted s)
      | some n => if n ≠ totalBytes then throw (.returned (part.advance s n)) else pure (part.finish s)
  else pure s

def sendHttpResponse : SendState → Except SendOutcome SendState := sendHeaderPart .httpResponse

def sendFlvHeader : SendState → Except SendOutcome SendState := sendHeaderPart .flvHeader

def sendScriptTag : SendState → Except SendOutcome SendState := sendHeaderPart .scriptTag

def sendAvcSequenceHeader : SendState → Except SendOutcome SendState := sendHeaderPart .avcSequenceHeader

def sendAacSequenceHeader : SendState → Except SendOutcome SendState := sendHeaderPart .aacSequenceHeader

/-- The body of `if( send_first )`. -/
def sendHeaders (s : SendState) : Except SendOutcome SendState :=
  if s.viewer.sendFirst then do
    let s ← sendHttpResponse s
    let s ← sendFlvHeader s
    let s ← sendScriptTag s
    let s ← sendAvcSequenceHeader s
    let s ← sendAacSequenceHeader s
    pure { s with viewer := { s.viewer with sendFirst := false } }
  else pure s

/-! ### The tag phase -/

/-- The head of the queue with a new `sent_bytes`. -/
def setTopSentBytes (q : ViewerQueue) (sentBytes : Nat) : ViewerQueue :=
  { q with flvTags := q.flvTags.setIfInBounds q.front ((q.slot q.front).map ({ · with sentBytes })) }

def popTag (s : SendState) : Option SendState := do
  let viewerQueue ← viewerQueuePop s.viewer.viewerQueue
  some { s with viewer := { s.viewer with viewerQueue } }

/-- The rest of `send_tags_cb`, from the test of the queue on. -/
def sendTopTag (s : SendState) : SendOutcome :=
  if viewerQueueEmpty s.viewer.viewerQueue then
    .returned { s with viewer := { s.viewer with watcherActive := false } }
  else
    match viewerQueueTop s.viewer.viewerQueue with
    | none => .fault
    | some flvTag =>
      if s.viewer.sendKeyFrameFirst && !flvTag.isKeyFrame then
        match popTag s with
        | none => .fault
        | some s => .returned s
      else if flvTag.dataSize ≠ flvTag.sentBytes then
        let leftBytes := flvTag.dataSize - flvTag.sentBytes
        let r := writeSpecifySize (flvTag.tag.drop flvTag.sentBytes) s.socket
        let s := { s with
          socket := r.socket
          writes := s.writes ++ [⟨.tag flvTag, flvTag.sentBytes, r.taken⟩] }
        match r.ret with
        | none => .deleted s
        | some n =>
          if n ≠ leftBytes then
            .returned { s with viewer := { s.viewer with
              viewerQueue := setTopSentBytes s.viewer.viewerQueue (flvTag.sentBytes + n) } }
          else finishTopTag s
      else finishTopTag s
where
  /-- Pop the tag that has been sent. -/
  finishTopTag (s : SendState) : SendOutcome :=
    match popTag s with
    | none => .fault
    | some s => .returned { s with viewer := { s.viewer with sendKeyFrameFirst := false } }

/-- `send_tags_cb` on a writable socket; it does nothing when the watcher has been stopped. -/
def sendTagsCb (c : Cameras) (v : ViewerInfo) (sentHttpResponseBytes : Nat) (socket : List Socket.WriteEvent) :
    SendOutcome :=
  let s : SendState := ⟨c, v, sentHttpResponseBytes, socket, []⟩
  if v.watcherActive then
    match sendHeaders s with
    | .error outcome => outcome
    | .ok s => sendTopTag s
  else .returned s

/-! ### What a header part does -/

def HeaderPart.order : List HeaderPart :=
  [.httpResponse, .flvHeader, .scriptTag, .avcSequenceHeader, .aacSequenceHeader]

def HeaderPart.Due (c : Cameras) (v : ViewerInfo) (part : HeaderPart) : Prop :=
  part.present c = true ∧ part.notSentDone v = true

/-- The state after the kernel took `taken` of a part. -/
def SendState.wrote (s : SendState) (part : HeaderPart) (taken : List UInt8) (socket : List Socket.WriteEvent) :
    SendState :=
  { s with
    socket
    writes := s.writes ++
      [⟨.header part (part.buffer s.camera), part.sentBytes s.camera s.sentHttpResponseBytes, taken⟩] }

/-- The bytes of a part that are still to be sent, as its counter has it. -/
def SendState.left (s : SendState) (part : HeaderPart) : List UInt8 :=
  (part.buffer s.camera).drop (part.sentBytes s.camera s.sentHttpResponseBytes)

inductive HeaderPartSent (part : HeaderPart) (s : SendState) : Except SendOutcome SendState → Prop where
  | skipped (notDue : ¬part.Due s.camera s.viewer) : HeaderPartSent part s (.ok s)
  | waiting : HeaderPartSent part s (.error .waiting)
  | deleted {taken : List UInt8} {socket : List Socket.WriteEvent} (due : part.Due s.camera s.viewer)
      (cut : taken <+: s.left part) : HeaderPartSent part s (.error (.deleted (s.wrote part taken socket)))
  | partly {taken : List UInt8} {socket : List Socket.WriteEvent} (due : part.Due s.camera s.viewer)
      (cut : taken <+: s.left part) (short : taken.length < (s.left part).length) :
      HeaderPartSent part s (.error (.returned (part.advance (s.wrote part taken socket) taken.length)))
  | complete {socket : List Socket.WriteEvent} (due : part.Due s.camera s.viewer) :
      HeaderPartSent part s (.ok (part.finish (s.wrote part (s.left part) socket)))

theorem HeaderPart.write_spec {part : HeaderPart} {buffer : List UInt8} {socket : List Socket.WriteEvent} {r : Sent}
    (h : part.write buffer socket = some r) : r.taken <+: buffer ∧ (r.ret = none ∨ r.ret = some r.taken.length) := by
  cases part with
  | httpResponse =>
    obtain ⟨start, result⟩ := writeSpecifySize2_spec h
    exact ⟨start, result.imp_right fun ⟨ret, all⟩ => by rw [ret, all]⟩
  | _ =>
    obtain rfl := Option.some.inj h
    exact writeSpecifySize_spec buffer socket

theorem sendHeaderPart_cases (part : HeaderPart) (s : SendState) : HeaderPartSent part s (sendHeaderPart part s) := by
  unfold sendHeaderPart
  split
  · next test =>
    have due : part.Due s.camera s.viewer := by simpa [HeaderPart.Due] using test
    dsimp only
    cases written : part.write (s.left part) s.socket with
    | none =>
      unfold SendState.left at written
      rw [written]
      exact .waiting
    | some r =>
      obtain ⟨cut, ret⟩ := HeaderPart.write_spec written
      have total : (part.buffer s.camera).length - part.sentBytes s.camera s.sentHttpResponseBytes =
          (s.left part).length := by rw [SendState.left, List.length_drop]
      unfold SendState.left at written
      rw [written, total]
      dsimp only
      rcases ret with failed | sent
      · rw [failed]
        exact .deleted due cut
      · rw [sent]
        dsimp only
        split
        · next short => exact .partly due cut (Nat.lt_of_le_of_ne cut.length_le short)
        · next all =>
          have whole := cut.eq_of_length (not_not.mp all)
          rw [whole]
          exact .complete due
  · next test => exact .skipped (by simpa [HeaderPart.Due] using test)

theorem sendHeaders_eq {s : SendState} (first : s.viewer.sendFirst = true) :
    sendHeaders s = HeaderPart.order.foldlM (fun s part => sendHeaderPart part s) s >>=
      fun s => pure { s with viewer := { s.viewer with sendFirst := false } } := by
  simp only [sendHeaders, if_pos first, HeaderPart.order, List.foldlM_cons, List.foldlM_nil, sendHttpResponse,
    sendFlvHeader, sendScriptTag, sendAvcSequenceHeader, sendAacSequenceHeader, bind_assoc, pure_bind]

/-- The rule of the header phase: an invariant that every part keeps, told which parts are to come. -/
theorem sendHeaders_rule {I : List HeaderPart → SendState → Prop} {Q : SendOutcome → Prop}
    (step : ∀ part rest s result, I (part :: rest) s → HeaderPartSent part s result →
      EarlyExit.Ends Q (I rest) result) {s : SendState} (first : s.viewer.sendFirst = true)
    (h : I HeaderPart.order s) :
    EarlyExit.Ends Q (fun s' => ∃ t, I [] t ∧ s' = { t with viewer := { t.viewer with sendFirst := false } })
      (sendHeaders s) := by
  rw [sendHeaders_eq first]
  refine (EarlyExit.Ends.foldlM (I := I) ?_ HeaderPart.order s h).bind fun t ended => ⟨t, ended, rfl⟩
  intro part rest s h
  exact step part rest s _ h (sendHeaderPart_cases part s)

end LiveStreaming.Streamer
