import LiveStreaming.Streamer.SendCall

/-!
# One channel and its viewers

The relay is the event loop of a worker thread as far as one channel goes: the camera's socket becomes
readable, a viewer joins, or a viewer's socket becomes writable, in any order. It records the packets
received and every write to every viewer.
-/

namespace LiveStreaming.Streamer
open Library

/-- A write, with the number of packets that had been received by then. -/
structure Entry where
  clock : Nat
  write : Write
  deriving DecidableEq, Repr

/-- The channel, the camera's socket, and the history. `camera` is `none` after `delete_camera`. -/
structure Relay where
  viewersLimit : Nat
  camera : Option Cameras
  sentHttpResponseBytes : Nat
  socket : CameraSocket
  packets : List (List UInt8)
  /-- The writes to each viewer since it joined. -/
  log : ClientId → List Entry

namespace Relay

def start (viewersLimit : Nat) (socket : CameraSocket) : Relay where
  viewersLimit
  camera := some newCameras
  sentHttpResponseBytes := 0
  socket
  packets := []
  log _ := []

inductive Event where
  /-- The camera's socket is readable. -/
  | receive
  /-- `do_viewer_request` finds the channel for a new connection. -/
  | join (id : ClientId)
  /-- The viewer's socket is writable and will do as told. -/
  | send (id : ClientId) (socket : List Socket.WriteEvent)

def viewer (s : Relay) (id : ClientId) : Option ViewerInfo := s.camera.bind fun c => c.viewerInfoPool.lookup id

def receive (s : Relay) : Option Relay := do
  let c ← s.camera
  match receiveStreamCb c s.socket with
  | .kept c packet socket => some { s with camera := some c, socket, packets := s.packets ++ packet.toList }
  | .deleted socket => some { s with camera := none, socket }
  | .waiting | .fault => none

/-- A full channel turns the viewer away. The kernel hands out no descriptor that is in use. -/
def join (s : Relay) (id : ClientId) : Option Relay := do
  let c ← s.camera
  if c.viewerInfoPool.entries.length > s.viewersLimit then some s
  else if (c.viewerInfoPool.lookup id).isSome then none
  else some { s with
    camera := some { c with viewerInfoPool := c.viewerInfoPool.insert id (newViewerInfo id) }
    log := Function.update s.log id [] }

/-- The relay after a call of `send_tags_cb`, with the viewers left. -/
def sent (s : Relay) (id : ClientId) (t : SendState) (viewerInfoPool : Pool ClientId ViewerInfo) : Relay := { s with
  camera := some { t.camera with viewerInfoPool }
  sentHttpResponseBytes := t.sentHttpResponseBytes
  log := Function.update s.log id (s.log id ++ t.writes.map (⟨s.packets.length, ·⟩)) }

def send (s : Relay) (id : ClientId) (socket : List Socket.WriteEvent) : Option Relay := do
  let c ← s.camera
  let v ← c.viewerInfoPool.lookup id
  match sendTagsCb c v s.sentHttpResponseBytes socket with
  | .returned t => some (s.sent id t (t.camera.viewerInfoPool.insert id t.viewer))
  | .deleted t => some (s.sent id t (t.camera.viewerInfoPool.erase id))
  | .waiting | .fault => none

def step (s : Relay) : Event → Option Relay
  | .receive => s.receive
  | .join id => s.join id
  | .send id socket => s.send id socket

end Relay

/-! ### The relay in any state it reaches -/

/-- What holds between any two callbacks. -/
structure Sound (socket₀ : CameraSocket) (s : Relay) : Prop where
  framing : ∀ c, s.camera = some c →
    ∃ consumed, Socket.incoming socket₀ = consumed ++ Socket.incoming s.socket ∧ Framing c consumed s.packets
  saves : ∀ c, s.camera = some c → Saves c s.packets
  counters : ∀ c, s.camera = some c → CountersOk c s.sentHttpResponseBytes
  whole : ∀ p ∈ s.packets, WholeTag p
  queues : ∀ id v, s.viewer id = some v → ∃ f, Matches v f
  active : ∀ id v, s.viewer id = some v → v.watcherActive = true → s.packets ≠ []

theorem start_sound (viewersLimit : Nat) (socket : CameraSocket) : Sound socket (.start viewersLimit socket) := by
  have none_ : ∀ id v, (Relay.start viewersLimit socket).viewer id = some v → False := by
    intro id v found
    cases found
  constructor
  · rintro c found
    obtain rfl := Option.some.inj found
    exact ⟨[], rfl, newCameras_framing⟩
  · rintro c found
    obtain rfl := Option.some.inj found
    exact newCameras_saves
  · rintro c found part
    obtain rfl := Option.some.inj found
    cases part <;> exact Nat.zero_le _
  · intro p member
    cases member
  · intro id v found
    exact (none_ id v found).elim
  · intro id v found
    exact (none_ id v found).elim

/-- What one step means to one viewer. -/
inductive ViewerStep (s s' : Relay) (id : ClientId) : Relay.Event → Prop where
  /-- It does not concern the viewer. -/
  | quiet {e : Relay.Event} (packets : List (List UInt8)) (viewer : s'.viewer id = s.viewer id ∨ s'.viewer id = none)
      (log : s'.log id = s.log id) (received : s'.packets = s.packets ++ packets) : ViewerStep s s' id e
  /-- A tag is queued for it. -/
  | pushed {c : Cameras} {v v' : ViewerInfo} {isKeyFrame : Bool} {packet : List UInt8} (camera : s.camera = some c)
      (viewer : s.viewer id = some v) (viewer' : s'.viewer id = some v')
      (kind : packetKind packet = .media isKeyFrame) (media : extractsMedia c s.socket)
      (pushed : pushToViewer ⟨isKeyFrame, packet, 0⟩ v = some v') (log : s'.log id = s.log id)
      (received : s'.packets = s.packets ++ [packet]) : ViewerStep s s' id .receive
  | joined (viewer' : s'.viewer id = some (newViewerInfo id)) (log : s'.log id = [])
      (received : s'.packets = s.packets) : ViewerStep s s' id (.join id)
  /-- It is sent something, and perhaps deleted. -/
  | sent {c : Cameras} {v : ViewerInfo} {t : SendState} {socket : List Socket.WriteEvent} (camera : s.camera = some c)
      (viewer : s.viewer id = some v)
      (outcome : (sendTagsCb c v s.sentHttpResponseBytes socket = .returned t ∧ s'.viewer id = some t.viewer) ∨
        (sendTagsCb c v s.sentHttpResponseBytes socket = .deleted t ∧ s'.viewer id = none))
      (log : s'.log id = s.log id ++ t.writes.map (⟨s.packets.length, ·⟩))
      (received : s'.packets = s.packets) : ViewerStep s s' id (.send id socket)

theorem Framing.flvHeader_length {c : Cameras} {consumed : List UInt8} {tags : List (List UInt8)}
    (h : Framing c consumed tags) : c.flvHeader.length = flvHeaderSize + previousTagSize := by
  cases h <;> assumption

theorem Framing.whole {c : Cameras} {consumed : List UInt8} {tags : List (List UInt8)} (h : Framing c consumed tags) :
    ∀ t ∈ tags, WholeTag t := by
  rcases h.parse with ⟨_, rfl⟩ | ⟨_, _, parse⟩
  · simp
  · exact parse.whole

theorem SameSaved.counters {c c' : Cameras} {http : Nat} (same : SameSaved c c')
    (length : c'.flvHeader.length = c.flvHeader.length) (ok : CountersOk c http) : CountersOk c' http := by
  obtain ⟨_, script, avc, aac, n1, n2, n3, n4, _⟩ := same
  intro part
  have before := ok part
  cases part <;>
    simp only [HeaderPart.sentBytes, HeaderPart.buffer, script, avc, aac, n1, n2, n3, n4, length] at before ⊢ <;>
    exact before

theorem handleTag_counters {c c' : Cameras} {p : List UInt8} {kind : TagKind} {http : Nat}
    (handled : handleTag c p kind = some c') (ok : CountersOk c http) : CountersOk c' http := by
  intro part
  have before := ok part
  cases kind with
  | media isKeyFrame =>
    simp only [handleTag, Option.bind_eq_bind, Option.bind_eq_some_iff, Option.some.injEq] at handled
    obtain ⟨pool, _, rfl⟩ := handled
    cases part <;> exact before
  | _ =>
    obtain rfl := Option.some.inj handled
    cases part <;> first | exact before | exact Nat.zero_le _

/-- A readable camera is deleted, or it has extracted at most one packet. -/
inductive AfterReceive (socket₀ : CameraSocket) (c : Cameras) (s s' : Relay) : Prop where
  | deleted (camera : s'.camera = none) (received : s'.packets = s.packets)
  | nothing {c' : Cameras} (camera : s'.camera = some c') (received : s'.packets = s.packets) (same : SameSaved c c')
      (framing : ∃ consumed, Socket.incoming socket₀ = consumed ++ Socket.incoming s'.socket ∧
        Framing c' consumed s'.packets)
  | packet {d e c' : Cameras} {p : List UInt8} (camera : s'.camera = some c')
      (received : s'.packets = s.packets ++ [p]) (before : SameSaved c d)
      (length : d.flvHeader.length = flvHeaderSize + previousTagSize)
      (handled : handleTag d p (packetKind p) = some e) (after : SameSaved e c')
      (media : ∀ isKeyFrame, packetKind p = .media isKeyFrame → extractsMedia c s.socket)
      (framing : ∃ consumed, Socket.incoming socket₀ = consumed ++ Socket.incoming s'.socket ∧
        Framing c' consumed s'.packets)

theorem receive_cases {socket₀ : CameraSocket} {s s' : Relay} (sound : Sound socket₀ s) (next : s.receive = some s') :
    s'.log = s.log ∧ s'.sentHttpResponseBytes = s.sentHttpResponseBytes ∧
      ∃ c, s.camera = some c ∧ AfterReceive socket₀ c s s' := by
  unfold Relay.receive at next
  obtain ⟨c, camera, next⟩ := Option.bind_eq_some_iff.mp next
  cases called : receiveStreamCb c s.socket with
  | kept c' packet socket =>
    rw [called] at next
    obtain rfl := Option.some.inj next
    refine ⟨rfl, rfl, c, camera, ?_⟩
    obtain ⟨consumed, stream, framing⟩ := sound.framing c camera
    obtain ⟨more, stream', framing'⟩ := receiveStreamCb_framing framing called
    have onward : ∃ consumed, Socket.incoming socket₀ = consumed ++ Socket.incoming socket ∧
        Framing c' consumed (s.packets ++ packet.toList) :=
      ⟨consumed ++ more, by rw [stream, stream', List.append_assoc], framing'⟩
    rcases receiveStreamCb_cases framing called with ⟨rfl, same⟩ | ⟨p, d, e, rfl, before, length, handled, after, media⟩
    · exact .nothing rfl (List.append_nil _) same onward
    · exact .packet rfl rfl before length handled after media onward
  | deleted socket =>
    rw [called] at next
    obtain rfl := Option.some.inj next
    exact ⟨rfl, rfl, c, camera, .deleted rfl rfl⟩
  | waiting =>
    rw [called] at next
    cases next
  | fault =>
    rw [called] at next
    cases next

theorem join_cases {s s' : Relay} {id : ClientId} (next : s.join id = some s') :
    s' = s ∨ ∃ c, s.camera = some c ∧ s' = { s with
      camera := some { c with viewerInfoPool := c.viewerInfoPool.insert id (newViewerInfo id) }
      log := Function.update s.log id [] } := by
  unfold Relay.join at next
  obtain ⟨c, camera, next⟩ := Option.bind_eq_some_iff.mp next
  split_ifs at next
  · exact .inl (Option.some.inj next).symm
  · exact .inr ⟨c, camera, (Option.some.inj next).symm⟩

theorem send_cases {s s' : Relay} {id : ClientId} {socket : List Socket.WriteEvent}
    (next : s.send id socket = some s') : ∃ c v t, s.camera = some c ∧ c.viewerInfoPool.lookup id = some v ∧
      ((sendTagsCb c v s.sentHttpResponseBytes socket = .returned t ∧
          s' = s.sent id t (t.camera.viewerInfoPool.insert id t.viewer)) ∨
        (sendTagsCb c v s.sentHttpResponseBytes socket = .deleted t ∧
          s' = s.sent id t (t.camera.viewerInfoPool.erase id))) := by
  unfold Relay.send at next
  obtain ⟨c, camera, next⟩ := Option.bind_eq_some_iff.mp next
  obtain ⟨v, found, next⟩ := Option.bind_eq_some_iff.mp next
  cases called : sendTagsCb c v s.sentHttpResponseBytes socket with
  | returned t =>
    rw [called] at next
    exact ⟨c, v, t, camera, found, .inl ⟨called, (Option.some.inj next).symm⟩⟩
  | deleted t =>
    rw [called] at next
    exact ⟨c, v, t, camera, found, .inr ⟨called, (Option.some.inj next).symm⟩⟩
  | waiting =>
    rw [called] at next
    cases next
  | fault =>
    rw [called] at next
    cases next

theorem Relay.viewer_eq {s : Relay} {c : Cameras} (camera : s.camera = some c) (id : ClientId) :
    s.viewer id = c.viewerInfoPool.lookup id := by
  rw [Relay.viewer, camera, Option.bind_some]

theorem Relay.viewer_none {s : Relay} (camera : s.camera = none) (id : ClientId) : s.viewer id = none := by
  rw [Relay.viewer, camera, Option.bind_none]

theorem sendTagsCb_ended {c : Cameras} {v : ViewerInfo} {http : Nat} {socket : List Socket.WriteEvent} {t : SendState}
    {f : Feed} (matched : Matches v f)
    (ended : sendTagsCb c v http socket = .returned t ∨ sendTagsCb c v http socket = .deleted t) :
    ∃ f', (sendTagsCb c v http socket = .returned t → Matches t.viewer f') ∧
      CallSent ⟨c, v, http, socket, []⟩ f t f' := by
  rcases sendTagsCb_sends c http socket matched with waiting | ⟨t', f', ⟨returned, matched'⟩ | deleted, sent⟩
  · rw [waiting] at ended
    rcases ended with ended | ended <;> cases ended
  · rw [returned] at ended
    rcases ended with ended | ended <;> cases ended
    exact ⟨f', fun _ => matched', sent⟩
  · rw [deleted] at ended
    rcases ended with ended | ended <;> cases ended
    refine ⟨f', fun returned => ?_, sent⟩
    rw [deleted] at returned
    cases returned

theorem receive_viewer {socket₀ : CameraSocket} {s s' : Relay} (sound : Sound socket₀ s)
    (next : s.receive = some s') (id : ClientId) : ViewerStep s s' id .receive := by
  obtain ⟨log, _, c, camera, after⟩ := receive_cases sound next
  have log := congrFun log id
  cases after with
  | deleted camera' received => exact .quiet [] (.inr (Relay.viewer_none camera' id)) log (by simp [received])
  | nothing camera' received same =>
    refine .quiet [] (.inl ?_) log (by simp [received])
    rw [Relay.viewer_eq camera', Relay.viewer_eq camera, same.viewerInfoPool]
  | @packet d e c' p camera' received before _ handled after media =>
    have viewer := handleTag_viewer handled id
    rw [before.viewerInfoPool, ← after.viewerInfoPool, ← Relay.viewer_eq camera, ← Relay.viewer_eq camera'] at viewer
    cases kind : packetKind p with
    | media isKeyFrame =>
      rw [kind] at viewer
      cases found : s.viewer id with
      | none =>
        rw [found] at viewer
        exact .quiet [p] (.inr viewer) log received
      | some v =>
        rw [found] at viewer
        obtain ⟨f, matched⟩ := sound.queues id v found
        obtain ⟨v', pushed, _⟩ := pushToViewer_matches matched ⟨isKeyFrame, p, 0⟩
        exact .pushed camera found (viewer.trans pushed) kind (media isKeyFrame kind) pushed log received
    | _ =>
      rw [kind] at viewer
      exact .quiet [p] (.inl viewer) log received

theorem join_viewer {s s' : Relay} {other : ClientId} (next : s.join other = some s') (id : ClientId) :
    ViewerStep s s' id (.join other) := by
  rcases join_cases next with rfl | ⟨c, camera, rfl⟩
  · exact .quiet [] (.inl rfl) rfl (List.append_nil _).symm
  · by_cases same : id = other
    · subst same
      exact .joined (AList.lookup_insert _) (Function.update_self ..) rfl
    · refine .quiet [] (.inl ?_) (Function.update_of_ne same _ _) (List.append_nil _).symm
      rw [Relay.viewer_eq camera]
      exact AList.lookup_insert_ne same

theorem send_viewer {socket₀ : CameraSocket} {s s' : Relay} (sound : Sound socket₀ s) {other : ClientId}
    {socket : List Socket.WriteEvent} (next : s.send other socket = some s') (id : ClientId) :
    ViewerStep s s' id (.send other socket) := by
  obtain ⟨c, v, t, camera, found, outcome⟩ := send_cases next
  have viewer : s.viewer other = some v := (Relay.viewer_eq camera other).trans found
  obtain ⟨f, matched⟩ := sound.queues other v viewer
  obtain ⟨f', _, sent⟩ := sendTagsCb_ended matched (outcome.imp And.left And.left)
  have pool := sent.camera.viewerInfoPool
  by_cases same : id = other
  · subst same
    rcases outcome with ⟨called, rfl⟩ | ⟨called, rfl⟩
    · exact .sent camera viewer (.inl ⟨called, AList.lookup_insert _⟩) (Function.update_self ..) rfl
    · exact .sent camera viewer (.inr ⟨called, AList.lookup_erase ..⟩) (Function.update_self ..) rfl
  · have unchanged : t.camera.viewerInfoPool.lookup id = s.viewer id := by rw [pool, Relay.viewer_eq camera]
    rcases outcome with ⟨_, rfl⟩ | ⟨_, rfl⟩
    · exact .quiet [] (.inl ((AList.lookup_insert_ne same).trans unchanged)) (Function.update_of_ne same _ _)
        (List.append_nil _).symm
    · exact .quiet [] (.inl ((AList.lookup_erase_ne same).trans unchanged)) (Function.update_of_ne same _ _)
        (List.append_nil _).symm

theorem step_viewer {socket₀ : CameraSocket} {s s' : Relay} {e : Relay.Event} (sound : Sound socket₀ s)
    (next : s.step e = some s') (id : ClientId) : ViewerStep s s' id e := by
  cases e with
  | receive => exact receive_viewer sound next id
  | join other => exact join_viewer next id
  | send other socket => exact send_viewer sound next id

end LiveStreaming.Streamer
