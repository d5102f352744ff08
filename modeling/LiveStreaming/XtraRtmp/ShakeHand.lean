import LiveStreaming.Library.SharedStatic
import LiveStreaming.Library.Transition
import LiveStreaming.XtraRtmp.NetUtil

/-!
# The RTMP handshake

`shakeHandCallback` is the read callback of every accepted connection. The buffers that it assembles
C0, C1 and C2 in are static, and so are their counters, which nothing sets back.
-/

namespace LiveStreaming.XtraRtmp
open Library Streamer

def randomValueFrom (index : Nat) (tmp : UInt8) : Nat → List UInt8
  | 0 => []
  | n + 1 =>
    let value := UInt8.ofNat index * tmp + UInt8.ofNat (1986 % 256)
    value :: randomValueFrom (index + 1) value n

def generateSimpleRandomValue (bufferLen : Nat) : List UInt8 := randomValueFrom 0 0 bufferLen

def randomValueSize : Nat := 1528

/-- S0, S1 with the server's own random bytes, and S2 with the client's. -/
def s0s1s2Buffer (c0c1Buffer : List UInt8) : List UInt8 :=
  c0c1Buffer.take 1 ++ [0, 0, 0, 0] ++ [0, 0, 0, 0] ++ generateSimpleRandomValue randomValueSize ++
    (c0c1Buffer.drop 1).take 4 ++ (c0c1Buffer.drop 5).take 4 ++ (c0c1Buffer.drop 9).take randomValueSize

/-- Which callback watches a connection. -/
inductive Phase where
  | shakeHand
  | consult
  | closed
  deriving DecidableEq

/-- What one call reads from its connection and counts, what it writes, and what watches it next. -/
structure ShakeHandCall where
  received : List UInt8
  sent : List UInt8
  next : Phase

structure ShakeHandStatics where
  c0c1 : StaticBuffer
  c2 : StaticBuffer

/-- `none` when a call of the two transfers does not return. -/
def shakeHandCallback (s : ShakeHandStatics) (reads : List (Socket.ReadEvent UInt8)) (writes : List Socket.WriteEvent) :
    Option (ShakeHandStatics × ShakeHandCall) :=
  if s.c0c1.readBytes < 1537 then
    (readSpecifySize (1537 - s.c0c1.readBytes) reads).bind fun r =>
      let s := { s with c0c1 := s.c0c1.receive r }
      if 0 < r.ret then
        if s.c0c1.readBytes = 1537 then
          (writeSpecifySize2 (s0s1s2Buffer s.c0c1.buffer) writes).map fun w =>
            (s, ⟨r.stored, w.taken, if w.ret = none then .closed else .shakeHand⟩)
        else some (s, ⟨r.stored, [], .shakeHand⟩)
      else some (s, ⟨[], [], .closed⟩)
  else if s.c2.readBytes < 1536 then
    (readSpecifySize (1536 - s.c2.readBytes) reads).map fun r =>
      let s := { s with c2 := s.c2.receive r }
      if 0 < r.ret then (s, ⟨r.stored, [], if s.c2.readBytes = 1536 then .consult else .shakeHand⟩)
      else (s, ⟨[], [], .closed⟩)
  -- both messages are complete, and the call returns without a read
  else some (s, ⟨[], [], .shakeHand⟩)

/-- A connection: what its calls have counted and written. `ignored` records a call that has neither
read nor closed. -/
structure Connection where
  phase : Phase
  received : List UInt8
  sent : List UInt8
  ignored : Bool

structure ShakeHandServer where
  statics : ShakeHandStatics
  connections : Nat → Option Connection

namespace ShakeHandServer

def start : ShakeHandServer :=
  ⟨⟨⟨List.replicate 1537 0, 0⟩, ⟨List.replicate 1536 0, 0⟩⟩, fun _ => none⟩

/-- A client is accepted, or libev finds one readable. The call says how the socket answers its reads and
writes. -/
inductive Event where
  | accept (client : Nat)
  | readable (client : Nat) (reads : List (Socket.ReadEvent UInt8)) (writes : List Socket.WriteEvent)

def after (connection : Connection) (call : ShakeHandCall) : Connection where
  phase := call.next
  received := connection.received ++ call.received
  sent := connection.sent ++ call.sent
  ignored := connection.ignored || (call.received.isEmpty && call.next == .shakeHand)

def step (s : ShakeHandServer) : Event → Option ShakeHandServer
  | .accept client =>
    match s.connections client with
    | none => some { s with connections := Function.update s.connections client (some ⟨.shakeHand, [], [], false⟩) }
    | some _ => none
  | .readable client reads writes =>
    match s.connections client with
    | some connection =>
      if connection.phase = .shakeHand then
        (shakeHandCallback s.statics reads writes).map fun r =>
          ⟨r.1, Function.update s.connections client (some (after connection r.2))⟩
      else none
    | none => none

/-- What a client that has sent `received` is owed. -/
def reply (received : List UInt8) : List UInt8 :=
  if 1537 ≤ received.length then s0s1s2Buffer (received.take 1537) else []

/-- The server's side of a connection is a function of the bytes of that connection, and every call has
read some of them or closed it. -/
structure Answered (connection : Connection) : Prop where
  replied : connection.sent <+: reply connection.received
  progress : connection.phase ≠ .closed → connection.sent = reply connection.received ∧
    connection.phase = if connection.received.length = 1537 + 1536 then .consult else .shakeHand
  heard : connection.ignored = false

/-- A call is made only for a connection that is the first to have been read from. -/
def Undisturbed (s : ShakeHandServer) : Event → Prop
  | .accept _ => True
  | .readable client _ _ => OthersIdle (fun connection => connection.received = []) s.connections client

/-- The static buffers hold what one connection has sent. -/
structure Assembled (s : ShakeHandStatics) (received : List UInt8) : Prop where
  c0c1 : s.c0c1.Contains 1537 (received.take 1537)
  c2 : s.c2.Contains 1536 (received.drop 1537)

theorem reply_of_short {received : List UInt8} (short : received.length < 1537) : reply received = [] :=
  if_neg (Nat.not_le.mpr short)

theorem reply_append {received : List UInt8} (whole : 1537 ≤ received.length) (more : List UInt8) :
    reply (received ++ more) = reply received := by
  rw [reply, reply, if_pos whole, if_pos (by rw [List.length_append]; omega), List.take_append_of_le_length whole]

/-- What a call does where the static buffers hold the bytes of its own connection. -/
structure Served (received : List UInt8) (s : ShakeHandStatics) (call : ShakeHandCall) : Prop where
  assembled : Assembled s (received ++ call.received)
  replied : reply received ++ call.sent <+: reply (received ++ call.received)
  progress : call.next ≠ .closed → call.received ≠ [] ∧
    reply received ++ call.sent = reply (received ++ call.received) ∧
    call.next = if (received ++ call.received).length = 1537 + 1536 then .consult else .shakeHand

theorem Served.of_closed {received : List UInt8} {s : ShakeHandStatics} (assembled : Assembled s received) :
    Served received s ⟨[], [], .closed⟩ where
  assembled := by simpa using assembled
  replied := by simp
  progress := fun still => (still rfl).elim

theorem served_c0c1 {s s' : ShakeHandStatics} {received : List UInt8} {reads : List (Socket.ReadEvent UInt8)}
    {writes : List Socket.WriteEvent} {call : ShakeHandCall} (assembled : Assembled s received)
    (short : s.c0c1.readBytes < 1537) (returned : shakeHandCallback s reads writes = some (s', call)) :
    Served received s' call := by
  have below : received.length < 1537 := by
    have := assembled.c0c1.counted
    rw [List.length_take] at this
    omega
  have front : received.take 1537 = received := List.take_of_length_le (by omega)
  have back : received.drop 1537 = [] := List.drop_of_length_le (by omega)
  obtain ⟨c0c1, c2⟩ := assembled
  rw [front] at c0c1
  rw [back] at c2
  rw [shakeHandCallback, if_pos short, Option.bind_eq_some_iff] at returned
  obtain ⟨r, read, rest⟩ := returned
  rcases c0c1.receive short read with ⟨zero, kept⟩ | ⟨positive, ret, grown⟩
  · obtain ⟨rfl, rfl⟩ : _ ∧ _ := by simpa [zero] using rest
    exact .of_closed ⟨by rwa [front], by rwa [back]⟩
  · have stored : r.stored ≠ [] := by
      rintro none
      rw [none] at ret
      simp [ret] at positive
    have room := grown.room
    have counted' := grown.counted
    have assembled' : Assembled { s with c0c1 := s.c0c1.receive r } (received ++ r.stored) := by
      refine ⟨?_, ?_⟩
      · rwa [List.take_of_length_le room]
      · rwa [List.drop_of_length_le room]
    rw [if_pos positive] at rest
    split at rest
    · next full =>
      obtain ⟨w, written, result⟩ := Option.map_eq_some_iff.mp rest
      obtain ⟨rfl, rfl⟩ := Prod.mk.inj result
      have length : (received ++ r.stored).length = 1537 := counted'.symm.trans full
      have answer : reply (received ++ r.stored) = s0s1s2Buffer (s.c0c1.receive r).buffer := by
        rw [reply, if_pos (Nat.le_of_eq length.symm), List.take_of_length_le room, grown.full full]
      obtain ⟨started, ended⟩ := writeSpecifySize2_spec written
      refine ⟨assembled', ?_, fun open_ => ⟨stored, ?_, ?_⟩⟩
      · rwa [reply_of_short below, List.nil_append, answer]
      · rw [reply_of_short below, List.nil_append, answer]
        exact ended.resolve_left fun failed => open_ (by simp [failed])
      · have kept : w.ret ≠ none := fun failed => open_ (by simp [failed])
        dsimp only
        rw [if_neg kept, if_neg (by omega)]
    · next partial_ =>
      obtain ⟨rfl, rfl⟩ := Prod.mk.inj (Option.some.inj rest)
      have short' : (received ++ r.stored).length < 1537 := by
        dsimp only at partial_
        omega
      refine ⟨assembled', ?_, fun _ => ⟨stored, ?_, ?_⟩⟩
      · simp [reply_of_short below, reply_of_short short']
      · simp [reply_of_short below, reply_of_short short']
      · dsimp only
        rw [if_neg (by omega)]

theorem served_c2 {s s' : ShakeHandStatics} {received : List UInt8} {reads : List (Socket.ReadEvent UInt8)}
    {writes : List Socket.WriteEvent} {call : ShakeHandCall} (assembled : Assembled s received)
    (whole : ¬ s.c0c1.readBytes < 1537) (unfinished : received.length ≠ 1537 + 1536)
    (returned : shakeHandCallback s reads writes = some (s', call)) : Served received s' call := by
  have counted := assembled.c0c1.counted
  have counted2 := assembled.c2.counted
  have room2 := assembled.c2.room
  rw [List.length_take] at counted
  rw [List.length_drop] at counted2 room2
  have above : 1537 ≤ received.length := by omega
  have short : s.c2.readBytes < 1536 := by omega
  rw [shakeHandCallback, if_neg whole, if_pos short, Option.map_eq_some_iff] at returned
  obtain ⟨r, read, result⟩ := returned
  obtain ⟨c0c1, c2⟩ := assembled
  rcases c2.receive short read with ⟨zero, kept⟩ | ⟨positive, ret, grown⟩
  · obtain ⟨rfl, rfl⟩ : _ ∧ _ := by simpa [zero] using result
    exact .of_closed ⟨c0c1, kept⟩
  · rw [if_pos positive] at result
    obtain ⟨rfl, rfl⟩ := Prod.mk.inj result
    have stored : r.stored ≠ [] := by
      rintro none
      rw [none] at ret
      simp [ret] at positive
    have counted' := grown.counted
    rw [← List.drop_append_of_le_length above] at grown counted'
    rw [List.length_drop] at counted'
    have assembled' : Assembled { s with c2 := s.c2.receive r } (received ++ r.stored) :=
      ⟨by rwa [List.take_append_of_le_length above], grown⟩
    refine ⟨assembled', ?_, fun _ => ⟨stored, ?_, ?_⟩⟩
    · simp [reply_append above]
    · simp [reply_append above]
    · dsimp only
      congr 1
      rw [counted', eq_iff_iff]
      omega

variable {s s' : ShakeHandServer}

/-- The bytes that the static buffers hold all come from one connection. -/
structure Inv (s : ShakeHandServer) : Prop where
  exclusive : Exclusive (fun s connection => Assembled s connection.received)
    (fun connection => connection.received = [])
    (Assembled · []) s.statics s.connections
  answered : ∀ client c, s.connections client = some c → Answered c

theorem start_inv : Inv start where
  exclusive := .none ⟨.nil List.length_replicate rfl, .nil List.length_replicate rfl⟩
  answered := fun client c found => by cases found

theorem Inv.accept {client : Nat} (inv : Inv s) (next : step s (.accept client) = some s') : Inv s' := by
  rw [step] at next
  split at next
  · next new =>
    obtain rfl := Option.some.inj next
    refine ⟨inv.exclusive.join new rfl, fun other c found => ?_⟩
    rcases Exclusive.updated found with ⟨_, rfl⟩ | ⟨_, found⟩
    · exact ⟨List.nil_prefix, fun _ => ⟨rfl, rfl⟩, rfl⟩
    · exact inv.answered other c found
  · cases next

theorem Answered.after {c : Connection} {statics : ShakeHandStatics} {call : ShakeHandCall} (answered : Answered c)
    (watched : c.phase = .shakeHand) (served : Served c.received statics call) : Answered (after c call) := by
  have sent : c.sent = reply c.received := (answered.progress (by simp [watched])).1
  refine ⟨?_, fun still => ?_, ?_⟩
  · rw [ShakeHandServer.after, sent]
    exact served.replied
  · obtain ⟨_, replied, next⟩ := served.progress still
    exact ⟨by rwa [ShakeHandServer.after, sent], next⟩
  · have read : (call.received.isEmpty && call.next == .shakeHand) = false := by
      rw [Bool.and_eq_false_iff]
      by_cases still : call.next = .closed
      · exact .inr (by simp [still])
      · exact .inl (by simpa using (served.progress still).1)
    rw [ShakeHandServer.after, answered.heard, read]
    rfl

theorem Inv.readable {client : Nat} {reads : List (Socket.ReadEvent UInt8)} {writes : List Socket.WriteEvent}
    (inv : Inv s) (undisturbed : s.Undisturbed (.readable client reads writes))
    (next : step s (.readable client reads writes) = some s') : Inv s' := by
  rw [step] at next
  split at next
  · next c found =>
    split at next
    · next watched =>
      obtain ⟨⟨statics, call⟩, returned, rfl⟩ := Option.map_eq_some_iff.mp next
      have assembled : Assembled s.statics c.received :=
        inv.exclusive.own (fun a idle fresh => by rwa [idle]) found undisturbed
      have answered := inv.answered client c found
      have served : Served c.received statics call := by
        by_cases short : s.statics.c0c1.readBytes < 1537
        · exact served_c0c1 assembled short returned
        · have phase := (answered.progress (by simp [watched])).2
          refine served_c2 assembled short (fun finished => ?_) returned
          rw [watched, if_pos finished] at phase
          cases phase
      refine ⟨.called undisturbed (fun _ => served.assembled) (fun idle => ?_), fun other d found => ?_⟩
      · have assembled := served.assembled
        rwa [show c.received ++ call.received = [] from idle] at assembled
      · rcases Exclusive.updated found with ⟨_, rfl⟩ | ⟨_, found⟩
        · exact answered.after watched served
        · exact inv.answered other d found
    · cases next
  · cases next

theorem step_inv {e : Event} (inv : Inv s) (undisturbed : s.Undisturbed e) (next : step s e = some s') : Inv s' := by
  cases e with
  | accept client => exact inv.accept next
  | readable client reads writes => exact inv.readable undisturbed next

end ShakeHandServer

/-- In every run in which no call is made for a connection after another one has been read from, each
connection is answered by its own bytes alone. -/
theorem shakeHand_answers {s : ShakeHandServer}
    (run : Transition.Reach ShakeHandServer.step ShakeHandServer.Undisturbed ShakeHandServer.start s) :
    ∀ client connection, s.connections client = some connection → ShakeHandServer.Answered connection :=
  (run.invariant ShakeHandServer.start_inv fun _ _ _ => ShakeHandServer.step_inv).answered

theorem shakeHand_answers_sample : ∃ s : ShakeHandServer,
    (s.connections 1).map (fun connection => connection.received) = some [3] ∧
      ∀ client connection, s.connections client = some connection → ShakeHandServer.Answered connection := by
  have first : OthersIdle (fun connection => connection.received = [])
      (Function.update ShakeHandServer.start.connections 1 (some ⟨.shakeHand, [], [], false⟩)) 1 := by
    intro other connection different found
    rw [Function.update_of_ne different] at found
    cases found
  have answered := shakeHand_answers (.tail (e := .readable 1 [.data 3 [], .eagain] [])
    (.tail (e := .accept 1) .refl trivial rfl) first rfl)
  exact ⟨_, rfl, answered⟩

/-- The first client completes C0 and C1 and is answered. The second one sends its own C0 and C1, of which
the call takes 1536 bytes for the first one's C2. -/
def secondClient : List ShakeHandServer.Event :=
  [.accept 1, .readable 1 [.data 3 (List.replicate 1536 0)] [.accept 3072],
    .accept 2, .readable 2 [.data 3 (List.replicate 1536 0)] []]

theorem second_client_unanswered :
    ¬ ∀ s, Transition.Reach ShakeHandServer.step (fun _ _ => True) ShakeHandServer.start s →
      ∀ client connection, s.connections client = some connection → ShakeHandServer.Answered connection := by
  intro answers
  have log : (Transition.exec ShakeHandServer.step ShakeHandServer.start secondClient).map
      (fun s => (s.connections 2).map fun c => (c.phase, c.received.length)) = some (some (.consult, 1536)) := by
    decide +kernel
  obtain ⟨s, ran, result⟩ := Option.map_eq_some_iff.mp log
  obtain ⟨c, found, same⟩ := Option.map_eq_some_iff.mp result
  obtain ⟨phase, length⟩ := Prod.mk.inj same
  have reached := Transition.reach_of_exec .refl (fun _ _ _ => trivial) ran
  have progress := ((answers s reached 2 c found).progress (by simp [phase])).2
  rw [phase, length] at progress
  exact absurd progress (by decide)

end LiveStreaming.XtraRtmp
