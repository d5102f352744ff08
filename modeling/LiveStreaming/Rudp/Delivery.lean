import LiveStreaming.Library.Transition
import LiveStreaming.Rudp.Hosts
import LiveStreaming.Rudp.SenderSteps

/-!
# What reaches the receiver

One socket sends to another that only receives. Whatever happens to the packets between them, and whatever else the
sockets of the network do, what the receiver hands on is a run of the sliding window protocol.
-/

namespace LiveStreaming.Rudp
open Library.SlidingWindow

variable {A : Type*} {isn : Int} {s : Session Data} {fin closing : Prop} {n m : Socketnode A} {p : Packet}

/-- The receiver's node, state by state: nothing has come yet, the connection is open, or `RUDP_FIN` has come. -/
inductive Listening (isn : Int) (s : Session Data) (fin : Prop) (m : Socketnode A) : Prop where
  | fresh (state : m.state = .listen) (seq : m.seq = 0) (silent : m.sent = []) (nothing : s.handed = [])
      (none_acked : s.acks = [])
  | establish (state : m.state = .establish) (seq : m.seq = isn + 1 + s.handed.length)
  | finished (state : m.state = .listen) (last : fin) (positive : 0 ≤ m.seq)

structure Receiver (isn : Int) (s : Session Data) (fin closing : Prop) (m : Socketnode A) : Prop where
  handed : m.handed = s.handed
  wire : ∀ p ∈ m.sent, Replies isn s.acks closing p
  replies : m.state = .establish → ∀ k, k = 0 ∨ k ∈ s.acks → packet .ack (isn + 1 + k) [] ∈ m.sent
  phase : Listening isn s fin m

theorem receiver_new (peer : A) (quiet : s.handed = []) (none_acked : s.acks = []) :
    Receiver isn s fin closing (Socketnode.new peer) where
  handed := quiet.symm
  wire p member := by cases member
  replies state := by cases state
  phase := .fresh rfl rfl rfl quiet none_acked

theorem Receiver.seq_nonneg (receiver : Receiver isn s fin closing m) (positive : 0 ≤ isn) : 0 ≤ m.seq := by
  cases receiver.phase with
  | fresh state seq silent nothing none_acked => omega
  | establish state seq => omega
  | finished state last positive => exact positive

theorem Receiver.mono {fin' closing' : Prop} (receiver : Receiver isn s fin closing m) (last : fin → fin')
    (later : closing → closing') : Receiver isn s fin' closing' m where
  handed := receiver.handed
  wire p member := (receiver.wire p member).mono (fun _ there => there) later
  replies := receiver.replies
  phase := by
    cases receiver.phase with
    | fresh state seq silent nothing none_acked => exact .fresh state seq silent nothing none_acked
    | establish state seq => exact .establish state seq
    | finished state was positive => exact .finished state (last was) positive

/-- The sender's side of the session does not concern the receiver. -/
theorem Receiver.other {t : Session Data} (receiver : Receiver isn s fin closing m) (handed : t.handed = s.handed)
    (acks : t.acks = s.acks) : Receiver isn t fin closing m where
  handed := receiver.handed.trans handed.symm
  wire := by rw [acks]; exact receiver.wire
  replies := by rw [acks]; exact receiver.replies
  phase := by
    cases receiver.phase with
    | fresh state seq silent nothing none_acked =>
      exact .fresh state seq silent (handed.trans nothing) (acks.trans none_acked)
    | establish state seq => exact .establish state (by rw [handed]; exact seq)
    | finished state was positive => exact .finished state was positive

/-- What the receiver hands on does not concern the sender. -/
theorem Sender.hand (sender : Sender isn s n) (x : Data) : Sender isn (s.hand x) n where
  core := { sender.core with }
  phase := by
    cases sender.phase with
    | synSent state seq none_sent trying is_open => exact .synSent state seq none_sent trying { is_open with }
    | establish state seq ahead is_open => exact .establish state seq ahead { is_open with }
    | closeWait state all_acked length alive positive => exact .closeWait state all_acked length alive positive
    | closed state left positive => exact .closed state left positive

theorem receiver_again (receiver : Receiver isn s fin closing m) (state : m.state = .establish) {k : Nat}
    (known : k = 0 ∨ k ∈ s.acks) : Receiver isn s fin closing (m.sendto (packet .ack (isn + 1 + k) [])) where
  handed := receiver.handed
  wire p member := by
    rcases List.mem_append.mp member with before | now
    · exact receiver.wire p before
    · obtain rfl := List.mem_singleton.mp now
      exact .ack known
  replies _ k known := List.mem_append_left _ (receiver.replies state k known)
  phase := by
    cases receiver.phase with
    | fresh state' _ _ _ _ => rw [state] at state'; cases state'
    | establish state' seq => exact .establish state' seq
    | finished state' _ _ => rw [state] at state'; cases state'

/-- `RUDP_FIN` is answered, and the node listens again. -/
theorem receiver_fin (receiver : Receiver isn s fin closing m) (last : closing) (positive : 0 ≤ m.seq) (seq : Int) :
    Receiver isn s True closing ({ m with state := .listen }.sendto (packet .ack seq [])) where
  handed := receiver.handed
  wire p member := by
    rcases List.mem_append.mp member with before | now
    · exact receiver.wire p before
    · obtain rfl := List.mem_singleton.mp now
      exact .fin seq last
  replies state := by cases state
  phase := .finished rfl trivial positive

/-- The next payload is handed on and acknowledged. -/
theorem receiver_hand (receiver : Receiver isn s fin closing m) (state : m.state = .establish) (x : Data) :
    Receiver isn (s.hand x) fin closing
      { m with
        handed := m.handed ++ [x], sent := m.sent ++ [packet .ack (isn + 1 + s.handed.length + 1) []]
        seq := isn + 1 + s.handed.length + 1 } where
  handed := congrArg (· ++ [x]) receiver.handed
  wire p member := by
    rcases List.mem_append.mp member with before | now
    · exact (receiver.wire p before).mono (fun _ there => List.mem_append_left _ there) id
    · obtain rfl := List.mem_singleton.mp now
      rw [Int.add_assoc (isn + 1)]
      exact .ack (k := s.handed.length + 1) (.inr (List.mem_append_right _ (List.mem_singleton.mpr rfl)))
  replies _ k known := by
    rcases known with zero | known
    · exact List.mem_append_left _ (receiver.replies state k (.inl zero))
    · rcases List.mem_append.mp known with before | now
      · exact List.mem_append_left _ (receiver.replies state k (.inr before))
      · obtain rfl := List.mem_singleton.mp now
        rw [Int.natCast_succ, ← Int.add_assoc]
        exact List.mem_append_right _ (List.mem_singleton.mpr rfl)
  phase := .establish state (by
    change isn + 1 + (s.handed.length : Int) + 1 = isn + 1 + ((s.handed ++ [x]).length : Nat)
    rw [List.length_append, List.length_singleton, Int.natCast_succ, Int.add_assoc (isn + 1)])

/-- The receiver hands on the next payload, or nothing. -/
inductive HandedOn (s : Session Data) : Session Data → Prop where
  | none : HandedOn s s
  | next {x : Data} (arrived : (s.handed.length, x) ∈ s.packets) : HandedOn s (s.hand x)

theorem HandedOn.steps {t : Session Data} (handed : HandedOn s t) : Steps WINDOW s t := by
  cases handed with
  | none => exact .refl
  | next arrived => exact .single (.hand s arrived)

theorem HandedOn.accepted {t : Session Data} (handed : HandedOn s t) : t.accepted = s.accepted := by
  cases handed with
  | none => rfl
  | next arrived => rfl

theorem HandedOn.sender {t : Session Data} (handed : HandedOn s t) (sender : Sender isn s n) : Sender isn t n := by
  cases handed with
  | none => exact sender
  | next arrived => exact sender.hand _

theorem data_toInt (holds : Holds WINDOW s) (range : InRange isn s) {k : Nat} {x : Data} (sent : (k, x) ∈ s.packets) :
    (packet .data (isn + 1 + k) x).seqno.toInt = isn + 1 + k := by
  have out := (holds.packet k x sent).1
  have within := holds.sent_accepted
  exact seqno_toInt range (by omega)

theorem receiver_next (receiver : Receiver isn s fin closing m) (holds : Holds WINDOW s) (range : InRange isn s)
    (state : m.state = .establish) (seq : m.seq = isn + 1 + s.handed.length) {x : Data}
    (sent : (s.handed.length, x) ∈ s.packets) :
    Receiver isn (s.hand x) fin closing (m.receiveData (packet .data (isn + 1 + s.handed.length) x)) ∧
      (m.receiveData (packet .data (isn + 1 + s.handed.length) x)).state = .establish := by
  rw [Socketnode.receiveData, data_toInt holds range sent, seq, if_pos (Int.le_refl _), if_pos rfl, if_pos rfl]
  exact ⟨receiver_hand receiver state x, state⟩

/-- The receiver's node takes a packet that carries a payload. -/
theorem receiver_data (receiver : Receiver isn s fin closing m) (holds : Holds WINDOW s) (range : InRange isn s)
    (state : m.state = .establish) (seq : m.seq = isn + 1 + s.handed.length) {k : Nat} {x : Data}
    (sent : (k, x) ∈ s.packets) :
    ∃ t, HandedOn s t ∧ Receiver isn t fin closing (m.receiveData (packet .data (isn + 1 + k) x)) ∧
      (m.receiveData (packet .data (isn + 1 + k) x)).state = .establish := by
  rcases Nat.lt_trichotomy k s.handed.length with old | rfl | ahead
  · rw [Socketnode.receiveData, data_toInt holds range sent, seq, if_pos (by omega), if_neg (by omega),
      if_neg (by omega)]
    have known : k + 1 = 0 ∨ k + 1 ∈ s.acks := .inr (holds.acked (k + 1) (Nat.succ_pos k) old)
    have again := receiver_again receiver state known
    rw [Int.natCast_succ, ← Int.add_assoc] at again
    exact ⟨s, .none, again, state⟩
  · exact ⟨s.hand x, .next sent, receiver_next receiver holds range state seq sent⟩
  · rw [Socketnode.receiveData, data_toInt holds range sent, seq, if_neg (by omega)]
    exact ⟨s, .none, receiver, state⟩

theorem receiver_receives (receiver : Receiver isn s fin closing m) (holds : Holds WINDOW s) (range : InRange isn s)
    (small : isn < 65535) (arrives : Sends isn s.packets closing p) (first : p.type = .syn → ¬fin) :
    ∃ t, HandedOn s t ∧ Receiver isn t (fin ∨ p.type = .fin) closing (m.receive p) ∧
      (m.state = .establish → ¬closing → (m.receive p).state = .establish) := by
  have positive := receiver.seq_nonneg range.1
  have keeps : Receiver isn s (fin ∨ p.type = .fin) closing m := receiver.mono .inl id
  have isn_ : (packet .syn isn []).seqno.toInt = isn := toInt_seqno range.1 (by omega)
  have opens : Socketnode.ackReply (packet .syn isn []).seqno.toInt = packet .ack (isn + 1 + (0 : Nat)) [] := by
    rw [isn_, Int.natCast_zero, Int.add_zero]
    rfl
  have ended : ∀ seq, closing → Receiver isn s (fin ∨ (packet .fin seq []).type = .fin) closing
      ({ m with state := .listen }.sendto (Socketnode.ackReply (packet .fin seq []).seqno.toInt)) :=
    fun seq last => (receiver_fin receiver last positive _).mono (fun _ => .inr rfl) id
  -- in `LISTEN` the state does not change with `RUDP_FIN`
  have listens : m.state = .listen → { m with state := .listen } = m := fun state => by rw [← state]
  cases receiver.phase with
  | fresh state seq silent nothing none_acked =>
    rw [Socketnode.receive_listen state]
    cases arrives with
    | syn =>
      refine ⟨s, .none, ⟨receiver.handed, fun q member => ?_, fun _ k known => ?_, .establish rfl ?_⟩, fun open_ => ?_⟩
      · have member : q ∈ m.sent ++ [_] := member
        rw [silent, opens] at member
        obtain rfl := List.mem_singleton.mp member
        exact .ack (.inl rfl)
      · rw [none_acked] at known
        obtain rfl := known.resolve_right List.not_mem_nil
        change _ ∈ m.sent ++ [_]
        rw [opens]
        exact List.mem_append_right _ (List.mem_singleton.mpr rfl)
      · change (packet .syn isn []).seqno.toInt + 1 = isn + 1 + (s.handed.length : Int)
        rw [isn_, nothing, List.length_nil, Int.natCast_zero, Int.add_zero]
      · rw [state] at open_
        cases open_
    | data sent => exact ⟨s, .none, keeps, fun open_ => by rw [state] at open_; cases open_⟩
    | fin seq last =>
      have finished := ended seq last
      rw [listens state] at finished
      exact ⟨s, .none, finished, fun _ going => absurd last going⟩
  | establish state seq =>
    rw [Socketnode.receive_establish state]
    cases arrives with
    | syn =>
      have again := receiver_again receiver state (k := 0) (.inl rfl)
      refine ⟨s, .none, ?_, fun _ _ => state⟩
      change Receiver isn s _ closing (m.sendto (Socketnode.ackReply (packet .syn isn []).seqno.toInt))
      rw [opens]
      exact again.mono .inl id
    | data sent =>
      obtain ⟨t, handed, receiver', state'⟩ := receiver_data receiver holds range state seq sent
      exact ⟨t, handed, receiver'.mono .inl id, fun _ _ => state'⟩
    | fin seq last => exact ⟨s, .none, ended seq last, fun _ going => absurd last going⟩
  | finished state last positive =>
    rw [Socketnode.receive_listen state]
    cases arrives with
    | syn => exact absurd last (first rfl)
    | data sent => exact ⟨s, .none, keeps, fun open_ => by rw [state] at open_; cases open_⟩
    | fin seq last =>
      have finished := ended seq last
      rw [listens state] at finished
      exact ⟨s, .none, finished, fun _ going => absurd last going⟩

/-- The session takes what the program asks to send, until the connection is closed. -/
structure Taken (asked : List Data) (s : Session Data) (n : Socketnode A) : Prop where
  in_order : s.accepted <+: asked
  all : n.state ≠ .closed → s.accepted = asked

theorem Taken.still {asked : List Data} {t : Session Data} {k : Socketnode A} (taken : Taken asked s n)
    (accepted : t.accepted = s.accepted) (closed : n.state = .closed → k.state = .closed) : Taken asked t k where
  in_order := by rw [accepted]; exact taken.in_order
  all going := by rw [accepted]; exact taken.all fun already => going (closed already)

/-- A connection that has begun: the sender's node `n`, the receiver's node `m` and their session. -/
structure Running (asked : List Data) (fin : Prop) (isn : Int) (s : Session Data) (n m : Socketnode A) : Prop where
  positive : 0 ≤ isn
  small : isn < 65535
  steps : Steps WINDOW (start Data) s
  sender : Sender isn s n
  receiver : Receiver isn s fin n.Closing m
  taken : Taken asked s n
  last : fin → n.Closing
  met : n.state = .establish → m.state = .establish

theorem Running.holds {asked : List Data} (running : Running asked fin isn s n m) : Holds WINDOW s :=
  steps_holds start_holds running.steps

theorem Running.range {asked : List Data} (running : Running asked fin isn s n m)
    (few : asked.length ≤ 2147418000) :
    InRange isn s := by
  have positive := running.positive
  have small := running.small
  have accepted := running.taken.in_order.length_le
  exact ⟨positive, by omega⟩

theorem Closing.still (closing : n.Closing) {k : Socketnode A} (closes : n.ClosesTo k) : k.Closing := by
  cases closes with
  | stays => exact closing
  | closes => exact .inl rfl
  | asks => exact closing

variable {asked : List Data}

/-- The socket of the sender is closed, or its connections are asked to close. -/
theorem running_closes (running : Running asked fin isn s n m) (few : asked.length ≤ 2147418000) {k : Socketnode A}
    (closes : n.ClosesTo k) : Running asked fin isn s k m := by
  have later := fun closing => Closing.still (n := n) closing closes
  have receiver : Receiver isn s fin k.Closing m := running.receiver.mono id later
  cases closes with
  | stays => exact running
  | closes going none_left =>
    refine { running with
      sender := sender_closes running.sender running.holds (running.range few) going none_left
      receiver := receiver, taken := running.taken.still rfl fun closed => absurd closed going
      last := fun _ => .inl rfl, met := fun state => ?_ }
    cases state
  | asks =>
    exact { running with
      sender := sender_setClose running.sender, receiver := receiver, taken := running.taken.still rfl id }

/-- A reply reaches the sender. -/
theorem running_receives (running : Running asked fin isn s n m) (few : asked.length ≤ 2147418000)
    (reply : p ∈ m.sent) :
    ∃ t, Running asked fin isn t (n.receive p) m := by
  obtain ⟨t, learned, sender, later⟩ :=
    sender_receives running.sender running.holds (running.range few) (running.receiver.wire p reply)
  have receiver : Receiver isn t fin (n.receive p).Closing m :=
    (running.receiver.mono id later).other learned.handed learned.acks
  refine ⟨t, running.positive, running.small, running.steps.trans learned.steps, sender, receiver,
    running.taken.still learned.accepted Socketnode.receive_stays_closed, fun last => later (running.last last),
    fun state => ?_⟩
  cases running.receiver.phase with
  | fresh state seq silent nothing none_acked =>
    rw [silent] at reply
    cases reply
  | establish state seq => exact state
  | finished _ last positive =>
    rcases later (running.last last) with wait | closed
    · rw [state] at wait
      cases wait
    · rw [state] at closed
      cases closed

theorem running_sends (running : Running asked fin isn s n m) (going : n.state ≠ .closed) (data : Data) (rand : Nat)
    (held : Int) : ∃ t, Running (asked ++ [data]) fin isn t (n.send data rand held) m := by
  obtain ⟨t, accepted, sender, state⟩ := sender_sends running.sender running.holds going data rand held
  have later : n.Closing → (n.send data rand held).Closing := by
    rw [Socketnode.Closing, Socketnode.Closing, state]
    exact id
  have receiver : Receiver isn t fin (n.send data rand held).Closing m :=
    (running.receiver.mono id later).other accepted.handed accepted.acks
  refine ⟨t, running.positive, running.small, running.steps.trans accepted.steps, sender, receiver, ?_,
    fun last => later (running.last last), fun open_ => running.met (state.symm.trans open_)⟩
  have same : t.accepted = asked ++ [data] := by rw [accepted.accepted, running.taken.all going]
  exact ⟨same ▸ List.prefix_rfl, fun _ => same⟩

/-- A packet of the sender reaches the receiver. -/
theorem running_hands (running : Running asked fin isn s n m) (few : asked.length ≤ 2147418000) (sent : p ∈ n.sent)
    (first : p.type = .syn → ¬fin) : ∃ t, Running asked (fin ∨ p.type = .fin) isn t n (m.receive p) := by
  have arrives := running.sender.core.wire p sent
  obtain ⟨t, handed, receiver, stays⟩ :=
    receiver_receives running.receiver running.holds (running.range few) running.small arrives first
  refine ⟨t, running.positive, running.small, running.steps.trans handed.steps, handed.sender running.sender, receiver,
    running.taken.still handed.accepted id, ?_, fun state => stays (running.met state) ?_⟩
  · rintro (last | type)
    · exact running.last last
    · cases arrives with
      | syn => cases type
      | data sent => cases type
      | fin seq last => exact last
  · rintro (wait | closed)
    · rw [state] at wait
      cases wait
    · rw [state] at closed
      cases closed

theorem running_fires (running : Running asked fin isn s n m) {timer : Timer} (was_set : timer ∈ n.timers)
    (few : ((n.eventTimeoutDelete timer).fire timer).2 = false) :
    Running asked fin isn s ((n.eventTimeoutDelete timer).fire timer).1 m := by
  obtain ⟨-, sends⟩ := sender_fires running.sender running.holds was_set
  have state : ((n.eventTimeoutDelete timer).fire timer).1.state = n.state := (Socketnode.fire_same timer _).2.1
  have later : n.Closing → ((n.eventTimeoutDelete timer).fire timer).1.Closing := by
    rw [Socketnode.Closing, Socketnode.Closing, state]
    exact id
  exact { running with
    sender := sends few, receiver := running.receiver.mono id later
    taken := running.taken.still rfl state.trans, last := fun last => later (running.last last)
    met := fun open_ => running.met (state.symm.trans open_) }

theorem running_givesUp (running : Running asked fin isn s n m) {timer : Timer} (was_set : timer ∈ n.timers) :
    Running asked fin isn s (((n.eventTimeoutDelete timer).fire timer).1.giveUp timer) m := by
  obtain ⟨core, -⟩ := sender_fires running.sender running.holds was_set
  have seq : ((n.eventTimeoutDelete timer).fire timer).1.seq = n.seq := (Socketnode.fire_same timer _).2.2
  have positive := running.sender.phase.seq_nonneg running.positive
  exact { running with
    sender := sender_givesUp core (by rw [seq]; exact positive) timer
    receiver := running.receiver.mono id fun _ => .inr rfl, taken := running.taken.still rfl fun _ => rfl
    last := fun _ => .inr rfl, met := fun state => by cases state }

theorem running_starts (not_yet : ¬fin) (host peer : A) (data : Data) (rand : Nat) (held : Int) :
    Running [data] fin (rand % 65535 : Nat) ((start Data).accept data) ((Socketnode.new peer).send data rand held)
      (Socketnode.new host) where
  positive := Int.natCast_nonneg _
  small := by omega
  steps := .single (.accept _ data)
  sender := sender_connects peer data rand held
  receiver := receiver_new host rfl rfl
  taken := ⟨List.prefix_rfl, fun _ => rfl⟩
  last last := absurd last not_yet
  met state := by cases state

/-- At most three blocks are under way, none has been sent that is further ahead, and for each of them there is a
timer. Only with three blocks or more in the buffer does one wait to be sent. -/
structure InFlight (n : Socketnode A) : Prop where
  window : n.nextpacket ≤ WINDOW
  buffered : n.nextpacket ≤ n.sizebuffer
  eager : n.sizebuffer < WINDOW → n.nextpacket = n.sizebuffer
  moving : n.buffData ≠ [] → 0 < n.nextpacket
  timers : ∀ (i : Nat) (d : BufferData), i < n.nextpacket → n.buffData[i]? = some d →
    d.packet ∈ n.sent ∧ .retransmitdata d.number ∈ n.timers
  ahead : ∀ p ∈ n.sent, p.type = .data → p.seqno.toInt < n.seq + n.nextpacket

theorem running_inFlight (running : Running asked fin isn s n m) (few : asked.length ≤ 2147418000)
    (open_ : n.state = .establish) : InFlight n := by
  have holds := running.holds
  have core := running.sender.core
  have within := holds.sent_accepted
  have in_window := holds.in_window
  have three : WINDOW = 3 := rfl
  obtain ⟨seq, ahead, is_open⟩ := running.sender.phase.established open_
  have length := is_open.length
  have nextpacket := is_open.nextpacket
  have size : n.sizebuffer = n.buffData.length := rfl
  have base_sent : s.base ≤ s.sent := Nat.le_trans holds.base_handed holds.handed_sent
  refine ⟨by omega, by omega, fun few => by omega, fun some_left => ?_, fun i d early there => ?_,
    fun p sent type => ?_⟩
  · have positive := List.length_pos_iff.mpr some_left
    omega
  · obtain ⟨number, data, seqno⟩ := core.block i d there
    have out : s.base + i < s.sent := by omega
    obtain ⟨x, arrived⟩ := holds.onWire _ out
    obtain rfl : d.data = x := Option.some.inj (data.symm.trans (holds.packet _ x arrived).2)
    have is : d.packet = packet .data (isn + 1 + (s.base + i : Nat)) d.data := by
      rw [BufferData.packet, packet, seqno out]
    rw [is, number]
    exact ⟨core.data _ _ arrived, is_open.pending _ (Nat.le_add_right _ _) out⟩
  · cases core.wire p sent with
    | syn => cases type
    | @data k x arrived =>
      have out := (holds.packet k x arrived).1
      rw [data_toInt holds (running.range few) arrived]
      omega
    | fin seq last => cases type

theorem running_next (running : Running asked False isn s n m) (few : asked.length ≤ 2147418000)
    (state : n.state = .establish) {x : Data} (sent : (s.handed.length, x) ∈ s.packets) :
    Running asked False isn (s.hand x) n (m.receive (packet .data (isn + 1 + s.handed.length) x)) := by
  have open_ := running.met state
  have seq : m.seq = isn + 1 + s.handed.length := by
    cases running.receiver.phase with
    | fresh state' _ _ _ _ => rw [open_] at state'; cases state'
    | establish _ seq => exact seq
    | finished _ last _ => exact last.elim
  have is : m.receive (packet .data (isn + 1 + s.handed.length) x) =
      m.receiveData (packet .data (isn + 1 + s.handed.length) x) := Socketnode.receive_establish open_
  obtain ⟨receiver, open'⟩ := receiver_next running.receiver running.holds (running.range few) open_ seq sent
  rw [is]
  exact { running with
    steps := running.steps.tail (.hand s sent), sender := running.sender.hand x, receiver := receiver
    taken := running.taken.still rfl id
    met := fun _ => open' }

theorem running_acks (running : Running asked False isn s n m) (few : asked.length ≤ 2147418000)
    (state : n.state = .establish) {k : Nat} (known : k ≤ s.handed.length) :
    ∃ t, Running asked False isn t (n.receive (packet .ack (isn + 1 + k) [])) m ∧ Learned s t ∧
      (n.buffData ≠ [] → t.base = max s.base k) ∧
      (n.receive (packet .ack (isn + 1 + k) [])).state = .establish := by
  obtain ⟨seq, ahead, is_open⟩ := running.sender.phase.established state
  obtain ⟨t, learned, base, sender, open'⟩ :=
    sender_acks running.sender.core running.holds (running.range few) state seq ahead is_open known
  have going : ¬n.Closing := by simp [Socketnode.Closing, state]
  refine ⟨t, { running with
    steps := running.steps.trans learned.steps, sender := sender
    receiver := (running.receiver.mono id fun closing => absurd closing going).other learned.handed learned.acks
    taken := running.taken.still learned.accepted Socketnode.receive_stays_closed
    last := False.elim, met := fun _ => running.met state }, learned, base, open'⟩

theorem running_opens (running : Running asked False isn s n m) (few : asked.length ≤ 2147418000)
    (state : n.state = .synSent) (heard : m.state = .establish) :
    ∃ t, Running asked False isn t (n.receive (packet .ack (isn + 1 + (0 : Nat)) [])) m ∧ Learned s t ∧
      (n.receive (packet .ack (isn + 1 + (0 : Nat)) [])).state = .establish := by
  cases running.sender.phase with
  | synSent _ seq none_sent trying is_open =>
    obtain ⟨t, learned, sender, open'⟩ :=
      sender_opens running.sender.core running.holds (running.range few) state seq none_sent is_open
    have going : ¬n.Closing := by simp [Socketnode.Closing, state]
    refine ⟨t, { running with
      steps := running.steps.trans learned.steps, sender := sender
      receiver := (running.receiver.mono id fun closing => absurd closing going).other learned.handed learned.acks
      taken := running.taken.still learned.accepted Socketnode.receive_stays_closed
      last := False.elim, met := fun _ => heard }, learned, open'⟩
  | establish other _ _ _ => rw [state] at other; cases other
  | closeWait other _ _ _ _ => rw [state] at other; cases other
  | closed other _ _ => rw [state] at other; cases other

/-- `RUDP_SYN` reaches the receiver. -/
theorem receives_syn (running : Running asked False isn s n m) :
    (m.receive (packet .syn isn [])).state = .establish := by
  cases running.receiver.phase with
  | fresh state seq silent nothing none_acked =>
    rw [Socketnode.receive_listen state]
    rfl
  | establish state seq =>
    rw [Socketnode.receive_establish state]
    exact state
  | finished state last positive => exact last.elim

end LiveStreaming.Rudp
