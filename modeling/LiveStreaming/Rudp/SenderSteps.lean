import LiveStreaming.Rudp.Connection

/-!
# What the sender's node does

Everything that may happen to the sender's node of a connection is a run of the session: a reply comes in, a payload is
accepted, a timer fires, or the socket is closed.
-/

namespace LiveStreaming.Rudp
open Library.SlidingWindow

variable {A : Type*} {isn : Int} {s : Session Data} {n : Socketnode A}

/-- What the receiver may have put on the wire. -/
inductive Replies (isn : Int) (acks : List Nat) (closing : Prop) : Packet → Prop where
  | ack {k : Nat} (known : k = 0 ∨ k ∈ acks) : Replies isn acks closing (packet .ack (isn + 1 + k) [])
  | fin (seq : Int) (last : closing) : Replies isn acks closing (packet .ack seq [])

theorem Replies.type {acks : List Nat} {closing : Prop} {p : Packet} (replies : Replies isn acks closing p) :
    p.type = .ack := by
  cases replies with
  | ack known => rfl
  | fin seq last => rfl

theorem Replies.mono {acks more : List Nat} {closing closing' : Prop} {p : Packet}
    (replies : Replies isn acks closing p) (grows : ∀ k ∈ acks, k ∈ more) (later : closing → closing') :
    Replies isn more closing' p := by
  cases replies with
  | ack known => exact .ack (known.imp id (grows _))
  | fin seq last => exact .fin seq (later last)

/-- Which number a reply has that does not answer `RUDP_FIN`. -/
theorem Replies.number {p : Packet} (replies : Replies isn s.acks n.Closing p) (going : ¬n.Closing)
    (holds : Holds WINDOW s) : ∃ k, k ≤ s.handed.length ∧ p = packet .ack (isn + 1 + k) [] := by
  cases replies with
  | @ack k known =>
    refine ⟨k, ?_, rfl⟩
    rcases known with rfl | there
    · exact Nat.zero_le _
    · exact holds.ack k there
  | fin seq last => exact absurd last going

/-- What the connection's state, its number and its events have to do with the wire. -/
theorem Core.change (core : Core isn s n) {state : State} {seq retransmit : Int} {closeAsk : Bool}
    {events : List RudpEvent} (later : n.Closing → state = .closeWait ∨ state = .closed) :
    Core isn s { n with
      state := state, seq := seq, retransmit := retransmit, closeAsk := closeAsk, events := events } :=
  { core with wire := fun p member => (core.wire p member).mono (fun _ there => there) later }

theorem ack_toInt (holds : Holds WINDOW s) (range : InRange isn s) {k : Nat} (known : k ≤ s.handed.length) :
    (packet .ack (isn + 1 + k) []).seqno.toInt = isn + 1 + k := by
  have handed_sent := holds.handed_sent
  have sent_accepted := holds.sent_accepted
  exact seqno_toInt range (by omega)

/-- `RUDP_SYN` is answered. -/
theorem sender_opens (core : Core isn s n) (holds : Holds WINDOW s) (range : InRange isn s)
    (state : n.state = .synSent) (seq : n.seq = isn) (none_sent : s.sent = 0) (is_open : Open s n) :
    ∃ t, Learned s t ∧ Sender isn t (n.receive (packet .ack (isn + 1 + (0 : Nat)) [])) ∧
      (n.receive (packet .ack (isn + 1 + (0 : Nat)) [])).state = .establish := by
  have handed_sent := holds.handed_sent
  have base_handed := holds.base_handed
  have toInt := ack_toInt holds range (Nat.zero_le _)
  have here : (packet .ack (isn + 1 + (0 : Nat)) []).seqno.toInt = n.seq + 1 := by rw [toInt, seq]; omega
  have is : n.receive (packet .ack (isn + 1 + (0 : Nat)) []) =
      { ({ n with seq := isn + 1 + (0 : Nat) }).sendWindow 0 with state := .establish } := by
    rw [Socketnode.receive_synSent state, Socketnode.receiveSynSent, if_pos ⟨rfl, here⟩, toInt]
  have base : s.base = 0 := by omega
  have zero : s.sent - s.base = 0 := by omega
  obtain ⟨t, sent, core', is_open', same, full⟩ :=
    sendWindow_sends (n := { n with seq := isn + 1 + (0 : Nat) }) { core with } { is_open with }
      (by rw [base]) (by omega) (by rw [zero]; exact Nat.zero_le _)
  rw [zero] at core' is_open' same
  have still : ¬(({ n with seq := isn + 1 + (0 : Nat) }).sendWindow 0).Closing := by
    rw [Socketnode.Closing, same.state]
    simp [state]
  rw [is]
  refine ⟨t, ⟨sent.steps, sent.accepted, sent.handed, sent.acks⟩,
    ⟨core'.change fun closing => absurd closing still, .establish rfl ?_ (fun before => ?_) { is_open' with }⟩, rfl⟩
  · change (({ n with seq := isn + 1 + (0 : Nat) }).sendWindow 0).seq = _
    rw [same.seq, sent.base, base]
  · rw [full before]
    exact Nat.add_le_add_left (by decide) _

/-- Payloads are acknowledged. -/
theorem sender_acks (core : Core isn s n) (holds : Holds WINDOW s) (range : InRange isn s)
    (state : n.state = .establish) (seq : n.seq = isn + 1 + s.base)
    (ahead : s.sent < s.accepted.length → s.base + 2 ≤ s.sent) (is_open : Open s n) {k : Nat}
    (known : k ≤ s.handed.length) :
    ∃ t, Learned s t ∧ (n.buffData ≠ [] → t.base = max s.base k) ∧
      Sender isn t (n.receive (packet .ack (isn + 1 + k) [])) ∧
      (n.receive (packet .ack (isn + 1 + k) [])).state = .establish := by
  have is : n.receive (packet .ack (isn + 1 + k) []) = n.receiveAck (packet .ack (isn + 1 + k) []) :=
    Socketnode.receive_establish state
  rw [is, Socketnode.receiveAck]
  split
  · obtain ⟨t, learned, base, core', is_open', same, ahead'⟩ :=
      ackLoop_learns n.buffData.length (Nat.le_refl _) core is_open range ahead holds known
    rw [ack_toInt holds range known]
    refine ⟨t, learned, fun _ => base, ?_⟩
    dsimp only
    split
    · next higher =>
      refine ⟨⟨{ core' with }, .establish (same.state.trans state) ?_ ahead' { is_open' with }⟩, same.state.trans state⟩
      rw [same.seq, seq] at higher
      change isn + 1 + (k : Int) = _
      rw [base]
      omega
    · next lower =>
      refine ⟨⟨core', .establish (same.state.trans state) ?_ ahead' is_open'⟩, same.state.trans state⟩
      rw [same.seq, seq] at lower
      rw [same.seq, seq, base]
      omega
  · next nothing =>
    refine ⟨s, .refl s, fun some_left => ?_, ⟨core, .establish state seq ahead is_open⟩, state⟩
    have length := is_open.length
    have within := holds.sent_accepted
    have positive := List.length_pos_iff.mpr some_left
    rw [head_seqno core range (by omega) within some_left] at nothing
    have isn_ := range.1
    omega

theorem sender_receives (sender : Sender isn s n) (holds : Holds WINDOW s) (range : InRange isn s) {p : Packet}
    (replies : Replies isn s.acks n.Closing p) :
    ∃ t, Learned s t ∧ Sender isn t (n.receive p) ∧ (n.Closing → (n.receive p).Closing) := by
  have type := replies.type
  obtain ⟨core, phase⟩ := sender
  cases phase with
  | synSent state seq none_sent trying is_open =>
    have going : ¬n.Closing := by simp [Socketnode.Closing, state]
    obtain ⟨k, small, rfl⟩ := replies.number going holds
    have handed_sent := holds.handed_sent
    obtain rfl : k = 0 := by omega
    obtain ⟨t, learned, sender, -⟩ := sender_opens core holds range state seq none_sent is_open
    exact ⟨t, learned, sender, fun closing => absurd closing going⟩
  | establish state seq ahead is_open =>
    have going : ¬n.Closing := by simp [Socketnode.Closing, state]
    obtain ⟨k, small, rfl⟩ := replies.number going holds
    obtain ⟨t, learned, -, sender, -⟩ := sender_acks core holds range state seq ahead is_open small
    exact ⟨t, learned, sender, fun closing => absurd closing going⟩
  | closeWait state all_acked length alive positive =>
    rw [Socketnode.receive_closeWait state, Socketnode.receiveCloseWait]
    split
    · exact ⟨s, .refl s, ⟨core.change fun _ => .inr rfl, .closed rfl (fun _ => ⟨all_acked, length⟩) (Int.le_refl 0)⟩,
        fun _ => .inr rfl⟩
    · exact ⟨s, .refl s, ⟨core, .closeWait state all_acked length alive positive⟩, id⟩
  | closed state left positive =>
    have is : n.receive p = n := by
      rw [Socketnode.receive_closed state, Socketnode.receiveClosed, type]
      rfl
    rw [is]
    exact ⟨s, .refl s, ⟨core, .closed state left positive⟩, id⟩

/-- A run of the session in which the sender accepts `data`. -/
structure Accepted (data : Data) (s t : Session Data) : Prop where
  steps : Steps WINDOW s t
  accepted : t.accepted = s.accepted ++ [data]
  handed : t.handed = s.handed
  acks : t.acks = s.acks

theorem Accepted.now (s : Session Data) (data : Data) : Accepted data s (s.accept data) :=
  ⟨.single (.accept s data), rfl, rfl, rfl⟩

theorem core_accept (core : Core isn s n) (length : s.base + n.buffData.length = s.accepted.length)
    (within : s.sent ≤ s.accepted.length) (data : Data) (held : Int) :
    Core isn (s.accept data) (({ n with retransmit := 0 }).addData data held) := by
  have accepted : n.accepted ++ [data] = s.accepted ++ [data] := by rw [core.accepted]
  refine { core with accepted := accepted, block := ?_ }
  intro i d found
  have found : (n.buffData ++ [⟨n.accepted.length, BitVec.ofInt 32 (-1), data, held⟩])[i]? = some d := found
  change d.number = s.base + i ∧ (s.accepted ++ [data])[s.base + i]? = some d.data ∧ (s.base + i < s.sent → _)
  rcases Nat.lt_or_ge i n.buffData.length with old | new
  · rw [List.getElem?_append_left old] at found
    rw [List.getElem?_append_left (by omega)]
    exact core.block i d found
  · rw [List.getElem?_append_right new] at found
    obtain ⟨rfl, rfl⟩ : i = n.buffData.length ∧ ⟨n.accepted.length, BitVec.ofInt 32 (-1), data, held⟩ = d := by
      obtain ⟨inside, is⟩ := List.getElem?_eq_some_iff.mp found
      rw [List.length_singleton] at inside
      refine ⟨by omega, ?_⟩
      rw [List.getElem_singleton] at is
      exact is
    rw [length, List.getElem?_append_right (Nat.le_refl _), Nat.sub_self]
    exact ⟨congrArg List.length core.accepted, rfl, fun early => absurd within (Nat.not_le.mpr early)⟩

theorem open_accept (is_open : Open s n) (data : Data) (held : Int) :
    Open (s.accept data) (({ n with retransmit := 0 }).addData data held) where
  length := by
    change s.base + (n.buffData ++ [_]).length = (s.accepted ++ [data]).length
    rw [List.length_append, List.length_append, ← Nat.add_assoc, is_open.length]
    rfl
  nextpacket := is_open.nextpacket
  pending := is_open.pending
  alive := is_open.alive

theorem sender_sends (sender : Sender isn s n) (holds : Holds WINDOW s) (going : n.state ≠ .closed) (data : Data)
    (rand : Nat) (held : Int) :
    ∃ t, Accepted data s t ∧ Sender isn t (n.send data rand held) ∧ (n.send data rand held).state = n.state := by
  obtain ⟨core, phase⟩ := sender
  have within := holds.sent_accepted
  have base_handed := holds.base_handed
  have handed_sent := holds.handed_sent
  have waits : n.state ≠ .listen → n.state ≠ .establish →
      n.send data rand held = ({ n with retransmit := 0 }).addData data held := by
    intro known other
    rw [Socketnode.send, if_neg known, if_neg fun both => other both.1]
  cases phase with
  | synSent state seq none_sent trying is_open =>
    rw [waits (by simp [state]) (by simp [state])]
    exact ⟨_, .now s data, ⟨core_accept core is_open.length within data held,
      .synSent state seq none_sent trying (open_accept is_open data held)⟩, rfl⟩
  | establish state seq ahead is_open =>
    have core' := core_accept core is_open.length within data held
    have is_open' := open_accept is_open data held
    have length := is_open.length
    have length' := is_open'.length
    have known : n.state ≠ .listen := by simp [state]
    rw [Socketnode.send, if_neg known]
    change s.base + _ = (s.accepted ++ [data]).length at length'
    rw [List.length_append, List.length_singleton] at length'
    split
    · next room =>
      have few := room.2
      rw [Socketnode.sizebuffer, Int.ofNat_lt] at few
      have at_ : n.buffData.length = (s.accept data).sent - (s.accept data).base := by
        change _ = s.sent - s.base
        have three : WINDOW = 3 := rfl
        omega
      obtain ⟨t, sent, core'', is_open'', same, full⟩ :=
        sendWindow_sends core' is_open' seq (Nat.le_trans base_handed handed_sent) (by omega)
      rw [← at_] at core'' is_open'' same
      refine ⟨t, ⟨.head (.accept s data) sent.steps, sent.accepted, sent.handed, sent.acks⟩,
        ⟨core'', .establish (same.state.trans state) ?_ (fun before => ?_) is_open''⟩, same.state⟩
      · rw [same.seq, sent.base]
        exact seq
      · rw [full before]
        exact Nat.add_le_add_left (by decide) _
    · next full =>
      have many : ¬(({ n with retransmit := 0 }).addData data held).sizebuffer < (WINDOW : Int) :=
        fun few => full ⟨state, few⟩
      rw [Socketnode.sizebuffer, Int.ofNat_lt] at many
      refine ⟨_, .now s data, ⟨core', .establish state seq (fun _ => ?_) is_open'⟩, rfl⟩
      change s.base + 2 ≤ s.sent
      have three : WINDOW = 3 := rfl
      omega
  | closeWait state all_acked length alive positive =>
    rw [waits (by simp [state]) (by simp [state])]
    refine ⟨_, .now s data, ⟨core_accept core length within data held,
      .closeWait state all_acked ?_ alive positive⟩, rfl⟩
    change s.base + (n.buffData ++ [_]).length = (s.accepted ++ [data]).length
    rw [List.length_append, List.length_append, ← Nat.add_assoc, length]
    rfl
  | closed state left positive => exact absurd state going

/-- The first payload of a connection opens it. -/
theorem sender_connects (peer : A) (data : Data) (rand : Nat) (held : Int) :
    Sender (rand % 65535 : Nat) ((start Data).accept data) ((Socketnode.new peer).send data rand held) := by
  refine ⟨⟨rfl, ?_, ?_, ?_, ?_, ?_⟩, .synSent rfl rfl rfl ?_ ⟨rfl, rfl, ?_, ?_⟩⟩
  · intro i d found
    cases i with
    | zero =>
      obtain rfl := Option.some.inj found
      exact ⟨rfl, rfl, fun early => absurd early (Nat.lt_irrefl 0)⟩
    | succ i => cases found
  · intro k member
    cases List.mem_singleton.mp member
  · intro p member
    obtain rfl := List.mem_singleton.mp member
    exact .syn
  · exact List.mem_singleton.mpr rfl
  · intro k x member
    cases member
  · exact List.mem_singleton.mpr rfl
  · intro k low high
    cases high
  · exact List.not_mem_nil

theorem sender_setClose (sender : Sender isn s n) : Sender isn s n.setClose where
  core := { sender.core with }
  phase := by
    cases sender.phase with
    | synSent state seq none_sent trying is_open => exact .synSent state seq none_sent trying { is_open with }
    | establish state seq ahead is_open => exact .establish state seq ahead { is_open with }
    | closeWait state all_acked length alive positive => exact .closeWait state all_acked length alive positive
    | closed state left positive => exact .closed state left positive

/-- A connection that waits for nothing is closed. -/
theorem sender_closes (sender : Sender isn s n) (holds : Holds WINDOW s) (range : InRange isn s)
    (going : n.state ≠ .closed) (none_left : n.buffData = []) : Sender isn s n.close := by
  obtain ⟨core, phase⟩ := sender
  have positive := phase.seq_nonneg range.1
  have within := holds.sent_accepted
  have base_handed := holds.base_handed
  have handed_sent := holds.handed_sent
  have length : s.base + n.buffData.length = s.accepted.length ∧ .timeout ∉ n.events := by
    cases phase with
    | synSent state seq none_sent trying is_open => exact ⟨is_open.length, is_open.alive⟩
    | establish state seq ahead is_open => exact ⟨is_open.length, is_open.alive⟩
    | closeWait state all_acked length alive positive => exact ⟨length, alive⟩
    | closed state left positive => exact absurd state going
  refine ⟨{ core with timer := ?_, wire := ?_, syn := ?_, data := ?_ }, .closeWait rfl ?_ length.1 length.2 ?_⟩
  · intro k member
    rcases List.mem_append.mp member with before | now
    · exact core.timer k before
    · cases List.mem_singleton.mp now
  · intro p member
    rcases List.mem_append.mp member with before | now
    · exact (core.wire p before).mono (fun _ there => there) fun _ => .inl rfl
    · obtain rfl := List.mem_singleton.mp now
      exact .fin _ (.inl rfl)
  · exact List.mem_append_left _ core.syn
  · exact fun k x member => List.mem_append_left _ (core.data k x member)
  · have all := length.1
    rw [none_left, List.length_nil] at all
    omega
  · exact Int.add_nonneg positive (by decide)

/-- A connection that has been tried too often. -/
theorem sender_givesUp (core : Core isn s n) (positive : 0 ≤ n.seq) (timer : Timer) :
    Sender isn s (n.giveUp timer) := by
  refine ⟨{ core with block := ?_, timer := ?_, wire := ?_ }, .closed rfl ?_ positive⟩
  · intro i d found
    cases found
  · exact fun k member => core.timer k (List.mem_of_mem_erase member)
  · exact fun p member => (core.wire p member).mono (fun _ there => there) fun _ => .inr rfl
  · exact fun alive => absurd (List.mem_append_right _ (List.mem_singleton.mpr rfl)) alive

theorem core_timers (core : Core isn s n) {timers : List Timer}
    (known : ∀ k, .retransmitdata k ∈ timers → .retransmitdata k ∈ n.timers) :
    Core isn s { n with timers := timers } :=
  { core with timer := fun k member => core.timer k (known k member) }

theorem core_again (core : Core isn s n) {p : Packet} (again : p ∈ n.sent ∨ ∃ seq, p = packet .fin seq [] ∧ n.Closing) :
    Core isn s (n.sendto p) := by
  refine { core with wire := ?_, syn := ?_, data := ?_ }
  · intro q member
    rcases List.mem_append.mp member with before | now
    · exact core.wire q before
    · obtain rfl := List.mem_singleton.mp now
      rcases again with before | ⟨seq, rfl, closing⟩
      · exact core.wire q before
      · exact .fin seq closing
  · exact List.mem_append_left _ core.syn
  · exact fun k x member => List.mem_append_left _ (core.data k x member)

/-- The phase is about the number of blocks, and about timers that are still there. -/
theorem Phase.change {m : Socketnode A} (phase : Phase isn s n) (same : SameConnection n m)
    (nextpacket : m.nextpacket = n.nextpacket) (length : m.buffData.length = n.buffData.length)
    (syn : .retransmitsyn ∈ n.timers → n.state = .synSent → .retransmitsyn ∈ m.timers)
    (pending : ∀ k, s.base ≤ k → k < s.sent → .retransmitdata k ∈ n.timers → .retransmitdata k ∈ m.timers) :
    Phase isn s m := by
  have opens : Open s n → Open s m := fun is_open =>
    ⟨by rw [length, is_open.length], by rw [nextpacket, is_open.nextpacket],
      fun k low high => pending k low high (is_open.pending k low high), by rw [same.events]; exact is_open.alive⟩
  cases phase with
  | synSent state seq none_sent trying is_open =>
    exact .synSent (same.state.trans state) (same.seq.trans seq) none_sent (syn trying state) (opens is_open)
  | establish state seq ahead is_open =>
    exact .establish (same.state.trans state) (same.seq.trans seq) ahead (opens is_open)
  | closeWait state all_acked left alive positive =>
    exact .closeWait (same.state.trans state) all_acked (by rw [length, left]) (by rw [same.events]; exact alive)
      (by rw [same.seq]; exact positive)
  | closed state left positive =>
    refine .closed (same.state.trans state) (fun alive => ?_) (by rw [same.seq]; exact positive)
    rw [same.events] at alive
    rw [length]
    exact left alive

/-- The event loop and the function it calls each take the timer off the list. -/
def Socketnode.taken (n : Socketnode A) (timer : Timer) : Socketnode A :=
  (n.eventTimeoutDelete timer).eventTimeoutDelete timer

theorem taken_keeps {timer other : Timer} (differs : other ≠ timer) :
    other ∈ (n.taken timer).timers ↔ other ∈ n.timers := by
  change other ∈ (n.timers.erase timer).erase timer ↔ _
  rw [List.mem_erase_of_ne differs, List.mem_erase_of_ne differs]

theorem core_taken (core : Core isn s n) (timer : Timer) : Core isn s (n.taken timer) :=
  core_timers core fun _ member => List.mem_of_mem_erase (List.mem_of_mem_erase member)

theorem core_eventTimeout (core : Core isn s n) {timer : Timer} (known : ∀ k, timer = .retransmitdata k → k < s.sent) :
    Core isn s (n.eventTimeout timer) := by
  refine { core with timer := fun k member => ?_ }
  rcases List.mem_append.mp member with before | now
  · exact core.timer k before
  · exact known k (List.mem_singleton.mp now).symm

theorem core_retransmit (core : Core isn s n) (retransmit : Int) : Core isn s { n with retransmit := retransmit } :=
  { core with }

theorem fires_syn (sender : Sender isn s n) :
    Core isn s (n.taken .retransmitsyn).resendSyn ∧
      (¬(n.taken .retransmitsyn).resendSyn.retransmit > MAXRETRANS →
        Sender isn s (n.taken .retransmitsyn).resendSyn) := by
  obtain ⟨core, phase⟩ := sender
  have core' := core_taken core .retransmitsyn
  rw [Socketnode.resendSyn]
  split
  · next tries =>
    have seq : n.seq = isn := by
      have state : n.state = .synSent := tries.2
      cases phase with
      | synSent _ seq _ _ _ => exact seq
      | establish state' _ _ _ => rw [state] at state'; cases state'
      | closeWait state' _ _ _ _ => rw [state] at state'; cases state'
      | closed state' _ _ => rw [state] at state'; cases state'
    have again : (n.taken .retransmitsyn).syn ∈ (n.taken .retransmitsyn).sent := by
      rw [Socketnode.syn]
      change packet .syn n.seq [] ∈ n.sent
      rw [seq]
      exact core.syn
    have core'' : Core isn s
        (({ n.taken .retransmitsyn with retransmit := (n.taken .retransmitsyn).retransmit + 1 }.sendto
          (n.taken .retransmitsyn).syn).eventTimeout .retransmitsyn) := by
      refine core_eventTimeout (core_again (core_retransmit core' (n.retransmit + 1)) (.inl again)) fun k absurd_ => ?_
      cases absurd_
    refine ⟨core'', fun _ => ⟨core'', phase.change ⟨rfl, rfl, rfl⟩ rfl rfl (fun _ _ => ?_) fun k _ _ member => ?_⟩⟩
    · exact List.mem_append_right _ (List.mem_singleton.mpr rfl)
    · refine List.mem_append_left _ ((taken_keeps (n := n) ?_).mpr member)
      simp
  · next stops =>
    refine ⟨core', fun few => ⟨core', phase.change ⟨rfl, rfl, rfl⟩ rfl rfl (fun _ state => ?_) fun k _ _ member => ?_⟩⟩
    · exact absurd ⟨Int.not_lt.mp few, state⟩ stops
    · exact (taken_keeps (n := n) (by simp)).mpr member

theorem fires_fin (sender : Sender isn s n) : Sender isn s (n.taken .retransmitfin).resendFin := by
  obtain ⟨core, phase⟩ := sender
  have core' := core_taken core .retransmitfin
  rw [Socketnode.resendFin]
  split
  · next tries =>
    have again := core_again (core_retransmit core' (n.retransmit + 1)) (.inr ⟨n.seq, rfl, .inl tries.2⟩)
    refine ⟨core_eventTimeout again ?_, ?_⟩
    · intro k absurd_
      cases absurd_
    · refine phase.change ⟨rfl, rfl, rfl⟩ rfl rfl (fun member _ => ?_) fun k _ _ member => ?_
      · exact List.mem_append_left _ ((taken_keeps (n := n) (by simp)).mpr member)
      · exact List.mem_append_left _ ((taken_keeps (n := n) (by simp)).mpr member)
  · refine ⟨core', phase.change ⟨rfl, rfl, rfl⟩ rfl rfl (fun member _ => ?_) fun k _ _ member => ?_⟩
    · exact (taken_keeps (n := n) (by simp)).mpr member
    · exact (taken_keeps (n := n) (by simp)).mpr member

theorem core_counts (core : Core isn s n) (number : Nat) :
    Core isn s
      { n with
        buffData :=
          n.buffData.map fun d => if d.number = number then { d with retransmit := d.retransmit + 1 } else d } := by
  refine { core with block := fun i d found => ?_ }
  rw [List.getElem?_map] at found
  obtain ⟨e, was, rfl⟩ := Option.map_eq_some_iff.mp found
  split
  · exact core.block i e was
  · exact core.block i e was

/-- A block with a number that was sent is in the buffer until it is acknowledged. -/
theorem block_number (core : Core isn s n) {number : Nat} {d : BufferData}
    (found : n.buffData.find? (fun d => d.number = number) = some d) (out : number < s.sent) :
    s.base ≤ number ∧ d.packet = packet .data (isn + 1 + number) d.data ∧ s.accepted[number]? = some d.data := by
  obtain ⟨i, there⟩ := List.mem_iff_getElem?.mp (List.mem_of_find?_eq_some found)
  obtain ⟨is, data, seqno⟩ := core.block i d there
  obtain rfl : d.number = number := by simpa using List.find?_some found
  rw [← is] at data seqno
  refine ⟨by omega, ?_, data⟩
  rw [BufferData.packet, packet, seqno out]

theorem fires_data (sender : Sender isn s n) (holds : Holds WINDOW s) {number : Nat}
    (was_set : .retransmitdata number ∈ n.timers) :
    Core isn s ((n.eventTimeoutDelete (.retransmitdata number)).retransmitdata number).1 ∧
      (((n.eventTimeoutDelete (.retransmitdata number)).retransmitdata number).2 = false →
        Sender isn s ((n.eventTimeoutDelete (.retransmitdata number)).retransmitdata number).1) := by
  obtain ⟨core, phase⟩ := sender
  have core' := core_taken core (.retransmitdata number)
  have out := core.timer number was_set
  cases found : n.buffData.find? fun d => d.number = number with
  | none =>
    rw [Socketnode.retransmitdata_none (n := n.eventTimeoutDelete (.retransmitdata number)) found]
    -- the block at `number` was acknowledged, so no timer for it is needed
    have gone : s.base ≤ number → s.base + n.buffData.length = s.accepted.length → False := by
      intro low length
      have within := holds.sent_accepted
      obtain ⟨d, there⟩ : ∃ d, n.buffData[number - s.base]? = some d := ⟨_, List.getElem?_eq_getElem (by omega)⟩
      obtain ⟨is, -, -⟩ := core.block _ d there
      have differs := List.find?_eq_none.mp found d (List.mem_of_getElem? there)
      rw [is, Nat.add_sub_cancel' low] at differs
      simp at differs
    have others : ∀ k, k ≠ number → .retransmitdata k ∈ n.timers →
        .retransmitdata k ∈ (n.taken (.retransmitdata number)).timers :=
      fun k differs member => (taken_keeps (by simpa using differs)).mpr member
    have opens : Open s n → Open s (n.taken (.retransmitdata number)) := fun is_open =>
      { is_open with
        pending := fun k low high =>
          others k (fun same => gone (same ▸ low) is_open.length) (is_open.pending k low high) }
    refine ⟨core', fun _ => ⟨core', ?_⟩⟩
    cases phase with
    | synSent state seq none_sent trying is_open =>
      exact .synSent state seq none_sent ((taken_keeps (n := n) (by simp)).mpr trying) (opens is_open)
    | establish state seq ahead is_open => exact .establish state seq ahead (opens is_open)
    | closeWait state all_acked length alive positive => exact .closeWait state all_acked length alive positive
    | closed state left positive => exact .closed state left positive
  | some d =>
    rw [Socketnode.retransmitdata_some (n := n.eventTimeoutDelete (.retransmitdata number)) found,
      Socketnode.resendData]
    split
    · obtain ⟨low, is, data⟩ := block_number core found out
      obtain ⟨x, arrived⟩ := holds.onWire number out
      obtain rfl : d.data = x := Option.some.inj (data.symm.trans (holds.packet number x arrived).2)
      have again : d.packet ∈ n.sent := by
        rw [is]
        exact core.data number d.data arrived
      have core'' := core_eventTimeout (core_again (core_counts core' number) (.inl again))
        fun k (same : Timer.retransmitdata number = .retransmitdata k) => by
          obtain rfl := Timer.retransmitdata.inj same
          exact out
      refine ⟨core'', fun _ => ⟨core'', ?_⟩⟩
      refine phase.change ⟨rfl, rfl, rfl⟩ rfl ?_ (fun member _ => ?_) fun k _ _ member => ?_
      · exact List.length_map _
      · exact List.mem_append_left _ ((taken_keeps (n := n) (by simp)).mpr member)
      · by_cases same : k = number
        · rw [same]
          exact List.mem_append_right _ (List.mem_singleton.mpr rfl)
        · exact List.mem_append_left _ ((taken_keeps (n := n) (by simpa using same)).mpr member)
    · exact ⟨core', fun absurd_ => (Bool.noConfusion absurd_)⟩

/-- A timer that fires sends something again, or gives the connection up. -/
theorem sender_fires (sender : Sender isn s n) (holds : Holds WINDOW s) {timer : Timer} (was_set : timer ∈ n.timers) :
    Core isn s ((n.eventTimeoutDelete timer).fire timer).1 ∧
      (((n.eventTimeoutDelete timer).fire timer).2 = false →
        Sender isn s ((n.eventTimeoutDelete timer).fire timer).1) := by
  cases timer with
  | retransmitsyn =>
    obtain ⟨core, few⟩ := fires_syn sender
    exact ⟨core, fun not_many => few (of_decide_eq_false not_many)⟩
  | retransmitdata number => exact fires_data sender holds was_set
  | retransmitfin => exact ⟨(fires_fin sender).core, fun _ => fires_fin sender⟩

end LiveStreaming.Rudp
