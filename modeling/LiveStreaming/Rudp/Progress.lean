import LiveStreaming.Rudp.Network

/-!
# A connection never gets stuck

As long as a connection has not been given up, deliveries between its two sockets alone are enough for everything
accepted to be handed on and acknowledged.
-/

namespace LiveStreaming.Rudp
open Library.SlidingWindow Library.Transition

variable {A : Type*} [DecidableEq A] {a b : A} {asked : List Data} {isn : Int} {s : Session Data} {n m : Socketnode A}
  {net net' : Net A} {p : Packet}

/-- A delivery between `a` and `b` that does not end the connection. -/
def Action.Between (a b : A) (act : Action A) : Prop :=
  ∃ p, act = .deliver a b p ∧ p.type ≠ .fin ∨ act = .deliver b a p

/-- `net'` is reached from `net` by such deliveries only. -/
def Exchange (a b : A) (net net' : Net A) : Prop :=
  ∃ more : List (Action A), (∀ act ∈ more, act.Between a b) ∧ exec Net.step net more = some net'

theorem Exchange.refl (net : Net A) : Exchange a b net net := ⟨[], fun _ member => (by cases member), rfl⟩

theorem Exchange.head {mid : Net A} {act : Action A} (between : act.Between a b) (step : net.step act = some mid)
    (rest : Exchange a b mid net') : Exchange a b net net' := by
  obtain ⟨more, only, ran⟩ := rest
  refine ⟨act :: more, fun act' member => ?_, ?_⟩
  · rcases List.mem_cons.mp member with rfl | later
    · exact between
    · exact only act' later
  · rw [exec, step]
    exact ran

theorem Exchange.trans {mid : Net A} (first : Exchange a b net mid) (then_ : Exchange a b mid net') :
    Exchange a b net net' := by
  obtain ⟨more, only, ran⟩ := first
  obtain ⟨rest, only', ran'⟩ := then_
  refine ⟨more ++ rest, fun act member => ?_, ?_⟩
  · rcases List.mem_append.mp member with early | late
    · exact only act early
    · exact only' act late
  · rw [exec_append, ran]
    exact ran'

/-- Both ends of a connection that is on its way, with what the sockets are like besides. -/
structure Ready (a b : A) (asked : List Data) (isn : Int) (s : Session Data) (n m : Socketnode A) (net : Net A) :
    Prop where
  sender : net.node a b = some n
  receiver : (net.node b a).getD (.new a) = m
  running : Running asked False isn s n m
  idle : (net b).Idle
  shut : (net a).Shut

theorem sent_mem {host peer : A} (there : net.node host peer = some n) (sent : p ∈ n.sent) :
    p ∈ net.sent host peer := by
  rw [Net.sent, there]
  exact sent

theorem deliver_receiver (differ : a ≠ b) (ready : Ready a b asked isn s n m net) (sent : p ∈ n.sent) {t : Session Data}
    (running : Running asked False isn t n (m.receive p)) :
    ∃ mid, net.step (.deliver a b p) = some mid ∧ Ready a b asked isn t n (m.receive p) mid := by
  have guard : (net b).fdOpen ∧ p ∈ net.sent a b := ⟨ready.idle.fdOpen, sent_mem ready.sender sent⟩
  refine ⟨_, if_pos guard, ?_⟩
  have current : p.version = VERSION := by
    cases ready.running.sender.core.wire p sent with
    | syn => rfl
    | data sent => rfl
    | fin seq last => rfl
  have found : ((net b).found a).getS a = some m := by
    cases known : (net b).getS a with
    | none =>
      have is := ready.receiver
      rw [Net.node, known, Option.getD_none] at is
      rw [← is]
      exact Host.found_none known
    | some m' =>
      have is := ready.receiver
      rw [Net.node, known, Option.getD_some] at is
      rw [← is]
      refine Host.found_some known ?_
      rw [is]
      exact ready.running.receiver.seq_nonneg ready.running.positive
  refine ⟨(node_other differ b _).trans ready.sender, ?_, running, ?_, ?_⟩
  · rw [node_same, Host.recvhandler_idle_is ready.idle current found,
      Host.getS_set_same _ _ (Socketnode.receive_peer p), found]
    rfl
  · rw [Function.update_self]
    exact Host.recvhandler_idle ready.idle
  · rw [Function.update_of_ne differ]
    exact ready.shut

theorem open_of_going (ready : Ready a b asked isn s n m net) (going : ¬n.Closing) : (net a).fdOpen = true := by
  by_contra closed
  have state := ready.shut (eq_false_of_ne_true closed) n (Host.getS_mem ready.sender)
  exact going (.inr state)

/-- A reply reaches the sender; unless nothing is left in the buffer, the socket is not closed then. -/
theorem deliver_sender (differ : a ≠ b) (few : asked.length ≤ 2147418000) (ready : Ready a b asked isn s n m net)
    (going : ¬n.Closing) (reply : p ∈ m.sent) {t : Session Data} (running : Running asked False isn t (n.receive p) m) :
    ∃ mid k, net.step (.deliver b a p) = some mid ∧ Ready a b asked isn t k m mid ∧ (n.receive p).ClosesTo k ∧
      ((n.receive p).buffData ≠ [] → k = n.receive p) := by
  obtain ⟨m', known⟩ : ∃ m', net.node b a = some m' := by
    cases known : net.node b a with
    | none =>
      have is := ready.receiver
      rw [known, Option.getD_none] at is
      rw [← is] at reply
      cases reply
    | some m' => exact ⟨m', rfl⟩
  have is := ready.receiver
  rw [known, Option.getD_some] at is
  rw [is] at known
  have isOpen := open_of_going ready going
  have guard : (net a).fdOpen ∧ p ∈ net.sent b a := ⟨isOpen, sent_mem known reply⟩
  have current : p.version = VERSION := by
    cases ready.running.receiver.wire p reply with
    | ack known => rfl
    | fin seq last => rfl
  have found : ((net a).found b).getS b = some n :=
    Host.found_some ready.sender (ready.running.sender.phase.seq_nonneg ready.running.positive)
  obtain ⟨k, there, closes⟩ := Host.recvhandler_own current found
  refine ⟨_, k, if_pos guard, ⟨?_, ?_, running_closes running few closes, ?_, ?_⟩, closes, fun some_left => ?_⟩
  · rw [node_same]
    exact there
  · rw [node_other differ.symm, known]
    rfl
  · rw [Function.update_of_ne differ.symm]
    exact ready.idle
  · rw [Function.update_self]
    exact Host.recvhandler_shut isOpen
  · have some_size : ¬(n.receive p).sizebuffer = 0 := by
      rw [Socketnode.sizebuffer, Int.natCast_eq_zero]
      exact fun none_left => some_left (List.eq_nil_of_length_eq_zero none_left)
    have quiet : ¬(n.state = .closeWait ∧ (n.receive p).state = .closed) := fun both => going (.inl both.1)
    rw [Host.recvhandler_is current found, if_neg (fun all => some_size all.2.2.1), if_neg quiet,
      Host.getS_set_same _ _ (Socketnode.receive_peer p), found, Option.map_some] at there
    exact (Option.some.inj there).symm

/-- What is under way is handed on. -/
theorem hands_all (differ : a ≠ b) (few : asked.length ≤ 2147418000) (state : n.state = .establish) (left : Nat)
    (ready : Ready a b asked isn s n m net) (counted : s.sent = s.handed.length + left) :
    ∃ mid t m', Exchange a b net mid ∧ Ready a b asked isn t n m' mid ∧ t.handed.length = t.sent ∧
      t.accepted = s.accepted ∧ t.base = s.base := by
  induction left generalizing s m net with
  | zero => exact ⟨net, s, m, .refl net, ready, counted.symm, rfl, rfl⟩
  | succ left ih =>
    obtain ⟨x, sent⟩ := ready.running.holds.onWire s.handed.length (by omega)
    have there := ready.running.sender.core.data _ x sent
    obtain ⟨mid, step, ready'⟩ := deliver_receiver differ ready there (running_next ready.running few state sent)
    have counted' : (s.hand x).sent = (s.hand x).handed.length + left := by
      change s.sent = (s.handed ++ [x]).length + left
      rw [List.length_append, List.length_singleton]
      omega
    obtain ⟨last, t, m', rest, ready'', all, accepted, base⟩ := ih ready' counted'
    have between : (Action.deliver a b (packet .data (isn + 1 + s.handed.length) x)).Between a b :=
      ⟨_, .inl ⟨rfl, fun type => by cases type⟩⟩
    exact ⟨last, t, m', .head between step rest, ready'', all, accepted, base⟩

/-- Everything is handed on, and nothing waits to be acknowledged. -/
structure Done (a b : A) (accepted : List Data) (net : Net A) : Prop where
  handed : net.handed b a = accepted
  accepted : net.accepted a b = accepted
  acked : ∃ n, net.node a b = some n ∧ n.buffData = []

theorem ready_open (ready : Ready a b asked isn s n m net) (state : n.state = .establish) : Open s n :=
  (ready.running.sender.phase.established state).2.2

theorem ready_done (ready : Ready a b asked isn s n m net) (all : s.accepted.length ≤ s.base)
    (none_left : n.buffData = []) : Done a b s.accepted net := by
  have holds := ready.running.holds
  have same : s.handed = s.accepted :=
    holds.in_order.eq_of_length_le (Nat.le_trans all holds.base_handed)
  refine ⟨?_, ?_, n, ready.sender, none_left⟩
  · rw [← same, ← ready.running.receiver.handed, ← ready.receiver]
    exact handed_getD net b a
  · rw [Net.accepted, ready.sender]
    exact ready.running.sender.core.accepted

/-- A block that is under way is acknowledged, and so on until none is left. -/
theorem acks_all (differ : a ≠ b) (few : asked.length ≤ 2147418000) (left : Nat) (state : n.state = .establish)
    (ready : Ready a b asked isn s n m net) (counted : n.buffData.length ≤ left) :
    ∃ last, Exchange a b net last ∧ Done a b s.accepted last := by
  induction left generalizing s n m net with
  | zero =>
    have none_left := List.eq_nil_of_length_eq_zero (Nat.le_zero.mp counted)
    exact ⟨net, .refl net, ready_done ready (open_empty (ready_open ready state) none_left) none_left⟩
  | succ left ih =>
    have handed_sent := ready.running.holds.handed_sent
    obtain ⟨mid, t, m', exchange, ready', all, accepted, base⟩ :=
      hands_all differ few state (s.sent - s.handed.length) ready (by omega)
    have is_open := ready_open ready' state
    rw [← accepted]
    by_cases none_left : n.buffData = []
    · exact ⟨mid, exchange, ready_done ready' (open_empty is_open none_left) none_left⟩
    · have flight := running_inFlight ready'.running few state
      have going : ¬n.Closing := by simp [Socketnode.Closing, state]
      have ahead : t.base < t.sent := by
        have moving := flight.moving none_left
        have nextpacket := is_open.nextpacket
        omega
      have known : t.handed.length ∈ t.acks := ready'.running.holds.acked _ (by omega) (Nat.le_refl _)
      have reply := ready'.running.receiver.replies (ready'.running.met state) _ (.inr known)
      obtain ⟨u, running, learned, base', state'⟩ := running_acks ready'.running few state (Nat.le_refl _)
      have further := base' none_left
      obtain ⟨after, k, step, ready'', closes, stays⟩ := deliver_sender differ few ready' going reply running
      have onward : Exchange a b net after := exchange.trans (.head ⟨_, .inr rfl⟩ step (.refl after))
      have is_open' := (running.sender.phase.established state').2.2
      rw [← learned.accepted]
      by_cases emptied : (n.receive (packet .ack (isn + 1 + t.handed.length) [])).buffData = []
      · exact ⟨after, onward, ready_done ready'' (open_empty is_open' emptied) (closes.buffData.trans emptied)⟩
      · rw [stays emptied] at ready''
        have length := is_open.length
        have length' := is_open'.length
        rw [learned.accepted] at length'
        obtain ⟨last, rest, done⟩ := ih state' ready'' (by omega)
        exact ⟨last, onward.trans rest, done⟩

/-- `RUDP_SYN` is answered, and then everything in the buffer is sent and acknowledged. -/
theorem opens_all (differ : a ≠ b) (few : asked.length ≤ 2147418000) (state : n.state = .synSent)
    (ready : Ready a b asked isn s n m net) : ∃ last, Exchange a b net last ∧ Done a b s.accepted last := by
  have running := ready.running
  have going : ¬n.Closing := by simp [Socketnode.Closing, state]
  have syn := running.sender.core.syn
  obtain ⟨t, running'⟩ := running_hands running few syn fun _ => id
  have running' : Running asked False isn t n (m.receive (packet .syn isn [])) :=
    { running' with
      receiver := running'.receiver.mono (fun fin => fin.elim id fun type => by cases type) id
      last := False.elim }
  obtain ⟨mid, step, ready'⟩ := deliver_receiver differ ready syn running'
  have heard := receives_syn running
  have reply := running'.receiver.replies heard 0 (.inl rfl)
  obtain ⟨u, running'', learned, state'⟩ := running_opens running' few state heard
  obtain ⟨after, k, step', ready'', closes, stays⟩ := deliver_sender differ few ready' going reply running''
  have between : (Action.deliver a b (packet .syn isn [])).Between a b := ⟨_, .inl ⟨rfl, fun type => by cases type⟩⟩
  have exchange : Exchange a b net after := .head between step (.head ⟨_, .inr rfl⟩ step' (.refl after))
  have accepted : s.accepted = u.accepted := by
    rw [learned.accepted, ← running'.sender.core.accepted, running.sender.core.accepted]
  rw [accepted]
  by_cases emptied : (n.receive (packet .ack (isn + 1 + (0 : Nat)) [])).buffData = []
  · have is_open := (running''.sender.phase.established state').2.2
    exact ⟨after, exchange, ready_done ready'' (open_empty is_open emptied) (closes.buffData.trans emptied)⟩
  · rw [stays emptied] at ready''
    obtain ⟨last, rest, done⟩ := acks_all differ few _ state' ready'' (Nat.le_refl _)
    exact ⟨last, exchange.trans rest, done⟩

theorem run_shut {run : List (Action A)} (ran : exec Net.step (Net.start A) run = some net) (host : A) :
    (net host).Shut := by
  induction run using List.reverseRecOn generalizing net with
  | nil =>
    obtain rfl := Option.some.inj ran
    exact Host.shut_open rfl
  | append_singleton run act ih =>
    obtain ⟨mid, before, step⟩ := exec_snoc ran
    have shut := ih before
    have update : ∀ (at_ : A) (h : Host A), (at_ = host → h.Shut) → (Function.update mid at_ h host).Shut := by
      intro at_ h mine
      by_cases here : host = at_
      · rw [here, Function.update_self]
        exact mine here.symm
      · rw [Function.update_of_ne here]
        exact shut
    cases act with
    | sendto at_ peer data rand held =>
      rw [Net.step] at step
      split at step
      · next isOpen =>
        obtain rfl := Option.some.inj step
        exact update _ _ fun _ => Host.rudpSendto_shut isOpen
      · cases step
    | close at_ =>
      rw [Net.step] at step
      split at step
      · next isOpen =>
        obtain rfl := Option.some.inj step
        exact update _ _ fun _ => Host.shut_open (Host.rudpClose_fdOpen.trans isOpen)
      · cases step
    | deliver src dst p =>
      rw [Net.step] at step
      split at step
      · next guard =>
        obtain rfl := Option.some.inj step
        exact update _ _ fun _ => Host.recvhandler_shut guard.1
      · cases step
    | timeout at_ peer timer =>
      rw [Net.step] at step
      split at step
      · obtain rfl := Option.some.inj step
        refine update _ _ fun mine => ?_
        rw [mine]
        exact Host.timeout_shut shut
      · cases step

theorem linked_done (differ : a ≠ b) {fin : Prop} (linked : Linked a asked fin (net.node a b) (net.node b a))
    (idle : (net b).Idle) (shut : (net a).Shut) (few : asked.length ≤ 2147418000) (node : net.node a b = some n)
    (going : ¬n.Closing) : ∃ last, Exchange a b net last ∧ Done a b (net.accepted a b) last := by
  obtain ⟨isn, s, running⟩ := linked_opened linked node
  have not_yet : ¬fin := fun last => going (running.last last)
  have running : Running asked False isn s n _ :=
    { running with receiver := running.receiver.mono (fun last => not_yet last) id, last := False.elim }
  have ready : Ready a b asked isn s n _ net := ⟨node, rfl, running, idle, shut⟩
  have accepted : net.accepted a b = s.accepted := by
    rw [Net.accepted, node]
    exact running.sender.core.accepted
  rw [accepted]
  cases running.sender.phase with
  | synSent state _ _ _ _ => exact opens_all differ few state ready
  | establish state _ _ _ => exact acks_all differ few _ state ready (Nat.le_refl _)
  | closeWait state _ _ _ _ => exact absurd (.inl state) going
  | closed state _ _ => exact absurd (.inr state) going

/-- From every state of every run in which the connection has not been given up or closed, deliveries alone lead to a
state in which all that was accepted is handed on and acknowledged. -/
theorem never_stuck (differ : a ≠ b) {run : List (Action A)} (ran : exec Net.step (Net.start A) run = some net)
    (passive : ∀ act ∈ run, ¬act.CalledBy b) (once : ¬Reopens a b run)
    (few : (run.flatMap (Action.asks a b)).length ≤ 2147418000) (node : net.node a b = some n) (going : ¬n.Closing) :
    ∃ last, Exchange a b net last ∧ Done a b (net.accepted a b) last := by
  obtain ⟨linked, idle⟩ := run_linked differ ran passive once few
  exact linked_done differ linked idle (run_shut ran a) few node going

theorem never_stuck_late :
    ∃ last, Exchange false true lateNet last ∧ Done false true (lateNet.accepted false true) last :=
  never_stuck (n := (lateNet.node false true).get (by decide)) (by decide) lateRun_ran
    (by simp [lateRun, Action.CalledBy]) (by decide) (by decide) (Option.some_get _).symm
    (by decide)

end LiveStreaming.Rudp
