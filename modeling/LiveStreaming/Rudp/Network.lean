import Mathlib.Data.List.Induction
import LiveStreaming.Rudp.Delivery

/-!
# Runs of the network

Any number of sockets, each with connections to any others. One that its program only receives with takes what another
sends in order and without gaps, however packets are lost, repeated or overtaken.
-/

namespace LiveStreaming.Rudp
open Library.SlidingWindow Library.Transition

variable {A : Type*}

namespace Action

/-- The program of `host` makes this call. -/
def CalledBy (host : A) : Action A → Prop
  | .sendto caller _ _ _ _ => caller = host
  | .close caller => caller = host
  | _ => False

variable [DecidableEq A]

/-- The payload that the program of `host` passes to `rudp_sendto` for `peer`, if it is not too long. -/
def asks (host peer : A) : Action A → List Data
  | .sendto caller callee data _ _ => if caller = host ∧ callee = peer ∧ data.length ≤ MAXPKTSIZE then [data] else []
  | _ => []

/-- The type of the packet that goes from `src` to `dst`. -/
def brings (src dst : A) : Action A → Option PacketType
  | .deliver from_ at_ p => if from_ = src ∧ at_ = dst then some p.type else none
  | _ => none

end Action

/-- A connection from `a` to `b`: the node of `b` at `a` and the node of `a` at `b`. -/
inductive Linked (a : A) (asked : List Data) (fin : Prop) (u v : Option (Socketnode A)) : Prop where
  | idle (unopened : u = none) (unheard : v = none) (not_yet : ¬fin) (unasked : asked = [])
  | running {isn : Int} {s : Session Data} {n : Socketnode A} (opened : u = some n)
      (running : Running asked fin isn s n (v.getD (.new a)))

variable {a b : A} {asked : List Data} {fin : Prop} {u v : Option (Socketnode A)}

/-- What a socket does for others may close its connection to `b`, and no more. -/
theorem linked_closes (linked : Linked a asked fin u v) (few : asked.length ≤ 2147418000) {u' : Option (Socketnode A)}
    (closes : (u = none → u' = none) ∧ ∀ n, u = some n → ∃ k, u' = some k ∧ n.ClosesTo k) :
    Linked a asked fin u' v := by
  cases linked with
  | idle unopened unheard not_yet unasked => exact .idle (closes.1 unopened) unheard not_yet unasked
  | running opened running =>
    obtain ⟨k, is, closes⟩ := closes.2 _ opened
    exact .running is (running_closes running few closes)

theorem linked_opened (linked : Linked a asked fin u v) {n : Socketnode A} (node : u = some n) :
    ∃ isn s, Running asked fin isn s n (v.getD (.new a)) := by
  cases linked with
  | idle unopened unheard not_yet unasked =>
    rw [unopened] at node
    cases node
  | @running isn s n' opened running =>
    obtain rfl : n' = n := Option.some.inj (opened.symm.trans node)
    exact ⟨isn, s, running⟩

variable [DecidableEq A] {net net' : Net A}

/-- `RUDP_SYN` comes after `RUDP_FIN`, as a packet that was late, and opens the connection once more. -/
def Reopens (src dst : A) (run : List (Action A)) : Prop :=
  [PacketType.fin, .syn].Sublist (run.filterMap (Action.brings src dst))

instance decidableReopens (src dst : A) (run : List (Action A)) : Decidable (Reopens src dst run) :=
  inferInstanceAs (Decidable (List.Sublist _ _))

theorem node_same (host peer : A) (h : Host A) : Net.node (Function.update net host h) host peer = h.getS peer := by
  rw [Net.node, Function.update_self]

theorem node_other {host at_ : A} (other : at_ ≠ host) (peer : A) (h : Host A) :
    Net.node (Function.update net host h) at_ peer = net.node at_ peer := by
  rw [Net.node, Function.update_of_ne other, Net.node]

theorem sent_some {host peer : A} {p : Packet} (sent : p ∈ net.sent host peer) :
    ∃ n, net.node host peer = some n ∧ p ∈ n.sent := by
  rw [Net.sent] at sent
  cases is : net.node host peer with
  | none =>
    rw [is] at sent
    cases sent
  | some n =>
    rw [is] at sent
    exact ⟨n, rfl, sent⟩

theorem linked_sendto (linked : Linked a asked fin u v) {h : Host A} (is : h.getS b = u) {data : Data}
    (fits : data.length ≤ MAXPKTSIZE) (rand : Nat) (held : Int) :
    Linked a (asked ++ [data]) fin ((h.rudpSendto b data rand held).getS b) v := by
  cases linked with
  | idle unopened unheard not_yet unasked =>
    have there := Host.found_none (is.trans unopened)
    rw [Host.rudpSendto_own fits there, if_neg (by simp [Socketnode.new]), unheard, unasked]
    exact .running rfl (running_starts not_yet a b data rand held)
  | running opened running =>
    have positive := running.sender.phase.seq_nonneg running.positive
    have there := Host.found_some (is.trans opened) positive
    rw [Host.rudpSendto_own fits there]
    split
    · next closed =>
      have taken : Taken (asked ++ [data]) _ _ :=
        ⟨running.taken.in_order.trans (List.prefix_append _ _), fun going => absurd closed going⟩
      exact .running rfl { running with taken := taken }
    · next going =>
      obtain ⟨t, running'⟩ := running_sends running going data rand held
      exact .running rfl running'

theorem linked_timeout (linked : Linked a asked fin u v) (few : asked.length ≤ 2147418000) {h : Host A}
    (is : h.getS b = u) {timer : Timer} (was_set : ∃ n ∈ u, timer ∈ n.timers) :
    Linked a asked fin ((h.timeout b timer).getS b) v := by
  obtain ⟨n, there, was_set⟩ := was_set
  cases linked with
  | idle unopened unheard not_yet unasked =>
    rw [unopened] at there
    cases there
  | @running isn s n' opened running =>
    obtain rfl : n' = n := Option.some.inj (opened.symm.trans there)
    have there : h.getS b = some n' := is.trans opened
    obtain ⟨resent, gave_up⟩ := @Host.timeout_own A h _ b n' timer there
    cases often : ((n'.eventTimeoutDelete timer).fire timer).2 with
    | false =>
      rw [resent often]
      exact .running rfl (running_fires running was_set often)
    | true =>
      obtain ⟨k, is, closes⟩ := gave_up often
      rw [is]
      exact .running rfl (running_closes (running_givesUp running was_set) few closes)

/-- A packet of the receiver reaches the sender. -/
theorem linked_reply (linked : Linked a asked fin u v) (few : asked.length ≤ 2147418000) {h : Host A}
    (is : h.getS b = u) {p : Packet} {m : Socketnode A} (there : v = some m) (reply : p ∈ m.sent) :
    Linked a asked fin ((h.recvhandler b p).getS b) v := by
  cases linked with
  | idle unopened unheard not_yet unasked =>
    rw [unheard] at there
    cases there
  | @running isn s n opened running =>
    obtain rfl : m = v.getD (.new a) := by rw [there, Option.getD_some]
    have current : p.version = VERSION := by
      cases running.receiver.wire p reply with
      | ack known => rfl
      | fin seq last => rfl
    have positive := running.sender.phase.seq_nonneg running.positive
    obtain ⟨k, is, closes⟩ := Host.recvhandler_own current (Host.found_some (is.trans opened) positive)
    obtain ⟨t, running⟩ := running_receives running few reply
    rw [is]
    exact .running rfl (running_closes running few closes)

/-- A packet of the sender reaches the receiver. -/
theorem linked_packet (linked : Linked a asked fin u v) (few : asked.length ≤ 2147418000) {h : Host A}
    (is : h.getS a = v) (idle : h.Idle) {p : Packet} {n : Socketnode A} (there : u = some n) (sent : p ∈ n.sent)
    (first : p.type = .syn → ¬fin) : Linked a asked (fin ∨ p.type = .fin) u ((h.recvhandler a p).getS a) := by
  cases linked with
  | idle unopened unheard not_yet unasked =>
    rw [unopened] at there
    cases there
  | @running isn s n' opened running =>
    obtain rfl : n' = n := Option.some.inj (opened.symm.trans there)
    have current : p.version = VERSION := by
      cases running.sender.core.wire p sent with
      | syn => rfl
      | data sent => rfl
      | fin seq last => rfl
    have found : (h.found a).getS a = some (v.getD (.new a)) := by
      cases known : v with
      | none => exact Host.found_none (is.trans known)
      | some m =>
        rw [known, Option.getD_some] at running
        exact Host.found_some (is.trans known) (running.receiver.seq_nonneg running.positive)
    obtain ⟨t, running⟩ := running_hands running few sent first
    rw [Host.recvhandler_idle_is idle current found,
      Host.getS_set_same _ _ (Socketnode.receive_peer p), found, Option.map_some]
    exact .running opened running

/-- A call on another host than the receiver. -/
theorem linked_update {host : A} {h : Host A} (other : b ≠ host) (idle : (net b).Idle)
    (mine : a = host → Linked a asked fin (h.getS b) (net.node b a))
    (apart : a ≠ host → Linked a asked fin (net.node a b) (net.node b a)) :
    Linked a asked fin (Net.node (Function.update net host h) a b) (Net.node (Function.update net host h) b a) ∧
      (Function.update net host h b).Idle := by
  rw [node_other other, Function.update_of_ne other]
  refine ⟨?_, idle⟩
  by_cases here : a = host
  · rw [← here, node_same]
    exact mine here
  · rw [node_other here]
    exact apart here

theorem linked_step_sendto (linked : Linked a asked fin (net.node a b) (net.node b a)) (idle : (net b).Idle)
    {host peer : A} {data : Data} {rand : Nat} {held : Int}
    (step : net.step (.sendto host peer data rand held) = some net') (other : b ≠ host) :
    Linked a (asked ++ (Action.sendto host peer data rand held).asks a b) fin (net'.node a b) (net'.node b a) ∧
      (net' b).Idle := by
  rw [Net.step] at step
  split at step
  · obtain rfl := Option.some.inj step
    by_cases asks : host = a ∧ peer = b ∧ data.length ≤ MAXPKTSIZE
    · obtain ⟨rfl, rfl, fits⟩ := asks
      have asked_ : (Action.sendto host peer data rand held).asks host peer = [data] := if_pos ⟨rfl, rfl, fits⟩
      rw [asked_]
      exact linked_update other idle (fun _ => linked_sendto linked rfl fits rand held) (fun apart => absurd rfl apart)
    · have asked_ : (Action.sendto host peer data rand held).asks a b = [] := if_neg asks
      rw [asked_, List.append_nil]
      refine linked_update other idle (fun mine => ?_) (fun _ => linked)
      rw [← mine]
      by_cases here : b = peer
      · have refused : (net a).rudpSendto peer data rand held = net a :=
          if_pos (Nat.lt_of_not_le fun fits => asks ⟨mine.symm, here.symm, fits⟩)
        rw [refused]
        exact linked
      · rw [Host.rudpSendto_other here]
        exact linked
  · cases step

theorem linked_step_close (linked : Linked a asked fin (net.node a b) (net.node b a)) (idle : (net b).Idle)
    (few : asked.length ≤ 2147418000) {host : A} (step : net.step (.close host) = some net') (other : b ≠ host) :
    Linked a asked fin (net'.node a b) (net'.node b a) ∧ (net' b).Idle := by
  rw [Net.step] at step
  split at step
  · obtain rfl := Option.some.inj step
    refine linked_update other idle (fun mine => ?_) (fun _ => linked)
    rw [← mine]
    exact linked_closes linked few ⟨Host.rudpClose_none, fun n => Host.rudpClose_some⟩
  · cases step

theorem linked_step_timeout (linked : Linked a asked fin (net.node a b) (net.node b a)) (idle : (net b).Idle)
    (few : asked.length ≤ 2147418000) {host peer : A} {timer : Timer}
    (step : net.step (.timeout host peer timer) = some net') :
    Linked a asked fin (net'.node a b) (net'.node b a) ∧ (net' b).Idle := by
  rw [Net.step] at step
  split at step
  · next was_set =>
    obtain rfl := Option.some.inj step
    -- The receiver has no timers.
    have other : b ≠ host := by
      rintro rfl
      obtain ⟨n, there, member⟩ := was_set
      rw [((idle.nodes n (Host.getS_mem there)).timers)] at member
      cases member
    refine linked_update other idle (fun mine => ?_) (fun _ => linked)
    rw [← mine] at was_set ⊢
    by_cases here : b = peer
    · rw [← here] at was_set ⊢
      exact linked_timeout linked few rfl was_set
    · exact linked_closes linked few (Host.timeout_other here)
  · cases step

/-- A packet that has been sent reaches the receiver, the sender or another host. -/
theorem linked_step_deliver (differ : a ≠ b) (linked : Linked a asked fin (net.node a b) (net.node b a))
    (idle : (net b).Idle) (few : asked.length ≤ 2147418000) {src dst : A} {p : Packet}
    (step : net.step (.deliver src dst p) = some net')
    (first : (Action.deliver src dst p).brings a b = some .syn → ¬fin) :
    Linked a asked (fin ∨ (Action.deliver src dst p).brings a b = some .fin) (net'.node a b) (net'.node b a) ∧
      (net' b).Idle := by
  rw [Net.step] at step
  split at step
  · next there =>
    obtain rfl := Option.some.inj step
    obtain ⟨n, is, sent⟩ := sent_some there.2
    by_cases at_ : b = dst
    · rw [← at_] at is first ⊢
      rw [node_same, node_other differ, Function.update_self]
      refine ⟨?_, Host.recvhandler_idle idle⟩
      by_cases mine : a = src
      · rw [← mine] at is first ⊢
        have brought : (Action.deliver a b p).brings a b = some p.type := if_pos ⟨rfl, rfl⟩
        rw [brought, Option.some.injEq] at first ⊢
        exact linked_packet linked few rfl idle is sent first
      · have quiet : (Action.deliver src b p).brings a b = none := if_neg fun brings => mine brings.1.symm
        simp only [quiet, reduceCtorEq, or_false]
        rw [Host.recvhandler_idle_other idle mine]
        exact linked
    · have quiet : (Action.deliver src dst p).brings a b = none := if_neg fun brings => at_ brings.2.symm
      simp only [quiet, reduceCtorEq, or_false]
      refine linked_update at_ idle (fun mine => ?_) (fun _ => linked)
      rw [← mine] at is ⊢
      by_cases from_ : b = src
      · rw [← from_] at is ⊢
        exact linked_reply linked few rfl is sent
      · exact linked_closes linked few (Host.recvhandler_other from_)
  · cases step

/-- One step of the network. -/
theorem linked_step (differ : a ≠ b) (linked : Linked a asked fin (net.node a b) (net.node b a)) (idle : (net b).Idle)
    (few : asked.length ≤ 2147418000) {act : Action A} (step : net.step act = some net') (passive : ¬act.CalledBy b)
    (first : act.brings a b = some .syn → ¬fin) :
    Linked a (asked ++ act.asks a b) (fin ∨ act.brings a b = some .fin) (net'.node a b) (net'.node b a) ∧
      (net' b).Idle := by
  cases act with
  | sendto host peer data rand held =>
    simp only [Action.brings, reduceCtorEq, or_false]
    exact linked_step_sendto linked idle step fun same => passive same.symm
  | close host =>
    simp only [Action.brings, Action.asks, reduceCtorEq, or_false, List.append_nil]
    exact linked_step_close linked idle few step fun same => passive same.symm
  | deliver src dst p =>
    simp only [Action.asks, List.append_nil]
    exact linked_step_deliver differ linked idle few step first
  | timeout host peer timer =>
    simp only [Action.brings, Action.asks, reduceCtorEq, or_false, List.append_nil]
    exact linked_step_timeout linked idle few step

theorem once_snoc {run : List (Action A)} {act : Action A} (once : ¬Reopens a b (run ++ [act])) :
    ¬Reopens a b run ∧ (act.brings a b = some .syn → .fin ∉ run.filterMap (Action.brings a b)) := by
  rw [Reopens, List.filterMap_append] at once
  refine ⟨fun again => once (again.trans (List.sublist_append_left _ _)), fun syn fin => once ?_⟩
  have last : [act].filterMap (Action.brings a b) = [.syn] := by simp [syn]
  rw [last]
  exact (List.singleton_sublist.mpr fin).append (List.Sublist.refl [PacketType.syn])

/-- Every run of the network, seen from one connection, is a run of the sliding window protocol. -/
theorem run_linked (differ : a ≠ b) {run : List (Action A)} (ran : exec Net.step (Net.start A) run = some net)
    (passive : ∀ act ∈ run, ¬act.CalledBy b) (once : ¬Reopens a b run)
    (few : (run.flatMap (Action.asks a b)).length ≤ 2147418000) :
    Linked a (run.flatMap (Action.asks a b)) (.fin ∈ run.filterMap (Action.brings a b)) (net.node a b) (net.node b a) ∧
      (net b).Idle := by
  induction run using List.reverseRecOn generalizing net with
  | nil =>
    obtain rfl := Option.some.inj ran
    exact ⟨.idle rfl rfl List.not_mem_nil rfl, Host.idle_rudpSocket⟩
  | append_singleton run act ih =>
    obtain ⟨mid, before, step⟩ := exec_snoc ran
    obtain ⟨once', first⟩ := once_snoc once
    rw [List.flatMap_append, List.length_append] at few
    have few' : (run.flatMap (Action.asks a b)).length ≤ 2147418000 := Nat.le_trans (Nat.le_add_right _ _) few
    obtain ⟨linked, idle⟩ :=
      ih before (fun act member => passive act (List.mem_append_left _ member)) once' few'
    have last := passive act (List.mem_append_right _ (List.mem_singleton.mpr rfl))
    obtain ⟨linked', idle'⟩ := linked_step differ linked idle few' step last first
    refine ⟨?_, idle'⟩
    have asked : (run ++ [act]).flatMap (Action.asks a b) = run.flatMap (Action.asks a b) ++ act.asks a b := by
      rw [List.flatMap_append, List.flatMap_singleton]
    have ended : .fin ∈ (run ++ [act]).filterMap (Action.brings a b) ↔
        .fin ∈ run.filterMap (Action.brings a b) ∨ act.brings a b = some .fin := by
      simp [List.filterMap_append]
    rw [asked, propext ended]
    exact linked'

theorem handed_getD (net : Net A) (host peer : A) :
    net.handed host peer = ((net.node host peer).getD (.new peer)).handed := by
  rw [Net.handed]
  cases net.node host peer with
  | none => rfl
  | some m => rfl

theorem linked_in_order (linked : Linked a asked fin (net.node a b) (net.node b a)) :
    net.handed b a <+: net.accepted a b ∧ net.accepted a b <+: asked ∧
      ((∀ n ∈ net.node a b, n.state ≠ .closed) → net.accepted a b = asked) := by
  cases linked with
  | idle unopened unheard not_yet unasked =>
    rw [Net.handed, Net.accepted, unopened, unheard, unasked]
    exact ⟨List.prefix_rfl, List.prefix_rfl, fun _ => rfl⟩
  | @running isn s n opened running =>
    have handed : net.handed b a = s.handed := (handed_getD net b a).trans running.receiver.handed
    have accepted : net.accepted a b = s.accepted := by
      rw [Net.accepted, opened]
      exact running.sender.core.accepted
    rw [handed, accepted]
    exact ⟨running.holds.in_order, running.taken.in_order, fun going => running.taken.all (going n opened)⟩

/-- The receiver's handler gets the payloads that the sender's program passes to `rudp_sendto`, in their order, each
once and none left out; what the sender has taken of them is all of them until the connection is closed. -/
theorem handed_in_order (differ : a ≠ b) {run : List (Action A)} (ran : exec Net.step (Net.start A) run = some net)
    (passive : ∀ act ∈ run, ¬act.CalledBy b) (once : ¬Reopens a b run)
    (few : (run.flatMap (Action.asks a b)).length ≤ 2147418000) :
    net.handed b a <+: net.accepted a b ∧ net.accepted a b <+: run.flatMap (Action.asks a b) ∧
      ((∀ n ∈ net.node a b, n.state ≠ .closed) → net.accepted a b = run.flatMap (Action.asks a b)) := by
  obtain ⟨linked, -⟩ := run_linked differ ran passive once few
  exact linked_in_order linked

/-- The second payload is overtaken by itself and the first comes twice. -/
def lateRun : List (Action Bool) :=
  [.sendto false true [1] 7 0, .sendto false true [2] 0 0, .deliver false true (packet .syn 7 []),
    .deliver true false (packet .ack 8 []), .deliver false true (packet .data 9 [2]),
    .deliver false true (packet .data 8 [1]), .deliver false true (packet .data 8 [1]),
    .deliver true false (packet .ack 9 []), .deliver false true (packet .data 9 [2])]

def lateNet : Net Bool := (exec Net.step (Net.start Bool) lateRun).getD (Net.start Bool)

theorem lateRun_ran : exec Net.step (Net.start Bool) lateRun = some lateNet := by
  have ends : (exec Net.step (Net.start Bool) lateRun).isSome := by decide
  rw [lateNet]
  exact (Option.some_get ends).symm.trans (congrArg some (Option.get_eq_getD ..))

theorem handed_in_order_late :
    lateNet.handed true false = [[1], [2]] ∧ lateNet.accepted false true = [[1], [2]] ∧
      lateNet.handed true false <+: lateNet.accepted false true :=
  ⟨by decide, by decide,
    (handed_in_order (by decide) lateRun_ran (by simp [lateRun, Action.CalledBy]) (by decide) (by decide)).1⟩

theorem linked_left (linked : Linked a asked fin (net.node a b) (net.node b a)) {n : Socketnode A}
    (node : net.node a b = some n) (alive : .timeout ∉ n.events) :
    (∃ k ≤ (net.handed b a).length, n.accepted = n.accepted.take k ++ n.buffData.map (·.data)) ∧
      (n.Closing → n.accepted = net.handed b a ++ n.buffData.map (·.data)) := by
  obtain ⟨isn, s, running⟩ := linked_opened linked node
  have holds := running.holds
  have core := running.sender.core
  have handed : net.handed b a = s.handed := (handed_getD net b a).trans running.receiver.handed
  have all : s.base + n.buffData.length = s.accepted.length ∧ (n.Closing → s.sent = s.base) := by
    cases running.sender.phase with
    | synSent state seq none_sent trying is_open =>
      exact ⟨is_open.length, fun closing => by simp [Socketnode.Closing, state] at closing⟩
    | establish state seq ahead is_open =>
      exact ⟨is_open.length, fun closing => by simp [Socketnode.Closing, state] at closing⟩
    | closeWait state all_acked length alive positive => exact ⟨length, fun _ => all_acked⟩
    | closed state left positive => exact ⟨(left alive).2, fun _ => (left alive).1⟩
  have parts : s.accepted = s.accepted.take s.base ++ n.buffData.map (·.data) := by
    rw [core.buffered all.1, List.take_append_drop]
  rw [handed, core.accepted]
  refine ⟨⟨s.base, holds.base_handed, parts⟩, fun closing => ?_⟩
  have acked := all.2 closing
  have base_handed := holds.base_handed
  have handed_sent := holds.handed_sent
  have taken : s.handed = s.accepted.take s.base := by
    rw [List.prefix_iff_eq_take.mp holds.in_order]
    congr 1
    omega
  rw [taken]
  exact parts

/-- While the connection has not been given up, what was accepted is in the buffer or was handed on. Once it is closing,
what was handed on and what is in the buffer are together what was accepted. -/
theorem nothing_lost (differ : a ≠ b) {run : List (Action A)} (ran : exec Net.step (Net.start A) run = some net)
    (passive : ∀ act ∈ run, ¬act.CalledBy b) (once : ¬Reopens a b run)
    (few : (run.flatMap (Action.asks a b)).length ≤ 2147418000) {n : Socketnode A} (node : net.node a b = some n)
    (alive : .timeout ∉ n.events) :
    (∃ k ≤ (net.handed b a).length, n.accepted = n.accepted.take k ++ n.buffData.map (·.data)) ∧
      (n.Closing → n.accepted = net.handed b a ++ n.buffData.map (·.data)) := by
  obtain ⟨linked, -⟩ := run_linked differ ran passive once few
  exact linked_left linked node alive

theorem nothing_lost_late :
    ∃ n, lateNet.node false true = some n ∧
      ((∃ k ≤ (lateNet.handed true false).length, n.accepted = n.accepted.take k ++ n.buffData.map (·.data)) ∧
        (n.Closing → n.accepted = lateNet.handed true false ++ n.buffData.map (·.data))) :=
  ⟨(lateNet.node false true).get (by decide), (Option.some_get _).symm,
    nothing_lost (by decide) lateRun_ran (by simp [lateRun, Action.CalledBy]) (by decide) (by decide)
      (Option.some_get _).symm (by decide)⟩

theorem in_flight (differ : a ≠ b) {run : List (Action A)} (ran : exec Net.step (Net.start A) run = some net)
    (passive : ∀ act ∈ run, ¬act.CalledBy b) (once : ¬Reopens a b run)
    (few : (run.flatMap (Action.asks a b)).length ≤ 2147418000) {n : Socketnode A} (node : net.node a b = some n) :
    (n.state = .synSent → .retransmitsyn ∈ n.timers) ∧ (n.state = .establish → InFlight n) := by
  obtain ⟨linked, -⟩ := run_linked differ ran passive once few
  obtain ⟨isn, s, running⟩ := linked_opened linked node
  refine ⟨fun trying => ?_, running_inFlight running few⟩
  cases running.sender.phase with
  | synSent _ _ _ timer _ => exact timer
  | establish state _ _ _ => rw [trying] at state; cases state
  | closeWait state _ _ _ _ => rw [trying] at state; cases state
  | closed state _ _ => rw [trying] at state; cases state

theorem in_flight_late : ∃ n, lateNet.node false true = some n ∧ n.state = .establish ∧ InFlight n :=
  ⟨(lateNet.node false true).get (by decide), (Option.some_get _).symm, by decide,
    (in_flight (by decide) lateRun_ran (by simp [lateRun, Action.CalledBy]) (by decide) (by decide)
      (Option.some_get _).symm).2 (by decide)⟩

end LiveStreaming.Rudp
