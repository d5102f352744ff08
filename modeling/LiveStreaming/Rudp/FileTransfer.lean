import LiveStreaming.Rudp.Progress
import LiveStreaming.Rudp.Vsftp

/-!
# Files over the network

The socket of `b` belongs to `vs_recv`, and that of `a` to a `vs_send` with one file. What the other sockets do and what
the network does to packets is left open.
-/

namespace LiveStreaming.Rudp
open Library.Transition

/-- What the program of `host` passes to `rudp_sendto`. -/
def Action.passes (host : SockaddrIn) : Action SockaddrIn → List (SockaddrIn × List UInt8)
  | .sendto caller peer data _ _ => if caller = host then [(peer, data)] else []
  | _ => []

/-- The peer whose connection at `host` a step is about, unless the program of `host` takes it. -/
def Action.about (host : SockaddrIn) : Action SockaddrIn → Option SockaddrIn
  | .deliver src dst _ => if dst = host then some src else none
  | .timeout at_ peer _ => if at_ = host then some peer else none
  | _ => none

instance Action.decidableCalledBy (host : SockaddrIn) (act : Action SockaddrIn) : Decidable (act.CalledBy host) := by
  cases act with
  | sendto caller peer data rand held => exact inferInstanceAs (Decidable (caller = host))
  | close caller => exact inferInstanceAs (Decidable (caller = host))
  | deliver src dst p => exact inferInstanceAs (Decidable False)
  | timeout at_ peer timer => exact inferInstanceAs (Decidable False)

def Net.events (net : Net SockaddrIn) (host peer : SockaddrIn) : List RudpEvent :=
  (net.node host peer).elim [] (·.events)

/-- `heard` is what `rudp_receiver` was called with. -/
structure System where
  net : Net SockaddrIn
  recv : VsRecv
  heard : List (SockaddrIn × List UInt8)

namespace System

def start (files : List UInt8 → Option (List UInt8)) : System := ⟨Net.start SockaddrIn, ⟨[], files, false⟩, []⟩

def receive (created : Bool) (peer : SockaddrIn) (sys : System) (buf : List UInt8) : System :=
  { sys with recv := sys.recv.rudpReceiver created peer buf, heard := sys.heard ++ [(peer, buf)] }

def report (peer : SockaddrIn) (sys : System) (_ : RudpEvent) : System :=
  { sys with recv := sys.recv.eventhandler peer }

/-- The handlers that the socket of `b` calls on the way to `net`. -/
def handle (b : SockaddrIn) (created : Bool) (peer : SockaddrIn) (sys : System) (net : Net SockaddrIn) : System :=
  let handed := (net.handed b peer).drop (sys.net.handed b peer).length
  let events := (net.events b peer).drop (sys.net.events b peer).length
  events.foldl (report peer) (handed.foldl (receive created peer) { sys with net })

/-- A run ends where `vs_recv` calls `rudp_close`; the event has what `creat` gives, if it is called. -/
def step (b : SockaddrIn) (sys : System) (event : Action SockaddrIn × Bool) : Option System :=
  if sys.recv.closing ∨ event.1.CalledBy b then none
  else
    (sys.net.step event.1).map fun net =>
      match event.1.about b with
      | none => { sys with net }
      | some peer => sys.handle b event.2 peer net

end System

variable {a b c : SockaddrIn} {filename name : List UInt8} {reads : List (List UInt8)} {peers : List SockaddrIn}

/-- What `Action.asks` keeps of a call. -/
def asked (b : SockaddrIn) (call : SockaddrIn × List UInt8) : Option (List UInt8) :=
  if call.1 = b ∧ call.2.length ≤ MAXPKTSIZE then some call.2 else none

theorem asks_passes (a b : SockaddrIn) (run : List (Action SockaddrIn)) :
    run.flatMap (Action.asks a b) = (run.flatMap (Action.passes a)).filterMap (asked b) := by
  rw [List.filterMap_flatMap]
  congr 1
  funext act
  cases act with
  | sendto caller peer data rand held =>
    rw [Action.asks, Action.passes]
    by_cases mine : caller = a
    · rw [if_pos mine]
      by_cases kept : peer = b ∧ data.length ≤ MAXPKTSIZE
      · have is : asked b (peer, data) = some data := if_pos kept
        rw [if_pos ⟨mine, kept⟩, List.filterMap_cons_some is, List.filterMap_nil]
      · have is : asked b (peer, data) = none := if_neg kept
        rw [if_neg fun all => kept all.2, List.filterMap_cons_none is, List.filterMap_nil]
    · rw [if_neg mine, if_neg fun all => mine all.1, List.filterMap_nil]
  | close caller => rfl
  | deliver src dst p => rfl
  | timeout at_ peer timer => rfl

theorem toPeers_asked (once : peers.Nodup) (listed : b ∈ peers) {vs : List UInt8} (fits : vs.length ≤ MAXPKTSIZE) :
    (toPeers peers vs).filterMap (asked b) = [vs] := by
  induction peers with
  | nil => cases listed
  | cons p rest ih =>
    obtain ⟨first, rest_once⟩ := List.nodup_cons.mp once
    rw [toPeers, List.map_cons]
    by_cases here : p = b
    · have others : (toPeers rest vs).filterMap (asked b) = [] := by
        refine List.filterMap_eq_nil_iff.mpr fun call member => ?_
        obtain ⟨q, known, rfl⟩ := List.mem_map.mp member
        refine if_neg fun both => first ?_
        rw [here, ← both.1]
        exact known
      have kept : asked b (p, vs) = some vs := if_pos ⟨here, fits⟩
      rw [List.filterMap_cons_some kept]
      exact congrArg _ others
    · have left_out : asked b (p, vs) = none := if_neg fun both => here both.1
      rw [List.filterMap_cons_none left_out]
      exact ih rest_once ((List.mem_cons.mp listed).resolve_left fun same => here same.symm)

theorem vsftp_fits {type : Nat} {info : List UInt8} (short : info.length ≤ 128) :
    (vsftp type info).length ≤ MAXPKTSIZE := by
  rw [vsftp, List.length_append, htonl, MAXPKTSIZE]
  simp
  omega

/-- For each of its peers `vs_send` passes the messages of the file. -/
theorem vsSend_asked (once : peers.Nodup) (listed : b ∈ peers)
    (read : ∀ bytes ∈ reads, bytes ≠ [] ∧ bytes.length ≤ VS_MAXDATA) :
    (vsSend peers filename reads).filterMap (asked b) =
      messages ((filename1 filename).take VS_FILENAMELENGTH) reads := by
  have data : (reads.flatMap (filesender peers)).filterMap (asked b) = reads.map (vsftp VS_TYPE_DATA) := by
    rw [List.filterMap_flatMap, ← List.flatMap_singleton' (reads.map _), List.flatMap_map]
    refine List.flatMap_congr fun bytes member => ?_
    rw [filesender, if_neg (read bytes member).1]
    exact toPeers_asked once listed (vsftp_fits (read bytes member).2)
  have short : ((filename1 filename).take VS_FILENAMELENGTH).length ≤ 128 := List.length_take_le _ _
  rw [vsSend, List.filterMap_append, List.filterMap_append, data, sendFile, filesender, if_pos rfl,
    toPeers_asked once listed (vsftp_fits short),
    toPeers_asked once listed (vsftp_fits (Nat.zero_le _))]
  rfl

/-- A socket that only receives, and has never reported anything. -/
structure Quiet (h : Host SockaddrIn) : Prop where
  idle : h.Idle
  events : ∀ n ∈ h.sockets, n.events = []

section
variable {n : Socketnode SockaddrIn} {p : Packet} {h : Host SockaddrIn} {src d : SockaddrIn}

theorem receive_hands (idle : n.Idle) :
    ∃ new, (n.receive p).handed = n.handed ++ new ∧ new.length ≤ 1 ∧ (n.receive p).events = n.events := by
  have nothing : n.handed = n.handed ++ [] := (List.append_nil _).symm
  rcases idle.state with state | state
  · rw [Socketnode.receive_listen state, Socketnode.receiveListen]
    split
    · exact ⟨[], nothing, Nat.zero_le _, rfl⟩
    · exact ⟨[], nothing, Nat.zero_le _, rfl⟩
    · exact ⟨[], nothing, Nat.zero_le _, rfl⟩
  · rw [Socketnode.receive_establish state, Socketnode.receiveEstablish]
    split
    · rw [Socketnode.receiveData]
      by_cases early : p.seqno.toInt ≤ n.seq
      · rw [if_pos early]
        by_cases next : p.seqno.toInt = n.seq
        · exact ⟨[p.data], by simp [next, Socketnode.sendto], Nat.le_refl _, by simp [next, Socketnode.sendto]⟩
        · exact ⟨[], by simp [next, Socketnode.sendto], Nat.zero_le _, by simp [next, Socketnode.sendto]⟩
      · rw [if_neg early]
        exact ⟨[], nothing, Nat.zero_le _, rfl⟩
    · rw [Socketnode.receiveAck_idle idle]
      exact ⟨[], nothing, Nat.zero_le _, rfl⟩
    · exact ⟨[], nothing, Nat.zero_le _, rfl⟩
    · exact ⟨[], nothing, Nat.zero_le _, rfl⟩

/-- `recvhandler` goes on with the node of the peer, or with a new one. -/
theorem found_there (h : Host SockaddrIn) (src : SockaddrIn) :
    (∃ n, (h.found src).getS src = some n ∧ h.getS src = some n) ∨
      (h.found src).getS src = some (.new src) ∧ (∀ n ∈ h.getS src, ¬0 ≤ n.seq) := by
  cases known : h.getS src with
  | none => exact .inr ⟨Host.found_none known, fun n member => by cases member⟩
  | some n =>
    by_cases fresh : h.getSeq src = -1
    · refine .inr ⟨?_, fun m member => ?_⟩
      · rw [Host.found, if_pos fresh, Host.getS_addsock, if_pos rfl]
      · obtain rfl := Option.some.inj member
        rw [Host.getSeq, known] at fresh
        dsimp only at fresh
        omega
    · refine .inl ⟨n, ?_, rfl⟩
      rw [Host.found, if_neg fresh, known]

theorem found_quiet (quiet : Quiet h) : Quiet (h.found src) := by
  refine ⟨Host.idle_found quiet.idle, ?_⟩
  rw [Host.found]
  split
  · intro n member
    rcases List.mem_cons.mp member with rfl | before
    · rfl
    · exact quiet.events n before
  · exact quiet.events

theorem recvhandler_quiet (quiet : Quiet h) : Quiet (h.recvhandler src p) := by
  by_cases current : p.version = VERSION
  · obtain ⟨n, there⟩ : ∃ n, (h.found src).getS src = some n := by
      rcases found_there h src with ⟨n, there, -⟩ | ⟨there, -⟩
      · exact ⟨n, there⟩
      · exact ⟨_, there⟩
    refine ⟨Host.recvhandler_idle quiet.idle, fun m member => ?_⟩
    rw [Host.recvhandler_idle_is quiet.idle current there] at member
    rcases Host.mem_change member with before | ⟨k, before, -, rfl⟩
    · exact (found_quiet quiet).events m before
    · have idle := (found_quiet quiet).idle.nodes k before
      obtain ⟨-, -, -, events⟩ := @receive_hands k p idle
      rw [events]
      exact (found_quiet quiet).events k before
  · rw [Host.recvhandler, if_pos current]
    exact quiet

theorem events_nil (quiet : Quiet h) (peer : SockaddrIn) : (h.getS peer).elim [] (·.events) = [] := by
  cases known : h.getS peer with
  | none => rfl
  | some n => exact quiet.events n (Host.getS_mem known)

/-- One payload at most is handed on. Nothing is forgotten, unless the number of the node has become negative. -/
theorem recvhandler_hands (quiet : Quiet h) {before after : List (List UInt8)}
    (was : (h.getS src).elim [] (·.handed) = before)
    (is : ((h.recvhandler src p).getS src).elim [] (·.handed) = after) :
    (after.drop before.length).length ≤ 1 ∧
      ((∀ n ∈ h.getS src, 0 ≤ n.seq) → after = before ++ after.drop before.length) := by
  by_cases current : p.version = VERSION
  · have own : ∀ n, (h.found src).getS src = some n → ∃ new, after = n.handed ++ new ∧ new.length ≤ 1 := by
      intro n there
      have idle := (found_quiet quiet).idle.nodes n (Host.getS_mem there)
      obtain ⟨new, hands, few, -⟩ := @receive_hands n p idle
      rw [Host.recvhandler_idle_is quiet.idle current there, Host.getS_set_same _ _ (Socketnode.receive_peer p), there]
        at is
      exact ⟨new, is.symm.trans hands, few⟩
    rcases found_there h src with ⟨n, there, known⟩ | ⟨there, lost⟩
    · obtain ⟨new, rfl, few⟩ := own n there
      rw [known] at was
      have old : n.handed = before := was
      rw [old, List.drop_left]
      exact ⟨few, fun _ => rfl⟩
    · obtain ⟨new, all, few⟩ := own _ there
      obtain rfl : after = new := all
      refine ⟨by rw [List.length_drop]; omega, fun nonneg => ?_⟩
      have absent : h.getS src = none := by
        cases known : h.getS src with
        | none => rfl
        | some n => exact absurd (nonneg n known) (lost n known)
      rw [absent] at was
      rw [← was]
      rfl
  · rw [Host.recvhandler, if_pos current, was] at is
    rw [is, List.drop_length]
    exact ⟨Nat.zero_le _, fun _ => (List.append_nil _).symm⟩

end

theorem net_step {net net' : Net SockaddrIn} {act : Action SockaddrIn} (step : net.step act = some net')
    (passive : ¬act.CalledBy b) (quiet : Quiet (net b)) :
    act.about b = none ∧ net' b = net b ∨
      ∃ peer p, act.about b = some peer ∧ act = .deliver peer b p ∧ net' b = (net b).recvhandler peer p := by
  cases act with
  | sendto caller peer data rand held =>
    rw [Net.step] at step
    split at step
    · obtain rfl := Option.some.inj step
      exact .inl ⟨rfl, Function.update_of_ne (fun mine => passive mine.symm) _ _⟩
    · cases step
  | close caller =>
    rw [Net.step] at step
    split at step
    · obtain rfl := Option.some.inj step
      exact .inl ⟨rfl, Function.update_of_ne (fun mine => passive mine.symm) _ _⟩
    · cases step
  | deliver src dst p =>
    rw [Net.step] at step
    split at step
    · obtain rfl := Option.some.inj step
      by_cases here : dst = b
      · subst here
        exact .inr ⟨src, p, if_pos rfl, rfl, Function.update_self ..⟩
      · exact .inl ⟨if_neg here, Function.update_of_ne (fun mine => here mine.symm) _ _⟩
    · cases step
  | timeout at_ peer timer =>
    rw [Net.step] at step
    split at step
    · next was_set =>
      obtain rfl := Option.some.inj step
      by_cases here : at_ = b
      · subst here
        obtain ⟨n, there, member⟩ := was_set
        rw [(quiet.idle.nodes n (Host.getS_mem there)).timers] at member
        cases member
      · exact .inl ⟨if_neg here, Function.update_of_ne (fun mine => here mine.symm) _ _⟩
    · cases step

/-- The nodes that `recvhandler` finds again, whatever comes. -/
def Counted (net : Net SockaddrIn) (host peer : SockaddrIn) : Prop := ∀ n ∈ net.node host peer, 0 ≤ n.seq

/-- What one step of the network means for `vs_recv`. -/
inductive Hears (b : SockaddrIn) (created : Bool) (act : Action SockaddrIn) (sys sys' : System) : Prop where
  | nothing (recv : sys'.recv = sys.recv) (heard : sys'.heard = sys.heard)
      (handed : ∀ d, Counted sys.net b d → sys'.net.handed b d = sys.net.handed b d)
  | message (peer : SockaddrIn) (buf : List UInt8) (from_ : act.about b = some peer)
      (recv : sys'.recv = sys.recv.rudpReceiver created peer buf) (heard : sys'.heard = sys.heard ++ [(peer, buf)])
      (handed : ∀ d, Counted sys.net b d →
        sys'.net.handed b d = if d = peer then sys.net.handed b d ++ [buf] else sys.net.handed b d)

theorem handed_of_same {net net' : Net SockaddrIn} (same : net' b = net b) (d : SockaddrIn) :
    net'.handed b d = net.handed b d := by
  rw [Net.handed, Net.handed, Net.node, Net.node, same]

theorem system_step {sys sys' : System} {act : Action SockaddrIn} {created : Bool}
    (step : sys.step b (act, created) = some sys') (quiet : Quiet (sys.net b)) :
    sys.recv.closing = false ∧ ¬act.CalledBy b ∧ sys.net.step act = some sys'.net ∧ Quiet (sys'.net b) ∧
      Hears b created act sys sys' := by
  rw [System.step] at step
  split at step
  · cases step
  · next follows =>
    obtain ⟨going, passive⟩ := not_or.mp follows
    obtain ⟨net, stepped, is⟩ := Option.map_eq_some_iff.mp step
    refine ⟨eq_false_of_ne_true going, passive, ?_⟩
    rcases net_step stepped passive quiet with ⟨about, same⟩ | ⟨peer, p, about, rfl, same⟩
    · rw [about] at is
      dsimp only at is
      obtain rfl := is
      have quiet' : Quiet (net b) := by
        rw [same]
        exact quiet
      exact ⟨stepped, quiet', .nothing rfl rfl fun d _ => handed_of_same same d⟩
    · have quiet' : Quiet (net b) := by
        rw [same]
        exact recvhandler_quiet quiet
      have silent : net.events b peer = [] := events_nil quiet' peer
      have handled : sys.handle b created peer net =
          ((net.handed b peer).drop (sys.net.handed b peer).length).foldl (System.receive created peer)
            { sys with net } := by
        rw [System.handle, silent, List.drop_nil]
        rfl
      have after : (((sys.net b).recvhandler peer p).getS peer).elim [] (·.handed) = net.handed b peer := by
        rw [← same]
        rfl
      obtain ⟨few, all⟩ := recvhandler_hands quiet rfl after
      have others : ∀ d, d ≠ peer → net.handed b d = sys.net.handed b d := by
        intro d other
        rw [Net.handed, Net.handed, Net.node, Net.node, same, Host.recvhandler_idle_other quiet.idle other]
      rw [about] at is
      dsimp only at is
      rw [handled] at is
      rcases new : (net.handed b peer).drop (sys.net.handed b peer).length with _ | ⟨buf, _ | ⟨more, rest⟩⟩
      · rw [new] at is
        obtain rfl := is
        refine ⟨stepped, quiet', .nothing rfl rfl fun d counted => ?_⟩
        by_cases here : d = peer
        · subst here
          have whole := all counted
          change net.handed b d = sys.net.handed b d ++ (net.handed b d).drop (sys.net.handed b d).length at whole
          rwa [new, List.append_nil] at whole
        · exact others d here
      · rw [new] at is
        obtain rfl := is
        refine ⟨stepped, quiet', .message peer buf about rfl rfl fun d counted => ?_⟩
        by_cases here : d = peer
        · subst here
          have whole := all counted
          change net.handed b d = sys.net.handed b d ++ (net.handed b d).drop (sys.net.handed b d).length at whole
          rw [if_pos rfl]
          rwa [new] at whole
        · rw [if_neg here]
          exact others d here
      · change ((net.handed b peer).drop (sys.net.handed b peer).length).length ≤ 1 at few
        rw [new] at few
        exact absurd few (by simp)

/-- The program of `a` is `vs_send` with one file for `peers`; `reads` is what `read` gives of it up to its end. -/
structure Transfer (a b : SockaddrIn) (peers : List SockaddrIn) (filename : List UInt8) (reads : List (List UInt8))
    (run : List (Action SockaddrIn)) : Prop where
  program : run.flatMap (Action.passes a) <+: vsSend peers filename reads
  once : peers.Nodup
  listed : b ∈ peers
  read : ∀ bytes ∈ reads, bytes ≠ [] ∧ bytes.length ≤ VS_MAXDATA
  few : reads.length ≤ 2147417998
  fresh : ¬Reopens a b run

/-- The name that `vs_send` passes on. -/
def sentName (filename : List UInt8) : List UInt8 := (filename1 filename).take VS_FILENAMELENGTH

theorem transfer_asks {run : List (Action SockaddrIn)} (transfer : Transfer a b peers filename reads run) :
    run.flatMap (Action.asks a b) <+: messages (sentName filename) reads := by
  rw [asks_passes, sentName, ← vsSend_asked transfer.once transfer.listed transfer.read]
  exact transfer.program.filterMap (asked b)

theorem transfer_few {run : List (Action SockaddrIn)} (transfer : Transfer a b peers filename reads run) :
    (run.flatMap (Action.asks a b)).length ≤ 2147418000 := by
  have length : (messages (sentName filename) reads).length = reads.length + 2 := by simp [messages]
  have few := transfer.few
  have asks := (transfer_asks transfer).length_le
  omega

theorem transfer_snoc {run : List (Action SockaddrIn)} {act : Action SockaddrIn}
    (transfer : Transfer a b peers filename reads (run ++ [act])) : Transfer a b peers filename reads run := by
  refine { transfer with program := ?_, fresh := (once_snoc transfer.fresh).1 }
  have program := transfer.program
  rw [List.flatMap_append] at program
  exact (List.prefix_append _ _).trans program

variable {files : List UInt8 → Option (List UInt8)} {run : List (Action SockaddrIn × Bool)} {sys : System}

/-- Without `vs_recv`, a run of the system is one of the network in which the program of `b` does nothing. -/
theorem run_net (ran : exec (System.step b) (System.start files) run = some sys) :
    exec Net.step (Net.start SockaddrIn) (run.map Prod.fst) = some sys.net ∧
      (∀ act ∈ run.map Prod.fst, ¬act.CalledBy b) ∧ Quiet (sys.net b) := by
  induction run using List.reverseRecOn generalizing sys with
  | nil =>
    obtain rfl := Option.some.inj ran
    exact ⟨rfl, fun _ member => (by cases member), Host.idle_rudpSocket, fun _ member => (by cases member)⟩
  | append_singleton run event ih =>
    obtain ⟨mid, before, step⟩ := exec_snoc ran
    obtain ⟨net_ran, passive, quiet⟩ := ih before
    obtain ⟨-, not_called, stepped, quiet', -⟩ := system_step step quiet
    rw [List.map_append]
    refine ⟨?_, fun act member => ?_, quiet'⟩
    · rw [exec_append, net_ran]
      change (mid.net.step event.1).bind some = some sys.net
      rw [stepped]
      rfl
    · rcases List.mem_append.mp member with early | last
      · exact passive act early
      · obtain rfl := List.mem_singleton.mp last
        exact not_called

/-- No other message that `vs_recv` got came from the port of `a`, or named its file. -/
def Elsewhere (a : SockaddrIn) (name : List UInt8) (sys : System) : Prop :=
  ∀ c x, (c, x) ∈ sys.heard → c ≠ a → c.sinPort ≠ a.sinPort ∧ VsRecv.begun x ≠ some name

theorem linked_counted {asked : List Data} {fin : Prop} {net : Net SockaddrIn}
    (linked : Linked a asked fin (net.node a b) (net.node b a)) : Counted net b a := by
  intro m there
  cases linked with
  | idle unopened unheard not_yet unasked =>
    rw [unheard] at there
    cases there
  | running opened running =>
    have nonneg := running.receiver.seq_nonneg running.positive
    rw [Option.mem_def.mp there] at nonneg
    exact nonneg

theorem followed (run : List (Action SockaddrIn × Bool)) (more : List (Action SockaddrIn)) :
    (run ++ more.map fun act => (act, true)).map Prod.fst = run.map Prod.fst ++ more := by
  rw [List.map_append, List.map_map]
  exact congrArg _ (List.map_id more)

theorem run_order (differ : a ≠ b) (ran : exec (System.step b) (System.start files) run = some sys)
    (transfer : Transfer a b peers filename reads (run.map Prod.fst)) :
    Counted sys.net b a ∧ sys.net.handed b a <+: messages (sentName filename) reads := by
  obtain ⟨net_ran, passive, -⟩ := run_net ran
  obtain ⟨linked, -⟩ := run_linked differ net_ran passive transfer.fresh (transfer_few transfer)
  have in_order := linked_in_order linked
  exact ⟨linked_counted linked, (in_order.1.trans in_order.2.1).trans (transfer_asks transfer)⟩

/-- At every point of a run `vs_recv` has stored what RUDP has handed to it. -/
theorem run_received (differ : a ≠ b) (ran : exec (System.step b) (System.start files) run = some sys)
    (transfer : Transfer a b peers filename reads (run.map Prod.fst))
    (elsewhere : Elsewhere a (sentName filename) sys) (going : sys.recv.closing = false) :
    Received a (sentName filename) reads sys.recv (sys.net.handed b a) ∧ sys.recv.Apart a (sentName filename) := by
  induction run using List.reverseRecOn generalizing sys with
  | nil =>
    obtain rfl := Option.some.inj ran
    exact ⟨.unheard, fun _ member => by cases member⟩
  | append_singleton run event ih =>
    obtain ⟨-, in_order⟩ := run_order differ ran transfer
    obtain ⟨mid, before, step⟩ := exec_snoc ran
    obtain ⟨-, -, quiet⟩ := run_net before
    rw [List.map_append] at transfer
    have transfer' := transfer_snoc transfer
    obtain ⟨counted, -⟩ := run_order differ before transfer'
    obtain ⟨going', -, -, -, hears⟩ := system_step step quiet
    cases hears with
    | nothing recv heard handed =>
      have elsewhere' : Elsewhere a (sentName filename) mid := by
        rw [Elsewhere, ← heard]
        exact elsewhere
      rw [recv, handed a counted]
      exact ih before transfer' elsewhere' going'
    | message peer buf from_ recv heard handed =>
      have elsewhere' : Elsewhere a (sentName filename) mid := by
        intro c x member
        refine elsewhere c x ?_
        rw [heard]
        exact List.mem_append_left _ member
      obtain ⟨received, apart⟩ := ih before transfer' elsewhere' going'
      rw [recv] at going
      rw [handed a counted] at in_order
      rw [recv, handed a counted]
      by_cases here : a = peer
      · subst here
        rw [if_pos rfl] at in_order ⊢
        exact ⟨received_next received in_order (List.length_take_le _ _) going,
          VsRecv.rudpReceiver_apart apart fun other => absurd rfl other⟩
      · have now : (peer, buf) ∈ sys.heard := by
          rw [heard]
          exact List.mem_append_right _ (List.mem_singleton.mpr rfl)
        obtain ⟨other, names⟩ := elsewhere peer buf now fun same => here same.symm
        obtain ⟨record, stored⟩ := VsRecv.rudpReceiver_other apart other names
        rw [if_neg here]
        exact ⟨received_same received record stored, VsRecv.rudpReceiver_apart apart fun _ => names⟩

def senderAddr : SockaddrIn := ⟨5000, 1⟩
def recvAddr : SockaddrIn := ⟨6000, 2⟩

/-- `vs_send` with a file of one `read`. -/
def helloRun : List (Action SockaddrIn) :=
  (vsSend [recvAddr] [100, 47, 120] [[104, 105]]).map (fun call => .sendto senderAddr call.1 call.2 7 0) ++
    [.deliver senderAddr recvAddr (packet .syn 7 []), .deliver recvAddr senderAddr (packet .ack 8 []),
      .deliver senderAddr recvAddr (packet .data 8 (vsftp VS_TYPE_BEGIN [120])),
      .deliver senderAddr recvAddr (packet .data 9 (vsftp VS_TYPE_DATA [104, 105])),
      .deliver senderAddr recvAddr (packet .data 10 (vsftp VS_TYPE_END [])),
      .deliver recvAddr senderAddr (packet .ack 11 [])]

def helloEvents : List (Action SockaddrIn × Bool) := helloRun.map fun act => (act, true)

def helloEnd : System :=
  (exec (System.step recvAddr) (System.start fun _ => none) helloEvents).getD (System.start fun _ => none)

theorem helloEvents_ran : exec (System.step recvAddr) (System.start fun _ => none) helloEvents = some helloEnd := by
  have ends : (exec (System.step recvAddr) (System.start fun _ => none) helloEvents).isSome := by decide
  rw [helloEnd]
  exact (Option.some_get ends).symm.trans (congrArg some (Option.get_eq_getD ..))

theorem helloRun_transfer : Transfer senderAddr recvAddr [recvAddr] [100, 47, 120] [[104, 105]]
    (helloEvents.map Prod.fst) where
  program := by
    have all : (helloEvents.map Prod.fst).flatMap (Action.passes senderAddr) =
        vsSend [recvAddr] [100, 47, 120] [[104, 105]] := by decide
    exact all ▸ List.prefix_rfl
  once := by decide
  listed := by decide
  read := by decide
  few := by decide
  fresh := by decide

theorem helloEnd_elsewhere : Elsewhere senderAddr (sentName [100, 47, 120]) helloEnd := by
  have only : ∀ call ∈ helloEnd.heard, call.1 = senderAddr := by decide
  exact fun c x member other => absurd (only (c, x) member) other

theorem between_passive (differ : a ≠ b) {act : Action SockaddrIn} (between : act.Between a b) :
    act.passes a = [] ∧ ¬act.CalledBy b ∧ act.brings a b ≠ some .fin ∧ (act.about b = none ∨ act.about b = some a) := by
  obtain ⟨p, ⟨rfl, going⟩ | rfl⟩ := between
  · refine ⟨rfl, id, ?_, .inr (if_pos rfl)⟩
    rw [Action.brings, if_pos ⟨rfl, rfl⟩]
    exact fun is => going (Option.some.inj is)
  · refine ⟨rfl, id, ?_, .inl (if_neg differ)⟩
    rw [Action.brings, if_neg fun both => differ both.2]
    exact fun is => by cases is

/-- Deliveries between the two sockets do not change what the programs have asked for, and open nothing again. -/
theorem transfer_between (differ : a ≠ b) {run more : List (Action SockaddrIn)}
    (transfer : Transfer a b peers filename reads run) (no_fin : .fin ∉ run.filterMap (Action.brings a b))
    (between : ∀ act ∈ more, act.Between a b) : Transfer a b peers filename reads (run ++ more) := by
  have nothing : more.flatMap (Action.passes a) = [] :=
    List.flatMap_eq_nil_iff.mpr fun act member => (between_passive differ (between act member)).1
  refine { transfer with program := ?_, fresh := fun again => ?_ }
  · rw [List.flatMap_append, nothing, List.append_nil]
    exact transfer.program
  · have fin : PacketType.fin ∈ (run ++ more).filterMap (Action.brings a b) := again.subset List.mem_cons_self
    obtain ⟨act, member, brings⟩ := List.mem_filterMap.mp fin
    rcases List.mem_append.mp member with early | late
    · exact no_fin (List.mem_filterMap.mpr ⟨act, early, brings⟩)
    · exact (between_passive differ (between act late)).2.2.1 brings

/-- `vs_recv` goes along with the network. -/
theorem system_follows (differ : a ≠ b) (ran : exec (System.step b) (System.start files) run = some sys)
    (named_well : (sentName filename).all legal) (going : sys.recv.closing = false)
    {more : List (Action SockaddrIn)} (between : ∀ act ∈ more, act.Between a b)
    (transfer : Transfer a b peers filename reads (run.map Prod.fst ++ more)) {last : Net SockaddrIn}
    (reached : exec Net.step sys.net more = some last) :
    ∃ sys', exec (System.step b) (System.start files) (run ++ more.map fun act => (act, true)) = some sys' ∧
      sys'.net = last ∧ sys'.recv.closing = false ∧ ∀ c x, (c, x) ∈ sys'.heard → c ≠ a → (c, x) ∈ sys.heard := by
  induction more using List.reverseRecOn generalizing last with
  | nil =>
    obtain rfl := Option.some.inj reached
    exact ⟨sys, by rwa [List.map_nil, List.append_nil], rfl, going, fun _ _ member _ => member⟩
  | append_singleton more act ih =>
    obtain ⟨mid, before, stepped⟩ := exec_snoc reached
    have early : ∀ act ∈ more, act.Between a b := fun act member => between act (List.mem_append_left _ member)
    have now := between act (List.mem_append_right _ (List.mem_singleton.mpr rfl))
    obtain ⟨-, not_called, -, about⟩ := between_passive differ now
    rw [← List.append_assoc] at transfer
    obtain ⟨sys', ran', rfl, going', heard'⟩ := ih early (transfer_snoc transfer) before
    obtain ⟨sys'', step⟩ : ∃ sys'', sys'.step b (act, true) = some sys'' := by
      rw [System.step, if_neg (not_or.mpr ⟨by rw [going']; exact Bool.false_ne_true, not_called⟩), stepped]
      exact ⟨_, rfl⟩
    have ran'' : exec (System.step b) (System.start files) (run ++ (more ++ [act]).map fun act => (act, true)) =
        some sys'' := by
      rw [List.map_append, ← List.append_assoc, exec_append, ran']
      change (sys'.step b (act, true)).bind some = some sys''
      rw [step]
      rfl
    obtain ⟨net_ran, -, quiet⟩ := run_net ran'
    obtain ⟨-, -, same, -, hears⟩ := system_step step quiet
    obtain rfl : last = sys''.net := Option.some.inj (stepped.symm.trans same)
    refine ⟨sys'', ran'', rfl, ?_⟩
    cases hears with
    | nothing recv heard handed =>
      rw [recv, heard]
      exact ⟨going', heard'⟩
    | message peer buf from_ recv heard handed =>
      obtain rfl : a = peer := by
        rcases about with none_ | some_
        · rw [none_] at from_
          cases from_
        · exact Option.some.inj (some_.symm.trans from_)
      have before' := transfer_snoc transfer
      rw [← followed] at before'
      obtain ⟨counted, -⟩ := run_order differ ran' before'
      rw [List.append_assoc, ← followed] at transfer
      obtain ⟨-, in_order⟩ := run_order differ ran'' transfer
      rw [handed a counted, if_pos rfl] at in_order
      have member := in_order.subset (List.mem_append_right _ (List.mem_singleton.mpr rfl))
      refine ⟨?_, fun c x member other => heard' c x ?_ other⟩
      · rw [recv, receiver_going member named_well (List.length_take_le _ _)]
        exact going'
      · rw [heard] at member
        refine (List.mem_append.mp member).resolve_right fun last => other ?_
        exact congrArg Prod.fst (List.mem_singleton.mp last)

/-- As long as the connection has not been given up or closed, deliveries alone bring all of the file. -/
theorem file_arrives (differ : a ≠ b) (ran : exec (System.step b) (System.start files) run = some sys)
    (transfer : Transfer a b peers filename reads (run.map Prod.fst))
    (elsewhere : Elsewhere a (sentName filename) sys) (named_well : (sentName filename).all legal)
    (going : sys.recv.closing = false) {n : Socketnode SockaddrIn} (node : sys.net.node a b = some n)
    (open_ : ¬n.Closing) (all : n.accepted = messages (sentName filename) reads) :
    ∃ more sys', (∀ event ∈ more, event.1.Between a b) ∧ exec (System.step b) sys more = some sys' ∧
      sys'.recv.files (sentName filename) = some reads.flatten := by
  obtain ⟨net_ran, passive, quiet⟩ := run_net ran
  obtain ⟨linked, -⟩ := run_linked differ net_ran passive transfer.fresh (transfer_few transfer)
  have few := transfer_few transfer
  obtain ⟨last, ⟨more, between, reached⟩, done⟩ :=
    linked_done differ linked quiet.idle (run_shut net_ran a) few node open_
  have accepted : sys.net.accepted a b = messages (sentName filename) reads := by
    rw [Net.accepted, node]
    exact all
  have no_fin : .fin ∉ (run.map Prod.fst).filterMap (Action.brings a b) := by
    obtain ⟨isn, s, running⟩ := linked_opened linked node
    exact fun fin => open_ (running.last fin)
  have longer := transfer_between differ transfer no_fin between
  obtain ⟨sys', ran', rfl, going', heard⟩ := system_follows differ ran named_well going between longer reached
  have handed : sys'.net.handed b a = messages (sentName filename) reads := done.handed.trans accepted
  have elsewhere' : Elsewhere a (sentName filename) sys' :=
    fun c x member other => elsewhere c x (heard c x member other) other
  rw [← followed] at longer
  refine ⟨more.map fun act => (act, true), sys', fun event member => ?_, ?_, ?_⟩
  · obtain ⟨act, known, rfl⟩ := List.mem_map.mp member
    exact between act known
  · rwa [exec_append, ran] at ran'
  · rcases received_content (run_received differ ran' longer elsewhere' going').1 with nothing | ⟨content, is, -, whole⟩
    · rw [nothing] at handed
      cases handed
    · rw [is, whole handed]

theorem file_arrives_hello :
    ∃ more sys', (∀ event ∈ more, event.1.Between senderAddr recvAddr) ∧
      exec (System.step recvAddr) helloEnd more = some sys' ∧ sys'.recv.files [120] = some [104, 105] :=
  file_arrives (by decide) helloEvents_ran helloRun_transfer helloEnd_elsewhere (by decide) (by decide)
    (Option.some_get (by decide : (helloEnd.net.node senderAddr recvAddr).isSome)).symm (by decide) (by decide)

end LiveStreaming.Rudp
