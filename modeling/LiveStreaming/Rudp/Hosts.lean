import LiveStreaming.Rudp.Rudp

/-!
# One socket and its connections

What a function of the socket does to the node of one peer. A packet from a peer, a payload for it and a timer of it
leave the other nodes as they are, unless the socket is closed in the end.
-/

namespace LiveStreaming.Rudp

variable {A : Type*}

namespace Socketnode

theorem sendData_peer (n : Socketnode A) (position : Int) : (n.sendData position).peer = n.peer := by
  rw [sendData]
  split <;> rfl

theorem setSeqData_peer (n : Socketnode A) (position seq : Int) : (n.setSeqData position seq).peer = n.peer := by
  rw [setSeqData]
  split <;> rfl

theorem sendNew_peer (n : Socketnode A) (cur_w : Nat) : (n.sendNew cur_w).peer = n.peer := by
  rw [sendNew]
  split
  · exact (sendData_peer _ _).trans (setSeqData_peer n _ _)
  · rfl

theorem sendWindow_peer (n : Socketnode A) (first : Nat) : (n.sendWindow first).peer = n.peer := by
  rw [sendWindow]
  generalize List.range' first (WINDOW - first) = turns
  induction turns generalizing n with
  | nil => rfl
  | cons cur_w turns ih => exact (ih _).trans (sendNew_peer n cur_w)

theorem ackHead_peer (n : Socketnode A) : n.ackHead.peer = n.peer := by
  rw [ackHead]
  split
  · exact setSeqData_peer n _ _
  · rfl

theorem ackTurn_peer (n : Socketnode A) : n.ackTurn.peer = n.peer := by
  rw [ackTurn]
  split
  · exact (sendData_peer _ _).trans (ackHead_peer n)
  · exact ackHead_peer n

theorem ackLoop_peer (seq : Int) (fuel : Nat) (n : Socketnode A) : (ackLoop seq fuel n).peer = n.peer := by
  induction fuel generalizing n with
  | zero => rfl
  | succ fuel ih =>
    rw [ackLoop]
    split
    · exact (ih _).trans (ackTurn_peer n)
    · rfl

theorem receiveData_peer (n : Socketnode A) (p : Packet) : (n.receiveData p).peer = n.peer := by
  rw [receiveData]
  split
  · dsimp only
    split <;> rfl
  · rfl

theorem receiveAck_peer (n : Socketnode A) (p : Packet) : (n.receiveAck p).peer = n.peer := by
  rw [receiveAck]
  split
  · dsimp only
    split
    · exact ackLoop_peer _ _ n
    · exact ackLoop_peer _ _ n
  · rfl

theorem receive_peer (p : Packet) (n : Socketnode A) : (n.receive p).peer = n.peer := by
  cases state : n.state with
  | listen =>
    rw [receive_listen state, receiveListen]
    split <;> rfl
  | synSent =>
    rw [receive_synSent state, receiveSynSent]
    split
    · exact sendWindow_peer _ 0
    · split <;> rfl
  | establish =>
    rw [receive_establish state, receiveEstablish]
    split
    · exact receiveData_peer n p
    · exact receiveAck_peer n p
    · rfl
    · rfl
  | closeWait =>
    rw [receive_closeWait state, receiveCloseWait]
    split <;> rfl
  | closed =>
    rw [receive_closed state, receiveClosed]
    split <;> rfl

theorem send_peer (data : List UInt8) (rand : Nat) (held : Int) (n : Socketnode A) :
    (n.send data rand held).peer = n.peer := by
  rw [send]
  split
  · split
    · exact sendWindow_peer _ _
    · rfl
  · split
    · exact sendWindow_peer _ _
    · rfl

/-- The function of a timer looks after packets; it changes neither the peer, the state nor the number. -/
theorem fire_same (timer : Timer) (n : Socketnode A) :
    (n.fire timer).1.peer = n.peer ∧ (n.fire timer).1.state = n.state ∧ (n.fire timer).1.seq = n.seq := by
  cases timer with
  | retransmitsyn =>
    rw [fire, retransmitsyn, resendSyn]
    split <;> exact ⟨rfl, rfl, rfl⟩
  | retransmitdata number =>
    rw [fire]
    cases found : n.buffData.find? fun d => d.number = number with
    | none =>
      rw [retransmitdata_none found]
      exact ⟨rfl, rfl, rfl⟩
    | some d =>
      rw [retransmitdata_some found, resendData]
      split <;> exact ⟨rfl, rfl, rfl⟩
  | retransmitfin =>
    rw [fire, retransmitfin, resendFin]
    split <;> exact ⟨rfl, rfl, rfl⟩

/-- What closing the socket may do to a node. -/
inductive ClosesTo (n : Socketnode A) : Socketnode A → Prop where
  | stays : ClosesTo n n
  | closes (going : n.state ≠ .closed) (none_left : n.buffData = []) : ClosesTo n n.close
  | asks : ClosesTo n n.setClose

theorem ClosesTo.buffData {n k : Socketnode A} (closes : n.ClosesTo k) : k.buffData = n.buffData := by
  cases closes with
  | stays => rfl
  | closes => rfl
  | asks => rfl

/-- A node through which nothing was ever sent. -/
structure Idle (n : Socketnode A) : Prop where
  buffData : n.buffData = []
  closeAsk : n.closeAsk = false
  timers : n.timers = []
  state : n.state = .listen ∨ n.state = .establish

theorem idle_new (peer : A) : Idle (Socketnode.new peer) := ⟨rfl, rfl, rfl, .inl rfl⟩

theorem receiveAck_idle {n : Socketnode A} (idle : n.Idle) (p : Packet) : n.receiveAck p = n := by
  have nothing : n.getSeqData 0 = -1 := by
    rw [getSeqData, getData, idle.buffData]
    rfl
  rw [receiveAck, if_neg (not_not.mpr nothing)]

theorem idle_receive {n : Socketnode A} (idle : n.Idle) (p : Packet) : (n.receive p).Idle := by
  rcases idle.state with state | state
  · rw [receive_listen state, receiveListen]
    split
    · exact ⟨idle.buffData, idle.closeAsk, idle.timers, .inr rfl⟩
    · exact ⟨idle.buffData, idle.closeAsk, idle.timers, .inl state⟩
    · exact idle
  · rw [receive_establish state, receiveEstablish]
    split
    · rw [receiveData]
      split
      · dsimp only
        split <;> exact ⟨idle.buffData, idle.closeAsk, idle.timers, .inr state⟩
      · exact idle
    · rw [receiveAck_idle idle]
      exact idle
    · exact ⟨idle.buffData, idle.closeAsk, idle.timers, .inl rfl⟩
    · exact ⟨idle.buffData, idle.closeAsk, idle.timers, .inr state⟩

end Socketnode

open Socketnode

namespace Host

theorem sizebufferTo_nonneg (l : List (Socketnode A)) : 0 ≤ l.foldr (fun n res => res + n.sizebuffer) 0 := by
  induction l with
  | nil => exact Int.le_refl 0
  | cons n l ih => exact Int.add_nonneg ih (Int.natCast_nonneg _)

theorem sizebufferTo_zero {l : List (Socketnode A)} (empty : l.foldr (fun n res => res + n.sizebuffer) 0 = 0)
    {n : Socketnode A} (member : n ∈ l) : n.buffData = [] := by
  induction l with
  | nil => cases member
  | cons m l ih =>
    rw [List.foldr_cons] at empty
    have rest := sizebufferTo_nonneg l
    have here : 0 ≤ m.sizebuffer := Int.natCast_nonneg _
    rcases List.mem_cons.mp member with rfl | later
    · have zero : (n.buffData.length : Int) = 0 := by
        rw [Socketnode.sizebuffer] at empty here
        omega
      exact List.eq_nil_of_length_eq_zero (Int.natCast_eq_zero.mp zero)
    · exact ih (by omega) later

variable {h : Host A}

/-- A socket that only receives. -/
structure Idle (h : Host A) : Prop where
  fdOpen : h.fdOpen = true
  nodes : ∀ n ∈ h.sockets, n.Idle

theorem idle_rudpSocket : Idle (rudpSocket A) := ⟨rfl, fun _ member => by cases member⟩

theorem notclosed_false : h.notclosed = false ↔ ∀ n ∈ h.sockets, n.state = .closed := by
  simp [notclosed]

/-- A socket is shut once all its connections are closed. -/
def Shut (h : Host A) : Prop := h.fdOpen = false → ∀ n ∈ h.sockets, n.state = .closed

theorem rudpClose_fdOpen : h.rudpClose.fdOpen = h.fdOpen := by
  rw [rudpClose]
  split <;> rfl

theorem shut_open (isOpen : h.fdOpen = true) : h.Shut := fun shut => by
  rw [isOpen] at shut
  cases shut

theorem closeFd_shut (isOpen : h.fdOpen = true) : h.closeFd.Shut := by
  rw [closeFd]
  split
  · exact shut_open isOpen
  · next none_left => exact fun _ => notclosed_false.mp (eq_false_of_ne_true none_left)

variable [DecidableEq A] {peer src at_ : A} {n : Socketnode A} {p : Packet}

theorem rudpClose_none (absent : h.getS at_ = none) : h.rudpClose.getS at_ = none := by
  rw [rudpClose]
  split
  · rw [getS_mapped h at_ (fun n => by split <;> rfl), absent]
    rfl
  · rw [getS_mapped h at_ (f := setClose) (fun n => rfl), absent]
    rfl

theorem rudpClose_some (there : h.getS at_ = some n) : ∃ m, h.rudpClose.getS at_ = some m ∧ ClosesTo n m := by
  rw [rudpClose]
  split
  · next empty =>
    rw [getS_mapped h at_ (fun n => by split <;> rfl), there, Option.map_some]
    refine ⟨_, rfl, ?_⟩
    split
    · next going =>
      rw [sizebufferTo] at empty
      refine .closes going (sizebufferTo_zero empty ?_)
      exact List.mem_filter.mpr ⟨getS_mem there, by simpa using going⟩
    · exact .stays
  · rw [getS_mapped h at_ (f := setClose) (fun n => rfl), there]
    exact ⟨_, rfl, .asks⟩

theorem found_other (other : at_ ≠ peer) : (h.found peer).getS at_ = h.getS at_ := by
  rw [found]
  split
  · rw [getS_addsock, if_neg other]
  · rfl

theorem found_some (there : h.getS peer = some n) (positive : 0 ≤ n.seq) : (h.found peer).getS peer = some n := by
  have known : h.getSeq peer ≠ -1 := by
    rw [getSeq, there]
    dsimp only
    omega
  rw [found, if_neg known, there]

theorem found_none (absent : h.getS peer = none) : (h.found peer).getS peer = some (.new peer) := by
  have unknown : h.getSeq peer = -1 := by rw [getSeq, absent]
  rw [found, if_pos unknown, getS_addsock, if_pos rfl]

theorem closeFd_getS : h.closeFd.getS at_ = h.getS at_ := by
  rw [closeFd]
  split <;> rfl

/-- What `recvhandler` does in the end, once the node has taken the packet. -/
theorem recvhandler_is (current : p.version = VERSION) (there : (h.found src).getS src = some n) :
    (h.recvhandler src p) =
      if n.state = .establish ∧ p.type = .ack ∧ (n.receive p).sizebuffer = 0 ∧ (n.receive p).closeAsk then
        ((h.found src).set src (Socketnode.receive p)).rudpClose
      else if n.state = .closeWait ∧ (n.receive p).state = .closed then
        ((h.found src).set src (Socketnode.receive p)).closeFd
      else (h.found src).set src (Socketnode.receive p) := by
  rw [recvhandler, if_neg (not_not.mpr current)]
  dsimp only
  rw [there]

theorem recvhandler_own (current : p.version = VERSION) (there : (h.found src).getS src = some n) :
    ∃ m, (h.recvhandler src p).getS src = some m ∧ ClosesTo (n.receive p) m := by
  have set_ : ((h.found src).set src (Socketnode.receive p)).getS src = some (n.receive p) := by
    rw [getS_set_same _ _ (receive_peer p), there, Option.map_some]
  rw [recvhandler_is current there]
  split
  · exact rudpClose_some set_
  · split
    · exact ⟨_, closeFd_getS.trans set_, .stays⟩
    · exact ⟨_, set_, .stays⟩

theorem recvhandler_other (other : at_ ≠ src) :
    (h.getS at_ = none → (h.recvhandler src p).getS at_ = none) ∧
      ∀ n, h.getS at_ = some n → ∃ m, (h.recvhandler src p).getS at_ = some m ∧ ClosesTo n m := by
  by_cases current : p.version = VERSION
  · have set_ : ((h.found src).set src (Socketnode.receive p)).getS at_ = h.getS at_ := by
      rw [getS_set_other _ other (receive_peer p), found_other other]
    cases there : (h.found src).getS src with
    | none =>
      have is : h.recvhandler src p = h.found src := by
        rw [recvhandler, if_neg (not_not.mpr current)]
        dsimp only
        rw [there]
      rw [is, found_other other]
      exact ⟨id, fun n there => ⟨n, there, .stays⟩⟩
    | some m =>
      rw [recvhandler_is current there]
      split
      · exact ⟨fun absent => rudpClose_none (set_.trans absent), fun n known => rudpClose_some (set_.trans known)⟩
      · split
        · rw [closeFd_getS, set_]
          exact ⟨id, fun n known => ⟨n, known, .stays⟩⟩
        · rw [set_]
          exact ⟨id, fun n known => ⟨n, known, .stays⟩⟩
  · rw [recvhandler, if_pos current]
    exact ⟨id, fun n known => ⟨n, known, .stays⟩⟩

variable {data : List UInt8} {rand : Nat} {held : Int} {timer : Timer}

theorem rudpSendto_own (fits : data.length ≤ MAXPKTSIZE) (there : (h.found peer).getS peer = some n) :
    (h.rudpSendto peer data rand held).getS peer = some (if n.state = .closed then n else n.send data rand held) := by
  rw [rudpSendto, if_neg (Nat.not_lt.mpr fits)]
  dsimp only
  rw [there]
  dsimp only
  split
  · exact there
  · rw [getS_set_same _ _ (send_peer data rand held), there, Option.map_some]

theorem rudpSendto_other (other : at_ ≠ peer) : (h.rudpSendto peer data rand held).getS at_ = h.getS at_ := by
  rw [rudpSendto]
  split
  · rfl
  · dsimp only
    split
    · exact found_other other
    · split
      · exact found_other other
      · rw [getS_set_other _ other (send_peer data rand held), found_other other]

theorem retransmit_own (there : h.getS peer = some n) :
    ∃ m, (h.retransmit peer timer).getS peer = some m ∧ ClosesTo (n.giveUp timer) m := by
  have set_ : (h.set peer (Socketnode.giveUp timer)).getS peer = some (n.giveUp timer) := by
    rw [getS_set_same h peer (f := Socketnode.giveUp timer) (fun _ => rfl), there, Option.map_some]
  rw [retransmit]
  split
  · exact rudpClose_some set_
  · exact ⟨_, set_, .stays⟩

theorem retransmit_other (other : at_ ≠ peer) :
    (h.getS at_ = none → (h.retransmit peer timer).getS at_ = none) ∧
      ∀ n, h.getS at_ = some n → ∃ m, (h.retransmit peer timer).getS at_ = some m ∧ ClosesTo n m := by
  have set_ : (h.set peer (Socketnode.giveUp timer)).getS at_ = h.getS at_ := getS_set_other h other fun _ => rfl
  rw [retransmit]
  split
  · exact ⟨fun absent => rudpClose_none (set_.trans absent), fun n known => rudpClose_some (set_.trans known)⟩
  · exact ⟨fun absent => set_.trans absent, fun n known => ⟨n, set_.trans known, .stays⟩⟩

theorem timeout_own (there : h.getS peer = some n) :
    (((n.eventTimeoutDelete timer).fire timer).2 = false →
      (h.timeout peer timer).getS peer = some ((n.eventTimeoutDelete timer).fire timer).1) ∧
    (((n.eventTimeoutDelete timer).fire timer).2 = true →
      ∃ m, (h.timeout peer timer).getS peer = some m ∧
        ClosesTo (((n.eventTimeoutDelete timer).fire timer).1.giveUp timer) m) := by
  have taken : (h.set peer fun n => n.eventTimeoutDelete timer).getS peer = some (n.eventTimeoutDelete timer) := by
    rw [getS_set_same h peer (f := fun n => n.eventTimeoutDelete timer) (fun _ => rfl), there, Option.map_some]
  have fired : ((h.set peer fun n => n.eventTimeoutDelete timer).set peer fun n => (n.fire timer).1).getS peer =
      some ((n.eventTimeoutDelete timer).fire timer).1 := by
    rw [getS_set_same _ peer (fun n => (fire_same timer n).1), taken, Option.map_some]
  rw [timeout]
  dsimp only
  rw [taken]
  dsimp only
  refine ⟨fun few => ?_, fun many => ?_⟩
  · rw [if_neg (by rw [few]; exact Bool.false_ne_true)]
    exact fired
  · rw [if_pos many]
    exact retransmit_own fired

theorem timeout_other (other : at_ ≠ peer) :
    (h.getS at_ = none → (h.timeout peer timer).getS at_ = none) ∧
      ∀ n, h.getS at_ = some n → ∃ m, (h.timeout peer timer).getS at_ = some m ∧ ClosesTo n m := by
  have taken : (h.set peer fun n => n.eventTimeoutDelete timer).getS at_ = h.getS at_ :=
    getS_set_other h other fun _ => rfl
  have fired : ((h.set peer fun n => n.eventTimeoutDelete timer).set peer fun n => (n.fire timer).1).getS at_ =
      h.getS at_ := by
    rw [getS_set_other _ other fun n => (fire_same timer n).1, taken]
  rw [timeout]
  dsimp only
  split
  · rw [taken]
    exact ⟨id, fun n known => ⟨n, known, .stays⟩⟩
  · split
    · rw [← fired]
      exact retransmit_other other
    · rw [fired]
      exact ⟨id, fun n known => ⟨n, known, .stays⟩⟩

theorem idle_found (idle : h.Idle) : (h.found src).Idle := by
  rw [found]
  split
  · refine ⟨idle.fdOpen, fun n member => ?_⟩
    rcases List.mem_cons.mp member with rfl | before
    · exact idle_new src
    · exact idle.nodes n before
  · exact idle

theorem recvhandler_idle_is (idle : h.Idle) (current : p.version = VERSION)
    (there : (h.found src).getS src = some n) :
    h.recvhandler src p = (h.found src).set src (Socketnode.receive p) := by
  have found_idle : (h.found src).Idle := idle_found idle
  have before := found_idle.nodes n (getS_mem there)
  have after := idle_receive before p
  rw [recvhandler_is current there, if_neg, if_neg]
  · rintro ⟨wait, -⟩
    rcases before.state with state | state <;> rw [state] at wait <;> cases wait
  · rintro ⟨-, -, -, asked⟩
    rw [after.closeAsk] at asked
    cases asked

theorem recvhandler_idle_other (idle : h.Idle) (other : at_ ≠ src) :
    (h.recvhandler src p).getS at_ = h.getS at_ := by
  by_cases current : p.version = VERSION
  · cases there : (h.found src).getS src with
    | none =>
      rw [recvhandler, if_neg (not_not.mpr current)]
      dsimp only
      rw [there]
      exact found_other other
    | some n =>
      rw [recvhandler_idle_is idle current there, getS_set_other _ other (receive_peer p), found_other other]
  · rw [recvhandler, if_pos current]

theorem recvhandler_idle (idle : h.Idle) : (h.recvhandler src p).Idle := by
  by_cases current : p.version = VERSION
  · cases there : (h.found src).getS src with
    | none =>
      rw [recvhandler, if_neg (not_not.mpr current)]
      dsimp only
      rw [there]
      exact idle_found idle
    | some n =>
      rw [recvhandler_idle_is idle current there]
      refine ⟨(idle_found idle).fdOpen, fun m member => ?_⟩
      rcases mem_change member with before | ⟨m, was, -, rfl⟩
      · exact (idle_found idle).nodes m before
      · exact idle_receive ((idle_found idle).nodes m was) p
  · rw [recvhandler, if_pos current]
    exact idle

theorem found_fdOpen : (h.found src).fdOpen = h.fdOpen := by
  rw [found]
  split <;> rfl

theorem recvhandler_shut (isOpen : h.fdOpen = true) : (h.recvhandler src p).Shut := by
  have found_open : (h.found src).fdOpen = true := found_fdOpen.trans isOpen
  rw [recvhandler]
  split
  · exact shut_open isOpen
  · dsimp only
    split
    · exact shut_open found_open
    · split
      · exact shut_open (rudpClose_fdOpen.trans found_open)
      · split
        · exact closeFd_shut found_open
        · exact shut_open found_open

theorem rudpSendto_shut (isOpen : h.fdOpen = true) : (h.rudpSendto peer data rand held).Shut := by
  have found_open : (h.found peer).fdOpen = true := found_fdOpen.trans isOpen
  rw [rudpSendto]
  split
  · exact shut_open isOpen
  · dsimp only
    split
    · exact shut_open found_open
    · split
      · exact shut_open found_open
      · exact shut_open found_open

theorem set_shut (shut : h.Shut) {f : Socketnode A → Socketnode A} (keeps : ∀ n, (f n).state = n.state) :
    (h.set peer f).Shut := by
  intro closed n member
  rcases mem_change member with before | ⟨m, was, -, rfl⟩
  · exact shut closed n before
  · rw [keeps]
    exact shut closed m was

theorem retransmit_shut (shut : h.Shut) : (h.retransmit peer timer).Shut := by
  rw [retransmit]
  split
  · next some_left =>
    have isOpen : h.fdOpen = true := by
      by_contra closed
      have all := shut (eq_false_of_ne_true closed)
      have none_left : (h.set peer (Socketnode.giveUp timer)).notclosed = false := by
        refine notclosed_false.mpr fun n member => ?_
        rcases mem_change member with before | ⟨m, -, -, rfl⟩
        · exact all n before
        · rfl
      rw [none_left] at some_left
      cases some_left
    exact shut_open (rudpClose_fdOpen.trans isOpen)
  · next none_left => exact fun _ => notclosed_false.mp (eq_false_of_ne_true none_left)

theorem timeout_shut (shut : h.Shut) : (h.timeout peer timer).Shut := by
  have taken : (h.set peer fun n => n.eventTimeoutDelete timer).Shut := set_shut shut fun _ => rfl
  rw [timeout]
  dsimp only
  split
  · exact taken
  · have fired : ((h.set peer fun n => n.eventTimeoutDelete timer).set peer fun n => (n.fire timer).1).Shut :=
      set_shut taken fun n => (fire_same timer n).2.1
    split
    · exact retransmit_shut fired
    · exact fired

end Host

end LiveStreaming.Rudp
