import LiveStreaming.Rudp.Socketnode

/-!
# Sending and receiving

`rudp.cpp` and `retransmit.cpp`. What concerns one connection only is a function on its node; closing looks at all the
nodes of the socket.
-/

namespace LiveStreaming.Rudp

variable {A : Type*}

namespace Socketnode

/-- A copy of the node with the block at `position` goes to `event_timeout`, and the block to the peer. -/
def sendData (n : Socketnode A) (position : Int) : Socketnode A :=
  match n.getData position with
  | none => n
  | some d => (n.eventTimeout (.retransmitdata d.number)).sendto d.packet

/-- The body of the loops over `cur_w` in `recvhandler` and `rudp_sendto`. -/
def sendNew (n : Socketnode A) (cur_w : Nat) : Socketnode A :=
  if n.sizebuffer > cur_w then
    let n := n.setSeqData cur_w (n.seq + cur_w)
    ({ n with nextpacket := n.nextpacket + 1 }).sendData cur_w
  else n

def sendWindow (n : Socketnode A) (first : Nat) : Socketnode A :=
  (List.range' first (WINDOW - first)).foldl sendNew n

def syn (n : Socketnode A) : Packet := packet .syn n.seq []
def fin (n : Socketnode A) : Packet := packet .fin n.seq []

def ackReply (seq : Int) : Packet := packet .ack (seq + 1) []

def receiveListen (n : Socketnode A) (p : Packet) : Socketnode A :=
  match p.type with
  | .syn => { n.sendto (ackReply p.seqno.toInt) with state := .establish, seq := p.seqno.toInt + 1 }
  | .fin => n.sendto (ackReply p.seqno.toInt)
  | _ => n

def receiveSynSent (n : Socketnode A) (p : Packet) : Socketnode A :=
  if p.type = .ack ∧ p.seqno.toInt = n.seq + 1 then
    { ({ n with seq := p.seqno.toInt }).sendWindow 0 with state := .establish }
  else if p.type = .fin then { n with state := .listen }.sendto (ackReply p.seqno.toInt)
  else n

def receiveData (n : Socketnode A) (p : Packet) : Socketnode A :=
  if p.seqno.toInt ≤ n.seq then
    let m := if p.seqno.toInt = n.seq then { n with handed := n.handed ++ [p.data] } else n
    let m := m.sendto (ackReply p.seqno.toInt)
    if p.seqno.toInt = n.seq then { m with seq := p.seqno.toInt + 1 } else m
  else n

def acked (n : Socketnode A) (seq : Int) : Bool :=
  seq > n.getSeqData 0 && seq ≤ n.getSeqData 0 + WINDOW && n.sizebuffer > 0

/-- The first of those not sent yet gets its number, and the head is done with. -/
def ackHead (n : Socketnode A) : Socketnode A :=
  let m := if n.sizebuffer ≥ n.nextpacket then n.setSeqData n.nextpacket (n.getSeqData 0 + n.nextpacket) else n
  { m.deleteData with nextpacket := n.nextpacket - 1 }

def ackTurn (n : Socketnode A) : Socketnode A :=
  let m := n.ackHead
  if m.sizebuffer > m.nextpacket then { m.sendData m.nextpacket with nextpacket := m.nextpacket + 1 } else m

/-- Every turn takes a block away, so the number of blocks is fuel enough. -/
def ackLoop (seq : Int) : Nat → Socketnode A → Socketnode A
  | 0, n => n
  | fuel + 1, n => if n.acked seq then ackLoop seq fuel n.ackTurn else n

def receiveAck (n : Socketnode A) (p : Packet) : Socketnode A :=
  if n.getSeqData 0 ≠ -1 then
    let m := ackLoop p.seqno.toInt n.buffData.length n
    if p.seqno.toInt > m.seq then { m with seq := p.seqno.toInt } else m
  else n

def receiveEstablish (n : Socketnode A) (p : Packet) : Socketnode A :=
  match p.type with
  | .data => n.receiveData p
  | .ack => n.receiveAck p
  | .fin => { n with state := .listen }.sendto (ackReply p.seqno.toInt)
  | .syn => n.sendto (ackReply p.seqno.toInt)

def receiveCloseWait (n : Socketnode A) (p : Packet) : Socketnode A :=
  if p.type = .ack ∧ p.seqno.toInt = n.seq + 1 then
    { n with state := .closed, closeAsk := true, seq := 0, events := n.events ++ [.closed] }
  else n

def receiveClosed (n : Socketnode A) (p : Packet) : Socketnode A :=
  if p.type = .fin then n.sendto (ackReply p.seqno.toInt) else n

def receive (p : Packet) (n : Socketnode A) : Socketnode A :=
  match n.state with
  | .listen => n.receiveListen p
  | .synSent => n.receiveSynSent p
  | .establish => n.receiveEstablish p
  | .closeWait => n.receiveCloseWait p
  | .closed => n.receiveClosed p

section
variable {n : Socketnode A} {p : Packet}

theorem receive_listen (state : n.state = .listen) : n.receive p = n.receiveListen p := by rw [receive, state]

theorem receive_synSent (state : n.state = .synSent) : n.receive p = n.receiveSynSent p := by rw [receive, state]

theorem receive_establish (state : n.state = .establish) : n.receive p = n.receiveEstablish p := by
  rw [receive, state]

theorem receive_closeWait (state : n.state = .closeWait) : n.receive p = n.receiveCloseWait p := by
  rw [receive, state]

theorem receive_closed (state : n.state = .closed) : n.receive p = n.receiveClosed p := by rw [receive, state]

theorem receive_stays_closed (state : n.state = .closed) : (n.receive p).state = .closed := by
  rw [receive_closed state, receiveClosed]
  split <;> exact state

end

/-- `RUDP_FIN` with the next number, from `rudp_close`. -/
def close (n : Socketnode A) : Socketnode A :=
  let n := { n with retransmit := 0, state := .closeWait, seq := n.seq + 1 }
  (n.sendto n.fin).eventTimeout .retransmitfin

def setClose (n : Socketnode A) : Socketnode A := { n with closeAsk := true }

/-- `RUDP_SYN` with a random number, from `rudp_sendto`. -/
def connect (rand : Nat) (n : Socketnode A) : Socketnode A :=
  let n := { n with state := .synSent, seq := (rand % 65535 : Nat) }
  (n.sendto n.syn).eventTimeout .retransmitsyn

/-- The part of `rudp_sendto` behind the checks; `rand` is what `rand()` returned. -/
def send (data : List UInt8) (rand : Nat) (held : Int) (n : Socketnode A) : Socketnode A :=
  let m := if n.state = .listen then n.connect rand else n
  let m := { m with retransmit := 0 }.addData data held
  if n.state = .establish ∧ m.sizebuffer < (WINDOW : Int) then m.sendWindow n.buffData.length else m

/-- The part of `retransmit` about the connection that has been tried too often. -/
def giveUp (timer : Timer) (n : Socketnode A) : Socketnode A :=
  { n.eventTimeoutDelete timer with
    state := .closed, closeAsk := true, buffData := [], events := n.events ++ [.timeout] }

/-- What `retransmitsyn` does before it looks for the limit. -/
def resendSyn (n : Socketnode A) : Socketnode A :=
  if n.retransmit ≤ MAXRETRANS ∧ n.state = .synSent then
    ({ n with retransmit := n.retransmit + 1 }.sendto n.syn).eventTimeout .retransmitsyn
  else n

/-- The node once the timer is off the list, and whether it has been tried too often. -/
def retransmitsyn (n : Socketnode A) : Socketnode A × Bool :=
  let n := (n.eventTimeoutDelete .retransmitsyn).resendSyn
  (n, n.retransmit > MAXRETRANS)

/-- What `retransmitdata` does with the block at `number`, and whether it has been tried too often. -/
def resendData (number : Nat) (d : BufferData) (n : Socketnode A) : Socketnode A × Bool :=
  if d.retransmit < MAXRETRANS then
    let counted := n.buffData.map fun d => if d.number = number then { d with retransmit := d.retransmit + 1 } else d
    (({ n with buffData := counted }.sendto d.packet).eventTimeout (.retransmitdata number), false)
  else (n, true)

/-- A block that was acknowledged has no data any more. -/
def retransmitdata (number : Nat) (n : Socketnode A) : Socketnode A × Bool :=
  match n.buffData.find? fun d => d.number = number with
  | none => (n.eventTimeoutDelete (.retransmitdata number), false)
  | some d => (n.eventTimeoutDelete (.retransmitdata number)).resendData number d

theorem retransmitdata_none {number : Nat} {n : Socketnode A}
    (found : n.buffData.find? (fun d => d.number = number) = none) :
    n.retransmitdata number = (n.eventTimeoutDelete (.retransmitdata number), false) := by
  rw [retransmitdata, found]

theorem retransmitdata_some {number : Nat} {n : Socketnode A} {d : BufferData}
    (found : n.buffData.find? (fun d => d.number = number) = some d) :
    n.retransmitdata number = (n.eventTimeoutDelete (.retransmitdata number)).resendData number d := by
  rw [retransmitdata, found]

def resendFin (n : Socketnode A) : Socketnode A :=
  if n.retransmit < MAXRETRANS ∧ n.state = .closeWait then
    ({ n with retransmit := n.retransmit + 1 }.sendto n.fin).eventTimeout .retransmitfin
  else n

def retransmitfin (n : Socketnode A) : Socketnode A × Bool :=
  let n := (n.eventTimeoutDelete .retransmitfin).resendFin
  (n, n.retransmit = MAXRETRANS)

/-- The function that was registered with the timer. -/
def fire (timer : Timer) (n : Socketnode A) : Socketnode A × Bool :=
  match timer with
  | .retransmitsyn => n.retransmitsyn
  | .retransmitdata number => n.retransmitdata number
  | .retransmitfin => n.retransmitfin

end Socketnode

namespace Host

def rudpClose (h : Host A) : Host A :=
  if h.sizebufferTo = 0 then
    { h with sockets := h.sockets.map fun n => if n.state ≠ .closed then n.close else n }
  else { h with sockets := h.sockets.map Socketnode.setClose }

variable [DecidableEq A]

/-- `addsock`, if there is no node for the peer. -/
def found (h : Host A) (peer : A) : Host A := if h.getSeq peer = -1 then h.addsock peer else h

def closeFd (h : Host A) : Host A := if h.notclosed then h else { h with fdOpen := false }

def recvhandler (h : Host A) (src : A) (p : Packet) : Host A :=
  if p.version ≠ VERSION then h
  else
    let h := h.found src
    match h.getS src with
    | none => h
    | some n =>
      let m := n.receive p
      let h := h.set src (Socketnode.receive p)
      if n.state = .establish ∧ p.type = .ack ∧ m.sizebuffer = 0 ∧ m.closeAsk then h.rudpClose
      else if n.state = .closeWait ∧ m.state = .closed then h.closeFd
      else h

def rudpSendto (h : Host A) (peer : A) (data : List UInt8) (rand : Nat) (held : Int) : Host A :=
  if data.length > MAXPKTSIZE then h
  else
    let h := h.found peer
    match h.getS peer with
    | none => h
    | some n => if n.state = .closed then h else h.set peer (Socketnode.send data rand held)

/-- Once the connection is given up the socket is closed, or all the other connections are asked to close. -/
def retransmit (h : Host A) (peer : A) (timer : Timer) : Host A :=
  let h := h.set peer (Socketnode.giveUp timer)
  if h.notclosed then h.rudpClose else { h with fdOpen := false }

/-- The event loop takes the timer off its list and calls the function. -/
def timeout (h : Host A) (peer : A) (timer : Timer) : Host A :=
  let h := h.set peer fun n => n.eventTimeoutDelete timer
  match h.getS peer with
  | none => h
  | some n =>
    let h := h.set peer fun n => (n.fire timer).1
    if (n.fire timer).2 then h.retransmit peer timer else h

end Host

/-! A network of sockets. What a socket has sent to a peer may reach it at any time, more than once and in any order, or
never; any timer may be the next. -/

inductive Action (A : Type*) where
  | sendto (host peer : A) (data : List UInt8) (rand : Nat) (held : Int)
  | close (host : A)
  | deliver (src dst : A) (p : Packet)
  | timeout (host peer : A) (timer : Timer)

abbrev Net (A : Type*) := A → Host A

namespace Net

def start (A : Type*) : Net A := fun _ => rudpSocket A

variable [DecidableEq A]

def node (net : Net A) (host peer : A) : Option (Socketnode A) := (net host).getS peer

/-- What the socket of `host` has sent to `peer`. -/
def sent (net : Net A) (host peer : A) : List Packet := (net.node host peer).elim [] (·.sent)

def handed (net : Net A) (host peer : A) : List (List UInt8) := (net.node host peer).elim [] (·.handed)

def accepted (net : Net A) (host peer : A) : List (List UInt8) := (net.node host peer).elim [] (·.accepted)

def step (net : Net A) : Action A → Option (Net A)
  | .sendto host peer data rand held =>
    if (net host).fdOpen then some (Function.update net host ((net host).rudpSendto peer data rand held)) else none
  | .close host => if (net host).fdOpen then some (Function.update net host (net host).rudpClose) else none
  | .deliver src dst p =>
    if (net dst).fdOpen ∧ p ∈ net.sent src dst then some (Function.update net dst ((net dst).recvhandler src p))
    else none
  | .timeout host peer timer =>
    if ∃ n ∈ net.node host peer, timer ∈ n.timers then
      some (Function.update net host ((net host).timeout peer timer))
    else none

end Net

end LiveStreaming.Rudp
