import Mathlib.Data.List.Basic

/-!
# The connections of a socket

`list.cpp` of RUDP: a socket has one node for each peer, with the blocks that wait to be acknowledged. The timers whose
argument is the node, or a copy of it, are kept with the node, and so is what was sent, taken over, handed on and
reported for it, which no function reads.
-/

namespace LiveStreaming.Rudp

def VERSION : Nat := 1
def MAXPKTSIZE : Nat := 1000
def MAXRETRANS : Int := 5
def WINDOW : Nat := 3

inductive PacketType where
  | data | ack | syn | fin
deriving DecidableEq

structure Packet where
  version : Nat
  type : PacketType
  seqno : BitVec 32
  data : List UInt8
deriving DecidableEq

/-- A packet as this program writes it. -/
def packet (type : PacketType) (seqno : Int) (data : List UInt8) : Packet :=
  ⟨VERSION, type, BitVec.ofInt 32 seqno, data⟩

/-- `number` stands for the block's address: a block is never freed, so no address is given twice. -/
structure BufferData where
  number : Nat
  seqno : BitVec 32
  data : List UInt8
  retransmit : Int
deriving DecidableEq

def BufferData.packet (d : BufferData) : Packet := ⟨VERSION, .data, d.seqno, d.data⟩

inductive State where
  | listen | synSent | establish | closeWait | closed
deriving DecidableEq

inductive Timer where
  | retransmitsyn
  | retransmitdata (number : Nat)
  | retransmitfin
deriving DecidableEq

inductive RudpEvent where
  | timeout | closed
deriving DecidableEq

/-- `peer` is the source's `to`. -/
structure Socketnode (A : Type*) where
  peer : A
  state : State
  seq : Int
  retransmit : Int
  closeAsk : Bool
  nextpacket : Int
  buffData : List BufferData
  timers : List Timer
  sent : List Packet
  accepted : List (List UInt8)
  handed : List (List UInt8)
  events : List RudpEvent
deriving DecidableEq

variable {A : Type*}

namespace Socketnode

def new (peer : A) : Socketnode A := ⟨peer, .listen, 0, 0, false, 0, [], [], [], [], [], []⟩

def sizebuffer (n : Socketnode A) : Int := n.buffData.length

/-- The list is walked with a counter from zero, so a position below zero is never met. -/
def getData (n : Socketnode A) (position : Int) : Option BufferData :=
  if position < 0 then none else n.buffData[position.toNat]?

def getSeqData (n : Socketnode A) (position : Int) : Int :=
  match n.getData position with
  | none => -1
  | some d => d.seqno.toInt

def setSeqData (n : Socketnode A) (position seq : Int) : Socketnode A :=
  if position < 0 then n
  else { n with buffData := n.buffData.modify position.toNat fun d => { d with seqno := BitVec.ofInt 32 seq } }

/-- `retransmit` of the new block is what the memory held. -/
def addData (n : Socketnode A) (data : List UInt8) (held : Int) : Socketnode A :=
  { n with
    buffData := n.buffData ++ [⟨n.accepted.length, BitVec.ofInt 32 (-1), data, held⟩]
    accepted := n.accepted ++ [data] }

def deleteData (n : Socketnode A) : Socketnode A := { n with buffData := n.buffData.tail }

def sendto (n : Socketnode A) (p : Packet) : Socketnode A := { n with sent := n.sent ++ [p] }

def eventTimeout (n : Socketnode A) (timer : Timer) : Socketnode A := { n with timers := n.timers ++ [timer] }

def eventTimeoutDelete (n : Socketnode A) (timer : Timer) : Socketnode A :=
  { n with timers := n.timers.erase timer }

end Socketnode

/-- One socket: `fdOpen` until `close(fd)`. -/
structure Host (A : Type*) where
  sockets : List (Socketnode A)
  fdOpen : Bool
deriving DecidableEq

/-- A socket as `rudp_socket` leaves it. -/
def rudpSocket (A : Type*) : Host A := ⟨[], true⟩

namespace Host

variable [DecidableEq A]

def getS (h : Host A) (peer : A) : Option (Socketnode A) := h.sockets.find? fun n => n.peer = peer

def change (peer : A) (f : Socketnode A → Socketnode A) : List (Socketnode A) → List (Socketnode A)
  | [] => []
  | n :: rest => if n.peer = peer then f n :: rest else n :: change peer f rest

/-- The setters of `list.cpp` each walk to the node of the peer. -/
def set (h : Host A) (peer : A) (f : Socketnode A → Socketnode A) : Host A :=
  { h with sockets := change peer f h.sockets }

def getSeq (h : Host A) (peer : A) : Int :=
  match h.getS peer with
  | none => -1
  | some n => n.seq

def addsock (h : Host A) (peer : A) : Host A := { h with sockets := Socketnode.new peer :: h.sockets }

def notclosed (h : Host A) : Bool := h.sockets.any fun n => n.state ≠ .closed

def sizebufferTo (h : Host A) : Int :=
  (h.sockets.filter fun n => n.state ≠ .closed).foldr (fun n res => res + n.sizebuffer) 0

theorem find_change (peer at_ : A) {f : Socketnode A → Socketnode A} (keeps : ∀ n, (f n).peer = n.peer)
    (l : List (Socketnode A)) :
    (change peer f l).find? (fun n => n.peer = at_) =
      if at_ = peer then (l.find? fun n => n.peer = at_).map f else l.find? fun n => n.peer = at_ := by
  induction l with
  | nil => simp [change]
  | cons n rest ih =>
    rw [change]
    by_cases here : n.peer = peer
    · rw [if_pos here]
      by_cases same : at_ = peer
      · simp [same, here, keeps]
      · simp [here, keeps, same, Ne.symm same]
    · rw [if_neg here]
      by_cases found : n.peer = at_
      · have other : at_ ≠ peer := fun same => here (found.trans same)
        simp [found, other]
      · rw [List.find?_cons_of_neg (by simpa using found), List.find?_cons_of_neg (by simpa using found)]
        exact ih

theorem getS_set (h : Host A) (peer at_ : A) {f : Socketnode A → Socketnode A} (keeps : ∀ n, (f n).peer = n.peer) :
    (h.set peer f).getS at_ = if at_ = peer then (h.getS at_).map f else h.getS at_ :=
  find_change peer at_ keeps h.sockets

theorem getS_set_same (h : Host A) (peer : A) {f : Socketnode A → Socketnode A} (keeps : ∀ n, (f n).peer = n.peer) :
    (h.set peer f).getS peer = (h.getS peer).map f := by
  rw [getS_set h peer peer keeps, if_pos rfl]

theorem getS_set_other (h : Host A) {peer at_ : A} (other : at_ ≠ peer) {f : Socketnode A → Socketnode A}
    (keeps : ∀ n, (f n).peer = n.peer) : (h.set peer f).getS at_ = h.getS at_ := by
  rw [getS_set h peer at_ keeps, if_neg other]

theorem getS_addsock (h : Host A) (peer at_ : A) :
    (h.addsock peer).getS at_ = if at_ = peer then some (.new peer) else h.getS at_ := by
  by_cases same : at_ = peer
  · simp [getS, addsock, Socketnode.new, same]
  · simp [getS, addsock, Socketnode.new, same, Ne.symm same]

theorem getS_mem {h : Host A} {peer : A} {n : Socketnode A} (found : h.getS peer = some n) : n ∈ h.sockets :=
  List.mem_of_find?_eq_some found

theorem getS_mapped (h : Host A) (at_ : A) {f : Socketnode A → Socketnode A} (keeps : ∀ n, (f n).peer = n.peer)
    (fdOpen : Bool) : (Host.mk (h.sockets.map f) fdOpen).getS at_ = (h.getS at_).map f := by
  have same : (fun n : Socketnode A => decide (n.peer = at_)) ∘ f = fun n => decide (n.peer = at_) :=
    funext fun n => by rw [Function.comp_apply, keeps]
  rw [getS, List.find?_map, same]
  rfl

theorem mem_change {peer : A} {f : Socketnode A → Socketnode A} {l : List (Socketnode A)} {n : Socketnode A}
    (member : n ∈ change peer f l) : n ∈ l ∨ ∃ m ∈ l, m.peer = peer ∧ n = f m := by
  induction l with
  | nil => cases member
  | cons m rest ih =>
    rw [change] at member
    split at member
    · next here =>
      rcases List.mem_cons.mp member with rfl | later
      · exact .inr ⟨m, List.mem_cons_self, here, rfl⟩
      · exact .inl (List.mem_cons_of_mem _ later)
    · rcases List.mem_cons.mp member with rfl | later
      · exact .inl List.mem_cons_self
      · rcases ih later with before | ⟨m', was, at_, is⟩
        · exact .inl (List.mem_cons_of_mem _ before)
        · exact .inr ⟨m', List.mem_cons_of_mem _ was, at_, is⟩

end Host

end LiveStreaming.Rudp
