import LiveStreaming.Library.SlidingWindow
import LiveStreaming.Rudp.Rudp

/-!
# A connection as a sliding window

What the sender's node and the receiver's node of one connection have to do with a session of the sliding window
protocol. The block that was accepted as number `k` has the sequence number `isn + 1 + k`.
-/

namespace LiveStreaming.Rudp
open Library.SlidingWindow

abbrev Data := List UInt8

variable {A : Type*} {isn : Int} {s : Session Data} {n : Socketnode A}

namespace Socketnode

def Closing (n : Socketnode A) : Prop := n.state = .closeWait ∨ n.state = .closed

instance decidableClosing (n : Socketnode A) : Decidable n.Closing := inferInstanceAs (Decidable (_ ∨ _))

end Socketnode

/-- What the sender may have put on the wire. -/
inductive Sends (isn : Int) (packets : List (Nat × Data)) (closing : Prop) : Packet → Prop where
  | syn : Sends isn packets closing (packet .syn isn [])
  | data {k : Nat} {x : Data} (sent : (k, x) ∈ packets) : Sends isn packets closing (packet .data (isn + 1 + k) x)
  | fin (seq : Int) (last : closing) : Sends isn packets closing (packet .fin seq [])

/-- What holds of the sender's node in every state. -/
structure Core (isn : Int) (s : Session Data) (n : Socketnode A) : Prop where
  accepted : n.accepted = s.accepted
  block : ∀ i d, n.buffData[i]? = some d →
    d.number = s.base + i ∧ s.accepted[s.base + i]? = some d.data ∧
      (s.base + i < s.sent → d.seqno = BitVec.ofInt 32 (isn + 1 + (s.base + i : Nat)))
  timer : ∀ k, .retransmitdata k ∈ n.timers → k < s.sent
  wire : ∀ p ∈ n.sent, Sends isn s.packets n.Closing p
  syn : packet .syn isn [] ∈ n.sent
  data : ∀ k x, (k, x) ∈ s.packets → packet .data (isn + 1 + k) x ∈ n.sent

/-- What holds besides while blocks are sent. -/
structure Open (s : Session Data) (n : Socketnode A) : Prop where
  length : s.base + n.buffData.length = s.accepted.length
  nextpacket : n.nextpacket = s.sent - s.base
  pending : ∀ k, s.base ≤ k → k < s.sent → .retransmitdata k ∈ n.timers
  alive : .timeout ∉ n.events

/-- The sender's node, state by state. -/
inductive Phase (isn : Int) (s : Session Data) (n : Socketnode A) : Prop where
  | synSent (state : n.state = .synSent) (seq : n.seq = isn) (none_sent : s.sent = 0)
      (trying : .retransmitsyn ∈ n.timers) (is_open : Open s n)
  | establish (state : n.state = .establish) (seq : n.seq = isn + 1 + s.base)
      (ahead : s.sent < s.accepted.length → s.base + 2 ≤ s.sent) (is_open : Open s n)
  | closeWait (state : n.state = .closeWait) (all_acked : s.sent = s.base)
      (length : s.base + n.buffData.length = s.accepted.length) (alive : .timeout ∉ n.events) (positive : 0 ≤ n.seq)
  | closed (state : n.state = .closed)
      (left : .timeout ∉ n.events → s.sent = s.base ∧ s.base + n.buffData.length = s.accepted.length)
      (positive : 0 ≤ n.seq)

structure Sender (isn : Int) (s : Session Data) (n : Socketnode A) : Prop where
  core : Core isn s n
  phase : Phase isn s n

theorem open_empty (is_open : Open s n) (none_left : n.buffData = []) : s.accepted.length ≤ s.base := by
  have length := is_open.length
  rw [none_left, List.length_nil] at length
  exact Nat.le_of_eq length.symm

theorem Phase.established (phase : Phase isn s n) (state : n.state = .establish) :
    n.seq = isn + 1 + s.base ∧ (s.sent < s.accepted.length → s.base + 2 ≤ s.sent) ∧ Open s n := by
  cases phase with
  | synSent other _ _ _ _ => rw [state] at other; cases other
  | establish _ seq ahead is_open => exact ⟨seq, ahead, is_open⟩
  | closeWait other _ _ _ _ => rw [state] at other; cases other
  | closed other _ _ => rw [state] at other; cases other

theorem Phase.seq_nonneg (phase : Phase isn s n) (positive : 0 ≤ isn) : 0 ≤ n.seq := by
  cases phase with
  | synSent state seq none_sent trying is_open => omega
  | establish state seq ahead is_open => omega
  | closeWait state all_acked length alive positive => exact positive
  | closed state left positive => exact positive

/-- The blocks in the buffer are what was accepted and not yet acknowledged. -/
theorem Core.buffered (core : Core isn s n)
    (length : s.base + n.buffData.length = s.accepted.length) :
    n.buffData.map (·.data) = s.accepted.drop s.base := by
  apply List.ext_getElem?
  intro i
  rw [List.getElem?_map, List.getElem?_drop]
  rcases Nat.lt_or_ge i n.buffData.length with inside | outside
  · obtain ⟨d, there⟩ : ∃ d, n.buffData[i]? = some d := ⟨_, List.getElem?_eq_getElem inside⟩
    rw [there, (core.block i d there).2.1]
    rfl
  · rw [List.getElem?_eq_none outside, List.getElem?_eq_none (by omega)]
    rfl

theorem toInt_seqno {x : Int} (positive : 0 ≤ x) (small : x < 2147483648) : (BitVec.ofInt 32 x).toInt = x := by
  rw [BitVec.toInt_ofInt]
  exact Int.bmod_eq_of_le (by omega) (by omega)

/-- Neither what happens at the receiver nor more payloads on their way change what the sender's node is for. -/
theorem Sends.mono {packets more : List (Nat × Data)} {closing closing' : Prop} {p : Packet}
    (sends : Sends isn packets closing p) (grows : ∀ q ∈ packets, q ∈ more) (later : closing → closing') :
    Sends isn more closing' p := by
  cases sends with
  | syn => exact .syn
  | data sent => exact .data (grows _ sent)
  | fin seq last => exact .fin seq (later last)

namespace Socketnode

theorem getData_nat (n : Socketnode A) (i : Nat) : n.getData i = n.buffData[i]? := by
  rw [getData, if_neg (by omega), Int.toNat_natCast]

theorem setSeqData_nat (n : Socketnode A) (i : Nat) (seq : Int) :
    n.setSeqData i seq =
      { n with buffData := n.buffData.modify i fun d => { d with seqno := BitVec.ofInt 32 seq } } := by
  rw [setSeqData, if_neg (by omega), Int.toNat_natCast]

theorem sendData_found {i : Nat} {d : BufferData} (found : n.buffData[i]? = some d) :
    n.sendData i =
      { n with timers := n.timers ++ [.retransmitdata d.number], sent := n.sent ++ [d.packet] } := by
  rw [sendData, getData_nat, found]
  rfl

end Socketnode

/-- The next block is numbered and sent. -/
theorem core_send (core : Core isn s n) {x : Data} {blocks : List BufferData} (next : s.accepted[s.sent]? = some x)
    (block : ∀ i d, blocks[i]? = some d → d.number = s.base + i ∧ s.accepted[s.base + i]? = some d.data ∧
      (s.base + i < s.sent + 1 → d.seqno = BitVec.ofInt 32 (isn + 1 + (s.base + i : Nat)))) (nextpacket : Int) :
    Core isn (s.send x)
      { n with
        buffData := blocks, nextpacket := nextpacket
        timers := n.timers ++ [.retransmitdata s.sent], sent := n.sent ++ [packet .data (isn + 1 + s.sent) x] } where
  accepted := core.accepted
  block := block
  timer k member := by
    rcases List.mem_append.mp member with before | now
    · exact Nat.lt_succ_of_lt (core.timer k before)
    · obtain rfl := Timer.retransmitdata.inj (List.mem_singleton.mp now)
      exact Nat.lt_succ_self _
  wire p member := by
    rcases List.mem_append.mp member with before | now
    · exact (core.wire p before).mono (fun q there => List.mem_append_left _ there) id
    · obtain rfl := List.mem_singleton.mp now
      exact .data (List.mem_append_right _ (List.mem_singleton.mpr rfl))
  syn := List.mem_append_left _ core.syn
  data k y member := by
    rcases List.mem_append.mp member with before | now
    · exact List.mem_append_left _ (core.data k y before)
    · obtain ⟨rfl, rfl⟩ := Prod.mk.inj (List.mem_singleton.mp now)
      exact List.mem_append_right _ (List.mem_singleton.mpr rfl)

theorem open_send (is_open : Open s n) {x : Data} {p : Packet} {blocks : List BufferData}
    (same : blocks.length = n.buffData.length) {nextpacket : Int} (counted : nextpacket = s.sent - s.base + 1) :
    Open (s.send x)
      { n with
        buffData := blocks, nextpacket := nextpacket
        timers := n.timers ++ [.retransmitdata s.sent], sent := n.sent ++ [p] } where
  length := (congrArg (s.base + ·) same).trans is_open.length
  nextpacket := by
    change nextpacket = ((s.sent + 1 : Nat) : Int) - s.base
    rw [counted]
    omega
  pending k low high := by
    rcases Nat.lt_succ_iff_lt_or_eq.mp high with before | rfl
    · exact List.mem_append_left _ (is_open.pending k low before)
    · exact List.mem_append_right _ (List.mem_singleton.mpr rfl)
  alive := is_open.alive

/-- The fields that sending leaves alone. -/
structure SameConnection (n m : Socketnode A) : Prop where
  state : m.state = n.state
  seq : m.seq = n.seq
  events : m.events = n.events

theorem sendNew_sends (core : Core isn s n) (is_open : Open s n) (seq : n.seq = isn + 1 + s.base)
    (first : s.base ≤ s.sent) {x : Data} (next : s.accepted[s.sent]? = some x) :
    Core isn (s.send x) (n.sendNew (s.sent - s.base)) ∧ Open (s.send x) (n.sendNew (s.sent - s.base)) ∧
      SameConnection n (n.sendNew (s.sent - s.base)) := by
  obtain ⟨inside, -⟩ := List.getElem?_eq_some_iff.mp next
  have length := is_open.length
  have room : s.sent - s.base < n.buffData.length := by omega
  obtain ⟨d, there⟩ : ∃ d, n.buffData[s.sent - s.base]? = some d := ⟨_, List.getElem?_eq_getElem room⟩
  obtain ⟨number, is_x, -⟩ := core.block _ d there
  rw [Nat.add_sub_cancel' first] at number is_x
  obtain rfl : x = d.data := Option.some.inj (next.symm.trans is_x)
  have at_ : n.seq + ((s.sent - s.base : Nat) : Int) = isn + 1 + s.sent := by rw [seq]; omega
  have bigger : n.sizebuffer > ((s.sent - s.base : Nat) : Int) := by
    rw [Socketnode.sizebuffer]
    omega
  have sends : n.sendNew (s.sent - s.base) =
      { n with
        buffData := n.buffData.modify (s.sent - s.base) fun d => { d with seqno := BitVec.ofInt 32 (isn + 1 + s.sent) }
        nextpacket := n.nextpacket + 1
        timers := n.timers ++ [.retransmitdata s.sent]
        sent := n.sent ++ [packet .data (isn + 1 + s.sent) d.data] } := by
    rw [Socketnode.sendNew, if_pos bigger, Socketnode.setSeqData_nat, at_, ← number]
    dsimp only
    rw [← number] at there
    refine Socketnode.sendData_found (d := { d with seqno := BitVec.ofInt 32 (isn + 1 + d.number) }) ?_
    simp [there]
  rw [sends]
  refine ⟨core_send core next ?_ _, open_send is_open ?_ ?_, ⟨rfl, rfl, rfl⟩⟩
  · intro i e found
    rw [List.getElem?_modify] at found
    obtain ⟨e', was, rfl⟩ := Option.map_eq_some_iff.mp found
    obtain ⟨number', data', seqno'⟩ := core.block i e' was
    split
    · next here =>
      refine ⟨number', data', fun _ => ?_⟩
      rw [← here, Nat.add_sub_cancel' first]
    · exact ⟨number', data', fun small => seqno' (by omega)⟩
  · exact List.length_modify ..
  · rw [is_open.nextpacket]

theorem SameConnection.refl (n : Socketnode A) : SameConnection n n := ⟨rfl, rfl, rfl⟩

theorem SameConnection.trans {n m l : Socketnode A} (first : SameConnection n m) (then_ : SameConnection m l) :
    SameConnection n l :=
  ⟨then_.state.trans first.state, then_.seq.trans first.seq, then_.events.trans first.events⟩

/-- A run of the session in which the sender sends what it has accepted. -/
structure SentOn (s t : Session Data) : Prop where
  steps : Steps WINDOW s t
  accepted : t.accepted = s.accepted
  base : t.base = s.base
  handed : t.handed = s.handed
  acks : t.acks = s.acks

theorem SentOn.refl (s : Session Data) : SentOn s s := ⟨.refl, rfl, rfl, rfl, rfl⟩

theorem SentOn.head {t : Session Data} {x : Data} (room : s.sent < s.base + WINDOW)
    (next : s.accepted[s.sent]? = some x) (rest : SentOn (s.send x) t) : SentOn s t :=
  ⟨.head (.send s room next) rest.steps, rest.accepted, rest.base, rest.handed, rest.acks⟩

theorem sendAll_sends (k : Nat) (core : Core isn s n) (is_open : Open s n) (seq : n.seq = isn + 1 + s.base)
    (first : s.base ≤ s.sent) (room : s.sent - s.base + k ≤ WINDOW) :
    ∃ t, SentOn s t ∧ Core isn t ((List.range' (s.sent - s.base) k).foldl Socketnode.sendNew n) ∧
      Open t ((List.range' (s.sent - s.base) k).foldl Socketnode.sendNew n) ∧
      SameConnection n ((List.range' (s.sent - s.base) k).foldl Socketnode.sendNew n) ∧ s.sent ≤ t.sent ∧
      (t.sent < t.accepted.length → t.sent = s.sent + k) := by
  induction k generalizing s n with
  | zero => exact ⟨s, .refl s, core, is_open, .refl n, Nat.le_refl _, fun _ => rfl⟩
  | succ k ih =>
    rw [List.range'_succ, List.foldl_cons]
    rcases Nat.lt_or_ge s.sent s.accepted.length with more | all
    · have next : s.accepted[s.sent]? = some s.accepted[s.sent] := List.getElem?_eq_getElem more
      obtain ⟨core', is_open', same⟩ := sendNew_sends core is_open seq first next
      have later : (s.send s.accepted[s.sent]).sent - (s.send s.accepted[s.sent]).base = s.sent - s.base + 1 :=
        Nat.sub_add_comm first
      obtain ⟨t, sent, core'', is_open'', same', grows, full⟩ :=
        ih core' is_open' (same.seq.trans seq) (Nat.le_succ_of_le first) (by omega)
      rw [later] at core'' is_open'' same'
      refine ⟨t, .head ?_ next sent, core'', is_open'', same.trans same', Nat.le_of_succ_le grows, fun before => ?_⟩
      · omega
      · rw [full before, Nat.add_comm k 1, ← Nat.add_assoc]
        rfl
    · have stays : ∀ i, s.sent - s.base ≤ i → n.sendNew i = n := by
        intro i far
        apply if_neg
        have length := is_open.length
        rw [Socketnode.sizebuffer]
        omega
      have idle : ∀ i, s.sent - s.base ≤ i → (List.range' i k).foldl Socketnode.sendNew n = n := by
        clear ih room
        induction k with
        | zero => exact fun _ _ => rfl
        | succ k ih =>
          intro i far
          rw [List.range'_succ, List.foldl_cons, stays i far]
          exact ih (i + 1) (Nat.le_succ_of_le far)
      rw [stays _ (Nat.le_refl _), idle _ (Nat.le_succ _)]
      exact ⟨s, .refl s, core, is_open, .refl n, Nat.le_refl _, fun before => absurd before (Nat.not_lt.mpr all)⟩

theorem sendWindow_sends (core : Core isn s n) (is_open : Open s n) (seq : n.seq = isn + 1 + s.base)
    (first : s.base ≤ s.sent) (room : s.sent - s.base ≤ WINDOW) :
    ∃ t, SentOn s t ∧ Core isn t (n.sendWindow (s.sent - s.base)) ∧ Open t (n.sendWindow (s.sent - s.base)) ∧
      SameConnection n (n.sendWindow (s.sent - s.base)) ∧
      (t.sent < t.accepted.length → t.sent = t.base + WINDOW) := by
  obtain ⟨t, sent, core', is_open', same, -, full⟩ :=
    sendAll_sends (WINDOW - (s.sent - s.base)) core is_open seq first (by omega)
  refine ⟨t, sent, core', is_open', same, fun before => ?_⟩
  rw [full before, sent.base]
  omega

/-- No sequence number leaves the range of an `int`. -/
def InRange (isn : Int) (s : Session Data) : Prop := 0 ≤ isn ∧ isn + 1 + s.accepted.length < 2147483648

theorem seqno_toInt (range : InRange isn s) {k : Nat} (small : k ≤ s.accepted.length) :
    (BitVec.ofInt 32 (isn + 1 + k)).toInt = isn + 1 + k := by
  obtain ⟨positive, below⟩ := range
  exact toInt_seqno (by omega) (by omega)

theorem head_seqno (core : Core isn s n) (range : InRange isn s) (out : s.base < s.sent)
    (within : s.sent ≤ s.accepted.length) (some_left : n.buffData ≠ []) : n.getSeqData 0 = isn + 1 + s.base := by
  obtain ⟨d, rest, is⟩ := List.exists_cons_of_ne_nil some_left
  have there : n.buffData[0]? = some d := by rw [is]; rfl
  obtain ⟨-, -, seqno⟩ := core.block 0 d there
  have found : n.getData 0 = some d := (n.getData_nat 0).trans there
  rw [Socketnode.getSeqData, found]
  dsimp only
  rw [seqno out, Nat.add_zero]
  exact seqno_toInt range (by omega)

/-- The node once the first of the blocks not sent has its number and the head is gone. -/
theorem ackHead_learns (core : Core isn s n) (is_open : Open s n) (range : InRange isn s) (out : s.base < s.sent)
    (within : s.sent ≤ s.accepted.length) :
    Core isn (s.learn (s.base + 1)) n.ackHead ∧ Open (s.learn (s.base + 1)) n.ackHead ∧
      SameConnection n n.ackHead ∧
      ∀ d, n.ackHead.buffData[s.sent - (s.base + 1)]? = some d → d.seqno = BitVec.ofInt 32 (isn + 1 + s.sent) := by
  have length := is_open.length
  have some_left : n.buffData ≠ [] := by
    rintro none_left
    rw [none_left, List.length_nil] at length
    omega
  have enough : n.sizebuffer ≥ n.nextpacket := by
    rw [Socketnode.sizebuffer, is_open.nextpacket]
    omega
  have position : n.nextpacket = ((s.sent - s.base : Nat) : Int) := by rw [is_open.nextpacket]; omega
  have number : n.getSeqData 0 + n.nextpacket = isn + 1 + s.sent := by
    rw [head_seqno core range out within some_left, is_open.nextpacket]
    omega
  have is : n.ackHead =
      { n with
        buffData :=
          (n.buffData.modify (s.sent - s.base) fun d => { d with seqno := BitVec.ofInt 32 (isn + 1 + s.sent) }).tail
        nextpacket := n.nextpacket - 1 } := by
    rw [Socketnode.ackHead, if_pos enough, number, position, Socketnode.setSeqData_nat]
    rfl
  have base : (s.learn (s.base + 1)).base = s.base + 1 := Nat.max_eq_right (Nat.le_succ _)
  rw [is]
  refine ⟨{ core with block := ?_ }, ?_, ⟨rfl, rfl, rfl⟩, ?_⟩
  · intro i d found
    rw [base]
    rw [List.getElem?_tail, List.getElem?_modify] at found
    obtain ⟨e, was, rfl⟩ := Option.map_eq_some_iff.mp found
    obtain ⟨number, data, seqno⟩ := core.block (i + 1) e was
    rw [← Nat.add_assoc, Nat.add_right_comm] at number data seqno
    split
    · next here =>
      have now : s.base + 1 + i = s.sent := by omega
      exact ⟨number, data, fun _ => by rw [now]⟩
    · exact ⟨number, data, seqno⟩
  · constructor
    · change (s.learn (s.base + 1)).base + (n.buffData.modify _ _).tail.length = s.accepted.length
      rw [base, List.length_tail, List.length_modify]
      omega
    · change n.nextpacket - 1 = (s.sent : Int) - (s.learn (s.base + 1)).base
      rw [base, is_open.nextpacket]
      omega
    · intro k low high
      rw [base] at low
      exact is_open.pending k (by omega) high
    · exact is_open.alive
  · intro d found
    rw [List.getElem?_tail, List.getElem?_modify] at found
    obtain ⟨e, -, rfl⟩ := Option.map_eq_some_iff.mp found
    rw [if_pos (by omega)]

theorem ackTurn_learns (core : Core isn s n) (is_open : Open s n) (range : InRange isn s) (out : s.base < s.sent)
    (within : s.sent ≤ s.accepted.length) (in_window : s.sent ≤ s.base + WINDOW)
    (known : s.base + 1 ∈ s.acks) (ahead : s.sent < s.accepted.length → s.base + 2 ≤ s.sent) :
    ∃ t, Steps WINDOW s t ∧ t.base = s.base + 1 ∧ t.accepted = s.accepted ∧ t.handed = s.handed ∧ t.acks = s.acks ∧
      Core isn t n.ackTurn ∧ Open t n.ackTurn ∧ SameConnection n n.ackTurn ∧
      (t.sent < t.accepted.length → t.base + 2 ≤ t.sent) := by
  obtain ⟨core', is_open', same, numbered⟩ := ackHead_learns core is_open range out within
  have base : (s.learn (s.base + 1)).base = s.base + 1 := Nat.max_eq_right (Nat.le_succ _)
  have learns : Step WINDOW s (s.learn (s.base + 1)) := .learn s known
  have length := is_open'.length
  have next_ : n.ackHead.nextpacket = ((s.sent - (s.base + 1) : Nat) : Int) := by
    rw [is_open'.nextpacket, base]
    change (s.sent : Int) - _ = _
    omega
  rw [base] at length
  change s.base + 1 + _ = s.accepted.length at length
  rcases Nat.lt_or_ge s.sent s.accepted.length with more | all
  · have bigger : n.ackHead.sizebuffer > n.ackHead.nextpacket := by
      rw [Socketnode.sizebuffer, next_]
      omega
    have room : s.sent - (s.base + 1) < n.ackHead.buffData.length := by omega
    obtain ⟨d, there⟩ : ∃ d, n.ackHead.buffData[s.sent - (s.base + 1)]? = some d :=
      ⟨_, List.getElem?_eq_getElem room⟩
    obtain ⟨number, data, -⟩ := core'.block _ d there
    rw [base, Nat.add_sub_cancel' out] at number data
    have is : n.ackTurn =
        { n.ackHead with
          buffData := n.ackHead.buffData, nextpacket := n.ackHead.nextpacket + 1
          timers := n.ackHead.timers ++ [.retransmitdata s.sent]
          sent := n.ackHead.sent ++ [packet .data (isn + 1 + s.sent) d.data] } := by
      rw [Socketnode.ackTurn]
      dsimp only
      rw [if_pos bigger, next_, Socketnode.sendData_found there, number]
      simp only [BufferData.packet, packet, numbered d there]
    have sends : Step WINDOW (s.learn (s.base + 1)) ((s.learn (s.base + 1)).send d.data) := by
      refine .send _ ?_ data
      rw [base]
      change s.sent < _
      omega
    have ahead_ := ahead more
    rw [is]
    refine ⟨_, .tail (.single learns) sends, base, rfl, rfl, rfl, core_send core' data ?_ _,
      open_send is_open' rfl ?_, ⟨same.state, same.seq, same.events⟩, fun _ => ?_⟩
    · intro i e found
      obtain ⟨number', data', seqno'⟩ := core'.block i e found
      refine ⟨number', data', fun small => ?_⟩
      rcases Nat.lt_succ_iff_lt_or_eq.mp small with before | now
      · exact seqno' before
      · rw [base] at now ⊢
        change _ = s.sent at now
        obtain rfl : i = s.sent - (s.base + 1) := by omega
        rw [now]
        exact numbered e found
    · rw [is_open'.nextpacket]
    · change (s.learn (s.base + 1)).base + 2 ≤ s.sent + 1
      rw [base]
      omega
  · have is : n.ackTurn = n.ackHead := by
      rw [Socketnode.ackTurn]
      apply if_neg
      rw [Socketnode.sizebuffer, next_]
      omega
    rw [is]
    exact ⟨_, .single learns, base, rfl, rfl, rfl, core', is_open', same, fun more => absurd more (Nat.not_lt.mpr all)⟩

/-- A run of the session in which the sender learns of acknowledgements and sends on. -/
structure Learned (s t : Session Data) : Prop where
  steps : Steps WINDOW s t
  accepted : t.accepted = s.accepted
  handed : t.handed = s.handed
  acks : t.acks = s.acks

theorem Learned.refl (s : Session Data) : Learned s s := ⟨.refl, rfl, rfl, rfl⟩

theorem acked_iff (core : Core isn s n) (is_open : Open s n) (range : InRange isn s)
    (ahead : s.sent < s.accepted.length → s.base + 2 ≤ s.sent) (holds : Holds WINDOW s) {k : Nat}
    (known : k ≤ s.handed.length) : n.acked (isn + 1 + k) = true ↔ s.base < k := by
  have length := is_open.length
  have inside := holds.sent_accepted
  have in_window := holds.in_window
  have handed_sent := holds.handed_sent
  by_cases none_left : n.buffData = []
  · rw [none_left, List.length_nil] at length
    have stops : n.acked (isn + 1 + k) = false := by
      rw [Socketnode.acked, Socketnode.sizebuffer, none_left]
      simp
    rw [stops]
    refine ⟨fun absurd_ => (Bool.false_ne_true absurd_).elim, fun early => ?_⟩
    omega
  · have positive := List.length_pos_iff.mpr none_left
    have out : s.base < s.sent := by omega
    rw [Socketnode.acked, head_seqno core range out inside none_left, Socketnode.sizebuffer]
    simp only [Bool.and_eq_true, decide_eq_true_eq]
    omega

theorem ackLoop_learns (fuel : Nat) (enough : n.buffData.length ≤ fuel) (core : Core isn s n) (is_open : Open s n)
    (range : InRange isn s) (ahead : s.sent < s.accepted.length → s.base + 2 ≤ s.sent) (holds : Holds WINDOW s)
    {k : Nat} (known : k ≤ s.handed.length) :
    ∃ t, Learned s t ∧ t.base = max s.base k ∧ Core isn t (Socketnode.ackLoop (isn + 1 + k) fuel n) ∧
      Open t (Socketnode.ackLoop (isn + 1 + k) fuel n) ∧
      SameConnection n (Socketnode.ackLoop (isn + 1 + k) fuel n) ∧
      (t.sent < t.accepted.length → t.base + 2 ≤ t.sent) := by
  have sent_accepted := holds.sent_accepted
  have handed_sent := holds.handed_sent
  induction fuel generalizing s n with
  | zero =>
    have length := is_open.length
    exact ⟨s, .refl s, (Nat.max_eq_left (by omega)).symm, core, is_open, .refl n, ahead⟩
  | succ fuel ih =>
    rw [Socketnode.ackLoop]
    rcases Nat.lt_or_ge s.base k with more | all
    · rw [if_pos ((acked_iff core is_open range ahead holds known).mpr more)]
      have next : s.base + 1 ∈ s.acks := holds.acked _ (Nat.succ_pos _) (Nat.le_trans more known)
      obtain ⟨t, steps, base, accepted, handed, acks, core', is_open', same, ahead'⟩ :=
        ackTurn_learns core is_open range (by omega) sent_accepted holds.in_window next ahead
      have holds' := steps_holds holds steps
      have length := is_open.length
      have length' := is_open'.length
      obtain ⟨u, learned, base', core'', is_open'', same', ahead''⟩ :=
        ih (by rw [accepted] at length'; omega) core' is_open' (by rw [InRange, accepted]; exact range) ahead' holds'
          (by rw [handed]; exact known) holds'.sent_accepted holds'.handed_sent
      refine ⟨u, ⟨steps.trans learned.steps, learned.accepted.trans accepted, learned.handed.trans handed,
        learned.acks.trans acks⟩, ?_, core'', is_open'', same.trans same', ahead''⟩
      rw [base', base]
      omega
    · rw [if_neg (fun acked => Nat.not_lt.mpr all ((acked_iff core is_open range ahead holds known).mp acked))]
      exact ⟨s, .refl s, (Nat.max_eq_left all).symm, core, is_open, .refl n, ahead⟩

end LiveStreaming.Rudp
