import LiveStreaming.Library.JsonNumber
import LiveStreaming.Library.Transition
import LiveStreaming.XtraRtmp.NetUtil

/-!
# The load generator

One connection of `FuckStreamer`: a request, and behind it the blocks of the media file. A block is read into the
connection's record when the last one has been sent to its end.
-/

namespace LiveStreaming.FuckStreamer
open Library CString Transition

def writeSpecifySize := Streamer.writeSpecifySize
def writeSpecifySize2 := XtraRtmp.writeSpecifySize2

/-- The size of `stream`. -/
def streamSize : Nat := 1024 * 200

/-- Of the file that `handler` stands for, what has still to be read. -/
structure ConnInfo where
  first : Bool
  handler : List UInt8
  stream : List UInt8
  sentBytes : Nat

/-- `fread` of one item as large as `stream`: what is in `stream` then, the rest of the file, and whether it returns 1.
A shorter rest is read too, but is no item. -/
def freadStream (stream file : List UInt8) : List UInt8 × List UInt8 × Bool :=
  if streamSize ≤ file.length then (file.take streamSize, file.drop streamSize, true)
  else (file ++ stream.drop file.length, [], false)

/-- One connection: its entry in `ConnInfoPool_`, the bytes written on the socket, and whether an entry has been used
after `erase`. -/
structure Connection where
  info : Option ConnInfo
  written : List UInt8
  usedErased : Bool

/-- `initConn` on a connection that has been made: with less than a block there is no entry. -/
def initConn (mediaFile garbage : List UInt8) : Connection :=
  match freadStream garbage mediaFile with
  | (stream, handler, true) => ⟨some ⟨true, handler, stream, 0⟩, [], false⟩
  | (_, _, false) => ⟨none, [], false⟩

def post (sockFd : Nat) : List UInt8 :=
  ascii "POST MLGB/live?channel=" ++ JsonNumber.decimal sockFd ++ ascii " HTTP/1.1" ++ [13, 10, 13, 10]

/-- What `epoll_wait` reports of the connection: `EPOLLOUT`, with what its `write` calls meet, or `EPOLLERR` alone. -/
inductive Event where
  | writable (socket : List Socket.WriteEvent)
  | broken

/-- The write from `stream`. -/
def sendStream (s : Connection) (info : ConnInfo) (socket : List Socket.WriteEvent) : Connection :=
  let sent := writeSpecifySize (info.stream.drop info.sentBytes) socket
  match sent.ret with
  | some n =>
    { s with info := some { info with sentBytes := info.sentBytes + n }, written := s.written ++ sent.taken }
  | none => { s with info := none, written := s.written ++ sent.taken }

/-- The body of `serveForever` for an event of the connection. What happens after an erased entry has been used is open,
and so is a request that the socket never takes. -/
def serveForever (sockFd : Nat) (s : Connection) (event : Event) : Option Connection :=
  if s.usedErased then none
  else
    match event with
    | .writable socket =>
      match s.info with
      | none => some s
      | some info =>
        if info.first then
          (writeSpecifySize2 (post sockFd) socket).map fun sent =>
            { s with info := some { info with first := false }, written := s.written ++ sent.taken }
        else if info.sentBytes = streamSize then
          match freadStream info.stream info.handler with
          | (stream, handler, true) => some (sendStream s { info with stream, handler, sentBytes := 0 } socket)
          -- the entry is erased, and the write goes on from it
          | (_, _, false) => some { s with info := none, usedErased := true }
        else some (sendStream s info socket)
    | .broken => some { s with info := none, usedErased := s.info.isNone }

/-- A socket that takes what it takes in parts, but never fails. -/
def Partial : Event → Prop
  | .writable socket => ∀ w ∈ socket, w ≠ .error ∧ w ≠ .zero
  | .broken => False

/-- The request and the whole file have been written, and the entry that is gone has been left alone. -/
def Delivered (sockFd : Nat) (mediaFile : List UInt8) (s : Connection) : Prop :=
  s.written = post sockFd ++ mediaFile ∧ s.usedErased = false

/-! ### Writing -/

section Writing

variable {buffer taken : List UInt8} {socket : List Socket.WriteEvent}

theorem writeSpecifySizeLoop_quiet (quiet : ∀ w ∈ socket, w ≠ .error ∧ w ≠ .zero) :
    (Streamer.writeSpecifySizeLoop buffer taken socket).ret ≠ none := by
  induction socket generalizing buffer taken with
  | nil => exact Option.some_ne_none _
  | cons event socket ih =>
    rw [List.forall_mem_cons] at quiet
    obtain ⟨now, later⟩ := quiet
    rw [Streamer.writeSpecifySizeLoop]
    split
    · exact Option.some_ne_none _
    · exact Option.some_ne_none _
    · exact Option.some_ne_none _
    · next failed =>
      cases event with
      | error => exact absurd rfl now.1
      | _ => cases failed
    · split
      · exact Option.some_ne_none _
      · exact ih later

/-- Where the socket does not fail, the call returns how much of the front of the buffer it has taken. -/
theorem writeSpecifySize_quiet (buffer : List UInt8) (quiet : ∀ w ∈ socket, w ≠ .error ∧ w ≠ .zero) :
    ∃ n ≤ buffer.length, (writeSpecifySize buffer socket).ret = some n ∧
      (writeSpecifySize buffer socket).taken = buffer.take n := by
  obtain ⟨front, result⟩ := Streamer.writeSpecifySize_spec buffer socket
  exact ⟨_, front.length_le, result.resolve_left (writeSpecifySizeLoop_quiet quiet), List.prefix_iff_eq_take.mp front⟩

theorem writeSpecifySize2Loop_quiet (quiet : ∀ w ∈ socket, w ≠ .error ∧ w ≠ .zero) (filled : buffer ≠ [])
    {r : Streamer.Sent} (done : XtraRtmp.writeSpecifySize2Loop buffer taken socket = some r) : r.ret ≠ none := by
  induction socket generalizing buffer taken with
  | nil => cases done
  | cons event socket ih =>
    rw [List.forall_mem_cons] at quiet
    obtain ⟨now, later⟩ := quiet
    have positive := List.length_pos_of_ne_nil filled
    rw [XtraRtmp.writeSpecifySize2Loop] at done
    split at done
    · next nothing =>
      cases event with
      | accept n =>
        have taken : min (n + 1) buffer.length = 0 := Socket.WriteResult.sent.inj nothing
        omega
      | zero => exact absurd rfl now.2
      | _ => cases nothing
    · next failed =>
      cases event with
      | error => exact absurd rfl now.1
      | _ => cases failed
    · exact ih later filled done
    · exact ih later filled done
    · split at done
      · obtain rfl := Option.some.inj done
        exact Option.some_ne_none _
      · next left =>
        exact ih later (fun none => left (by rw [← List.length_drop, none]; rfl)) done

theorem post_ne_nil (sockFd : Nat) : post sockFd ≠ [] := by
  unfold post
  simp

theorem writeSpecifySize2_quiet {sockFd : Nat} (quiet : ∀ w ∈ socket, w ≠ .error ∧ w ≠ .zero) {r : Streamer.Sent}
    (done : writeSpecifySize2 (post sockFd) socket = some r) : r.taken = post sockFd :=
  (XtraRtmp.writeSpecifySize2_spec done).2.resolve_left (writeSpecifySize2Loop_quiet quiet (post_ne_nil sockFd) done)

end Writing

/-! ### What has been written -/

/-- Of an entry: the file is what earlier blocks held, the block in `stream` and what is still to be read. -/
structure InStep (sockFd : Nat) (mediaFile : List UInt8) (info : ConnInfo) (written : List UInt8) : Prop where
  block : info.stream.length = streamSize
  within : info.sentBytes ≤ streamSize
  sent : ∃ before, mediaFile = before ++ info.stream ++ info.handler ∧
    if info.first then written = [] ∧ before = [] ∧ info.sentBytes = 0
    else written = post sockFd ++ before ++ info.stream.take info.sentBytes

/-- In a run of partial writes an entry is in step with the file. When there is none, the file was shorter than a block,
or its rest is, and the erased entry has been used. -/
structure Served (sockFd : Nat) (mediaFile : List UInt8) (s : Connection) : Prop where
  entry : ∀ info, s.info = some info → InStep sockFd mediaFile info s.written
  gone : s.info = none → (s.usedErased = false ∧ s.written = [] ∧ mediaFile.length < streamSize) ∨
    (s.usedErased = true ∧ ∃ rest, post sockFd ++ mediaFile = s.written ++ rest ∧ rest.length < streamSize)

variable {sockFd : Nat} {mediaFile garbage : List UInt8} {info : ConnInfo} {s s' : Connection}
  {socket : List Socket.WriteEvent}

theorem served_initConn (sockFd : Nat) (mediaFile garbage : List UInt8) :
    Served sockFd mediaFile (initConn mediaFile garbage) := by
  unfold initConn freadStream
  by_cases whole : streamSize ≤ mediaFile.length
  · rw [if_pos whole]
    refine ⟨fun info entry => ?_, fun none => by cases none⟩
    obtain rfl := Option.some.inj entry
    refine ⟨List.length_take_of_le whole, Nat.zero_le _, [], ?_, ?_⟩
    · rw [List.nil_append, List.take_append_drop]
    · exact ⟨rfl, rfl, rfl⟩
  · rw [if_neg whole]
    refine ⟨fun info entry => (by cases entry), fun _ => .inl ⟨rfl, rfl, by omega⟩⟩

theorem served_sendStream (inStep : InStep sockFd mediaFile info s.written) (sending : info.first = false)
    (quiet : ∀ w ∈ socket, w ≠ .error ∧ w ≠ .zero) : Served sockFd mediaFile (sendStream s info socket) := by
  obtain ⟨block, within, before, split, sent⟩ := inStep
  obtain ⟨n, fits, returned, taken⟩ := writeSpecifySize_quiet (info.stream.drop info.sentBytes) quiet
  rw [sending] at sent
  unfold sendStream
  dsimp only
  rw [returned, taken]
  refine ⟨fun next entry => ?_, fun none => by cases none⟩
  obtain rfl := Option.some.inj entry
  rw [List.length_drop, block] at fits
  refine ⟨block, ?_, before, split, ?_⟩
  · dsimp only
    omega
  · rw [sending]
    dsimp only
    rw [sent, List.take_add, List.append_assoc (post sockFd ++ before)]
    rfl

/-- The next block takes the place of one that has been sent. -/
theorem inStep_refill {written : List UInt8} (inStep : InStep sockFd mediaFile info written)
    (sending : info.first = false) (full : info.sentBytes = streamSize) (whole : streamSize ≤ info.handler.length) :
    InStep sockFd mediaFile
      { info with stream := info.handler.take streamSize, handler := info.handler.drop streamSize, sentBytes := 0 }
      written := by
  obtain ⟨block, within, before, split, sent⟩ := inStep
  rw [sending, full] at sent
  refine ⟨List.length_take_of_le whole, Nat.zero_le _, before ++ info.stream, ?_, ?_⟩
  · dsimp only
    rw [split, List.append_assoc, List.append_assoc, List.append_assoc, List.take_append_drop]
  · dsimp only
    rw [sending]
    simp only [Bool.false_eq_true, if_false] at sent ⊢
    rw [sent, ← block, List.take_length, List.take_zero, List.append_nil, List.append_assoc]

theorem served_step (served : Served sockFd mediaFile s) {event : Event} (partially : Partial event)
    (next : serveForever sockFd s event = some s') : Served sockFd mediaFile s' := by
  cases event with
  | broken => exact partially.elim
  | writable socket =>
    unfold serveForever at next
    split at next
    · cases next
    · dsimp only at next
      split at next
      · obtain rfl := Option.some.inj next
        exact served
      · next info entry =>
        obtain ⟨block, within, before, split, sent⟩ := served.entry info entry
        split at next
        · next first =>
          obtain ⟨result, done, rfl⟩ := Option.map_eq_some_iff.mp next
          rw [first] at sent
          obtain ⟨nothing, rfl, zero⟩ := sent
          refine ⟨fun info' entry' => ?_, fun none => by cases none⟩
          obtain rfl := Option.some.inj entry'
          refine ⟨block, within, [], split, ?_⟩
          dsimp only
          rw [writeSpecifySize2_quiet partially done, nothing, zero]
          simp
        · next sending =>
          have sending := eq_false_of_ne_true sending
          split at next
          · next full =>
            unfold freadStream at next
            rw [sending, full] at sent
            by_cases whole : streamSize ≤ info.handler.length
            · rw [if_pos whole] at next
              obtain rfl := Option.some.inj next
              exact served_sendStream (inStep_refill (served.entry info entry) sending full whole) sending partially
            · rw [if_neg whole] at next
              obtain rfl := Option.some.inj next
              refine ⟨fun info' entry' => (by cases entry'), fun _ => .inr ⟨rfl, info.handler, ?_, by omega⟩⟩
              dsimp only
              simp only [Bool.false_eq_true, if_false] at sent
              rw [sent, split, ← block, List.take_length]
              simp
          · obtain rfl := Option.some.inj next
            exact served_sendStream (served.entry info entry) sending partially

theorem served_run (run : Reach (serveForever sockFd) (fun _ e => Partial e) (initConn mediaFile garbage) s) :
    Served sockFd mediaFile s :=
  run.invariant (served_initConn sockFd mediaFile garbage) fun _ _ _ served partially next =>
    served_step served partially next

/-! ### Every connection comes to its end -/

theorem write_accepts {buffer : List UInt8} {n : Nat} (fits : buffer.length ≤ n + 1) :
    (Socket.write buffer.length [.accept n]).1 = .sent buffer.length :=
  congrArg Socket.WriteResult.sent (min_eq_right fits)

theorem writeSpecifySize_accepts {buffer : List UInt8} {n : Nat} (filled : buffer ≠ []) (fits : buffer.length ≤ n + 1) :
    writeSpecifySize buffer [.accept n] = ⟨some buffer.length, buffer, []⟩ := by
  have positive := List.length_pos_of_ne_nil filled
  unfold writeSpecifySize Streamer.writeSpecifySize Streamer.writeSpecifySizeLoop
  rw [write_accepts fits]
  split
  · next nothing => exact absurd (Socket.WriteResult.sent.inj nothing) (by omega)
  · next again => cases again
  · next again => cases again
  · next failed => cases failed
  · next taken =>
    obtain rfl := Socket.WriteResult.sent.inj taken
    rw [if_pos (Nat.sub_self _), List.take_length]
    rfl

theorem writeSpecifySize2_accepts {buffer : List UInt8} {n : Nat} (filled : buffer ≠ [])
    (fits : buffer.length ≤ n + 1) :
    writeSpecifySize2 buffer [.accept n] = some ⟨some buffer.length, buffer, []⟩ := by
  have positive := List.length_pos_of_ne_nil filled
  unfold writeSpecifySize2 XtraRtmp.writeSpecifySize2 XtraRtmp.writeSpecifySize2Loop
  rw [write_accepts fits]
  split
  · next nothing => exact absurd (Socket.WriteResult.sent.inj nothing) (by omega)
  · next failed => cases failed
  · next again => cases again
  · next again => cases again
  · next taken =>
    obtain rfl := Socket.WriteResult.sent.inj taken
    rw [if_pos (Nat.sub_self _), List.take_length]
    rfl

theorem sendStream_accepts (whole : info.stream.length = streamSize) (start : info.sentBytes = 0) :
    sendStream s info [.accept streamSize] =
      { s with info := some { info with sentBytes := streamSize }, written := s.written ++ info.stream } := by
  have filled : info.stream ≠ [] := by
    intro empty
    rw [empty] at whole
    cases whole
  unfold sendStream
  rw [start, List.drop_zero, writeSpecifySize_accepts filled (by omega), whole]
  dsimp only
  rw [Nat.zero_add]

theorem partial_accept (n : Nat) : Partial (.writable [.accept n]) := by
  intro w member
  rw [List.mem_singleton.mp member]
  exact ⟨Socket.WriteEvent.noConfusion, Socket.WriteEvent.noConfusion⟩

/-- The blocks that are left go out one by one, and behind the last the entry is erased. -/
theorem reach_removed {left : Nat}
    (run : Reach (serveForever sockFd) (fun _ e => Partial e) (initConn mediaFile garbage) s)
    (fresh : s.usedErased = false) (entry : s.info = some info) (sending : info.first = false)
    (full : info.sentBytes = streamSize) (length : info.handler.length = left) :
    ∃ s, Reach (serveForever sockFd) (fun _ e => Partial e) (initConn mediaFile garbage) s ∧ s.info = none := by
  induction left using Nat.strong_induction_on generalizing s info with
  | _ left ih =>
    by_cases whole : streamSize ≤ info.handler.length
    · have next : serveForever sockFd s (.writable [.accept streamSize]) =
          some (sendStream s { info with stream := info.handler.take streamSize
                                         handler := info.handler.drop streamSize, sentBytes := 0 }
            [.accept streamSize]) := by
        unfold serveForever freadStream
        simp only [fresh, entry, sending, full, Bool.false_eq_true, if_false, if_true, if_pos whole]
      rw [sendStream_accepts (List.length_take_of_le whole) rfl] at next
      have positive : 0 < streamSize := by decide
      exact ih (left - streamSize) (by omega) (run.tail (partial_accept _) next) fresh rfl sending rfl
        (by rw [List.length_drop, length])
    · have next : serveForever sockFd s (.writable [.accept streamSize]) =
          some { s with info := none, usedErased := true } := by
        unfold serveForever freadStream
        simp only [fresh, entry, sending, full, Bool.false_eq_true, if_false, if_true, if_neg whole]
      exact ⟨_, run.tail (partial_accept _) next, rfl⟩

theorem removed_reached (sockFd : Nat) (mediaFile garbage : List UInt8) :
    ∃ s, Reach (serveForever sockFd) (fun _ e => Partial e) (initConn mediaFile garbage) s ∧ s.info = none := by
  by_cases whole : streamSize ≤ mediaFile.length
  · have start : initConn mediaFile garbage =
        ⟨some ⟨true, mediaFile.drop streamSize, mediaFile.take streamSize, 0⟩, [], false⟩ := by
      unfold initConn freadStream
      rw [if_pos whole]
    have asked : serveForever sockFd (initConn mediaFile garbage) (.writable [.accept (post sockFd).length]) =
        some ⟨some ⟨false, mediaFile.drop streamSize, mediaFile.take streamSize, 0⟩, post sockFd, false⟩ := by
      rw [start, serveForever]
      simp only [Bool.false_eq_true, if_false, if_true]
      rw [writeSpecifySize2_accepts (post_ne_nil sockFd) (Nat.le_succ _)]
      rfl
    have sent : serveForever sockFd
        ⟨some ⟨false, mediaFile.drop streamSize, mediaFile.take streamSize, 0⟩, post sockFd, false⟩
        (.writable [.accept streamSize]) =
        some ⟨some ⟨false, mediaFile.drop streamSize, mediaFile.take streamSize, streamSize⟩,
          post sockFd ++ mediaFile.take streamSize, false⟩ := by
      rw [serveForever]
      simp only [Bool.false_eq_true, if_false]
      rw [if_neg (by decide), sendStream_accepts (List.length_take_of_le whole) rfl]
    have posted : Reach (serveForever sockFd) (fun _ e => Partial e) (initConn mediaFile garbage) _ :=
      .tail .refl (partial_accept _) asked
    have drained : Reach (serveForever sockFd) (fun _ e => Partial e) (initConn mediaFile garbage) _ :=
      .tail posted (partial_accept _) sent
    exact reach_removed drained rfl rfl rfl rfl rfl
  · refine ⟨_, .refl, ?_⟩
    unfold initConn freadStream
    rw [if_neg whole]

/-- Whatever the file, every connection comes to be without its entry, and then either the file has not been written or
the erased entry has been used. -/
theorem delivered_never (sockFd : Nat) (mediaFile garbage : List UInt8) :
    (∃ s, Reach (serveForever sockFd) (fun _ e => Partial e) (initConn mediaFile garbage) s ∧ s.info = none) ∧
      ∀ s, Reach (serveForever sockFd) (fun _ e => Partial e) (initConn mediaFile garbage) s → s.info = none →
        ¬ Delivered sockFd mediaFile s := by
  refine ⟨removed_reached sockFd mediaFile garbage, ?_⟩
  rintro s run gone ⟨written, alone⟩
  rcases (served_run run).gone gone with ⟨_, nothing, _⟩ | ⟨used, _⟩
  · rw [nothing] at written
    have empty := (List.append_eq_nil_iff.mp written.symm).1
    exact post_ne_nil sockFd empty
  · rw [used] at alone
    cases alone

/-- A file of just one block. -/
theorem delivered_refuted : ¬ ∀ s, Reach (serveForever 5) (fun _ e => Partial e)
    (initConn (List.replicate streamSize 0) (List.replicate streamSize 0)) s → s.info = none →
      Delivered 5 (List.replicate streamSize 0) s := by
  intro delivers
  obtain ⟨s, run, gone⟩ := removed_reached 5 (List.replicate streamSize 0) (List.replicate streamSize 0)
  obtain ⟨written, alone⟩ := delivers s run gone
  rcases (served_run run).gone gone with ⟨_, _, short⟩ | ⟨used, _⟩
  · rw [List.length_replicate] at short
    exact absurd short (lt_irrefl _)
  · rw [used] at alone
    cases alone

end LiveStreaming.FuckStreamer
