import LiveStreaming.Streamer.BackSource

/-!
# What a viewer is sent of a back source

The block that is handed over and the part of it that has been sent account for every byte that was
pulled, as long as the counter that all connections share is the one of the connection that pushes.
-/

namespace LiveStreaming.Streamer.BackSource
open Library

/-- What the viewer of every connection has been sent is a prefix of what was pulled for it. -/
def InOrder (s : BackSource) : Prop := ∀ c conn, s.connections c = some conn → conn.sent <+: conn.pulled

/-- A block is pulled when the one before has been pushed, and pushed where the shared counter says how
much of this block has been sent: what is left behind the counter is what is missing of the bytes pulled. -/
def InTurn (s : BackSource) : Event → Prop
  | .pull c socket => ∀ conn received, s.connections c = some conn → conn.pushFd ≠ none →
      readSpecifySize tagDataSize socket = some received → received.ret ≠ 0 → conn.data = none
  | .push c _ => ∀ conn data, s.connections c = some conn → conn.data = some data →
      s.totalBytes ≤ data.receivedBytes ∧ conn.sent.length + (data.receivedBytes - s.totalBytes) = conn.pulled.length
  | _ => True

/-- Where a connection stands between two calls: all that was pulled has been sent, or all but the rest of
one block, or there is nobody left to send to. -/
inductive Chunk (conn : Connection) : Prop where
  | between (data : conn.data = none) (all : conn.sent = conn.pulled)
  | within (data : StreamData) (before : List UInt8) (k : Nat) (known : conn.data = some data)
      (received : data.receivedBytes = data.stream.length) (pulled : conn.pulled = before ++ data.stream)
      (sent : conn.sent = before ++ data.stream.take k) (rest : k < data.stream.length)
  | closed (data : conn.data = none) (start : conn.sent <+: conn.pulled)
    (gone : conn.stage = .ended ∨ conn.pushFd = none)

theorem Chunk.sent_pulled {conn : Connection} (chunk : Chunk conn) : conn.sent <+: conn.pulled := by
  cases chunk with
  | between _ all =>
    rw [all]
  | within data before k _ _ pulled sent _ =>
    rw [pulled, sent]
    exact (List.prefix_append_right_inj before).mpr (List.take_prefix k data.stream)
  | closed _ start _ => exact start

def Chunks (s : BackSource) : Prop := ∀ c conn, s.connections c = some conn → Chunk conn

variable {s s' : BackSource} {c : Nat} {conn conn' : Connection}

theorem Chunks.update (chunks : Chunks s) (next : s'.connections = Function.update s.connections c (some conn'))
    (chunk : Chunk conn') : Chunks s' := by
  intro l other found
  rw [next, Function.update_apply] at found
  split at found
  · obtain rfl := Option.some.inj found
    exact chunk
  · exact chunks l other found

theorem Chunks.same (chunks : Chunks s) (next : s'.connections = s.connections) : Chunks s' := fun l other found =>
  chunks l other (next ▸ found)

theorem handOver_chunks (chunks : Chunks s) (worker : Nat) (header : SimpleRosehttpHeader) (requestFd localFd : Nat) :
    Chunks (s.handOver c worker header requestFd localFd) :=
  chunks.update rfl (.between rfl rfl)

theorem doViewerRequest_chunks (chunks : Chunks s) (header : SimpleRosehttpHeader) (requestFd : Nat)
    (localFd : Option Nat) (roundRobin : Nat) (pending : Bool) :
    Chunks (s.doViewerRequest c header requestFd localFd roundRobin pending) := by
  have request : Chunks (s.doTheBackingSourceRequest c header requestFd localFd roundRobin pending).2 := by
    unfold doTheBackingSourceRequest
    dsimp only
    split
    · exact chunks
    · split
      · exact chunks
      · split
        · split
          · exact chunks.same rfl
          · exact handOver_chunks (chunks.same rfl) _ _ _ _
        · split
          · exact chunks.same rfl
          · split
            · exact chunks.same rfl
            · exact handOver_chunks (chunks.same rfl) _ _ _ _
  unfold doViewerRequest
  split
  · next known =>
    rw [known] at request
    exact request
  · next known =>
    rw [known] at request
    exact request.same rfl

theorem Chunk.of_same (chunk : Chunk conn) (data : conn'.data = conn.data) (pulled : conn'.pulled = conn.pulled)
    (sent : conn'.sent = conn.sent) (gone : conn.stage = .ended ∨ conn.pushFd = none →
      conn'.stage = .ended ∨ conn'.pushFd = none) :
    Chunk conn' := by
  cases chunk with
  | between none_ all => exact .between (data.trans none_) (by rw [sent, pulled, all])
  | within d before k known received pulled_ sent_ rest =>
    exact .within d before k (data.trans known) received (pulled.trans pulled_) (sent.trans sent_) rest
  | closed none_ start ended => exact .closed (data.trans none_) (by rw [sent, pulled]; exact start) (gone ended)

theorem sendBackingResourceCb_chunks (chunks : Chunks s) (known : s.connections c = some conn) (request : List UInt8)
    (socket : List Socket.WriteEvent) : Chunks (s.sendBackingResourceCb c conn request socket) := by
  have stopped : Chunk { conn with request := none } := (chunks c conn known).of_same rfl rfl rfl id
  unfold sendBackingResourceCb
  split
  · exact chunks.update rfl stopped
  · split
    · exact chunks.same rfl
    · split
      · dsimp only
        split
        · exact chunks.update rfl stopped
        · exact chunks.same rfl
      · split
        · exact chunks.same rfl
        · exact chunks.update rfl stopped

theorem pullStreamCb_chunks (chunks : Chunks s) (known : s.connections c = some conn) (running : conn.stage = .relaying)
    {socket : List (Socket.ReadEvent UInt8)} (turn : InTurn s (.pull c socket))
    (next : s.pullStreamCb c conn socket = some s') : Chunks s' := by
  have chunk := chunks c conn known
  unfold pullStreamCb at next
  cases viewer : conn.pushFd with
  | none =>
    rw [viewer] at next
    dsimp only at next
    have ended : Chunk { conn with stage := .ended, pushFd := none } := chunk.of_same rfl rfl rfl fun _ => .inl rfl
    split at next
    · obtain rfl := Option.some.inj next
      exact chunks.same rfl
    · obtain rfl := Option.some.inj next
      refine chunks.update (c := c) ?_ ended
      split <;> rfl
  | some fd =>
    rw [viewer] at next
    obtain ⟨received, read, rfl⟩ := Option.map_eq_some_iff.mp next
    obtain ⟨_, stored⟩ := readSpecifySize_spec (by decide) read
    dsimp only
    split
    · split
      · exact chunks.same rfl
      · refine chunks.update rfl (.closed rfl ?_ (.inl rfl))
        exact chunk.sent_pulled.trans (List.prefix_append _ _)
    · next some_ =>
      obtain ⟨length, positive, _⟩ := stored.resolve_left fun nothing => some_ nothing.1
      have free := turn conn received known (by rw [viewer]; exact Option.some_ne_none fd) read some_
      have all : conn.sent = conn.pulled := by
        cases chunk with
        | between _ all => exact all
        | within data _ _ known =>
          rw [free] at known
          cases known
        | closed _ _ gone =>
          rcases gone with ended | none_
          · rw [running] at ended
            cases ended
          · rw [viewer] at none_
            cases none_
      refine chunks.update rfl (.within ⟨received.stored, received.ret⟩ conn.pulled 0 rfl length rfl ?_
        (length ▸ positive))
      rw [List.take_zero, List.append_nil]
      exact all

theorem pushed_front {data : StreamData} {before sent : List UInt8} {k : Nat} {socket : List Socket.WriteEvent}
    (so_far : sent = before ++ data.stream.take k) :
    ∃ j, sent ++ (writeSpecifySize (data.stream.drop k) socket).taken = before ++ data.stream.take j ∧
      ∀ n, (writeSpecifySize (data.stream.drop k) socket).ret = some n → j = k + n := by
  obtain ⟨start, result⟩ := writeSpecifySize_spec (data.stream.drop k) socket
  refine ⟨k + (writeSpecifySize (data.stream.drop k) socket).taken.length, ?_, ?_⟩
  · rw [so_far, List.append_assoc, List.take_add, ← List.prefix_iff_eq_take.mp start]
  · intro n returned
    rw [returned] at result
    rw [← Option.some.inj (result.resolve_left (Option.some_ne_none n))]

theorem pushStreamCb_chunks (chunks : Chunks s) (known : s.connections c = some conn) {socket : List Socket.WriteEvent}
    (turn : InTurn s (.push c socket)) : Chunks (s.pushStreamCb c conn socket) := by
  unfold pushStreamCb
  split
  · next data fd block viewer =>
    obtain ⟨small, missing⟩ := turn conn data known block
    obtain ⟨before, k, received, pulled, sent, rest⟩ : ∃ before k, data.receivedBytes = data.stream.length ∧
        conn.pulled = before ++ data.stream ∧ conn.sent = before ++ data.stream.take k ∧ k < data.stream.length := by
      cases chunks c conn known with
      | between none_ => rw [block] at none_; cases none_
      | within data' before k block' received pulled sent rest =>
        obtain rfl : data = data' := Option.some.inj (block.symm.trans block')
        exact ⟨before, k, received, pulled, sent, rest⟩
      | closed none_ => rw [block] at none_; cases none_
    have counter : s.totalBytes = k := by
      rw [pulled, sent, List.length_append, List.length_append, List.length_take, received] at missing
      omega
    rw [if_neg (by omega), if_neg (by omega), counter]
    obtain ⟨j, after, moved⟩ := @pushed_front data before conn.sent k socket sent
    dsimp only
    split
    · split
      · exact chunks.same rfl
      · refine chunks.update rfl (.closed rfl ?_ (.inr rfl))
        show conn.sent ++ _ <+: conn.pulled
        rw [after, pulled]
        exact (List.prefix_append_right_inj before).mpr (List.take_prefix j data.stream)
    · next n returned =>
      obtain rfl := moved n returned
      split
      · next full =>
        refine chunks.update rfl (.between rfl ?_)
        show conn.sent ++ _ = conn.pulled
        rw [after, pulled, full, received, List.take_length]
      · next short =>
        have within : k + n < data.stream.length := by
          obtain ⟨start, result⟩ := writeSpecifySize_spec (data.stream.drop k) socket
          rw [returned] at result
          have length := Option.some.inj (result.resolve_left (Option.some_ne_none n))
          have bound := start.length_le
          rw [← length, List.length_drop] at bound
          omega
        exact chunks.update rfl (.within data before (k + n) block received pulled after within)
  · exact chunks.same rfl

theorem step_chunks {e : Event} (chunks : Chunks s) (turn : InTurn s e) (next : step s e = some s') : Chunks s' := by
  unfold step at next
  split at next
  · cases next
  cases e with
  | request c header requestFd localFd roundRobin pending =>
    dsimp only at next
    split at next
    · obtain rfl := Option.some.inj next
      exact doViewerRequest_chunks chunks header requestFd localFd roundRobin pending
    · cases next
  | asyncRead c =>
    obtain ⟨conn, known, next⟩ := Option.bind_eq_some_iff.mp next
    split at next
    · next waiting =>
      obtain rfl := Option.some.inj next
      refine chunks.update rfl ((chunks c conn known).of_same rfl rfl rfl fun gone => .inr ?_)
      exact gone.resolve_left fun ended => by
        rw [waiting] at ended
        cases ended
    · cases next
  | send c socket =>
    obtain ⟨conn, known, next⟩ := Option.bind_eq_some_iff.mp next
    split at next
    · cases next
    · obtain ⟨request, _, rfl⟩ := Option.map_eq_some_iff.mp next
      exact sendBackingResourceCb_chunks chunks known request socket
  | pull c socket =>
    obtain ⟨conn, known, next⟩ := Option.bind_eq_some_iff.mp next
    split at next
    · next running => exact pullStreamCb_chunks chunks known running turn next
    · cases next
  | push c socket =>
    obtain ⟨conn, known, next⟩ := Option.bind_eq_some_iff.mp next
    split at next
    · obtain rfl := Option.some.inj next
      exact pushStreamCb_chunks chunks known turn
    · cases next

/-- As long as each block is pulled and pushed in its turn, every viewer has been sent a prefix of the bytes
that were pulled for it. -/
theorem backSource_in_order {workers : Nat} (run : Transition.Reach step InTurn (start workers) s) : InOrder s := by
  have chunks : Chunks s := run.invariant (fun c conn found => by cases found)
    fun _ _ _ chunks turn next => step_chunks chunks turn next
  exact fun c conn found => (chunks c conn found).sent_pulled

theorem backSource_in_order_sample : ∃ s conn, InOrder s ∧ s.connections 0 = some conn ∧ conn.sent = [5, 6, 7, 8] := by
  have order := @backSource_in_order _ 1 <|
    .tail (e := .push 0 [.accept 10]) (.tail (e := .push 0 [.accept 1, .eagain])
      (.tail (e := .pull 0 [.data 5 [6, 7, 8], .eagain]) (.tail (e := .asyncRead 0)
        (.tail (e := .request 0 sampleHeader 10 (some 11) 0 false) .refl trivial rfl) trivial rfl)
        (fun conn _ known _ _ _ => by
          obtain rfl := Option.some.inj known
          rfl) rfl)
      (fun conn data known block => by
        obtain rfl := Option.some.inj known
        obtain rfl := Option.some.inj block
        decide) rfl)
    (fun conn data known block => by
      obtain rfl := Option.some.inj known
      obtain rfl := Option.some.inj block
      decide) rfl
  exact ⟨_, _, order, rfl, rfl⟩

/-- Viewer 0's block is half sent when a block is pushed to viewer 1 for the first time. -/
def halfWay : List Event :=
  opening ++ [.pull 0 [.data 5 [6, 7, 8], .eagain], .push 0 [.accept 1, .eagain],
    .request 1 sampleHeader 12 (some 13) 0 false, .asyncRead 1, .pull 1 [.data 15 [16, 17, 18], .eagain],
    .push 1 [.accept 10]]

theorem shared_counter_skips :
    ¬ ∀ s, Transition.Reach step (fun _ _ => True) (start 1) s → InOrder s := by
  intro inOrder
  obtain ⟨s, ran, conn, known, sent, pulled⟩ : ∃ s, Transition.exec step (start 1) halfWay = some s ∧
      ∃ conn, s.connections 1 = some conn ∧ conn.sent = [17, 18] ∧ conn.pulled = [15, 16, 17, 18] :=
    ⟨_, rfl, _, rfl, rfl, rfl⟩
  have start := inOrder s (Transition.reach_of_exec .refl (fun _ _ _ => trivial) ran) 1 conn known
  rw [sent, pulled] at start
  exact absurd start (by decide)

end LiveStreaming.Streamer.BackSource
