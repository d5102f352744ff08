import LiveStreaming.XtraRtmp.ConsultRuns

/-!
# Commands over whole runs

As long as nobody is left in the middle of a message when another connection is read, and messages fit
their array, each connection has dispatched the commands of its own bytes.
-/

namespace LiveStreaming.XtraRtmp
open Library Library.EarlyExit Streamer

theorem WellSent.advance {message received arriving : List UInt8} (sent : WellSent message (received ++ arriving)) :
    WellSent (message ++ received) arriving where
  room := by
    intro bytes start within
    rw [List.append_assoc] at within ⊢
    exact sent.room _ ((List.prefix_append_right_inj _).mpr start) within
  ends := by
    intro bytes start positive whole
    rw [List.append_assoc] at positive whole ⊢
    obtain ⟨more, rest, complete, bound⟩ := sent.ends _ ((List.prefix_append_right_inj _).mpr start) positive whole
    rw [List.append_assoc, List.prefix_append_right_inj] at rest
    exact ⟨more, rest, complete, bound⟩
  inside := by
    intro bytes start complete
    rw [List.append_assoc] at complete ⊢
    exact sent.inside _ ((List.prefix_append_right_inj _).mpr start) complete

theorem consultCallback_accepted {s : ConsultStatics} {message : List UInt8} {socket : List (Socket.ReadEvent UInt8)}
    (stage : Stage s message) (sent : WellSent message (Socket.arriving socket)) (staleErrno : Bool)
    (stack : Nat → UInt8) (answer : Int) : Accepted message (consultCallback s socket staleErrno stack answer) := by
  have ends : Ends (Accepted message)
      (fun q : ConsultProgress => ∀ next, next ≠ .refused → Settled message q.statics ⟨q.received, q.dispatched, next⟩)
      (readChunkBasicHeader staleErrno ⟨s, socket, [], []⟩ >>= readChunkMsgHeader >>= readAmfPayload stack answer) := by
    refine Ends.bind (Ends.bind (readChunkBasicHeader_ends staleErrno stage) fun p begins => ?_) fun q ready => ready
    refine (readChunkMsgHeader_ends begins).mono (fun _ => id) ?_
    rintro q ⟨rfl, stage, header⟩
    rw [begins.stream] at sent
    exact readAmfPayload_ends stack answer begins.silent begins.opened stage header sent.advance
  unfold consultCallback
  split
  · next left ran =>
    rw [ran] at ends
    exact ends
  · next p ran =>
    rw [ran] at ends
    refine ends _ ?_
    split <;> simp

namespace ConsultServer

def pending (connection : ConsultConnection) : List UInt8 := (assemble connection.received).2

/-- The connection has left nothing in the static variables. -/
def Idle (connection : ConsultConnection) : Prop := pending connection = [] ∧ connection.phase ≠ .refused

/-- Every command is one of the connection's own bytes, and no call has left the array or those bytes. -/
structure Consulted (s : ConsultServer) : Prop where
  own : ∀ client connection, s.connections client = some connection →
    connection.dispatched = commands connection.received
  inside : s.outside = false

/-- No other connection is in the middle of a message, whether it waits for the rest, has been closed there or
was refused over it; and the connection's own bytes make a message that fits. -/
def Undisturbed (s : ConsultServer) : Event → Prop
  | .consult _ => True
  | .readable client socket _ _ _ => OthersIdle Idle s.connections client ∧
      ∀ connection, s.connections client = some connection → WellSent (pending connection) (Socket.arriving socket)

/-- The static variables remember the message of the connection, should it be read again. -/
def Holds (s : ConsultStatics) (connection : ConsultConnection) : Prop :=
  connection.phase = .reading → Stage s (pending connection)

structure Inv (s : ConsultServer) : Prop where
  exclusive : Exclusive Holds Idle (Stage · []) s.statics s.connections
  consulted : Consulted s

variable {s s' : ConsultServer}

theorem start_inv : Inv start where
  exclusive := .none (.fresh List.length_replicate rfl rfl rfl rfl rfl rfl)
  consulted := ⟨fun client connection found => (by cases found), rfl⟩

theorem Inv.consult {client : Nat} (inv : Inv s) (next : step s (.consult client) = some s') : Inv s' := by
  rw [step] at next
  split at next
  · next new =>
    obtain rfl := Option.some.inj next
    refine ⟨inv.exclusive.join new ⟨rfl, by simp⟩, fun other connection found => ?_, inv.consulted.inside⟩
    rcases Exclusive.updated found with ⟨_, rfl⟩ | ⟨_, found⟩
    · rfl
    · exact inv.consulted.own other connection found
  · cases next

theorem Inv.readable {client : Nat} {socket : List (Socket.ReadEvent UInt8)} {staleErrno : Bool} {stack : Nat → UInt8}
    {answer : Int} (inv : Inv s) (undisturbed : s.Undisturbed (.readable client socket staleErrno stack answer))
    (next : step s (.readable client socket staleErrno stack answer) = some s') : Inv s' := by
  obtain ⟨others, sent⟩ := undisturbed
  rw [step] at next
  split at next
  · next c found =>
    split at next
    · next reading =>
      have holds : Holds s.statics c := inv.exclusive.own (fun a idle fresh _ => by rwa [idle.1]) found others
      have accepted := consultCallback_accepted (holds reading) (sent c found) staleErrno stack answer
      have own := inv.consulted.own client c found
      split at next
      · cases next
      · next outside =>
        rw [outside] at accepted
        exact accepted.elim
      · next statics call returned =>
        obtain rfl := Option.some.inj next
        rw [returned] at accepted
        obtain ⟨done, rest, framed, dispatched, reads, fresh⟩ := accepted
        have assembled : assemble (c.received ++ call.received) = ((assemble c.received).1 ++ done, rest) := by
          rw [assemble_append, ← framed]
          rfl
        have pending_ : pending (after c call) = rest := congrArg Prod.snd assembled
        refine ⟨.called others (fun _ reading => ?_) (fun idle => ?_), fun other d found => ?_, inv.consulted.inside⟩
        · rw [pending_]
          exact reads reading
        · exact fresh (pending_.symm.trans idle.1) idle.2
        · rcases Exclusive.updated found with ⟨_, rfl⟩ | ⟨_, found⟩
          · show c.dispatched ++ call.dispatched = (assemble (c.received ++ call.received)).1.filterMap commandOf
            rw [assembled, own, dispatched, List.filterMap_append]
            rfl
          · exact inv.consulted.own other d found
    · cases next
  · cases next

theorem step_inv {e : Event} (inv : Inv s) (undisturbed : s.Undisturbed e) (next : step s e = some s') : Inv s' := by
  cases e with
  | consult client => exact inv.consult next
  | readable client socket staleErrno stack answer => exact inv.readable undisturbed next

end ConsultServer

end LiveStreaming.XtraRtmp
