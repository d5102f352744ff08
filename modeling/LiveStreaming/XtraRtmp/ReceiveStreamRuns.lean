import LiveStreaming.Library.Transition
import LiveStreaming.XtraRtmp.ReceiveStreamCall

/-!
# Calls until the stream ends

Every call begins where the last one has left the static variables, and reads on in the stream of messages.
-/

namespace LiveStreaming.XtraRtmp.ReceiveStream
open Library Streamer ChunkStream

variable {socket₀ socket : List (Socket.ReadEvent UInt8)} {todo₀ todo : Bytes} {messages before after : List Message}
  {m : Message} {s : Statics} {c : Call}

/-! ### A call -/

theorem message_sound (split : messages = before ++ m :: after) (recognisable : Recognisable before m) (fresh : Fresh s)
    (knows : Knows s before) (faces : Faces socket₀ todo₀ ⟨s, socket, []⟩ (m.bytes ++ stream after))
    (whole : m.format = .type2 → ∀ gap ∈ Socket.gaps socket₀, ¬ ((m.basicHeader m.format).length + 3 < gap ∧
      gap < (m.basicHeader m.format).length + 3 + chunkSize)) :
    Sound messages socket₀ todo₀ (receiveStreamCallback s socket) := by
  have short : m.extendedTimestamp = [] := if_pos recognisable.1
  unfold Message.bytes at faces
  rw [List.append_assoc, List.append_assoc] at faces
  by_cases type3 : m.format = .type3
  · have kind := recognisable.2
    rw [type3] at kind
    obtain ⟨n, length⟩ := kind
    have none_ : m.messageHeader = [] := List.length_eq_zero_iff.mp (by rw [length_messageHeader, type3]; rfl)
    have count : (m.payload.length - 1) / chunkSize = n := by
      rw [length, chunkSize]
      omega
    rw [none_, show labelled .messageHeader [] = [] from rfl, List.nil_append, body_eq short, count, type3,
      ← chunks_succ short] at faces
    exact repeated_sound split short fresh (knows_snoc knows (by rw [type3]; decide)) length faces
  · rcases readChunkBasicHeader_chunk faces fresh.header with hangs | ⟨c, read, next, statics⟩
    · rw [receiveStreamCallback_hangs hangs]
      trivial
    · have some_ : 0 < m.format.headerSize := by
        revert type3
        cases m.format <;> decide
      have moved : c.read.length = (m.basicHeader m.format).length := by
        have both := congrArg List.length (faces.split.symm.trans next.split)
        simp only [List.length_append, length_labelled, List.length_nil] at both
        omega
      have knows : Knows c.statics before := knows.of_buffer (by rw [statics])
      rw [receiveStreamCallback_eq s socket read]
      refine @afterBasicHeader_sound _ _ _ messages before after m 0 split recognisable ?_ ?_ (Buffer.filled_nil _)
        knows.length (fun _ => knows) next ?_
      · rw [statics]
        exact ⟨rfl, rfl, rfl, fresh.msgHeader, some_⟩
      · rw [statics]
        exact ⟨fresh.large, fresh.left, fresh.segment, fresh.readSegment, fresh.payload⟩
      · rw [moved]
        exact whole

theorem end_sound (idle : s.readChunkBasicHeaderDone = false) (faces : Faces socket₀ [] ⟨s, socket, []⟩ []) :
    Sound messages socket₀ [] (receiveStreamCallback s socket) := by
  unfold receiveStreamCallback readChunkBasicHeader
  dsimp only
  rw [idle, if_neg (by decide)]
  cases read : readSpecifySize 1 socket with
  | none => trivial
  | some r =>
    obtain ⟨stored, _⟩ := readSpecifySize_arriving (by decide) read
    have empty : Socket.arriving socket = [] := faces.arriving
    rw [empty] at stored
    have none_ := List.prefix_nil.mp stored
    have ret : r.ret = 0 := by
      rcases (readSpecifySize_spec (by decide) read).2 with ⟨zero, _⟩ | ⟨length, _⟩
      · exact zero
      · rw [length, none_]
        rfl
    dsimp only
    rw [if_neg (by omega)]
    refine ⟨rfl, ?_⟩
    unfold Call.took
    rw [none_]
    rfl

def payloadStart (before : List Message) (m : Message) : Nat :=
  (stream before).length + (m.basicHeader m.format).length + m.format.headerSize

/-- For a call that begins within or right before a message of the stream: it is one that the receiver takes apart as
it is meant, and if its header has 3 bytes, there is no gap within the payload of its first chunk. -/
def Takes (messages : List Message) (s : Connection) (_ : Unit) : Prop :=
  ∀ before m after, messages = before ++ m :: after → (stream before).length ≤ s.read.length →
    s.read.length < (stream before).length + m.bytes.length →
    Recognisable before m ∧ (m.format = .type2 → ∀ gap ∈ Socket.gaps s.socket,
      ¬ (payloadStart before m < s.read.length + gap ∧ s.read.length + gap < payloadStart before m + chunkSize))

theorem call_sound {conn : Connection} (stream_ : stream messages = conn.read ++ todo)
    (expects : Expects messages conn.statics todo) (arriving : Socket.arriving conn.socket = todo.map Prod.snd)
    (takes : Takes messages conn ()) :
    Sound messages conn.socket todo (receiveStreamCallback conn.statics conn.socket) := by
  have faces : Faces conn.socket todo ⟨conn.statics, conn.socket, []⟩ todo := ⟨rfl, arriving, fun _ member => member⟩
  have position := congrArg List.length stream_
  rw [List.length_append] at position
  cases expects with
  | boundary between =>
    cases between with
    | @message before after split fresh knows =>
      cases after with
      | nil => exact end_sound fresh.header faces
      | cons m after =>
        rw [split, stream_append, List.length_append, stream_cons, List.length_append] at position
        have some_ : 0 < m.bytes.length := by
          unfold Message.bytes Message.basicHeader
          simp only [List.length_append, length_labelled, List.length_cons]
          omega
        obtain ⟨recognisable, whole⟩ := takes before m after split (by omega) (by omega)
        rw [stream_cons] at faces
        refine message_sound split recognisable fresh knows faces fun type2 gap member inside => ?_
        have headerSize : m.format.headerSize = 3 := by rw [type2]; rfl
        unfold payloadStart at whole
        exact whole type2 gap member ⟨by omega, by omega⟩
    | continued split short continues knows => exact continued_sound split short continues knows faces
    | repeated split short fresh knows whole => exact repeated_sound split short fresh knows whole faces
  | @header before after m k split begun quiet filled length knows =>
    have read : readChunkBasicHeader ⟨conn.statics, conn.socket, []⟩ = .ok ⟨conn.statics, conn.socket, []⟩ :=
      if_pos begun.1
    have header := length_messageHeader m
    have less := begun.2.2.2.2
    rw [split, stream_append, stream_cons, Message.bytes] at position
    simp only [List.length_append, length_labelled, List.length_drop] at position
    have within : conn.read.length = (stream before).length + (m.basicHeader m.format).length + k := by omega
    obtain ⟨recognisable, whole⟩ := takes before m after split (by omega) (by
      unfold Message.bytes
      simp only [List.length_append, length_labelled]
      omega)
    rw [receiveStreamCallback_eq _ _ read]
    refine afterBasicHeader_sound split recognisable begun quiet filled length knows faces
      fun type2 gap member inside => ?_
    have headerSize : m.format.headerSize = 3 := by rw [type2]; rfl
    unfold payloadStart at whole
    dsimp only [List.length_nil] at inside
    exact whole type2 gap member ⟨by omega, by omega⟩
  | @payload bytes j todo begun size done =>
    have read : readChunkBasicHeader ⟨conn.statics, conn.socket, []⟩ = .ok ⟨conn.statics, conn.socket, []⟩ :=
      if_pos begun.1
    have header : readChunkMsgHeader ⟨conn.statics, conn.socket, []⟩ = .ok ⟨conn.statics, conn.socket, []⟩ :=
      if_neg (by rw [begun.2.1]; exact Nat.lt_irrefl _)
    obtain ⟨left, payload, sound⟩ := readAmfPayload_sound faces begun size done
    rw [receiveStreamCallback_eq _ _ read]
    unfold afterBasicHeader afterMsgHeader
    rw [header]
    dsimp only
    rw [payload]
    exact sound
  | @segment bytes j todo begun size done =>
    have read : readChunkBasicHeader ⟨conn.statics, conn.socket, []⟩ = .ok ⟨conn.statics, conn.socket, []⟩ :=
      if_pos begun.1
    have chosen : conn.statics.chooseSegment = conn.statics := if_neg (by omega)
    rw [receiveStreamCallback_eq _ _ read, afterBasicHeader_type3 begun.2.1 begun.2.2, chosen]
    exact readSegment_sound faces size done (.inl begun)

/-! ### Runs -/

/-- The bytes read so far have been taken for what they are, a channel is deleted only when the whole stream has been
read, and no call returns without having read anything. -/
def Recognises (messages : List Message) (s : Connection) : Prop :=
  s.read <+: stream messages ∧ (s.connected = false → s.read = stream messages) ∧ s.stalled = false

structure Inv (messages : List Message) (s : Connection) : Prop where
  stalled : s.stalled = false
  coming : ∃ todo, stream messages = s.read ++ todo ∧
    (s.connected = true → Socket.arriving s.socket = todo.map Prod.snd ∧ Expects messages s.statics todo) ∧
    (s.connected = false → todo = [])

theorem Inv.recognises {s : Connection} (inv : Inv messages s) : Recognises messages s := by
  obtain ⟨todo, stream_, _, ended⟩ := inv.coming
  refine ⟨⟨todo, stream_.symm⟩, fun gone => ?_, inv.stalled⟩
  rw [stream_, ended gone, List.append_nil]

theorem start_inv (arriving : Socket.arriving socket = (stream messages).map Prod.snd) :
    Inv messages (.start socket) := by
  refine ⟨rfl, stream messages, rfl, fun _ => ⟨arriving, ?_⟩, fun gone => (by cases gone)⟩
  refine .boundary (@Boundary.message messages .start [] messages rfl ?_ ?_)
  · exact ⟨⟨rfl, rfl, rfl, rfl, rfl⟩, rfl, rfl⟩
  · exact ⟨rfl, fun m found => by cases found⟩

theorem step_inv {s s' : Connection} {e : Unit} (inv : Inv messages s) (takes : Takes messages s e)
    (next : s.step e = some s') : Inv messages s' := by
  obtain ⟨todo, stream_, going, _⟩ := inv.coming
  unfold Connection.step at next
  split at next
  · next connected =>
    obtain ⟨arriving, expects⟩ := going connected
    have sound := call_sound stream_ expects arriving takes
    cases ended : receiveStreamCallback s.statics s.socket with
    | hangs =>
      rw [ended] at next
      cases next
    | outside =>
      rw [ended] at sound
      exact sound.elim
    | deleted c =>
      rw [ended] at next sound
      obtain rfl := Option.some.inj next
      obtain ⟨rfl, none_⟩ := sound
      refine ⟨inv.stalled, [], ?_, fun there => (by cases there), fun _ => rfl⟩
      change _ = s.read ++ c.read ++ []
      rw [none_, List.append_nil, ← stream_]
    | returns c =>
      rw [ended] at next sound
      obtain rfl := Option.some.inj next
      obtain ⟨some_, todo', faces, expects⟩ := sound
      refine ⟨?_, todo', ?_, fun _ => ⟨faces.arriving, expects⟩, fun gone => ?_⟩
      · change (s.stalled || c.read.isEmpty) = false
        rw [inv.stalled, Bool.false_or, List.isEmpty_eq_false_iff]
        exact some_
      · change _ = s.read ++ c.read ++ todo'
        rw [stream_, faces.split, List.append_assoc]
      · rw [connected] at gone
        cases gone
  · cases next

theorem receiveStream_recognises {s : Connection} (arriving : Socket.arriving socket = (stream messages).map Prod.snd)
    (run : Transition.Reach Connection.step (Takes messages) (.start socket) s) : Recognises messages s :=
  (run.invariant (start_inv arriving) fun _ _ _ inv takes next => step_inv inv takes next).recognises

def sampleChunkStream : ChunkStreamID := ⟨4, [], by decide, rfl⟩

def sampleMessage (format : Format) (size : Nat) (small : size < 2 ^ 24) : Message :=
  ⟨sampleChunkStream, format, 0, 0x09, 1, List.replicate size 0, .inr rfl, by rwa [List.length_replicate]⟩

def sampleMessages : List Message := [sampleMessage .type0 130 (by decide), sampleMessage .type1 3 (by decide)]

def sampleSocket : List (Socket.ReadEvent UInt8) :=
  let bytes := (stream sampleMessages).map Prod.snd
  [.data (bytes.headD 0) ((bytes.take 50).drop 1), .eagain, .data 0 (bytes.drop 51), .eof]

theorem sample_takes (s : Connection) (e : Unit) : Takes sampleMessages s e := by
  intro before m after split _ _
  have member : m ∈ sampleMessages := by
    rw [split]
    exact List.mem_append_right _ List.mem_cons_self
  unfold sampleMessages at member
  rw [List.mem_cons, List.mem_singleton] at member
  rcases member with rfl | rfl
  · exact ⟨⟨by decide, List.cons_ne_nil _ _⟩, fun no => by cases no⟩
  · exact ⟨⟨by decide, List.cons_ne_nil _ _⟩, fun no => by cases no⟩

theorem receiveStream_recognises_sample :
    ∃ s, Recognises sampleMessages s ∧ s.connected = false ∧ s.read = stream sampleMessages := by
  have ended : (Transition.exec Connection.step (.start sampleSocket) (List.replicate 5 ())).map Connection.connected =
      some false := by decide +kernel
  obtain ⟨s, ran, gone⟩ := Option.map_eq_some_iff.mp ended
  have recognises := @receiveStream_recognises sampleSocket sampleMessages s (by decide +kernel)
    (Transition.reach_of_exec .refl (fun e _ s => sample_takes s e) ran)
  exact ⟨s, recognises, gone, recognises.2.1 gone⟩

/-- The second message has the header of the first one, and 127 bytes behind its own are taken for its payload. -/
def shortMessages : List Message :=
  [sampleMessage .type0 1 (by decide), sampleMessage .type3 1 (by decide), sampleMessage .type0 115 (by decide)]

theorem shortMessages_wellFormed : WellFormed shortMessages := by
  intro before m after split
  unfold shortMessages at split
  rcases before with _ | ⟨first, _ | ⟨second, _ | ⟨third, rest⟩⟩⟩
  · obtain ⟨rfl, _⟩ := List.cons.inj split
    trivial
  · obtain ⟨rfl, later⟩ := List.cons.inj split
    obtain ⟨rfl, _⟩ := List.cons.inj later
    exact ⟨_, rfl, rfl, rfl, rfl, rfl⟩
  · obtain ⟨_, split⟩ := List.cons.inj split
    obtain ⟨_, split⟩ := List.cons.inj split
    obtain ⟨rfl, _⟩ := List.cons.inj split
    trivial
  · simp at split

theorem short_message_misread : ¬ ∀ messages socket s, WellFormed messages →
    Socket.arriving socket = (stream messages).map Prod.snd →
    Transition.Reach Connection.step (fun _ _ => True) (.start socket) s → Recognises messages s := by
  intro all
  have read : (Transition.exec Connection.step
      (.start [.data 4 (((stream shortMessages).map Prod.snd).drop 1)]) (List.replicate 2 ())).map
        (fun s => (s.read.drop 15).head?) = some (some (.payload, 4)) := by decide +kernel
  obtain ⟨s, ran, head⟩ := Option.map_eq_some_iff.mp read
  obtain ⟨⟨rest, split⟩, _⟩ := all shortMessages _ s shortMessages_wellFormed (by decide +kernel)
    (Transition.reach_of_exec .refl (fun _ _ _ => trivial) ran)
  have real : ((stream shortMessages).drop 15).head? = some (.basicHeader, 4) := by decide
  rw [← split, List.drop_append, List.head?_append, head] at real
  cases real

end LiveStreaming.XtraRtmp.ReceiveStream
