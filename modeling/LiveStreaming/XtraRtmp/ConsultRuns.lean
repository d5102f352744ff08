import LiveStreaming.Library.EarlyExit
import LiveStreaming.XtraRtmp.ConsultFraming

/-!
# What a call of the consultation does

A call finds the static variables at some stage of the message of its connection. It leaves them at the
stage that the bytes it has read bring that message to, or completes it.
-/

namespace LiveStreaming.XtraRtmp
open Library Library.EarlyExit Streamer

/-- The basic header `b` of a message has been read, with the byte behind it if there is one. -/
structure Begun (s : ConsultStatics) (b : UInt8) (extra : List UInt8) : Prop where
  length : s.consultRequest.length = 1024
  started : s.readChunkBasicHeaderDone = true
  extra_ : extra.length = extraBytes b
  format : s.format = b >>> 6
  channel : s.channelID = if b &&& 0x3f = 0 then extra.headD 0 + 64 else b &&& 0x3f
  size : s.chunkMsgHeaderSize = chunkMsgHeaderSizeOf b

/-- The static variables remember so much of a message. -/
inductive Stage (s : ConsultStatics) : List UInt8 → Prop where
  | fresh (length : s.consultRequest.length = 1024) (pointer : s.pointer = 0)
      (started : s.readChunkBasicHeaderDone = false) (header : s.readChunkMsgHeaderSize = s.chunkMsgHeaderSize)
      (read : s.readChunkMsgHeaderSize = 0) (payload : s.readAmfSize = s.totalAmfSize) (none : s.totalAmfSize = 0) :
      Stage s []
  | header {b : UInt8} {extra header : List UInt8} (begun : Begun s b extra)
      (filled : Buffer.Filled s.consultRequest (b :: header)) (short : header.length < chunkMsgHeaderSizeOf b)
      (counted : s.readChunkMsgHeaderSize = header.length) (pointer : s.pointer = 1)
      (payload : s.readAmfSize = s.totalAmfSize) (none : s.totalAmfSize = 0) : Stage s (b :: (extra ++ header))
  | payload {b : UInt8} {extra header payload : List UInt8} (begun : Begun s b extra)
      (filled : Buffer.Filled s.consultRequest (b :: (header ++ payload))) (proper : 7 ≤ chunkMsgHeaderSizeOf b)
      (full : header.length = chunkMsgHeaderSizeOf b) (counted : s.readChunkMsgHeaderSize = s.chunkMsgHeaderSize)
      (pointer : s.pointer = 1 + chunkMsgHeaderSizeOf b)
      (total : s.totalAmfSize = bigEndian ((header.drop 3).take 3)) (type : s.amfType = (header.drop 6).headD 0)
      (read : s.readAmfSize = payload.length) (within : payload.length ≤ s.totalAmfSize)
      (unfinished : payload.length = s.totalAmfSize → s.totalAmfSize = 0) :
      Stage s (b :: (extra ++ (header ++ payload)))
  | nothing {b : UInt8} {extra : List UInt8} (started : s.readChunkBasicHeaderDone = true)
      (header : s.readChunkMsgHeaderSize = s.chunkMsgHeaderSize) (payload : s.readAmfSize = s.totalAmfSize) :
      Stage s (b :: extra)

/-- What a client may send next: a message that fits the array, with the end of the scan among the bytes
that have arrived, and with a command that stays inside its payload. -/
structure WellSent (message arriving : List UInt8) : Prop where
  room : ∀ bytes, bytes <+: arriving →
    (messagePayload (message ++ bytes)).length ≤ announced (message ++ bytes) →
      (requestOf (message ++ bytes)).length ≤ 1024
  ends : ∀ bytes, bytes <+: arriving → 0 < announced (message ++ bytes) →
    (messagePayload (message ++ bytes)).length = announced (message ++ bytes) →
    ∃ more, bytes ++ more <+: arriving ∧ Complete (message ++ bytes ++ more) ∧
      (requestOf (message ++ bytes ++ more)).length ≤ 1024
  inside : ∀ bytes, bytes <+: arriving → Complete (message ++ bytes) →
    ((messageHeader (message ++ bytes)).drop 6).headD 0 = MESSAGE_INVOKE → (commandOf (message ++ bytes)).isSome

/-- The bytes bring the message no further than to a part of itself. -/
def Open (message bytes : List UInt8) : Prop :=
  ∀ ms, bytes.foldl assembleByte (ms, message) = (ms, message ++ bytes)

/-- What a returning call owes the connection whose message it found at `message`. -/
structure Settled (message : List UInt8) (s : ConsultStatics) (call : ConsultCall) : Prop where
  framed : ∃ done rest, (∀ ms, call.received.foldl assembleByte (ms, message) = (ms ++ done, rest)) ∧
    call.dispatched = done.filterMap commandOf ∧ (call.next = .reading → Stage s rest) ∧
    (rest = [] → call.next ≠ .refused → Stage s [])

def Accepted (message : List UInt8) : ConsultEnd → Prop
  | .hangs => True
  | .outside => False
  | .returns s call => Settled message s call

theorem open_nil (message : List UInt8) : Open message [] := fun ms => by simp

theorem open_of {message bytes : List UInt8}
    (partial_ : ∀ before, before <+: bytes → before ≠ [] → ¬ Complete (message ++ before)) : Open message bytes := by
  intro ms
  by_cases none : bytes = []
  · simp [none]
  · rw [assemble_bytes ms _ none, if_neg (partial_ bytes List.prefix_rfl none)]
    rintro before after rfl _
    by_cases empty : before = []
    · exact .inr empty
    · exact .inl (partial_ before (List.prefix_append _ _) empty)

theorem Settled.of_open {message : List UInt8} {s : ConsultStatics} {received : List UInt8} {next : ConsultPhase}
    (open_ : Open message received) (reading : next = .reading → Stage s (message ++ received))
    (fresh : message ++ received = [] → Stage s []) : Settled message s ⟨received, [], next⟩ :=
  ⟨[], message ++ received, fun ms => by rw [open_ ms, List.append_nil], rfl, reading, fun none _ => fresh none⟩

/-- After the basic header: nothing is dispatched yet, and the statics remember what has been read, unless the
stream ended in the middle of the basic header. -/
structure Begins (message : List UInt8) (socket : List (Socket.ReadEvent UInt8)) (p : ConsultProgress) : Prop where
  silent : p.dispatched = []
  opened : Open message p.received
  stream : Socket.arriving socket = p.received ++ Socket.arriving p.socket
  stage : Stage p.statics (message ++ p.received) ∨
    (p.statics.readChunkMsgHeaderSize ≠ p.statics.chunkMsgHeaderSize ∧ p.socket = [.eof] ∧ message ++ p.received ≠ [] ∧
      p.statics.pointer + p.statics.readChunkMsgHeaderSize ≤ 1024)

theorem messagePayload_nil {b : UInt8} {bytes : List UInt8}
    (short : bytes.length ≤ extraBytes b + chunkMsgHeaderSizeOf b) :
    messagePayload (b :: bytes) = [] := by
  apply List.drop_of_length_le
  simp only [List.length_cons, List.headD_cons]
  omega

theorem open_of_short {b : UInt8} {message bytes : List UInt8} (first : (message ++ bytes).headD b = b)
    (short : (message ++ bytes).length ≤ 1 + extraBytes b + chunkMsgHeaderSizeOf b) : Open message bytes := by
  apply open_of
  rintro before ⟨after, rfl⟩ _
  apply not_complete
  right
  cases known : message ++ before with
  | nil => rfl
  | cons c rest =>
    rw [← List.append_assoc, known] at first short
    obtain rfl : c = b := first
    simp only [List.cons_append, List.length_cons, List.length_append] at short
    exact messagePayload_nil (by omega)

theorem Begun.stage {s : ConsultStatics} {b : UInt8} {extra : List UInt8} (begun : Begun s b extra)
    (filled : Buffer.Filled s.consultRequest [b]) (pointer : s.pointer = 1) (counted : s.readChunkMsgHeaderSize = 0)
    (payload : s.readAmfSize = s.totalAmfSize) (none : s.totalAmfSize = 0) : Stage s (b :: extra) := by
  by_cases zero : chunkMsgHeaderSizeOf b = 0
  · exact .nothing begun.started (by rw [counted, begun.size, zero]) payload
  · have stage := @Stage.header s b extra [] begun filled (Nat.pos_of_ne_zero zero) counted pointer payload none
    rwa [List.append_nil] at stage

theorem readChunkBasicHeader_ends {s : ConsultStatics} {message : List UInt8} {socket : List (Socket.ReadEvent UInt8)}
    (staleErrno : Bool) (stage : Stage s message) :
    Ends (Accepted message) (Begins message socket) (readChunkBasicHeader staleErrno ⟨s, socket, [], []⟩) := by
  have going : s.readChunkBasicHeaderDone = true →
      Ends (Accepted message) (Begins message socket) (readChunkBasicHeader staleErrno ⟨s, socket, [], []⟩) := by
    intro started
    rw [readChunkBasicHeader, if_pos started]
    exact ⟨rfl, open_nil _, rfl, .inl (by simpa using stage)⟩
  cases stage with
  | header begun => exact going begun.started
  | payload begun => exact going begun.started
  | nothing started => exact going started
  | fresh length pointer started header read_ payload none =>
    have stay : ∀ next, Accepted [] (ConsultProgress.leave ⟨s, socket, [], []⟩ next) := fun next =>
      .of_open (open_nil _) (fun _ => .fresh length pointer started header read_ payload none)
        (fun _ => .fresh length pointer started header read_ payload none)
    rw [readChunkBasicHeader, if_neg (by simp [started])]
    split
    · next bs rest answer =>
      obtain ⟨_, pos, fits, _⟩ := Socket.read_bytes answer (by decide)
      obtain ⟨b, rfl⟩ := List.length_eq_one_iff.mp (show bs.length = 1 by omega)
      have stream := Socket.arriving_read_bytes answer
      have filled : Buffer.Filled (Buffer.overwrite s.consultRequest 0 [b]) [b] :=
        (Buffer.filled_nil s.consultRequest).overwrite [b]
      have size : (Buffer.overwrite s.consultRequest 0 [b]).length = 1024 := by
        rw [Buffer.length_overwrite (by simp [length]), length]
      dsimp only [List.headD_cons]
      split
      · next zero =>
        have more : extraBytes b = 1 := if_pos zero
        split
        · trivial
        · next r read =>
          rcases readSpecifySize2Loop_one read with ⟨ret, stored, ended⟩ | ⟨e, ret, stored, arrived⟩
          · rw [stored, if_pos ret]
            refine ⟨rfl, @open_of_short b [] [b] rfl (by simp; omega), by rw [stream, ended]; rfl, ?_⟩
            by_cases none : chunkMsgHeaderSizeOf b = 0
            · exact .inl (.nothing rfl (by simp [read_, none]) payload)
            · exact .inr ⟨by simp [read_, Ne.symm none], rfl, by simp, by simp [pointer, read_]⟩
          · rw [stored, if_neg (by omega)]
            refine ⟨rfl, @open_of_short b [] [b, e] rfl (by simp [more]), by rw [stream, arrived]; rfl, .inl ?_⟩
            refine Begun.stage ⟨size, rfl, by simp [more], rfl, ?_, rfl⟩ filled ?_ ?_ payload none
            · simp [zero]
            · simp [pointer]
            · exact read_
      · next given =>
        have no : extraBytes b = 0 := if_neg given
        refine ⟨rfl, @open_of_short b [] [b] rfl (by simp; omega), stream, .inl ?_⟩
        refine Begun.stage ⟨size, rfl, by simp [no], rfl, ?_, rfl⟩ filled ?_ ?_ payload none
        · simp [given]
        · simp [pointer]
        · exact read_
    · exact stay _
    · exact stay _
    · exact stay _
    · exact stay _

theorem drop_of_filled {buffer header : List UInt8} {b : UInt8} {start size : Nat}
    (filled : Buffer.Filled buffer (b :: header)) (inside : start + size ≤ header.length) :
    ((buffer.drop 1).drop start).take size = (header.drop start).take size := by
  obtain ⟨tail, rfl⟩ : ∃ tail, buffer = b :: header ++ tail :=
    ⟨buffer.drop (b :: header).length, by
      conv_lhs => rw [← List.take_append_drop (b :: header).length buffer]
      rw [filled]⟩
  rw [List.cons_append, List.drop_succ_cons, List.drop_zero, List.drop_append_of_le_length (by omega),
    List.take_append_of_le_length (by rw [List.length_drop]; omega)]

theorem headD_drop_of_filled {buffer header : List UInt8} {b : UInt8} {start : Nat}
    (filled : Buffer.Filled buffer (b :: header)) (inside : start < header.length) :
    ((buffer.drop 1).drop start).headD 0 = (header.drop start).headD 0 := by
  have first : ∀ bytes : List UInt8, bytes.headD 0 = (bytes.take 1).headD 0 := by
    intro bytes
    cases bytes <;> rfl
  rw [first, @drop_of_filled buffer header b start 1 filled inside, ← first]

theorem header_bytes {b : UInt8} {extra header stored : List UInt8} {s : ConsultStatics} (begun : Begun s b extra)
    (room : header.length + stored.length ≤ chunkMsgHeaderSizeOf b) {message received : List UInt8}
    (whole : message ++ received = b :: (extra ++ header)) :
    message ++ (received ++ stored) = b :: (extra ++ (header ++ stored)) ∧ Open message (received ++ stored) := by
  have bytes : message ++ (received ++ stored) = b :: (extra ++ (header ++ stored)) := by
    rw [← List.append_assoc, whole, List.cons_append, List.append_assoc]
  refine ⟨bytes, @open_of_short b message _ (by rw [bytes]; rfl) ?_⟩
  rw [bytes]
  simp only [List.length_cons, List.length_append, begun.extra_]
  omega

theorem readHeader_accepted {message : List UInt8} {p : ConsultProgress} {b : UInt8} {extra header : List UInt8}
    (silent : p.dispatched = []) (opened : Open message p.received)
    (whole : message ++ p.received = b :: (extra ++ header))
    (begun : Begun p.statics b extra) (filled : Buffer.Filled p.statics.consultRequest (b :: header))
    (short : header.length < chunkMsgHeaderSizeOf b) (counted : p.statics.readChunkMsgHeaderSize = header.length)
    (pointer : p.statics.pointer = 1) (payload : p.statics.readAmfSize = p.statics.totalAmfSize)
    (none : p.statics.totalAmfSize = 0) : ∃ e, readChunkMsgHeader p = .error e ∧ Accepted message e := by
  have bounded : chunkMsgHeaderSizeOf b ≤ 11 := by
    unfold chunkMsgHeaderSizeOf
    split <;> decide
  unfold readChunkMsgHeader
  dsimp only
  rw [if_pos (by rw [counted, begun.size]; omega)]
  split
  · exact ⟨_, rfl, trivial⟩
  · next r read =>
    rw [counted, begun.size] at read
    obtain ⟨_, result⟩ := readSpecifySize_spec (by omega) read
    have fits : header.length + r.stored.length ≤ chunkMsgHeaderSizeOf b := by omega
    have start : p.statics.pointer + p.statics.readChunkMsgHeaderSize = (b :: header).length := by
      rw [pointer, counted, List.length_cons, Nat.add_comm]
    have room : (b :: header).length + r.stored.length ≤ 1024 := by
      simp only [List.length_cons]
      omega
    rw [start, if_neg (by omega)]
    have length : (Buffer.overwrite p.statics.consultRequest (b :: header).length r.stored).length = 1024 := by
      rw [Buffer.length_overwrite (by rw [begun.length]; exact room), begun.length]
    have filled' : Buffer.Filled (Buffer.overwrite p.statics.consultRequest (b :: header).length r.stored)
        (b :: (header ++ r.stored)) := filled.overwrite r.stored
    obtain ⟨bytes, open_⟩ := header_bytes begun fits whole
    have some_ : message ++ (p.received ++ r.stored) ≠ [] := by
      rw [bytes]
      exact List.cons_ne_nil _ _
    split
    · next positive =>
      have ret : r.ret = r.stored.length := by omega
      have counted' : p.statics.readChunkMsgHeaderSize + r.ret = (header ++ r.stored).length := by
        rw [counted, ret, List.length_append]
      split
      · next full =>
        have full' : (header ++ r.stored).length = chunkMsgHeaderSizeOf b := by
          rw [← counted', ← begun.size]
          exact full
        split
        · next proper =>
          refine ⟨_, rfl, ?_⟩
          have proper' : 7 ≤ chunkMsgHeaderSizeOf b := by
            rw [← begun.size]
            exact proper
          rw [ConsultProgress.leave, silent]
          refine .of_open open_ (fun _ => ?_) (fun none => (some_ none).elim)
          dsimp only
          rw [bytes, ← List.append_nil (header ++ r.stored)]
          refine .payload ⟨length, begun.started, begun.extra_, begun.format, begun.channel, begun.size⟩
            (by rwa [List.append_nil]) proper' full' full ?_ ?_ ?_ (payload.trans none) (Nat.zero_le _) ?_
          · dsimp only
            rw [pointer, begun.size]
          · dsimp only
            rw [pointer, drop_of_filled filled' (by omega)]
          · dsimp only
            rw [pointer, headD_drop_of_filled filled' (by omega)]
          · exact Eq.symm
        · refine ⟨_, rfl, ?_⟩
          rw [ConsultProgress.leave, silent]
          exact .of_open open_ (fun reading => by cases reading) (fun none => (some_ none).elim)
      · next partial_ =>
        refine ⟨_, rfl, ?_⟩
        rw [ConsultProgress.leave, silent]
        refine .of_open open_ (fun _ => ?_) (fun none => (some_ none).elim)
        dsimp only at partial_ ⊢
        rw [bytes]
        refine .header ⟨length, begun.started, begun.extra_, begun.format, begun.channel, begun.size⟩
          filled' ?_ counted'
          pointer payload none
        rw [counted', begun.size] at partial_
        rw [List.length_append] at partial_ ⊢
        omega
    · refine ⟨_, rfl, ?_⟩
      rw [ConsultProgress.leave, silent]
      refine .of_open opened (fun reading => by cases reading) (fun none => ?_)
      rw [whole] at none
      cases none

theorem readChunkMsgHeader_ends {message : List UInt8} {socket : List (Socket.ReadEvent UInt8)} {p : ConsultProgress}
    (begins : Begins message socket p) :
    Ends (Accepted message) (fun q => q = p ∧ Stage p.statics (message ++ p.received) ∧
      p.statics.readChunkMsgHeaderSize = p.statics.chunkMsgHeaderSize) (readChunkMsgHeader p) := by
  by_cases same : p.statics.readChunkMsgHeaderSize = p.statics.chunkMsgHeaderSize
  · unfold readChunkMsgHeader
    dsimp only
    rw [if_neg (by simp [same])]
    exact ⟨rfl, begins.stage.resolve_right fun ended => ended.1 same, same⟩
  · suffices leaves : ∃ e, readChunkMsgHeader p = .error e ∧ Accepted message e by
      obtain ⟨e, left, accepted⟩ := leaves
      rw [left]
      exact accepted
    rcases begins.stage with stage | ⟨_, ended, some_, room⟩
    · generalize whole : message ++ p.received = bytes at stage
      cases stage with
      | fresh length pointer started header read payload none => exact (same header).elim
      | payload begun filled proper full counted => exact (same counted).elim
      | nothing started header payload => exact (same header).elim
      | header begun filled short counted pointer payload none =>
        exact readHeader_accepted begins.silent begins.opened whole begun filled short counted pointer payload none
    · unfold readChunkMsgHeader
      dsimp only
      rw [if_pos same, ended]
      have read : readSpecifySize (p.statics.chunkMsgHeaderSize - p.statics.readChunkMsgHeaderSize) [.eof] =
          some ⟨0, [], []⟩ := rfl
      rw [read]
      dsimp only
      rw [if_neg (by simpa using room), if_neg (Nat.lt_irrefl 0)]
      refine ⟨_, rfl, ?_⟩
      rw [ConsultProgress.leave, begins.silent]
      exact .of_open begins.opened (fun reading => by cases reading) (fun none => (some_ none).elim)

/-- A scan that ends has found the first end; one that leaves the array or the stream had none to find. -/
theorem scanAmfEnd_spec {room : Nat} {last : UInt8} {socket : List (Socket.ReadEvent UInt8)}
    {result : Option (List UInt8 × List (Socket.ReadEvent UInt8))} (h : scanAmfEnd room last socket = some result) :
    match result with
    | some (more, _) => more <+: Socket.arriving socket ∧ more.length ≤ room ∧
        (last :: more).findIdx? isAmfEnd = some more.length
    | none => ∀ more, more <+: Socket.arriving socket → (last :: more).findIdx? isAmfEnd = some more.length →
        room < more.length := by
  induction room generalizing last socket result with
  | zero =>
    unfold scanAmfEnd at h
    split at h
    · next ended =>
      obtain rfl := Option.some.inj h
      exact ⟨List.nil_prefix, Nat.le_refl _, by simp [List.findIdx?_cons, ended]⟩
    · next going =>
      obtain rfl := Option.some.inj h
      rintro (_ | ⟨b, more⟩) _ found
      · simp [List.findIdx?_cons, going] at found
      · simp
  | succ room ih =>
    unfold scanAmfEnd at h
    split at h
    · next ended =>
      obtain rfl := Option.some.inj h
      exact ⟨List.nil_prefix, Nat.zero_le _, by simp [List.findIdx?_cons, ended]⟩
    · next going =>
      dsimp only at h
      split at h
      · cases h
      · next r read =>
        have none_found : (last :: []).findIdx? isAmfEnd = none := by simp [List.findIdx?_cons, going]
        rcases readSpecifySize2Loop_one read with ⟨_, stored, ended⟩ | ⟨b, _, stored, arrived⟩
        · rw [stored] at h
          obtain rfl := Option.some.inj h
          intro more start found
          rw [ended, List.prefix_nil] at start
          rw [start, none_found] at found
          cases found
        · rw [stored] at h
          obtain ⟨inner, scanned, rfl⟩ := Option.map_eq_some_iff.mp h
          have rest := ih scanned
          rw [arrived]
          cases inner with
          | none =>
            rintro (_ | ⟨c, more⟩) start found
            · rw [none_found] at found
              cases found
            · obtain ⟨rfl, start'⟩ := List.cons_prefix_cons.mp start
              rw [List.findIdx?_cons] at found
              have behind := rest more start' (by simpa [going] using found)
              simpa using behind
          | some found =>
            obtain ⟨start, fits, first⟩ := rest
            refine ⟨List.cons_prefix_cons.mpr ⟨rfl, start⟩, by simpa using fits, ?_⟩
            rw [List.findIdx?_cons, if_neg (by simp [going]), first]
            rfl

theorem parseRtmpPacketHeader_eq {b : UInt8} {header : List UInt8} (proper : 7 ≤ chunkMsgHeaderSizeOf b)
    (full : header.length = chunkMsgHeaderSizeOf b) (rest : List UInt8) :
    parseRtmpPacketHeader (b :: (header ++ rest)) 0 = parseRtmpPacketHeader (b :: header) 0 ∧
      (parseRtmpPacketHeader (b :: header) 0).size = 1 + chunkMsgHeaderSizeOf b ∧
      (parseRtmpPacketHeader (b :: header) 0).amfSize = bigEndian ((header.drop 3).take 3) ∧
      (parseRtmpPacketHeader (b :: header) 0).amfType = (header.drop 6).headD 0 := by
  have field : ∀ start size, start + size ≤ header.length →
      ((header ++ rest).drop start).take size = (header.drop start).take size := by
    intro start size inside
    rw [List.drop_append_of_le_length (by omega), List.take_append_of_le_length (by rw [List.length_drop]; omega)]
  have type : ((header ++ rest).drop 6).headD 0 = (header.drop 6).headD 0 := by
    rw [List.drop_append_of_le_length (by omega)]
    cases known : header.drop 6 with
    | nil =>
      have := congrArg List.length known
      rw [List.length_drop, List.length_nil] at this
      omega
    | cons c more => rfl
  unfold parseRtmpPacketHeader chunkMsgHeaderSizeOf at *
  simp only [List.drop_zero, List.headD_cons, List.drop_succ_cons]
  generalize (b >>> 6).toNat = format at *
  rcases format with _ | _ | _ | format
  · change header.length = 11 at full
    have first := field 0 3 (by omega)
    rw [List.drop_zero, List.drop_zero] at first
    rw [first, field 3 3 (by omega), field 7 4 (by omega), type]
    exact ⟨rfl, rfl, rfl, rfl⟩
  · change header.length = 7 at full
    have first := field 0 3 (by omega)
    rw [List.drop_zero, List.drop_zero] at first
    rw [first, field 3 3 (by omega), type]
    exact ⟨rfl, rfl, rfl, rfl⟩
  · exact absurd proper (by decide)
  · simp at proper

theorem requestOf_shape {b : UInt8} {extra header payload : List UInt8} (extra_ : extra.length = extraBytes b)
    (full : header.length = chunkMsgHeaderSizeOf b) :
    requestOf (b :: (extra ++ (header ++ payload))) = b :: (header ++ payload) ∧
      announced (b :: (extra ++ (header ++ payload))) = bigEndian ((header.drop 3).take 3) := by
  obtain ⟨header_, payload_⟩ := @shape_payload b extra header payload extra_ full
  refine ⟨?_, ?_⟩
  · rw [requestOf, header_, payload_]
    rfl
  · rw [announced, header_]

theorem parseRtmpPacket_eq {b : UInt8} {header payload buffer : List UInt8} (proper : 7 ≤ chunkMsgHeaderSizeOf b)
    (full : header.length = chunkMsgHeaderSizeOf b) (filled : Buffer.Filled buffer (b :: (header ++ payload)))
    (small : bigEndian ((header.drop 3).take 3) ≤ MAX_PAYLOAD_SIZE) (stack : Nat → UInt8) :
    parseRtmpPacket buffer (1 + chunkMsgHeaderSizeOf b + bigEndian ((header.drop 3).take 3)) stack =
      some (parseRtmpPacketHeader (b :: header) 0, fun i =>
        if i < bigEndian ((header.drop 3).take 3) then (buffer[1 + chunkMsgHeaderSizeOf b + i]?).getD 0
          else stack i) := by
  obtain ⟨tail, rfl⟩ : ∃ tail, buffer = b :: (header ++ (payload ++ tail)) :=
    ⟨buffer.drop (b :: (header ++ payload)).length, by
      conv_lhs => rw [← List.take_append_drop (b :: (header ++ payload)).length buffer]
      rw [filled, List.cons_append, List.append_assoc]⟩
  obtain ⟨same, size, amfSize, _⟩ := parseRtmpPacketHeader_eq proper full (payload ++ tail)
  generalize bigEndian ((header.drop 3).take 3) = total at *
  rw [parseRtmpPacket, if_pos (by omega)]
  obtain ⟨fuel, rounds⟩ : ∃ fuel, 1 + chunkMsgHeaderSizeOf b + total = fuel + 1 :=
    ⟨chunkMsgHeaderSizeOf b + total, by omega⟩
  rw [rounds, parseRtmpPacketFrom, if_neg (by omega)]
  dsimp only
  rw [same, size, amfSize, if_neg (by omega), Nat.zero_add, rounds]
  cases fuel with
  | zero => rfl
  | succ fuel => rw [parseRtmpPacketFrom, if_pos (by omega)]

/-- Where the payload has a byte the array has it, and the memory behind does not matter. -/
theorem payload_below {buffer header payload : List UInt8} {b : UInt8} {size : Nat}
    (filled : Buffer.Filled buffer (b :: (header ++ payload))) (full : header.length = size) (limit : Nat)
    (stack : Nat → UInt8) (i : Nat) : Below ((payload.take limit)[i]?)
      ((some ∘ fun i => if i < limit then (buffer[1 + size + i]?).getD 0 else stack i) i) := by
  intro byte there
  rw [List.getElem?_take] at there
  split at there
  · next below =>
    have array : buffer[1 + size + i]? = some byte := by
      have place : (b :: (header ++ payload))[1 + size + i]? = some byte := by
        rw [← full, Nat.add_assoc, Nat.add_comm 1, List.getElem?_cons_succ,
          List.getElem?_append_right (by omega), Nat.add_sub_cancel_left, there]
      obtain ⟨inside, _⟩ := List.getElem?_eq_some_iff.mp place
      rw [← filled, List.getElem?_take, if_pos inside] at place
      exact place
    simp [below, array]
  · cases there

theorem dispatchMessage_ends {message : List UInt8} {p : ConsultProgress} {b : UInt8}
    {extra header payload : List UInt8}
    (stack : Nat → UInt8) (answer : Int) (extra_ : extra.length = extraBytes b) (proper : 7 ≤ chunkMsgHeaderSizeOf b)
    (full : header.length = chunkMsgHeaderSizeOf b)
    (filled : Buffer.Filled p.statics.consultRequest (b :: (header ++ payload)))
    (fits : (b :: (header ++ payload)).length ≤ 1024) (size : p.statics.chunkMsgHeaderSize = chunkMsgHeaderSizeOf b)
    (total : p.statics.totalAmfSize = bigEndian ((header.drop 3).take 3))
    (whole : bigEndian ((header.drop 3).take 3) ≤ payload.length) (silent : p.dispatched = [])
    (framed : ∀ ms, p.received.foldl assembleByte (ms, message) = (ms ++ [b :: (extra ++ (header ++ payload))], []))
    (inside : (header.drop 6).headD 0 = MESSAGE_INVOKE → (commandOf (b :: (extra ++ (header ++ payload)))).isSome) :
    Ends (Accepted message) (fun q => ∀ next, next ≠ .refused →
      Settled message q.statics ⟨q.received, q.dispatched, next⟩)
      (dispatchMessage stack answer p) := by
  obtain ⟨_, _, amfSize, amfType⟩ := parseRtmpPacketHeader_eq proper full []
  have request := (parseRtmpPacketHeader_eq proper full payload).1
  obtain ⟨requested, announced_⟩ := @requestOf_shape b extra header payload extra_ full
  obtain ⟨_, payload_⟩ := @shape_payload b extra header payload extra_ full
  have small : bigEndian ((header.drop 3).take 3) ≤ MAX_PAYLOAD_SIZE := by
    simp only [List.length_cons, List.length_append] at fits
    rw [MAX_PAYLOAD_SIZE]
    omega
  unfold dispatchMessage
  dsimp only
  rw [size, total, parseRtmpPacket_eq proper full filled small stack]
  dsimp only
  generalize parsed : parseRtmpPacketHeader (b :: header) 0 = h at *
  split
  · trivial
  · next amfPacket read =>
    -- what the parser makes of the array is what it makes of the payload alone
    have command : commandOf (b :: (extra ++ (header ++ payload))) =
        if h.amfType = MESSAGE_INVOKE then some (h, amfPacket) else none := by
      rw [commandOf, requested, request, announced_, payload_]
      split
      · next invoked =>
        have some_ := inside (amfType ▸ invoked)
        rw [commandOf, requested, request, announced_, payload_, if_pos invoked, Option.isSome_map] at some_
        obtain ⟨other, found⟩ := Option.isSome_iff_exists.mp some_
        have reach := payload_below filled full (bigEndian ((header.drop 3).take 3)) stack
        have same := parseRtmpAMF0_below reach _ _ other found
        rw [read] at same
        rw [found, Option.some.inj same]
        rfl
      · rfl
    have dispatched : (if h.amfType = MESSAGE_INVOKE then
        ({ p with dispatched := p.dispatched ++ [(h, amfPacket)] } : ConsultProgress) else p).dispatched =
          [b :: (extra ++ (header ++ payload))].filterMap commandOf := by
      rw [List.filterMap_cons, command, List.filterMap_nil]
      split
      · simp [silent]
      · exact silent
    have received : (if h.amfType = MESSAGE_INVOKE then
        ({ p with dispatched := p.dispatched ++ [(h, amfPacket)] } : ConsultProgress) else p).received =
          p.received := by
      split <;> rfl
    split
    · refine ⟨[_], [], ?_, dispatched, ?_, ?_⟩
      · rw [received]
        exact framed
      · intro reading
        cases reading
      · intro _ refused
        exact (refused rfl).elim
    · intro next _
      have fresh : ∀ done format channelID amfType,
        Stage ⟨List.replicate 1024 0, 0, false, format, channelID, 0, 0, 0, 0,
          amfType, done⟩ [] := fun _ _ _ _ => .fresh List.length_replicate rfl rfl rfl rfl rfl rfl
      refine ⟨[_], [], ?_, dispatched, fun _ => fresh _ _ _ _, fun _ _ => fresh _ _ _ _⟩
      rw [received]
      exact framed

theorem Open.append {message xs ys : List UInt8} (first : Open message xs) (second : Open (message ++ xs) ys) :
    Open message (xs ++ ys) := by
  intro ms
  rw [List.foldl_append, first ms, second ms, List.append_assoc]

theorem scanned_shape {b : UInt8} {extra header payload : List UInt8} (extra_ : extra.length = extraBytes b)
    (full : header.length = chunkMsgHeaderSizeOf b) :
    Scanned (b :: (extra ++ (header ++ payload))) ↔ (header.drop 6).headD 0 = MESSAGE_INVOKE ∧ b >>> 6 = 0 ∧
      (if b &&& 0x3f = 0 then extra.headD 0 + 64 else b &&& 0x3f) = 3 := by
  have channel : channelOf (b :: (extra ++ (header ++ payload))) =
      if b &&& 0x3f = 0 then extra.headD 0 + 64 else b &&& 0x3f := by
    simp only [channelOf, List.headD_cons, List.drop_succ_cons, List.drop_zero]
    split
    · next zero =>
      rw [extraBytes, if_pos zero] at extra_
      obtain ⟨e, rfl⟩ := List.length_eq_one_iff.mp extra_
      rfl
    · rfl
  rw [Scanned, channel, (@shape_payload b extra header payload extra_ full).1]
  rfl

section
variable {b : UInt8} {extra header : List UInt8} (extra_ : extra.length = extraBytes b)
  (full : header.length = chunkMsgHeaderSizeOf b)
include extra_ full

theorem scanned_same {payload payload' : List UInt8} : Scanned (b :: (extra ++ (header ++ payload))) ↔
    Scanned (b :: (extra ++ (header ++ payload'))) :=
  (scanned_shape extra_ full).trans (scanned_shape extra_ full).symm

theorem not_complete_of_short {payload : List UInt8} (short : payload.length < bigEndian ((header.drop 3).take 3)) :
    ¬ Complete (b :: (extra ++ (header ++ payload))) := by
  apply not_complete
  left
  rw [(shape_payload extra_ full).2, (requestOf_shape extra_ full).2]
  exact short

theorem complete_iff {init more : List UInt8} {last : UInt8} (proper : 7 ≤ chunkMsgHeaderSizeOf b)
    (whole : init.length + 1 = bigEndian ((header.drop 3).take 3)) :
    Complete (b :: (extra ++ (header ++ (init ++ [last] ++ more)))) ↔
      if Scanned (b :: (extra ++ (header ++ (init ++ [last] ++ more)))) then
        (last :: more).findIdx? isAmfEnd = some more.length else more = [] := by
  have tail : (init ++ [last] ++ more).drop (bigEndian ((header.drop 3).take 3) - 1) = last :: more := by
    rw [← whole, Nat.add_sub_cancel, List.append_assoc, List.drop_left]
    rfl
  have length : (init ++ [last] ++ more).length = bigEndian ((header.drop 3).take 3) + more.length := by
    simp only [List.length_append, List.length_singleton]
    omega
  rw [Complete, (shape_payload extra_ full).2, (requestOf_shape extra_ full).2, tail, length, List.headD_cons,
    Nat.add_sub_cancel_left]
  simp only [proper, true_and, show 0 < bigEndian ((header.drop 3).take 3) by omega, Nat.le_add_right]
  split
  · rfl
  · rw [Nat.add_eq_left, List.length_eq_zero_iff]

/-- The bytes that complete a message whose payload was still to come in full. -/
theorem framed_of_complete {message received payload stored init more : List UInt8} {last : UInt8}
    (opened : Open message received) (so_far : message ++ received = b :: (extra ++ (header ++ payload)))
    (proper : 7 ≤ chunkMsgHeaderSizeOf b) (bytes : payload ++ stored = init ++ [last])
    (whole : init.length + 1 = bigEndian ((header.drop 3).take 3)) (some_ : stored ≠ [])
    (complete : Complete (b :: (extra ++ (header ++ (init ++ [last] ++ more))))) (ms : List (List UInt8)) :
    (received ++ (stored ++ more)).foldl assembleByte (ms, message) =
      (ms ++ [b :: (extra ++ (header ++ (init ++ [last] ++ more)))], []) := by
  have message_ : message ++ received ++ (stored ++ more) = b :: (extra ++ (header ++ (init ++ [last] ++ more))) := by
    rw [so_far, ← bytes]
    simp
  rw [List.foldl_append, opened ms, assemble_bytes ms, message_, if_pos complete]
  · intro before after split rest
    refine .inl fun early => ?_
    by_cases short : before.length < stored.length
    · have early_ : message ++ received ++ before = b :: (extra ++ (header ++ (payload ++ before))) := by
        rw [so_far]
        simp
      rw [early_] at early
      have length := congrArg List.length bytes
      simp only [List.length_append, List.length_singleton] at length
      refine not_complete_of_short extra_ full ?_ early
      rw [List.length_append]
      omega
    · obtain ⟨xs, rfl⟩ : stored <+: before :=
        List.prefix_of_prefix_length_le (List.prefix_append _ _) ⟨after, split.symm⟩ (Nat.not_lt.mp short)
      rw [List.append_assoc, List.append_cancel_left_eq] at split
      subst split
      have early_ : message ++ received ++ (stored ++ xs) = b :: (extra ++ (header ++ (init ++ [last] ++ xs))) := by
        rw [so_far, ← bytes]
        simp
      rw [early_, complete_iff extra_ full proper whole] at early
      rw [complete_iff extra_ full proper whole] at complete
      by_cases scanned : Scanned (b :: (extra ++ (header ++ payload)))
      · rw [if_pos ((scanned_same extra_ full).mp scanned)] at early complete
        rw [← List.cons_append, List.findIdx?_append, early, Option.some_or, Option.some.injEq,
          List.length_append] at complete
        exact rest (List.length_eq_zero_iff.mp (by omega))
      · rw [if_neg (mt (scanned_same extra_ full).mpr scanned)] at complete
        exact rest (List.append_eq_nil_iff.mp complete).2
  · simp [some_]

end

theorem last_of_filled {b : UInt8} {header init buffer : List UInt8} {last : UInt8}
    (filled : Buffer.Filled buffer (b :: (header ++ (init ++ [last])))) :
    (buffer.drop (1 + header.length + init.length)).headD 0 = last := by
  obtain ⟨tail, rfl⟩ : ∃ tail, buffer = b :: (header ++ (init ++ last :: tail)) :=
    ⟨buffer.drop (b :: (header ++ (init ++ [last]))).length, by
      conv_lhs => rw [← List.take_append_drop (b :: (header ++ (init ++ [last]))).length buffer]
      rw [filled]
      simp⟩
  rw [Nat.add_assoc, Nat.add_comm, List.drop_succ_cons, ← List.drop_drop, List.drop_left, List.drop_left]
  rfl

/-- The call has come to the payload, of which `payload` has been read. -/
structure InPayload (message : List UInt8) (p : ConsultProgress) (b : UInt8) (extra header payload : List UInt8) :
    Prop where
  silent : p.dispatched = []
  opened : Open message p.received
  so_far : message ++ p.received = b :: (extra ++ (header ++ payload))
  begun : Begun p.statics b extra
  filled : Buffer.Filled p.statics.consultRequest (b :: (header ++ payload))
  proper : 7 ≤ chunkMsgHeaderSizeOf b
  full : header.length = chunkMsgHeaderSizeOf b
  counted : p.statics.readChunkMsgHeaderSize = p.statics.chunkMsgHeaderSize
  pointer : p.statics.pointer = 1 + chunkMsgHeaderSizeOf b
  total : p.statics.totalAmfSize = bigEndian ((header.drop 3).take 3)
  type : p.statics.amfType = (header.drop 6).headD 0
  read : p.statics.readAmfSize = payload.length
  short : payload.length < p.statics.totalAmfSize
  sent : WellSent (b :: (extra ++ (header ++ payload))) (Socket.arriving p.socket)

section
variable {message : List UInt8} {p : ConsultProgress} {b : UInt8} {extra header payload stored : List UInt8}

theorem InPayload.bytes (stored : List UInt8) :
    b :: (extra ++ (header ++ payload)) ++ stored = b :: (extra ++ (header ++ (payload ++ stored))) := by
  simp

/-- What has arrived of the payload goes behind what was there, and fits. -/
theorem InPayload.room (reading : InPayload message p b extra header payload)
    (arrived : stored <+: Socket.arriving p.socket) (fits : payload.length + stored.length ≤ p.statics.totalAmfSize) :
    (b :: (header ++ (payload ++ stored))).length ≤ 1024 := by
  have extra_ := reading.begun.extra_
  have room := reading.sent.room stored arrived
  rw [InPayload.bytes, (shape_payload extra_ reading.full).2, (requestOf_shape extra_ reading.full).2,
    (requestOf_shape extra_ reading.full).1] at room
  exact room (by rw [List.length_append, ← reading.total]; exact fits)

theorem InPayload.fill (reading : InPayload message p b extra header payload) (stored : List UInt8) : Buffer.Filled
    (Buffer.overwrite p.statics.consultRequest (b :: (header ++ payload)).length stored)
    (b :: (header ++ (payload ++ stored))) := by
  have filled := reading.filled.overwrite stored
  rwa [List.cons_append, List.append_assoc] at filled

/-- Less than the payload has come. -/
theorem InPayload.open_ (reading : InPayload message p b extra header payload)
    (below : (payload ++ stored).length < p.statics.totalAmfSize) : Open message (p.received ++ stored) := by
  refine reading.opened.append (open_of fun before start _ => ?_)
  rw [reading.so_far, InPayload.bytes]
  apply not_complete_of_short reading.begun.extra_ reading.full
  have length := start.length_le
  have total := reading.total
  rw [List.length_append] at below ⊢
  omega

theorem InPayload.bytes_split {init : List UInt8} {last : UInt8} (split_ : payload ++ stored = init ++ [last])
    (more : List UInt8) :
    b :: (extra ++ (header ++ payload)) ++ (stored ++ more) = b :: (extra ++ (header ++ (init ++ [last] ++ more))) := by
  rw [← split_]
  simp

/-- The message is complete with the bytes `more` behind its payload. -/
theorem InPayload.dispatches (reading : InPayload message p b extra header payload) (stack : Nat → UInt8) (answer : Int)
    {init more : List UInt8} {last : UInt8} {q : ConsultProgress} (split_ : payload ++ stored = init ++ [last])
    (whole : init.length + 1 = bigEndian ((header.drop 3).take 3)) (some_ : stored ≠ [])
    (complete : Complete (b :: (extra ++ (header ++ (init ++ [last] ++ more)))))
    (arrived : stored ++ more <+: Socket.arriving p.socket)
    (filled : Buffer.Filled q.statics.consultRequest (b :: (header ++ (init ++ [last] ++ more))))
    (fits : (b :: (header ++ (init ++ [last] ++ more))).length ≤ 1024)
    (size : q.statics.chunkMsgHeaderSize = p.statics.chunkMsgHeaderSize)
    (total : q.statics.totalAmfSize = p.statics.totalAmfSize) (received : q.received = p.received ++ (stored ++ more))
    (silent : q.dispatched = p.dispatched) :
    Ends (Accepted message) (fun q => ∀ next, next ≠ .refused →
      Settled message q.statics ⟨q.received, q.dispatched, next⟩)
      (dispatchMessage stack answer q) := by
  have extra_ := reading.begun.extra_
  refine dispatchMessage_ends stack answer extra_ reading.proper reading.full filled fits
    (size.trans reading.begun.size)
    (total.trans reading.total) ?_ (silent.trans reading.silent) (fun ms => ?_) fun invoked => ?_
  · simp only [List.length_append, List.length_singleton]
    omega
  · rw [received]
    exact framed_of_complete extra_ reading.full reading.opened reading.so_far reading.proper split_ whole
      some_ complete ms
  · have inside := reading.sent.inside (stored ++ more) arrived
    rw [InPayload.bytes_split split_, (shape_payload extra_ reading.full).1] at inside
    exact inside complete invoked

/-- The next call goes on behind what has been stored. -/
theorem InPayload.waits {ret : Nat} (reading : InPayload message p b extra header payload)
    (below : (payload ++ stored).length < p.statics.totalAmfSize)
    (fits : (b :: (header ++ payload)).length + stored.length ≤ 1024)
    (counted : p.statics.readAmfSize + ret = (payload ++ stored).length) (next : ConsultPhase) :
    Settled message
      { p.statics with
        consultRequest := Buffer.overwrite p.statics.consultRequest (b :: (header ++ payload)).length stored
        readAmfSize := p.statics.readAmfSize + ret }
      ⟨p.received ++ stored, [], next⟩ := by
  have begun := reading.begun
  have whole : message ++ (p.received ++ stored) = b :: (extra ++ (header ++ (payload ++ stored))) := by
    rw [← List.append_assoc, reading.so_far, InPayload.bytes]
  refine .of_open (reading.open_ below) (fun _ => ?_) (fun none => ?_)
  · rw [whole]
    refine .payload ⟨?_, begun.started, begun.extra_, begun.format, begun.channel, begun.size⟩ (reading.fill stored)
      reading.proper reading.full reading.counted reading.pointer reading.total reading.type counted
      (Nat.le_of_lt below) (fun same => ?_)
    · rw [Buffer.length_overwrite (by rw [begun.length]; exact fits), begun.length]
    · exact absurd same (Nat.ne_of_lt below)
  · rw [whole] at none
    cases none

/-- The scan stays inside the array. -/
theorem InPayload.scans (reading : InPayload message p b extra header payload) {socket : List (Socket.ReadEvent UInt8)}
    {init : List UInt8} {last : UInt8} (split_ : payload ++ stored = init ++ [last])
    (whole : init.length + 1 = bigEndian ((header.drop 3).take 3)) (arrived : stored <+: Socket.arriving p.socket)
    (rest : Socket.arriving p.socket = stored ++ Socket.arriving socket)
    (scanned : ∀ payload, Scanned (b :: (extra ++ (header ++ payload)))) :
    scanAmfEnd (1024 - (b :: (header ++ (init ++ [last]))).length) last socket ≠ some none := by
  have extra_ := reading.begun.extra_
  have full := reading.full
  intro outside
  have spec := scanAmfEnd_spec outside
  have length : (payload ++ stored).length = bigEndian ((header.drop 3).take 3) := by
    rw [split_, List.length_append]
    exact whole
  obtain ⟨more, start, complete, bound⟩ := reading.sent.ends stored arrived
    (by rw [InPayload.bytes, (requestOf_shape extra_ full).2]; omega)
    (by rw [InPayload.bytes, (shape_payload extra_ full).2, (requestOf_shape extra_ full).2, length])
  rw [List.append_assoc, InPayload.bytes_split split_] at complete bound
  rw [complete_iff extra_ full reading.proper whole, if_pos (scanned _)] at complete
  rw [rest, List.prefix_append_right_inj] at start
  have far := spec more start complete
  rw [(requestOf_shape extra_ full).1] at bound
  simp only [List.length_cons, List.length_append, List.length_nil] at bound far
  omega

theorem readPayload_ends (stack : Nat → UInt8) (answer : Int) (reading : InPayload message p b extra header payload) :
    Ends (Accepted message) (fun q => ∀ next, next ≠ .refused →
      Settled message q.statics ⟨q.received, q.dispatched, next⟩)
      (readAmfPayload stack answer p) := by
  have extra_ := reading.begun.extra_
  have short := reading.short
  have read := reading.read
  unfold readAmfPayload
  dsimp only
  rw [if_pos (by omega)]
  split
  · trivial
  · next r answered =>
    rw [read] at answered
    obtain ⟨_, result⟩ := readSpecifySize_spec (by omega) answered
    obtain ⟨arrived, rest⟩ := readSpecifySize_arriving (by omega) answered
    have room := reading.room arrived (by omega)
    have filled := reading.fill r.stored
    have start : p.statics.pointer + p.statics.readAmfSize = (b :: (header ++ payload)).length := by
      rw [reading.pointer, read]
      simp only [List.length_cons, List.length_append, reading.full]
      omega
    have fits_array : (b :: (header ++ payload)).length + r.stored.length ≤ 1024 := by
      simp only [List.length_cons, List.length_append] at room ⊢
      omega
    rw [start, if_neg (by omega)]
    split
    · next positive =>
      have ret : r.ret = r.stored.length := by omega
      have counted : p.statics.readAmfSize + r.ret = (payload ++ r.stored).length := by
        rw [read, ret, List.length_append]
      have some_ : r.stored ≠ [] := by
        intro none
        rw [none] at ret
        simp [ret] at positive
      split
      · next complete_ =>
        rw [counted] at complete_
        obtain ⟨init, last, split_⟩ : ∃ init last, payload ++ r.stored = init ++ [last] :=
          ⟨_, _, (List.dropLast_append_getLast (by simp [some_])).symm⟩
        have whole : init.length + 1 = bigEndian ((header.drop 3).take 3) := by
          rw [← reading.total, ← complete_, split_, List.length_append, List.length_singleton]
        have stop : p.statics.pointer + p.statics.totalAmfSize = (b :: (header ++ (payload ++ r.stored))).length := by
          rw [reading.pointer, ← complete_]
          simp only [List.length_cons, List.length_append, reading.full]
          omega
        rw [stop]
        rw [split_] at filled room ⊢
        split
        · next scanned =>
          obtain ⟨invoked, format, channel⟩ := scanned
          have scanned : ∀ payload, Scanned (b :: (extra ++ (header ++ payload))) := fun payload =>
            (scanned_shape extra_ reading.full).mpr
              ⟨reading.type.symm.trans invoked, reading.begun.format.symm.trans format,
                reading.begun.channel.symm.trans channel⟩
          have place : (b :: (header ++ (init ++ [last]))).length - 1 = 1 + header.length + init.length := by
            simp only [List.length_cons, List.length_append, List.length_nil]
            omega
          rw [place, last_of_filled filled]
          split
          · trivial
          · next outside => exact reading.scans split_ whole arrived (rest positive) scanned outside
          · next more socket found =>
            obtain ⟨start, near, first⟩ := scanAmfEnd_spec found
            refine @InPayload.dispatches _ _ _ _ _ _ _ reading stack answer init more last _ split_ whole
              some_ ?_ ?_ ?_ ?_
              rfl rfl ?_ rfl
            · rw [complete_iff extra_ reading.full reading.proper whole, if_pos (scanned _)]
              exact first
            · rw [rest positive, List.prefix_append_right_inj]
              exact start
            · have filled := filled.overwrite more
              rwa [List.cons_append, List.append_assoc] at filled
            · simp only [List.length_cons, List.length_append, List.length_nil] at room near ⊢
              omega
            · exact List.append_assoc _ _ _
        · next plain =>
          have plain' : ∀ payload, ¬ Scanned (b :: (extra ++ (header ++ payload))) := by
            intro payload scanned
            obtain ⟨invoked, format, channel⟩ := (scanned_shape extra_ reading.full).mp scanned
            exact plain ⟨reading.type.trans invoked, reading.begun.format.trans format,
              reading.begun.channel.trans channel⟩
          refine @InPayload.dispatches _ _ _ _ _ _ _ reading stack answer init [] last _ split_ whole
            some_ ?_ ?_ ?_ ?_ rfl rfl
            ?_ rfl
          · rw [complete_iff extra_ reading.full reading.proper whole, if_neg (plain' _)]
          · rwa [List.append_nil]
          · rwa [List.append_nil]
          · rwa [List.append_nil]
          · rw [List.append_nil]
      · next partial_ =>
        rw [counted] at partial_
        intro next _
        dsimp only
        rw [reading.silent]
        exact reading.waits (by rw [List.length_append] at partial_ ⊢; omega) fits_array counted next
    · show Settled _ _ _
      rw [reading.silent]
      refine .of_open reading.opened (fun reading => by cases reading) (fun none => ?_)
      rw [reading.so_far] at none
      cases none

end

theorem readAmfPayload_ends {message : List UInt8} {p : ConsultProgress} (stack : Nat → UInt8) (answer : Int)
    (silent : p.dispatched = []) (opened : Open message p.received) (stage : Stage p.statics (message ++ p.received))
    (header_ : p.statics.readChunkMsgHeaderSize = p.statics.chunkMsgHeaderSize)
    (sent : WellSent (message ++ p.received) (Socket.arriving p.socket)) :
    Ends (Accepted message) (fun q => ∀ next, next ≠ .refused →
      Settled message q.statics ⟨q.received, q.dispatched, next⟩)
      (readAmfPayload stack answer p) := by
  by_cases same : p.statics.readAmfSize = p.statics.totalAmfSize
  · unfold readAmfPayload
    dsimp only
    rw [if_neg (by simp [same])]
    intro next _
    rw [silent]
    exact .of_open opened (fun _ => stage) (fun none => none ▸ stage)
  · generalize so_far : message ++ p.received = bytes at stage sent
    cases stage with
    | fresh length pointer started header read payload none => exact (same payload).elim
    | nothing started header payload => exact (same payload).elim
    | header begun filled short counted => 
      rw [counted, begun.size] at header_
      omega
    | payload begun filled proper full counted pointer total type read within unfinished =>
      refine readPayload_ends stack answer ⟨silent, opened, so_far, begun, filled, proper, full,
        counted, pointer, total,
        type, read, Nat.lt_of_le_of_ne within fun whole => same ?_, sent⟩
      rw [read, whole]

end LiveStreaming.XtraRtmp
