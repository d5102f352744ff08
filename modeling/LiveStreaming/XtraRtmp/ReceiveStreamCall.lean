import LiveStreaming.XtraRtmp.ReceiveStream

/-!
# One call of the receiver

What a call reads, as long as the static variables fit the stream that it reads from: where they stand between
two chunks, within a header, or within a payload.
-/

namespace LiveStreaming.XtraRtmp.ReceiveStream
open Library Streamer ChunkStream

/-! ### Reading what is to come -/

/-- The call began with `todo₀` to come on `socket₀`, and has `todo` still to come. -/
structure Faces (socket₀ : List (Socket.ReadEvent UInt8)) (todo₀ : Bytes) (c : Call) (todo : Bytes) : Prop where
  split : todo₀ = c.read ++ todo
  arriving : Socket.arriving c.socket = todo.map Prod.snd
  gaps : ∀ gap ∈ Socket.gaps c.socket, gap + c.read.length ∈ Socket.gaps socket₀

variable {socket₀ : List (Socket.ReadEvent UInt8)} {todo₀ todo more : Bytes} {c : Call} {part : Part} {r : Received}
  {bytes : List UInt8}

theorem map_labelled (part : Part) (bytes : List UInt8) : (labelled part bytes).map Prod.snd = bytes := by
  unfold labelled
  rw [List.map_map]
  exact List.map_id bytes

theorem length_labelled (part : Part) (bytes : List UInt8) : (labelled part bytes).length = bytes.length :=
  List.length_map _

theorem labelled_append (part : Part) (xs ys : List UInt8) :
    labelled part (xs ++ ys) = labelled part xs ++ labelled part ys := List.map_append

theorem Faces.statics (faces : Faces socket₀ todo₀ c todo) (s : Statics) :
    Faces socket₀ todo₀ { c with statics := s } todo := ⟨faces.split, faces.arriving, faces.gaps⟩

/-- A read that asks for the rest of a part gets a piece of it, and the whole unless it meets a gap. -/
theorem Faces.take (faces : Faces socket₀ todo₀ c (labelled part bytes ++ more)) (some_ : bytes ≠ [])
    (read : readSpecifySize bytes.length c.socket = some r) :
    (0 < r.ret ∧ r.ret ≤ bytes.length ∧ r.stored = bytes.take r.ret) ∧
      Faces socket₀ todo₀ (c.took part r) (labelled part (bytes.drop r.ret) ++ more) ∧
      (r.ret < bytes.length → r.ret + c.read.length ∈ Socket.gaps socket₀) := by
  have coming := faces.arriving
  rw [List.map_append, map_labelled] at coming
  obtain ⟨stream, ⟨ret, positive, most⟩, short, later⟩ := readSpecifySize_coming (List.length_pos_iff.mpr some_)
    (by rw [coming, List.length_append]; omega) read
  rw [coming] at stream
  have stored : r.stored = bytes.take r.ret := by
    have front := congrArg (List.take r.ret) stream
    rw [List.take_append_of_le_length most, ret, List.take_left] at front
    rw [ret, front]
  have rest : Socket.arriving r.socket = bytes.drop r.ret ++ more.map Prod.snd := by
    have back := congrArg (List.drop r.ret) stream
    rw [List.drop_append_of_le_length most, ret, List.drop_left] at back
    rw [ret, back]
  refine ⟨⟨positive, most, stored⟩, ⟨?_, ?_, fun gap member => ?_⟩, fun less => faces.gaps _ (short less)⟩
  · change _ = (c.read ++ labelled part r.stored) ++ _
    rw [faces.split, stored, List.append_assoc, ← List.append_assoc (labelled part (bytes.take r.ret)),
      ← labelled_append,
      List.take_append_drop]
  · unfold Call.took
    dsimp only
    rw [if_neg (by omega), rest, List.map_append, map_labelled]
  · unfold Call.took at member ⊢
    dsimp only at member ⊢
    rw [if_neg (by omega)] at member
    have found := faces.gaps _ (later gap member)
    rwa [List.length_append, length_labelled, ← ret, Nat.add_comm c.read.length, ← Nat.add_assoc]

theorem Faces.take2 (faces : Faces socket₀ todo₀ c (labelled part bytes ++ more)) (some_ : bytes ≠ [])
    (read : readSpecifySize2 bytes.length c.socket = some r) : Faces socket₀ todo₀ (c.took part r) more := by
  have coming := faces.arriving
  have positive := List.length_pos_iff.mpr some_
  rw [List.map_append, map_labelled] at coming
  obtain ⟨stream, ret, full, later⟩ := @readSpecifySize2Loop_coming bytes.length _ [] c.socket r positive
    (by rw [coming, List.nil_append, List.length_append]; omega) read
  rw [coming, List.nil_append] at stream
  obtain ⟨stored, rest⟩ := List.append_inj stream full.symm
  refine ⟨?_, ?_, fun gap member => ?_⟩
  · change _ = (c.read ++ labelled part r.stored) ++ _
    rw [faces.split, stored, List.append_assoc]
  · unfold Call.took
    dsimp only
    rw [if_neg (by omega), rest]
  · unfold Call.took at member ⊢
    dsimp only at member ⊢
    rw [if_neg (by omega)] at member
    have found := faces.gaps _ (later gap member)
    rwa [List.length_append, length_labelled, full, Nat.add_comm c.read.length, ← Nat.add_assoc]

theorem Faces.taken (faces : Faces socket₀ todo₀ (c.took part r) (labelled part (bytes.drop r.ret) ++ more))
    (all : r.ret = bytes.length) : Faces socket₀ todo₀ (c.took part r) more := by
  rwa [all, List.drop_length, show labelled part [] = [] from rfl, List.nil_append] at faces

/-! ### What the static variables stand for -/

def lastFull (before : List Message) : Option Message :=
  (before.filter fun m => m.format = .type0 ∨ m.format = .type1).getLast?

/-- The length and the type in the header buffer are those of the last message that had them. -/
structure Knows (s : Statics) (before : List Message) : Prop where
  length : s.chunkMsgHeaderBuffer.length = 11
  last : ∀ m, lastFull before = some m → (s.chunkMsgHeaderBuffer.drop 3).take 4 = m.lengthAndType

structure Quiet (s : Statics) : Prop where
  large : s.amfDataSizeGT128 = false
  left : s.leftReadSize = 0
  segment : s.segmentSize = 0
  readSegment : s.readSegmentSize = 0
  payload : s.readAmfPayloadSize = 0

structure Fresh (s : Statics) : Prop extends Quiet s where
  header : s.readChunkBasicHeaderDone = false
  msgHeader : s.readChunkMsgHeaderSize = 0

/-- `rest` is what is left of the payload of a message that is longer than a chunk. -/
structure Remains (s : Statics) (rest : List UInt8) : Prop where
  large : s.amfDataSizeGT128 = true
  left : s.leftReadSize = rest.length
  some_ : rest ≠ []
  segment : s.segmentSize = 0
  readSegment : s.readSegmentSize = 0
  payload : s.readAmfPayloadSize = 0

structure Continues (s : Statics) (rest : List UInt8) : Prop extends Remains s rest where
  header : s.readChunkBasicHeaderDone = false

/-- Between two chunks. A message that has left out its length counts as one message for each chunk. -/
inductive Boundary (messages : List Message) (s : Statics) : Bytes → Prop
  | message {before after : List Message} (split : messages = before ++ after) (fresh : Fresh s)
      (knows : Knows s before) : Boundary messages s (stream after)
  | continued {before after : List Message} {m : Message} {rest : List UInt8} (split : messages = before ++ m :: after)
      (short : m.extendedTimestamp = []) (continues : Continues s rest) (knows : Knows s (before ++ [m])) :
      Boundary messages s (m.chunks ((rest.length - 1) / chunkSize + 1) rest ++ stream after)
  | repeated {before after : List Message} {m : Message} {rest : List UInt8} {n : Nat}
      (split : messages = before ++ m :: after) (short : m.extendedTimestamp = []) (fresh : Fresh s)
      (knows : Knows s (before ++ [m])) (whole : rest.length = chunkSize * (n + 1)) :
      Boundary messages s (m.chunks (n + 1) rest ++ stream after)

/-- What the static variables and the bytes to come have to do with each other between two calls. -/
inductive Expects (messages : List Message) (s : Statics) : Bytes → Prop
  | boundary {todo : Bytes} (between : Boundary messages s todo) : Expects messages s todo
  | header {before after : List Message} {m : Message} {k : Nat} (split : messages = before ++ m :: after)
      (begun : s.readChunkBasicHeaderDone = true ∧ s.format = m.format.bits ∧
        s.chunkMsgHeaderSize = m.format.headerSize ∧ s.readChunkMsgHeaderSize = k ∧ k < m.format.headerSize)
      (quiet : Quiet s) (filled : Buffer.Filled s.chunkMsgHeaderBuffer (m.messageHeader.take k))
      (length : s.chunkMsgHeaderBuffer.length = 11) (knows : m.format = .type2 → Knows s before) :
      Expects messages s (labelled .messageHeader (m.messageHeader.drop k) ++ (m.body ++ stream after))
  | payload {bytes : List UInt8} {j : Nat} {todo : Bytes}
      (begun : s.readChunkBasicHeaderDone = true ∧ s.readChunkMsgHeaderSize = s.chunkMsgHeaderSize ∧
        7 ≤ s.chunkMsgHeaderSize ∧ (s.chunkMsgHeaderBuffer.drop 6).headD 0 ≠ MESSAGE_AMF0_DATA)
      (size : s.amfPayloadSize = bytes.length ∧ s.readAmfPayloadSize = j ∧ j < bytes.length ∧ bytes.length ≤ chunkSize)
      (done : Boundary messages s.finishPayload todo) : Expects messages s (labelled .payload (bytes.drop j) ++ todo)
  | segment {bytes : List UInt8} {j : Nat} {todo : Bytes}
      (begun : s.readChunkBasicHeaderDone = true ∧ s.format = 3 ∧ s.chunkMsgHeaderSize = 0)
      (size : s.segmentSize = bytes.length ∧ s.readSegmentSize = j ∧ j < bytes.length)
      (done : Boundary messages s.finishSegment todo) : Expects messages s (labelled .payload (bytes.drop j) ++ todo)

/-- How a call may end that began with `todo₀` to come. -/
def Sound (messages : List Message) (socket₀ : List (Socket.ReadEvent UInt8)) (todo₀ : Bytes) : CallEnd → Prop
  | .hangs => True
  | .outside => False
  | .deleted c => todo₀ = [] ∧ c.read = []
  | .returns c => c.read ≠ [] ∧ ∃ todo, Faces socket₀ todo₀ c todo ∧ Expects messages c.statics todo

variable {messages before after : List Message} {m : Message} {j : Nat}

theorem read_some {r : Received} (stored : r.stored = bytes.take r.ret) (positive : 0 < r.ret)
    (some_ : 0 < bytes.length) : (c.took part r).read ≠ [] := by
  intro none_
  have both := congrArg List.length none_
  unfold Call.took at both
  rw [List.length_append, length_labelled, stored, List.length_take, List.length_nil] at both
  omega

/-! ### The payload -/

theorem readSegment_sound (faces : Faces socket₀ todo₀ c (labelled .payload (bytes.drop j) ++ todo))
    (size : c.statics.segmentSize = bytes.length ∧ c.statics.readSegmentSize = j ∧ j < bytes.length)
    (done : Boundary messages c.statics.finishSegment todo)
    (resumes : (c.statics.readChunkBasicHeaderDone = true ∧ c.statics.format = 3 ∧ c.statics.chunkMsgHeaderSize = 0) ∨
      ∀ gap ∈ Socket.gaps socket₀, ¬ (c.read.length < gap ∧ gap < c.read.length + (bytes.length - j))) :
    Sound messages socket₀ todo₀ (readSegment c) := by
  obtain ⟨whole, at_, less⟩ := size
  have asked : c.statics.segmentSize - c.statics.readSegmentSize = (bytes.drop j).length := by
    rw [whole, at_, List.length_drop]
  have some_ : 0 < (bytes.drop j).length := by
    rw [List.length_drop]
    omega
  unfold readSegment
  dsimp only
  rw [if_pos (by omega), asked]
  split
  · trivial
  · next r read =>
    obtain ⟨⟨positive, most, stored⟩, after, short⟩ := faces.take (List.length_pos_iff.mp some_) read
    rw [List.length_drop] at most short
    rw [if_pos positive]
    split
    · next all =>
      refine ⟨read_some stored positive some_, todo, ?_, .boundary done⟩
      exact (Faces.taken after (by rw [List.length_drop]; omega)).statics _
    · next part =>
      rcases resumes with begun | none_
      · refine ⟨read_some stored positive some_, _, after.statics _, ?_⟩
        rw [List.drop_drop]
        exact .segment begun ⟨whole, by dsimp only; omega, by omega⟩ done
      · exact absurd ⟨by omega, by omega⟩ (none_ _ (short (by omega)))

theorem readAmfPayload_sound (faces : Faces socket₀ todo₀ c (labelled .payload (bytes.drop j) ++ todo))
    (begun : c.statics.readChunkBasicHeaderDone = true ∧
      c.statics.readChunkMsgHeaderSize = c.statics.chunkMsgHeaderSize ∧
      7 ≤ c.statics.chunkMsgHeaderSize ∧ (c.statics.chunkMsgHeaderBuffer.drop 6).headD 0 ≠ MESSAGE_AMF0_DATA)
    (size : c.statics.amfPayloadSize = bytes.length ∧ c.statics.readAmfPayloadSize = j ∧ j < bytes.length ∧
      bytes.length ≤ chunkSize)
    (done : Boundary messages c.statics.finishPayload todo) :
    ∃ left, readAmfPayload c = .error left ∧ Sound messages socket₀ todo₀ left := by
  obtain ⟨whole, at_, less, small⟩ := size
  have limit : bytes.length ≤ 128 := small
  have asked : c.statics.amfPayloadSize - c.statics.readAmfPayloadSize = (bytes.drop j).length := by
    rw [whole, at_, List.length_drop]
  have some_ : 0 < (bytes.drop j).length := by
    rw [List.length_drop]
    omega
  unfold readAmfPayload
  dsimp only
  rw [if_pos ⟨begun.2.2.1, by omega⟩, asked]
  split
  · exact ⟨_, rfl, trivial⟩
  · next r read =>
    obtain ⟨⟨positive, most, stored⟩, after, short⟩ := faces.take (List.length_pos_iff.mp some_) read
    rw [List.length_drop] at most
    have fits : r.stored.length ≤ 128 := by
      rw [stored, List.length_take]
      omega
    rw [if_neg (by omega), if_pos positive]
    split
    · next all =>
      rw [if_neg begun.2.2.2]
      refine ⟨_, rfl, read_some stored positive some_, todo, ?_, .boundary done⟩
      exact (Faces.taken after (by rw [List.length_drop]; omega)).statics _
    · next part =>
      refine ⟨_, rfl, read_some stored positive some_, _, after.statics _, ?_⟩
      rw [List.drop_drop]
      exact .payload begun ⟨whole, by dsimp only; omega, by omega, small⟩ done

/-! ### The chunks behind the first -/

def afterMsgHeader (c : Call) : CallEnd :=
  match readAmfPayload c with
  | .error left => left
  | .ok c => readSegment { c with statics := c.statics.chooseSegment }

def afterBasicHeader (c : Call) : CallEnd :=
  match readChunkMsgHeader c with
  | .error left => left
  | .ok c => afterMsgHeader c

theorem receiveStreamCallback_eq (s : Statics) (socket : List (Socket.ReadEvent UInt8)) {after : Call}
    (read : readChunkBasicHeader ⟨s, socket, []⟩ = .ok after) :
    receiveStreamCallback s socket = afterBasicHeader after := by
  have bound : (readChunkBasicHeader ⟨s, socket, []⟩ >>= readChunkMsgHeader >>= readAmfPayload) =
      readChunkMsgHeader after >>= readAmfPayload := by
    rw [read]
    rfl
  unfold receiveStreamCallback afterBasicHeader afterMsgHeader
  rw [bound]
  cases readChunkMsgHeader after <;> rfl

theorem readChunkBasicHeader_chunk {f : Format}
    (faces : Faces socket₀ todo₀ c (labelled .basicHeader (m.basicHeader f) ++ more))
    (idle : c.statics.readChunkBasicHeaderDone = false) :
    readChunkBasicHeader c = .error .hangs ∨ ∃ after, readChunkBasicHeader c = .ok after ∧
      Faces socket₀ todo₀ after more ∧ after.statics = { c.statics with
        readChunkBasicHeaderDone := true
        format := f.bits
        chunkMsgHeaderSize := f.headerSize } := by
  obtain ⟨format, channelID⟩ := basicHeader_fields f m.chunkStream.first m.chunkStream.small
  have size : chunkMsgHeaderSizeOf (f.bits <<< 6 ||| m.chunkStream.first) = f.headerSize := by
    unfold chunkMsgHeaderSizeOf
    rw [format]
    cases f <;> rfl
  have length := m.chunkStream.length
  unfold Message.basicHeader at faces
  rw [show labelled .basicHeader ((f.bits <<< 6 ||| m.chunkStream.first) :: m.chunkStream.more) =
    labelled .basicHeader [f.bits <<< 6 ||| m.chunkStream.first] ++ labelled .basicHeader m.chunkStream.more from rfl,
    List.append_assoc] at faces
  unfold readChunkBasicHeader
  rw [idle, if_neg (by decide)]
  cases read : readSpecifySize 1 c.socket with
  | none => exact .inl rfl
  | some r =>
    obtain ⟨⟨positive, most, stored⟩, rest, _⟩ := faces.take (List.cons_ne_nil _ _) read
    have one : r.ret = 1 := by
      rw [List.length_singleton] at most
      omega
    have rest := (Faces.taken rest (by rw [one]; rfl)).statics { c.statics with
      readChunkBasicHeaderDone := true
      format := f.bits
      chunkMsgHeaderSize := f.headerSize }
    rw [one] at stored
    dsimp only
    rw [if_pos one, stored]
    change readChannelID _ ((f.bits <<< 6 ||| m.chunkStream.first) &&& 0x3f) = _ ∨
      ∃ after, readChannelID _ ((f.bits <<< 6 ||| m.chunkStream.first) &&& 0x3f) = _ ∧ _
    dsimp only [List.take_succ_cons, List.headD_cons]
    rw [channelID, format, size]
    unfold readChannelID
    unfold moreBytes at length
    split at length
    · next zero =>
      rw [if_pos zero]
      split
      · exact .inl rfl
      · next r' read' =>
        have some_ : m.chunkStream.more ≠ [] := List.length_pos_iff.mp (by omega)
        rw [← length] at read'
        obtain ⟨⟨positive, most, _⟩, rest, _⟩ := rest.take some_ read'
        exact .inr ⟨_, rfl, Faces.taken rest (by omega), rfl⟩
    · next other =>
      rw [if_neg other]
      split at length
      · next one_ =>
        rw [if_pos one_]
        split
        · exact .inl rfl
        · next r' read' =>
          have some_ : m.chunkStream.more ≠ [] := List.length_pos_iff.mp (by omega)
          rw [← length] at read'
          exact .inr ⟨_, rfl, rest.take2 some_ read', rfl⟩
      · next other' =>
        rw [if_neg other']
        rw [List.length_eq_zero_iff.mp length] at rest
        exact .inr ⟨_, rfl, rest, rfl⟩

theorem afterBasicHeader_type3 (format : c.statics.format = 3) (none_ : c.statics.chunkMsgHeaderSize = 0) :
    afterBasicHeader c = readSegment { c with statics := c.statics.chooseSegment } := by
  have header : readChunkMsgHeader c = .ok c := by
    unfold readChunkMsgHeader
    dsimp only
    rw [if_neg (by omega)]
  have payload : readAmfPayload c = .ok c := by
    unfold readAmfPayload
    dsimp only
    rw [if_neg (by omega), if_neg (by rw [format]; decide)]
  unfold afterBasicHeader afterMsgHeader
  rw [header]
  dsimp only
  rw [payload]

/-- The segment that is chosen for a chunk, and where its end leaves the static variables. -/
theorem Remains.chooseSegment {s : Statics} {rest : List UInt8} (remains : Remains s rest) :
    s.chooseSegment = { s with
      segmentSize := (rest.take chunkSize).length
      leftReadSize := (rest.drop chunkSize).length } := by
  have left := remains.left
  unfold Statics.chooseSegment MAX_RTMP_PACKAGE_SIZE
  by_cases long : 128 ≤ rest.length
  · have size : (rest.take chunkSize).length = 128 := by
      rw [List.length_take, chunkSize]
      omega
    rw [if_pos remains.segment, size, List.length_drop, left, if_pos long]
    exact if_pos remains.large
  · have size : (rest.take chunkSize).length = rest.length ∧ (rest.drop chunkSize).length = 0 := by
      rw [List.length_take, List.length_drop, chunkSize]
      omega
    rw [if_pos remains.segment, size.1, size.2, left, if_neg long]
    exact if_pos remains.large

theorem Quiet.chooseSegment {s : Statics} (quiet : Quiet s) :
    s.chooseSegment = { s with segmentSize := chunkSize } := by
  obtain ⟨large, left, segment, _, _⟩ := quiet
  cases s
  dsimp only at large left segment
  subst large left segment
  rfl

theorem finishSegment_last {s : Statics} (left : s.leftReadSize = 0) :
    Fresh s.finishSegment ∧ s.finishSegment.chunkMsgHeaderBuffer = s.chunkMsgHeaderBuffer := by
  unfold Statics.finishSegment
  dsimp only
  rw [if_pos (.inl left), left]
  exact ⟨⟨⟨Bool.and_false _, rfl, rfl, rfl, rfl⟩, rfl, rfl⟩, rfl⟩

theorem finishSegment_more {s : Statics} {rest : List UInt8} (left : s.leftReadSize = rest.length) (some_ : rest ≠ [])
    (large : s.amfDataSizeGT128 = true) (payload : s.readAmfPayloadSize = 0) :
    Continues s.finishSegment rest ∧ s.finishSegment.chunkMsgHeaderBuffer = s.chunkMsgHeaderBuffer := by
  have positive := List.length_pos_iff.mpr some_
  have more : decide (s.leftReadSize ≠ 0) = true := decide_eq_true (by omega)
  unfold Statics.finishSegment
  dsimp only
  rw [more, large, if_neg (by simp; omega)]
  exact ⟨⟨⟨rfl, left, some_, rfl, rfl, payload⟩, rfl⟩, rfl⟩

theorem Knows.of_buffer {s s' : Statics} (knows : Knows s before)
    (same : s'.chunkMsgHeaderBuffer = s.chunkMsgHeaderBuffer) : Knows s' before :=
  ⟨same ▸ knows.length, same ▸ knows.last⟩

theorem boundary_after {s : Statics} {rest : List UInt8} (split : messages = before ++ m :: after)
    (short : m.extendedTimestamp = []) (knows : Knows s (before ++ [m])) (some_ : rest ≠ [])
    (left : s.leftReadSize = (rest.drop chunkSize).length) (large : s.amfDataSizeGT128 = true)
    (payload : s.readAmfPayloadSize = 0) :
    Boundary messages s.finishSegment
      (m.chunks ((rest.length - 1) / chunkSize) (rest.drop chunkSize) ++ stream after) := by
  have positive := List.length_pos_iff.mpr some_
  rw [List.length_drop, chunkSize] at left
  by_cases last : rest.length ≤ chunkSize
  · rw [chunkSize] at last
    obtain ⟨fresh, same⟩ := @finishSegment_last s (by omega)
    rw [chunkSize, show (rest.length - 1) / 128 = 0 by omega]
    exact .message (by rw [split, List.append_assoc]; rfl) fresh (knows.of_buffer same)
  · rw [chunkSize] at last
    have more : rest.drop chunkSize ≠ [] := List.length_pos_iff.mp (by rw [List.length_drop, chunkSize]; omega)
    obtain ⟨continues, same⟩ := @finishSegment_more s (rest.drop chunkSize)
      (by rw [left, List.length_drop, chunkSize]) more large payload
    have count : (rest.length - 1) / chunkSize = ((rest.drop chunkSize).length - 1) / chunkSize + 1 := by
      rw [List.length_drop, chunkSize]
      omega
    rw [count]
    exact .continued split short continues (knows.of_buffer same)

variable {s : Statics} {socket : List (Socket.ReadEvent UInt8)} {rest : List UInt8} {n : Nat}

theorem receiveStreamCallback_hangs (read : readChunkBasicHeader ⟨s, socket, []⟩ = .error .hangs) :
    receiveStreamCallback s socket = .hangs := by
  unfold receiveStreamCallback
  rw [read]
  rfl

theorem chunks_succ (short : m.extendedTimestamp = []) (more : Bytes) :
    m.chunks (n + 1) rest ++ more = labelled .basicHeader (m.basicHeader .type3) ++
      (labelled .payload (rest.take chunkSize) ++ (m.chunks n (rest.drop chunkSize) ++ more)) := by
  rw [Message.chunks, short, show labelled .extendedTimestamp [] = [] from rfl, List.append_nil, List.append_assoc,
    List.append_assoc]

theorem continued_sound (split : messages = before ++ m :: after) (short : m.extendedTimestamp = [])
    (continues : Continues s rest) (knows : Knows s (before ++ [m]))
    (faces : Faces socket₀ todo₀ ⟨s, socket, []⟩
      (m.chunks ((rest.length - 1) / chunkSize + 1) rest ++ stream after)) :
    Sound messages socket₀ todo₀ (receiveStreamCallback s socket) := by
  rw [chunks_succ short] at faces
  rcases readChunkBasicHeader_chunk faces continues.header with hangs | ⟨c, read, faces, statics⟩
  · rw [receiveStreamCallback_hangs hangs]
    trivial
  · have remains : Remains c.statics rest := by
      rw [statics]
      exact ⟨continues.large, continues.left, continues.some_, continues.segment, continues.readSegment,
        continues.payload⟩
    have format : c.statics.format = 3 ∧ c.statics.chunkMsgHeaderSize = 0 ∧
        c.statics.readChunkBasicHeaderDone = true := by
      rw [statics]
      exact ⟨rfl, rfl, rfl⟩
    have knows : Knows c.statics (before ++ [m]) := knows.of_buffer (by rw [statics])
    have some_ := List.length_pos_iff.mpr continues.some_
    rw [receiveStreamCallback_eq s socket read, afterBasicHeader_type3 format.1 format.2.1, remains.chooseSegment]
    refine @readSegment_sound _ _ _ _ (rest.take chunkSize) _ 0 (faces.statics _) ⟨rfl, remains.readSegment, ?_⟩ ?_
      (.inl ⟨format.2.2, format.1, format.2.1⟩)
    · rw [List.length_take, chunkSize]
      omega
    · exact boundary_after split short (knows.of_buffer rfl) continues.some_ rfl remains.large remains.payload

/-- A message that has left out its length, read as one message for each chunk. -/
theorem repeated_sound (split : messages = before ++ m :: after) (short : m.extendedTimestamp = [])
    (fresh : Fresh s) (knows : Knows s (before ++ [m])) (whole : rest.length = chunkSize * (n + 1))
    (faces : Faces socket₀ todo₀ ⟨s, socket, []⟩ (m.chunks (n + 1) rest ++ stream after)) :
    Sound messages socket₀ todo₀ (receiveStreamCallback s socket) := by
  rw [chunks_succ short] at faces
  rcases readChunkBasicHeader_chunk faces fresh.header with hangs | ⟨c, read, faces, statics⟩
  · rw [receiveStreamCallback_hangs hangs]
    trivial
  · have quiet : Quiet c.statics := by
      rw [statics]
      exact ⟨fresh.large, fresh.left, fresh.segment, fresh.readSegment, fresh.payload⟩
    have format : c.statics.format = 3 ∧ c.statics.chunkMsgHeaderSize = 0 ∧
        c.statics.readChunkBasicHeaderDone = true := by
      rw [statics]
      exact ⟨rfl, rfl, rfl⟩
    have knows : Knows c.statics (before ++ [m]) := knows.of_buffer (by rw [statics])
    have size : (rest.take chunkSize).length = chunkSize := by
      rw [List.length_take, whole, Nat.mul_succ]
      omega
    rw [receiveStreamCallback_eq s socket read, afterBasicHeader_type3 format.1 format.2.1, quiet.chooseSegment]
    refine @readSegment_sound _ _ _ _ (rest.take chunkSize) _ 0 (faces.statics _)
      ⟨size.symm, quiet.readSegment, by rw [size]; decide⟩ ?_ (.inl ⟨format.2.2, format.1, format.2.1⟩)
    obtain ⟨fresh, same⟩ := @finishSegment_last { c.statics with segmentSize := chunkSize } quiet.left
    have knows := knows.of_buffer same
    cases n with
    | zero => exact .message (by rw [split, List.append_assoc]; rfl) fresh knows
    | succ n =>
      refine .repeated split short fresh knows ?_
      rw [List.length_drop, whole, Nat.mul_succ, Nat.add_sub_cancel]

/-! ### The first chunk of a message -/

/-- The messages that the receiver takes apart as they are meant. -/
def Recognisable (before : List Message) (m : Message) : Prop :=
  m.timestamp < 0xffffff ∧
    match m.format with
    | .type0 | .type1 => m.payload ≠ []
    | .type2 => chunkSize < m.payload.length ∧ ∃ p, lastFull before = some p ∧ p.payload.length = m.payload.length
    | .type3 => ∃ n, m.payload.length = chunkSize * (n + 1)

theorem lastFull_snoc (before : List Message) (m : Message) :
    lastFull (before ++ [m]) = if m.format = .type0 ∨ m.format = .type1 then some m else lastFull before := by
  unfold lastFull
  rw [List.filter_append]
  split
  · next full => rw [List.filter_cons_of_pos (by simpa using full), List.filter_nil, List.getLast?_concat]
  · next other => rw [List.filter_cons_of_neg (by simpa using other), List.filter_nil, List.append_nil]

theorem fields_known {p : Message} (known : (s.chunkMsgHeaderBuffer.drop 3).take 4 = p.lengthAndType) :
    bigEndian ((s.chunkMsgHeaderBuffer.drop 3).take 3) = p.payload.length ∧
      (s.chunkMsgHeaderBuffer.drop 6).headD 0 = p.type := by
  obtain ⟨length, type⟩ := lengthAndType_fields p
  rw [← known, List.take_take] at length
  rw [← known, List.drop_take, List.drop_drop] at type
  refine ⟨length, ?_⟩
  rw [← type]
  cases s.chunkMsgHeaderBuffer.drop 6 <;> rfl

theorem parseMsgHeader_eq {p : Message} (known : (s.chunkMsgHeaderBuffer.drop 3).take 4 = p.lengthAndType) :
    s.parseMsgHeader = if chunkSize < p.payload.length then
        { s with
          previousAMFDataSize := p.payload.length
          leftReadSize := p.payload.length - chunkSize
          amfPayloadSize := chunkSize
          amfDataSizeGT128 := true }
      else { s with amfPayloadSize := p.payload.length } := by
  obtain ⟨length, type⟩ := fields_known known
  have av : p.type = MESSAGE_VIDEO ∨ p.type = MESSAGE_AUDIO := p.audioOrVideo.symm
  unfold Statics.parseMsgHeader MAX_RTMP_PACKAGE_SIZE
  dsimp only
  rw [length, type, chunkSize]
  by_cases long : 128 < p.payload.length
  · rw [if_pos ⟨av, long⟩, if_pos long]
  · rw [if_neg (fun both => long both.2), if_neg long]

theorem not_amfData {p : Message} (known : (s.chunkMsgHeaderBuffer.drop 3).take 4 = p.lengthAndType) :
    (s.chunkMsgHeaderBuffer.drop 6).headD 0 ≠ MESSAGE_AMF0_DATA := by
  rw [(fields_known known).2]
  rcases p.audioOrVideo with type | type <;> rw [type] <;> decide

theorem body_eq (short : m.extendedTimestamp = []) (more : Bytes) :
    m.body ++ more = labelled .payload (m.payload.take chunkSize) ++
      (m.chunks ((m.payload.length - 1) / chunkSize) (m.payload.drop chunkSize) ++ more) := by
  unfold Message.body
  rw [short, show labelled .extendedTimestamp [] = [] from rfl, List.nil_append, List.append_assoc]

theorem afterMsgHeader_long (split : messages = before ++ m :: after) (short : m.extendedTimestamp = [])
    (some_ : m.payload ≠ []) (done : s.readChunkBasicHeaderDone = true) (quiet : Quiet s)
    (size : 7 ≤ s.chunkMsgHeaderSize ∧ s.readChunkMsgHeaderSize = s.chunkMsgHeaderSize)
    (known : (s.chunkMsgHeaderBuffer.drop 3).take 4 = m.lengthAndType) (knows : Knows s (before ++ [m]))
    (statics : c.statics = s.parseMsgHeader) (faces : Faces socket₀ todo₀ c (m.body ++ stream after)) :
    Sound messages socket₀ todo₀ (afterMsgHeader c) := by
  have positive := List.length_pos_iff.mpr some_
  rw [body_eq short] at faces
  have message : messages = (before ++ [m]) ++ after := by rw [split, List.append_assoc]; rfl
  obtain ⟨left, read, sound⟩ : ∃ left, readAmfPayload c = .error left ∧ Sound messages socket₀ todo₀ left := by
    rw [parseMsgHeader_eq known] at statics
    by_cases long : chunkSize < m.payload.length
    · rw [if_pos long] at statics
      rw [chunkSize] at long
      have whole : (m.payload.take chunkSize).length = chunkSize := by
        rw [List.length_take, chunkSize]
        omega
      have count : (m.payload.length - 1) / chunkSize = ((m.payload.drop chunkSize).length - 1) / chunkSize + 1 := by
        rw [List.length_drop, chunkSize]
        omega
      refine @readAmfPayload_sound _ _ _ _ (m.payload.take chunkSize) messages 0 faces ?_ ?_ ?_
      · rw [statics]
        exact ⟨done, size.2, size.1, not_amfData known⟩
      · rw [statics, whole]
        exact ⟨rfl, quiet.payload, by decide, le_refl _⟩
      · rw [count, statics]
        refine .continued split short ⟨⟨rfl, List.length_drop.symm, ?_, quiet.segment, quiet.readSegment, rfl⟩, rfl⟩
          (knows.of_buffer rfl)
        exact List.length_pos_iff.mp (by rw [List.length_drop, chunkSize]; omega)
    · rw [if_neg long] at statics
      rw [chunkSize] at long
      have whole : m.payload.take chunkSize = m.payload := List.take_of_length_le (by rw [chunkSize]; omega)
      refine @readAmfPayload_sound _ _ _ _ (m.payload.take chunkSize) messages 0 faces ?_ ?_ ?_
      · rw [statics]
        exact ⟨done, size.2, size.1, not_amfData known⟩
      · rw [statics, whole]
        exact ⟨rfl, quiet.payload, positive, by rw [chunkSize]; omega⟩
      · rw [statics, chunkSize, show (m.payload.length - 1) / 128 = 0 by omega]
        exact .message message ⟨⟨quiet.large, quiet.left, quiet.segment, quiet.readSegment, rfl⟩, rfl, rfl⟩
          (knows.of_buffer rfl)
  unfold afterMsgHeader
  rw [read]
  exact sound

theorem afterMsgHeader_short {p : Message} (split : messages = before ++ m :: after) (short : m.extendedTimestamp = [])
    (long : chunkSize < m.payload.length) (same : p.payload.length = m.payload.length) (quiet : Quiet s)
    (size : s.chunkMsgHeaderSize = 3) (format : s.format = 2)
    (known : (s.chunkMsgHeaderBuffer.drop 3).take 4 = p.lengthAndType) (knows : Knows s (before ++ [m]))
    (statics : c.statics = s.parseMsgHeader) (faces : Faces socket₀ todo₀ c (m.body ++ stream after))
    (whole : ∀ gap ∈ Socket.gaps socket₀, ¬ (c.read.length < gap ∧ gap < c.read.length + chunkSize)) :
    Sound messages socket₀ todo₀ (afterMsgHeader c) := by
  have positive : 0 < m.payload.length := by omega
  have first : (m.payload.take chunkSize).length = chunkSize := by
    rw [List.length_take, Nat.min_eq_left long.le]
  rw [body_eq short] at faces
  rw [parseMsgHeader_eq known, if_pos (same ▸ long), same] at statics
  have read : readAmfPayload c = .ok { c with statics := { c.statics with leftReadSize := m.payload.length } } := by
    unfold readAmfPayload
    dsimp only
    rw [if_neg (by rw [statics]; dsimp only; omega), if_pos (by rw [statics]; exact format), statics]
  have remains : Remains { c.statics with leftReadSize := m.payload.length } m.payload := by
    rw [statics]
    exact ⟨rfl, rfl, List.length_pos_iff.mp positive, quiet.segment, quiet.readSegment, quiet.payload⟩
  have knows : Knows { c.statics with leftReadSize := m.payload.length } (before ++ [m]) :=
    knows.of_buffer (by rw [statics])
  unfold afterMsgHeader
  rw [read]
  dsimp only
  rw [remains.chooseSegment]
  refine @readSegment_sound _ _ _ _ (m.payload.take chunkSize) messages 0 (faces.statics _)
    ⟨rfl, remains.readSegment, by rw [first]; decide⟩ ?_ (.inr ?_)
  · exact boundary_after split short (knows.of_buffer rfl) remains.some_ rfl remains.large remains.payload
  · rw [first]
    exact whole

theorem knows_snoc (knows : Knows s before) (other : ¬ (m.format = .type0 ∨ m.format = .type1)) :
    Knows s (before ++ [m]) := by
  refine ⟨knows.length, ?_⟩
  rw [lastFull_snoc, if_neg other]
  exact knows.last

theorem afterMsgHeader_sound (split : messages = before ++ m :: after) (recognisable : Recognisable before m)
    (done : s.readChunkBasicHeaderDone = true) (format : s.format = m.format.bits)
    (size : s.chunkMsgHeaderSize = m.format.headerSize ∧ s.readChunkMsgHeaderSize = s.chunkMsgHeaderSize)
    (some_ : 0 < m.format.headerSize) (quiet : Quiet s) (filled : Buffer.Filled s.chunkMsgHeaderBuffer m.messageHeader)
    (length : s.chunkMsgHeaderBuffer.length = 11) (knows : m.format = .type2 → Knows s before)
    (statics : c.statics = s.parseMsgHeader) (faces : Faces socket₀ todo₀ c (m.body ++ stream after))
    (whole : m.format = .type2 → ∀ gap ∈ Socket.gaps socket₀,
      ¬ (c.read.length < gap ∧ gap < c.read.length + chunkSize)) :
    Sound messages socket₀ todo₀ (afterMsgHeader c) := by
  have short : m.extendedTimestamp = [] := if_pos recognisable.1
  have kind := recognisable.2
  by_cases full : m.format = .type0 ∨ m.format = .type1
  · have seven : 7 ≤ m.format.headerSize := by
      rcases full with format | format <;> rw [format] <;> decide
    have known : (s.chunkMsgHeaderBuffer.drop 3).take 4 = m.lengthAndType := by
      have header := length_messageHeader m
      rw [← drop_messageHeader full, ← filled, List.drop_take, List.take_take, Nat.min_eq_left (by omega)]
    have payload : m.payload ≠ [] := by
      rcases full with format | format <;> rw [format] at kind <;> exact kind
    refine afterMsgHeader_long split short payload done quiet ⟨size.1 ▸ seven, size.2⟩ known ⟨length, ?_⟩ statics faces
    rw [lastFull_snoc, if_pos full]
    intro last found
    rw [← Option.some.inj found]
    exact known
  · have type2 : m.format = .type2 := by
      cases other : m.format with
      | type0 => exact (full (.inl other)).elim
      | type1 => exact (full (.inr other)).elim
      | type2 => rfl
      | type3 =>
        rw [other] at some_
        exact absurd some_ (by decide)
    rw [type2] at kind format size
    obtain ⟨long, p, last, same⟩ := kind
    exact afterMsgHeader_short split short long same quiet size.1 format ((knows type2).last p last)
      (knows_snoc (knows type2) full) statics faces (whole type2)

theorem afterBasicHeader_sound {k : Nat} (split : messages = before ++ m :: after)
    (recognisable : Recognisable before m)
    (begun : c.statics.readChunkBasicHeaderDone = true ∧ c.statics.format = m.format.bits ∧
      c.statics.chunkMsgHeaderSize = m.format.headerSize ∧ c.statics.readChunkMsgHeaderSize = k ∧
      k < m.format.headerSize)
    (quiet : Quiet c.statics) (filled : Buffer.Filled c.statics.chunkMsgHeaderBuffer (m.messageHeader.take k))
    (length : c.statics.chunkMsgHeaderBuffer.length = 11) (knows : m.format = .type2 → Knows c.statics before)
    (faces : Faces socket₀ todo₀ c (labelled .messageHeader (m.messageHeader.drop k) ++ (m.body ++ stream after)))
    (whole : m.format = .type2 → ∀ gap ∈ Socket.gaps socket₀, ¬ (c.read.length + (3 - k) < gap ∧
      gap < c.read.length + (3 - k) + chunkSize)) :
    Sound messages socket₀ todo₀ (afterBasicHeader c) := by
  obtain ⟨done, format, size, at_, less⟩ := begun
  have header := length_messageHeader m
  have eleven : m.format.headerSize ≤ 11 := by
    cases m.format <;> decide
  have left : (m.messageHeader.drop k).length = m.format.headerSize - k := by rw [List.length_drop, header]
  have front : (m.messageHeader.take k).length = k := by
    rw [List.length_take, header]
    omega
  unfold afterBasicHeader readChunkMsgHeader
  dsimp only
  rw [if_pos (by omega), size, at_, ← left]
  cases read : readSpecifySize (m.messageHeader.drop k).length c.socket with
  | none => trivial
  | some r =>
    obtain ⟨⟨positive, most, stored⟩, rest, _⟩ := faces.take (List.length_pos_iff.mp (by omega)) read
    have taken : r.stored.length = r.ret := by
      rw [stored, List.length_take]
      omega
    have filled := filled.overwrite r.stored
    rw [front, stored, ← List.take_add] at filled
    have length := (Buffer.length_overwrite
      (by omega : k + r.stored.length ≤ c.statics.chunkMsgHeaderBuffer.length)).trans length
    have knows : m.format = .type2 → ∀ s, s.chunkMsgHeaderBuffer =
        Buffer.overwrite c.statics.chunkMsgHeaderBuffer k r.stored → Knows s before := by
      intro type2 s buffer
      rw [type2] at left less
      change _ = 3 - k at left
      change k < 3 at less
      refine ⟨buffer ▸ length, fun p last => ?_⟩
      rw [buffer, Buffer.drop_overwrite (by omega) (by omega)]
      exact (knows type2).last p last
    dsimp only
    rw [if_pos positive]
    by_cases full : k + r.ret = m.format.headerSize
    · rw [if_pos full]
      rw [full, List.take_of_length_le header.le] at filled
      have rest := Faces.taken rest (by omega)
      have moved : (c.took .messageHeader r).read.length = c.read.length + r.ret := by
        unfold Call.took
        rw [List.length_append, length_labelled, taken]
      refine @afterMsgHeader_sound _ _ _ messages before after m { c.statics with
        chunkMsgHeaderBuffer := Buffer.overwrite c.statics.chunkMsgHeaderBuffer k r.stored
        chunkMsgHeaderSize := m.format.headerSize
        readChunkMsgHeaderSize := k + r.ret } split recognisable done format ⟨rfl, full⟩ (by omega) ?_
        (stored ▸ filled) length (fun type2 => knows type2 _ rfl) rfl (rest.statics _) ?_
      · exact ⟨quiet.large, quiet.left, quiet.segment, quiet.readSegment, quiet.payload⟩
      · intro type2
        have none_ := whole type2
        rw [type2] at full
        change k + r.ret = 3 at full
        dsimp only
        rwa [moved, show r.ret = 3 - k by omega]
    · rw [if_neg full]
      refine ⟨read_some stored positive (by omega), _, rest.statics _, ?_⟩
      rw [List.drop_drop]
      exact .header split ⟨done, format, rfl, rfl, by omega⟩
        ⟨quiet.large, quiet.left, quiet.segment, quiet.readSegment, quiet.payload⟩ (stored ▸ filled) length
        fun type2 => knows type2 _ rfl

end LiveStreaming.XtraRtmp.ReceiveStream
