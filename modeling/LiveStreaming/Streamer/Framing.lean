import LiveStreaming.Streamer.Camera

/-!
# Framing of the camera's stream

`receive_stream_cb` is a parser that may be interrupted after every byte. This file says what an
FLV parse of a byte string is, shows that there is only one, and proves that the tags extracted
by any sequence of calls are the parse of the bytes consumed so far.
-/

namespace LiveStreaming.Streamer
open Library

/-! ### The parse -/

/-- An FLV tag with the previous tag size that follows it. -/
structure FlvTag where
  header : List UInt8
  data : List UInt8
  previousTagSize : List UInt8
  header_length : header.length = tagHeaderSize
  size : data.length + Streamer.previousTagSize = tagDataSizeOf header
  trailer_length : previousTagSize.length = Streamer.previousTagSize

def FlvTag.bytes (t : FlvTag) : List UInt8 := t.header ++ (t.data ++ t.previousTagSize)

def WholeTag (packet : List UInt8) : Prop :=
  tagHeaderSize ≤ packet.length ∧ packet.length = tagHeaderSize + tagDataSizeOf packet

def PartTag (rest : List UInt8) : Prop :=
  rest.length < tagHeaderSize ∨ rest.length < tagHeaderSize + tagDataSizeOf rest

/-- `tags` are all the whole tags of `bytes` and `rest` is what follows them. -/
structure Parse (bytes : List UInt8) (tags : List (List UInt8)) (rest : List UInt8) : Prop where
  split : bytes = tags.flatten ++ rest
  whole : ∀ t ∈ tags, WholeTag t
  rest_part : PartTag rest

theorem tagDataSizeOf_append {head : List UInt8} (more : List UInt8) (length : tagHeaderSize ≤ head.length) :
    tagDataSizeOf (head ++ more) = tagDataSizeOf head := by
  have small : ∀ i, i < 4 → (head ++ more).getD i 0 = head.getD i 0 := by
    intro i less
    rw [List.getD_eq_getElem?_getD, List.getD_eq_getElem?_getD,
      List.getElem?_append_left (by unfold tagHeaderSize at length; omega)]
  simp only [tagDataSizeOf, small 1 (by omega), small 2 (by omega), small 3 (by omega)]

theorem FlvTag.whole (t : FlvTag) : WholeTag t.bytes := by
  have header := t.header_length
  have size := t.size
  have trailer := t.trailer_length
  have same := tagDataSizeOf_append (t.data ++ t.previousTagSize) (Nat.le_of_eq header.symm)
  rw [WholeTag, bytes, same]
  simp only [List.length_append]
  omega

theorem WholeTag.not_part {t more : List UInt8} (whole : WholeTag t) : ¬PartTag (t ++ more) := by
  obtain ⟨long, length⟩ := whole
  have same := tagDataSizeOf_append more long
  rintro (short | short) <;> rw [List.length_append] at short <;> omega

theorem WholeTag.eq_of_append {t u a b : List UInt8} (ht : WholeTag t) (hu : WholeTag u)
    (same : t ++ a = u ++ b) : t = u ∧ a = b := by
  apply List.append_inj same
  have left := tagDataSizeOf_append a ht.1
  have right := tagDataSizeOf_append b hu.1
  rw [ht.2, hu.2, ← left, ← right, same]

theorem Parse.unique {bytes : List UInt8} {tags tags' : List (List UInt8)} {rest rest' : List UInt8}
    (h : Parse bytes tags rest) (h' : Parse bytes tags' rest') : tags = tags' ∧ rest = rest' := by
  obtain ⟨split, whole, part⟩ := h
  obtain ⟨split', whole', part'⟩ := h'
  have same := split.symm.trans split'
  clear split split'
  induction tags generalizing tags' with
  | nil =>
    cases tags' with
    | nil => exact ⟨rfl, by simpa using same⟩
    | cons u us =>
      rw [List.flatten_nil, List.nil_append, List.flatten_cons, List.append_assoc] at same
      exact absurd (same ▸ part) (whole' u List.mem_cons_self).not_part
  | cons t ts ih =>
    rw [List.flatten_cons, List.append_assoc] at same
    cases tags' with
    | nil =>
      rw [List.flatten_nil, List.nil_append] at same
      exact absurd (same ▸ part') (whole t List.mem_cons_self).not_part
    | cons u us =>
      rw [List.flatten_cons, List.append_assoc] at same
      obtain ⟨rfl, tail⟩ := (whole t List.mem_cons_self).eq_of_append (whole' u List.mem_cons_self) same
      obtain ⟨rfl, rfl⟩ := ih (fun v member => whole v (List.mem_cons_of_mem _ member))
        (fun v member => whole' v (List.mem_cons_of_mem _ member)) tail
      exact ⟨rfl, rfl⟩

/-! ### One read -/

/-- What a read into a buffer of `size` bytes, `done` of it filled, makes of the stream. -/
inductive ReadsPart (done : List UInt8) (size : Nat) (socket : CameraSocket) : PartRead → Prop where
  | waiting : ReadsPart done size socket .waiting
  | closed (lost : List UInt8) (rest : CameraSocket)
      (stream : Socket.incoming socket = lost ++ Socket.incoming rest)
      (short : done.length + lost.length < size) : ReadsPart done size socket (.closed rest)
  | partly (buffer more : List UInt8) (rest : CameraSocket)
      (stream : Socket.incoming socket = more ++ Socket.incoming rest)
      (short : (done ++ more).length < size) (length : buffer.length = size)
      (filled : Buffer.Filled buffer (done ++ more)) :
      ReadsPart done size socket (.partly buffer (done ++ more).length rest)
  | complete (more : List UInt8) (rest : CameraSocket)
      (stream : Socket.incoming socket = more ++ Socket.incoming rest)
      (length : (done ++ more).length = size) :
      ReadsPart done size socket (.complete (done ++ more) (done ++ more).length rest)

theorem readPart_spec {buffer done : List UInt8} {size : Nat} (socket : CameraSocket)
    (filled : Buffer.Filled buffer done) (length : buffer.length = size) (short : done.length < size) :
    ReadsPart done size socket (readPart buffer size done.length socket) := by
  simp only [readPart]
  cases called : readSpecifySize (size - done.length) socket with
  | none => exact .waiting
  | some r =>
    obtain ⟨stream, result⟩ := readSpecifySize_spec (by omega) called
    have written := filled.overwrite r.stored
    have kept := Buffer.length_overwrite (show done.length + r.stored.length ≤ buffer.length by omega)
    have count : (done ++ r.stored).length = done.length + r.stored.length := List.length_append
    dsimp only
    split_ifs with zero notAll
    · exact .closed r.stored _ stream (by omega)
    · have ret : done.length + r.ret = (done ++ r.stored).length := by omega
      rw [ret]
      exact .partly _ r.stored _ stream (by omega) (kept.trans length) written
    · have ret : done.length + r.ret = (done ++ r.stored).length := by omega
      rw [ret, written.eq (by omega)]
      exact .complete r.stored _ stream (by omega)

/-! ### The state between two calls -/

/-- Where a channel stands when `consumed` bytes have been read and `tags` extracted from them. -/
inductive Framing (c : Cameras) (consumed : List UInt8) (tags : List (List UInt8)) : Prop where
  /-- In the 13 bytes of the stream header. -/
  | flvHeader (first : c.receiveFirst = true) (notDone : c.notReceivedFlvHeaderDone = true)
      (headerNotDone : c.notReceivedTagHeaderDone = true) (dataNotDone : c.notReceivedTagDataDone = true)
      (length : c.flvHeader.length = flvHeaderSize + previousTagSize)
      (tagLength : c.tagHeader.length = tagHeaderSize)
      (count : c.flvHeaderReceivedBytes = consumed.length) (tagCount : c.tagHeaderReceivedBytes = 0)
      (dataCount : c.tagDataReceivedBytes = 0)
      (short : consumed.length < flvHeaderSize + previousTagSize)
      (filled : Buffer.Filled c.flvHeader consumed) (none_ : tags = [])
  /-- In the 11 bytes of a tag header. -/
  | tagHeader (rest : List UInt8) (first : c.receiveFirst = false)
      (headerNotDone : c.notReceivedTagHeaderDone = true) (dataNotDone : c.notReceivedTagDataDone = true)
      (length : c.flvHeader.length = flvHeaderSize + previousTagSize)
      (tagLength : c.tagHeader.length = tagHeaderSize)
      (split : consumed = c.flvHeader ++ (tags.flatten ++ rest)) (whole : ∀ t ∈ tags, WholeTag t)
      (count : c.tagHeaderReceivedBytes = rest.length) (dataCount : c.tagDataReceivedBytes = 0)
      (short : rest.length < tagHeaderSize) (filled : Buffer.Filled c.tagHeader rest)
  /-- In the data of a tag or in the previous tag size behind it. -/
  | tagData (rest : List UInt8) (first : c.receiveFirst = false)
      (headerDone : c.notReceivedTagHeaderDone = false) (dataNotDone : c.notReceivedTagDataDone = true)
      (length : c.flvHeader.length = flvHeaderSize + previousTagSize)
      (tagLength : c.tagHeader.length = tagHeaderSize)
      (split : consumed = c.flvHeader ++ (tags.flatten ++ (c.tagHeader ++ rest)))
      (whole : ∀ t ∈ tags, WholeTag t)
      (size : c.tagDataSize = tagDataSizeOf c.tagHeader) (dataLength : c.tagData.length = c.tagDataSize)
      (tagCount : c.tagHeaderReceivedBytes = 0) (count : c.tagDataReceivedBytes = rest.length)
      (short : rest.length < c.tagDataSize) (filled : Buffer.Filled c.tagData rest)

/-- All that a later call of `receive_stream_cb` depends on is unchanged. -/
structure SameFraming (c c' : Cameras) : Prop where
  receiveFirst : c'.receiveFirst = c.receiveFirst
  notReceivedFlvHeaderDone : c'.notReceivedFlvHeaderDone = c.notReceivedFlvHeaderDone
  notReceivedTagHeaderDone : c'.notReceivedTagHeaderDone = c.notReceivedTagHeaderDone
  notReceivedTagDataDone : c'.notReceivedTagDataDone = c.notReceivedTagDataDone
  flvHeader : c'.flvHeader = c.flvHeader
  tagHeader : c'.tagHeader = c.tagHeader
  tagData : c'.tagData = c.tagData
  tagDataSize : c'.tagDataSize = c.tagDataSize
  flvHeaderReceivedBytes : c'.flvHeaderReceivedBytes = c.flvHeaderReceivedBytes
  tagHeaderReceivedBytes : c'.tagHeaderReceivedBytes = c.tagHeaderReceivedBytes
  tagDataReceivedBytes : c'.tagDataReceivedBytes = c.tagDataReceivedBytes

theorem SameFraming.refl (c : Cameras) : SameFraming c c := by constructor <;> rfl

theorem SameFraming.framing {c c' : Cameras} {consumed : List UInt8} {tags : List (List UInt8)}
    (same : SameFraming c c') (h : Framing c consumed tags) : Framing c' consumed tags := by
  obtain ⟨s1, s2, s3, s4, s5, s6, s7, s8, s9, s10, s11⟩ := same
  cases h with
  | flvHeader =>
    apply Framing.flvHeader <;>
      first | assumption | (simp only [s1, s2, s3, s4, s5, s6, s9, s10, s11]; assumption)
  | tagHeader rest =>
    apply Framing.tagHeader rest <;>
      first | assumption | (simp only [s1, s3, s4, s5, s6, s10, s11]; assumption)
  | tagData rest =>
    apply Framing.tagData rest <;>
      first | assumption | (simp only [s1, s3, s4, s5, s6, s7, s8, s10, s11]; assumption)

theorem handleTag_sameFraming {c c' : Cameras} {packet : List UInt8} {kind : TagKind}
    (h : handleTag c packet kind = some c') : SameFraming c c' := by
  cases kind with
  | media isKeyFrame =>
    simp only [handleTag, Option.bind_eq_bind, Option.bind_eq_some_iff, Option.some.injEq] at h
    obtain ⟨pool, _, rfl⟩ := h
    constructor <;> rfl
  | _ =>
    obtain rfl := Option.some.inj h
    constructor <;> rfl

/-! ### One call -/

/-- A phase either returns from the callback in a state that accounts for what it read, or goes on in
one that does and satisfies `next`. -/
def PhaseOk (socket : CameraSocket) (consumed : List UInt8) (tags : List (List UInt8))
    (next : Cameras → List UInt8 → Prop) : Except ReceiveOutcome (Cameras × CameraSocket) → Prop
  | .error (.kept c packet rest) => packet = none ∧
      ∃ more, Socket.incoming socket = more ++ Socket.incoming rest ∧ Framing c (consumed ++ more) tags
  | .error _ => True
  | .ok (c, rest) => ∃ more, Socket.incoming socket = more ++ Socket.incoming rest ∧ next c (consumed ++ more)

def PastHeader (tags : List (List UInt8)) (c : Cameras) (consumed : List UInt8) : Prop :=
  Framing c consumed tags ∧ c.receiveFirst = false

def PastTagHeader (tags : List (List UInt8)) (c : Cameras) (consumed : List UInt8) : Prop :=
  Framing c consumed tags ∧ c.receiveFirst = false ∧ c.notReceivedTagHeaderDone = false

/-- A whole tag is in the buffers. -/
structure PastTagData (tags : List (List UInt8)) (c : Cameras) (consumed : List UInt8) : Prop where
  first : c.receiveFirst = false
  length : c.flvHeader.length = flvHeaderSize + previousTagSize
  tagLength : c.tagHeader.length = tagHeaderSize
  split : consumed = c.flvHeader ++ (tags.flatten ++ (c.tagHeader ++ c.tagData))
  whole : ∀ t ∈ tags, WholeTag t
  size : c.tagDataSize = tagDataSizeOf c.tagHeader
  dataLength : c.tagData.length = c.tagDataSize
  tagCount : c.tagHeaderReceivedBytes = 0
  dataCount : c.tagDataReceivedBytes = 0

theorem receiveFlvHeader_ok {c : Cameras} {consumed : List UInt8} {tags : List (List UInt8)}
    (h : Framing c consumed tags) (socket : CameraSocket) :
    PhaseOk socket consumed tags (PastHeader tags) (receiveFlvHeader c socket) := by
  cases h with
  | tagHeader rest first =>
    rw [receiveFlvHeader, first]
    exact ⟨[], rfl, by rw [List.append_nil]; apply Framing.tagHeader rest <;> assumption, first⟩
  | tagData rest first =>
    rw [receiveFlvHeader, first]
    exact ⟨[], rfl, by rw [List.append_nil]; apply Framing.tagData rest <;> assumption, first⟩
  | flvHeader first notDone headerNotDone dataNotDone length tagLength count tagCount dataCount short filled none_ =>
    have read := readPart_spec socket filled length short
    rw [receiveFlvHeader, if_pos first, if_pos notDone, count]
    generalize readPart _ _ _ _ = part at read
    cases read with
    | waiting => trivial
    | closed lost rest stream short => trivial
    | partly buffer more rest stream short length filled =>
      refine ⟨rfl, more, stream, ?_⟩
      exact .flvHeader first notDone headerNotDone dataNotDone length tagLength rfl tagCount dataCount short filled
        none_
    | complete more rest stream length =>
      subst none_
      refine ⟨more, stream, ?_, rfl⟩
      exact .tagHeader [] rfl headerNotDone dataNotDone length tagLength (by simp) (by simp) tagCount dataCount
        (by decide) (Buffer.filled_nil _)

theorem receiveTagHeader_ok {c : Cameras} {consumed : List UInt8} {tags : List (List UInt8)}
    (h : PastHeader tags c consumed) (socket : CameraSocket) :
    PhaseOk socket consumed tags (PastTagHeader tags) (receiveTagHeader c socket) := by
  obtain ⟨framing, past⟩ := h
  cases framing with
  | flvHeader first => rw [past] at first; contradiction
  | tagData rest first headerDone =>
    rw [receiveTagHeader, headerDone]
    exact ⟨[], rfl, by rw [List.append_nil]; apply Framing.tagData rest <;> assumption, past, headerDone⟩
  | tagHeader done first headerNotDone dataNotDone length tagLength split whole count dataCount short filled =>
    have read := readPart_spec socket filled tagLength short
    rw [receiveTagHeader, if_pos headerNotDone, count]
    generalize readPart _ _ _ _ = part at read
    cases read with
    | waiting => trivial
    | closed lost rest stream short => trivial
    | partly buffer more rest stream short bufferLength filled =>
      refine ⟨rfl, more, stream, ?_⟩
      exact .tagHeader (done ++ more) first headerNotDone dataNotDone length bufferLength (by simp [split]) whole
        rfl dataCount short filled
    | complete more rest stream bufferLength =>
      refine ⟨more, stream, ?_, past, rfl⟩
      exact .tagData [] first rfl dataNotDone length bufferLength (by simp [split]) whole rfl (by simp) rfl
        dataCount (Nat.lt_of_lt_of_le (by decide) (Nat.le_add_left previousTagSize _)) (Buffer.filled_nil _)

theorem receiveTagData_ok {c : Cameras} {consumed : List UInt8} {tags : List (List UInt8)}
    (h : PastTagHeader tags c consumed) (socket : CameraSocket) :
    PhaseOk socket consumed tags (PastTagData tags) (receiveTagData c socket) := by
  obtain ⟨framing, past, pastHeader⟩ := h
  cases framing with
  | flvHeader first => rw [past] at first; contradiction
  | tagHeader rest _ headerNotDone => rw [pastHeader] at headerNotDone; contradiction
  | tagData done first headerDone dataNotDone length tagLength split whole size dataLength tagCount
    count short filled =>
    have read := readPart_spec socket filled dataLength short
    rw [receiveTagData, if_pos dataNotDone, count]
    generalize readPart _ _ _ _ = part at read
    cases read with
    | waiting => trivial
    | closed lost rest stream short => trivial
    | partly buffer more rest stream short bufferLength filled =>
      refine ⟨rfl, more, stream, ?_⟩
      exact .tagData (done ++ more) first headerDone dataNotDone length tagLength (by simp [split]) whole size
        bufferLength tagCount rfl short filled
    | complete more rest stream bufferLength =>
      exact ⟨more, stream, first, length, tagLength, by simp [split], whole, size, bufferLength, tagCount, rfl⟩

theorem PhaseOk.bind {socket : CameraSocket} {consumed : List UInt8} {tags : List (List UInt8)}
    {next next' : Cameras → List UInt8 → Prop} {result : Except ReceiveOutcome (Cameras × CameraSocket)}
    {phase : Cameras → CameraSocket → Except ReceiveOutcome (Cameras × CameraSocket)}
    (h : PhaseOk socket consumed tags next result)
    (step : ∀ c consumed rest, next c consumed → PhaseOk rest consumed tags next' (phase c rest)) :
    PhaseOk socket consumed tags next' (result >>= fun (c, rest) => phase c rest) := by
  match result with
  | .error (.kept _ _ _) => exact h
  | .error (.deleted _) | .error .waiting | .error .fault => trivial
  | .ok (c, rest) =>
    obtain ⟨more, stream, reached⟩ := h
    have after := step c _ rest reached
    change PhaseOk socket consumed tags next' (phase c rest)
    match phase c rest, after with
    | .error (.kept c' packet rest'), ⟨quiet, more', stream', framing⟩ =>
      exact ⟨quiet, more ++ more', by rw [stream, stream', List.append_assoc],
        by rw [← List.append_assoc]; exact framing⟩
    | .error (.deleted _), _ | .error .waiting, _ | .error .fault, _ => trivial
    | .ok (c', rest'), ⟨more', stream', reached'⟩ =>
      exact ⟨more ++ more', by rw [stream, stream', List.append_assoc],
        by rw [← List.append_assoc]; exact reached'⟩

theorem finishTag_framing {c c' : Cameras} {consumed packet : List UInt8} {tags : List (List UInt8)}
    (h : PastTagData tags c consumed) (finished : finishTag c = some (c', packet)) :
    packet = c.tagHeader ++ c.tagData ∧ Framing c' consumed (tags ++ [packet]) := by
  obtain ⟨first, length, tagLength, split, whole, size, dataLength, tagCount, dataCount⟩ := h
  have headerAll : c.tagHeader.take tagHeaderSize = c.tagHeader := List.take_of_length_le (Nat.le_of_eq tagLength)
  have dataAll : c.tagData.take c.tagDataSize = c.tagData := List.take_of_length_le (Nat.le_of_eq dataLength)
  simp only [finishTag, headerAll, dataAll, Option.bind_eq_bind, Option.bind_eq_some_iff, Option.some.injEq,
    Prod.mk.injEq] at finished
  obtain ⟨handled, saved, rfl, rfl⟩ := finished
  obtain ⟨s1, _, _, _, s5, _, _, _, _, s10, s11⟩ := handleTag_sameFraming saved
  have wholePacket : WholeTag (c.tagHeader ++ c.tagData) := by
    rw [WholeTag, tagDataSizeOf_append _ (Nat.le_of_eq tagLength.symm), List.length_append]
    omega
  refine ⟨rfl, .tagHeader [] (s1.trans first) rfl rfl (by rw [← length, ← s5]) (by simp) ?_ ?_
    (s10.trans tagCount) (s11.trans dataCount) (by decide) (Buffer.filled_nil _)⟩
  · simp [s5, split]
  · intro t member
    rcases List.mem_append.mp member with old | new
    · exact whole t old
    · obtain rfl := List.mem_singleton.mp new
      exact wholePacket

theorem receiveParts_ok {c : Cameras} {consumed : List UInt8} {tags : List (List UInt8)}
    (h : Framing c consumed tags) (socket : CameraSocket) :
    PhaseOk socket consumed tags (PastTagData tags) (receiveParts c socket) :=
  (receiveFlvHeader_ok h socket).bind fun _ _ _ past =>
    (receiveTagHeader_ok past _).bind fun _ _ _ past => receiveTagData_ok past _

theorem receiveStreamCb_framing {c c' : Cameras} {consumed : List UInt8} {tags : List (List UInt8)}
    {socket rest : CameraSocket} {packet : Option (List UInt8)} (h : Framing c consumed tags)
    (called : receiveStreamCb c socket = .kept c' packet rest) :
    ∃ more, Socket.incoming socket = more ++ Socket.incoming rest ∧
      Framing c' (consumed ++ more) (tags ++ packet.toList) := by
  have phases := receiveParts_ok h socket
  unfold receiveStreamCb at called
  match parts : receiveParts c socket, phases with
  | .error outcome, phases =>
    rw [parts] at called
    obtain rfl : outcome = _ := called
    obtain ⟨rfl, more, stream, framing⟩ := phases
    exact ⟨more, stream, by simpa using framing⟩
  | .ok (d, after), ⟨more, stream, past⟩ =>
    rw [parts] at called
    cases finished : finishTag d with
    | none => simp [finished] at called
    | some result =>
      obtain ⟨e, p⟩ := result
      simp only [finished, ReceiveOutcome.kept.injEq] at called
      obtain ⟨rfl, rfl, rfl⟩ := called
      exact ⟨more, stream, (finishTag_framing past finished).2⟩

/-! ### A whole run -/

/-- The callbacks of one channel, from its creation on. Between two calls of `receive_stream_cb` other
callbacks may do anything to the channel that does not concern its framing. -/
inductive Receiving (socket₀ : CameraSocket) : Cameras → CameraSocket → List (List UInt8) → Prop where
  | start : Receiving socket₀ newCameras socket₀ []
  | receive {c c' : Cameras} {socket socket' : CameraSocket} {emitted : List (List UInt8)}
      {packet : Option (List UInt8)} (before : Receiving socket₀ c socket emitted)
      (called : receiveStreamCb c socket = .kept c' packet socket') :
      Receiving socket₀ c' socket' (emitted ++ packet.toList)
  | other {c c' : Cameras} {socket : CameraSocket} {emitted : List (List UInt8)}
      (before : Receiving socket₀ c socket emitted) (same : SameFraming c c') :
      Receiving socket₀ c' socket emitted

theorem newCameras_framing : Framing newCameras [] [] := by
  apply Framing.flvHeader <;> first | rfl | decide

theorem Receiving.framing {socket₀ socket : CameraSocket} {c : Cameras} {emitted : List (List UInt8)}
    (run : Receiving socket₀ c socket emitted) :
    ∃ consumed, Socket.incoming socket₀ = consumed ++ Socket.incoming socket ∧ Framing c consumed emitted := by
  induction run with
  | start => exact ⟨[], rfl, newCameras_framing⟩
  | receive before called ih =>
    obtain ⟨consumed, stream, framing⟩ := ih
    obtain ⟨more, stream', framing'⟩ := receiveStreamCb_framing framing called
    exact ⟨consumed ++ more, by rw [stream, stream', List.append_assoc], framing'⟩
  | other before same ih =>
    obtain ⟨consumed, stream, framing⟩ := ih
    exact ⟨consumed, stream, same.framing framing⟩

/-- The bytes of an unfinished tag that a channel keeps for the next call. -/
def heldBytes (c : Cameras) : List UInt8 :=
  if c.notReceivedTagHeaderDone then c.tagHeader.take c.tagHeaderReceivedBytes
  else c.tagHeader ++ c.tagData.take c.tagDataReceivedBytes

theorem Framing.parse {c : Cameras} {consumed : List UInt8} {tags : List (List UInt8)} (h : Framing c consumed tags) :
    (consumed.length < flvHeaderSize + previousTagSize ∧ tags = []) ∨
      (c.flvHeader.length = flvHeaderSize + previousTagSize ∧
        consumed = c.flvHeader ++ (tags.flatten ++ heldBytes c) ∧
        Parse (tags.flatten ++ heldBytes c) tags (heldBytes c)) := by
  cases h with
  | flvHeader _ _ _ _ _ _ _ _ _ short _ none_ => exact .inl ⟨short, none_⟩
  | tagHeader rest _ headerNotDone _ length _ split whole count _ short filled =>
    have held : heldBytes c = rest := by
      rw [heldBytes, if_pos headerNotDone, count]
      exact filled
    rw [held]
    exact .inr ⟨length, split, rfl, whole, .inl short⟩
  | tagData rest _ headerDone _ length tagLength split whole size _ _ count short filled =>
    have held : heldBytes c = c.tagHeader ++ rest := by
      rw [heldBytes, headerDone, count, filled]
      rfl
    rw [held]
    refine .inr ⟨length, split, rfl, whole, .inr ?_⟩
    rw [tagDataSizeOf_append rest (Nat.le_of_eq tagLength.symm), List.length_append]
    omega

/-- The tags of a parse are the first tags of any stream of whole tags that begins with these bytes. -/
theorem Parse.prefix_of_whole {bytes more : List UInt8} {tags all : List (List UInt8)} {rest : List UInt8}
    (h : Parse bytes tags rest) (whole : ∀ t ∈ all, WholeTag t) (stream : bytes ++ more = all.flatten) :
    tags <+: all := by
  obtain ⟨split, wholeTags, _⟩ := h
  rw [split, List.append_assoc] at stream
  generalize rest ++ more = rest at stream
  clear split
  induction tags generalizing all with
  | nil => exact List.nil_prefix
  | cons t ts ih =>
    have first := wholeTags t List.mem_cons_self
    cases all with
    | nil =>
      have := congrArg List.length stream
      simp only [List.flatten_cons, List.length_append, List.flatten_nil, List.length_nil] at this
      have := first.2
      simp only [tagHeaderSize] at this
      omega
    | cons u us =>
      rw [List.flatten_cons, List.flatten_cons, List.append_assoc] at stream
      obtain ⟨rfl, tail⟩ := first.eq_of_append (whole u List.mem_cons_self) stream
      exact (List.prefix_cons_inj t).mpr (ih (fun v member => whole v (List.mem_cons_of_mem _ member))
        (fun v member => wholeTags v (List.mem_cons_of_mem _ member)) tail)

/-- Two runs over the same bytes, however these are cut into reads, have extracted the same tags once
they have read equally far. -/
theorem Receiving.tags_eq {socket₁ socket₂ s₁ s₂ : CameraSocket} {c₁ c₂ : Cameras} {tags₁ tags₂ : List (List UInt8)}
    (run₁ : Receiving socket₁ c₁ s₁ tags₁) (run₂ : Receiving socket₂ c₂ s₂ tags₂)
    (same : Socket.incoming socket₁ = Socket.incoming socket₂)
    (far : Socket.incoming s₁ = Socket.incoming s₂) : tags₁ = tags₂ := by
  obtain ⟨consumed, stream, framing₁⟩ := run₁.framing
  obtain ⟨consumed₂, stream₂, framing₂⟩ := run₂.framing
  obtain rfl : consumed = consumed₂ := List.append_cancel_right (by rw [← stream, same, stream₂, far])
  rcases framing₁.parse with ⟨short₁, none₁⟩ | ⟨length₁, split₁, parse₁⟩ <;>
    rcases framing₂.parse with ⟨short₂, none₂⟩ | ⟨length₂, split₂, parse₂⟩
  · rw [none₁, none₂]
  · simp only [split₂, List.length_append] at short₁
    omega
  · simp only [split₁, List.length_append] at short₂
    omega
  · obtain ⟨_, behind⟩ := List.append_inj (split₁.symm.trans split₂) (length₁.trans length₂.symm)
    exact (parse₁.unique (behind ▸ parse₂)).1

/-- Over a stream of an FLV header and whole tags, the tags extracted by any number of calls are the
parse of the bytes consumed: the saved header, the packets and the held bytes are those bytes, the
packets are the first tags of the stream, no other parse exists, and another way to cut the stream
gives the same packets. -/
theorem receiveStreamCb_parses {header : List UInt8} {tags : List FlvTag} {socket₀ socket : CameraSocket}
    {c : Cameras} {emitted : List (List UInt8)} (headerLength : header.length = flvHeaderSize + previousTagSize)
    (stream : Socket.incoming socket₀ = header ++ (tags.map FlvTag.bytes).flatten)
    (run : Receiving socket₀ c socket emitted) :
    ∃ consumed, Socket.incoming socket₀ = consumed ++ Socket.incoming socket ∧
      ((consumed.length < header.length ∧ emitted = []) ∨
        (c.flvHeader = header ∧ consumed = header ++ emitted.flatten ++ heldBytes c ∧
          Parse (consumed.drop header.length) emitted (heldBytes c) ∧
          (∀ tags' rest', Parse (consumed.drop header.length) tags' rest' → tags' = emitted ∧ rest' = heldBytes c) ∧
          emitted <+: tags.map FlvTag.bytes)) ∧
      ∀ socket₀' socket' c' emitted', Receiving socket₀' c' socket' emitted' →
        Socket.incoming socket₀' = Socket.incoming socket₀ → Socket.incoming socket' = Socket.incoming socket →
        emitted' = emitted := by
  obtain ⟨consumed, reached, framing⟩ := run.framing
  refine ⟨consumed, reached, ?_, fun _ _ _ _ run' same far => run'.tags_eq run same far⟩
  rcases framing.parse with ⟨short, none_⟩ | ⟨length, split, parse⟩
  · exact .inl ⟨headerLength ▸ short, none_⟩
  · have whole := stream.symm.trans reached
    rw [split, List.append_assoc] at whole
    obtain ⟨saved, behind⟩ := List.append_inj whole (headerLength.trans length.symm)
    have dropped : consumed.drop header.length = emitted.flatten ++ heldBytes c := by
      rw [split, ← saved, List.drop_left]
    rw [dropped]
    refine .inr ⟨saved.symm, by rw [split, saved, List.append_assoc], parse,
      fun tags' rest' other => other.unique parse, parse.prefix_of_whole ?_ behind.symm⟩
    intro t member
    obtain ⟨tag, _, rfl⟩ := List.mem_map.mp member
    exact tag.whole

def sampleHeader : List UInt8 := [0x46, 0x4C, 0x56, 1, 5, 0, 0, 0, 9, 0, 0, 0, 0]

def sampleTag : FlvTag where
  header := [8, 0, 0, 2, 0, 0, 0, 0, 0, 0, 0]
  data := [0xAF, 1]
  previousTagSize := [0, 0, 0, 13]
  header_length := rfl
  size := rfl
  trailer_length := rfl

/-- The sample cut inside the tag header. -/
def sampleSocket : CameraSocket :=
  [.data 0x46 [0x4C, 0x56, 1, 5, 0, 0, 0, 9, 0, 0, 0, 0, 8, 0, 0], .eagain,
    .data 2 [0, 0, 0, 0, 0, 0, 0, 0xAF], .eintr, .data 1 [0, 0, 0, 13]]

theorem receiveStreamCb_parses_sample :
    ∃ c, Receiving sampleSocket c [] [sampleTag.bytes] ∧ c.flvHeader = sampleHeader := by
  obtain ⟨c, run⟩ : ∃ c, Receiving sampleSocket c [] [sampleTag.bytes] := by
    have first : Receiving sampleSocket _ (sampleSocket.drop 2) ([] ++ none.toList) := .receive .start rfl
    have second : Receiving sampleSocket _ [] ([] ++ none.toList ++ (some sampleTag.bytes).toList) :=
      .receive first rfl
    exact ⟨_, second⟩
  refine ⟨c, run, ?_⟩
  obtain ⟨consumed, reached, result, _⟩ :=
    @receiveStreamCb_parses sampleHeader [sampleTag] _ _ _ _ rfl rfl run
  rcases result with ⟨_, none_⟩ | ⟨saved, _⟩
  · exact absurd none_ (by decide)
  · exact saved

end LiveStreaming.Streamer
