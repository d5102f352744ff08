import LiveStreaming.Streamer.Feed
import LiveStreaming.Streamer.Framing

/-!
# What a channel saves

`receive_stream_cb` keeps the last script tag and the last two sequence headers for the header phase
of its viewers and gives every other tag to all of them. Here is what one call does to either.
-/

namespace LiveStreaming.Streamer
open Library

/-! ### One call -/

/-- Everything but the framing is unchanged. -/
structure SameSaved (c c' : Cameras) : Prop where
  scriptTagExists : c'.scriptTagExists = c.scriptTagExists
  flvScriptTag : c'.flvScriptTag = c.flvScriptTag
  avcSequenceHeader : c'.avcSequenceHeader = c.avcSequenceHeader
  aacSequenceHeader : c'.aacSequenceHeader = c.aacSequenceHeader
  flvHeaderSentBytes : c'.flvHeaderSentBytes = c.flvHeaderSentBytes
  scriptTagSentBytes : c'.scriptTagSentBytes = c.scriptTagSentBytes
  avcSequenceHeaderSentBytes : c'.avcSequenceHeaderSentBytes = c.avcSequenceHeaderSentBytes
  aacSequenceHeaderSentBytes : c'.aacSequenceHeaderSentBytes = c.aacSequenceHeaderSentBytes
  viewerInfoPool : c'.viewerInfoPool = c.viewerInfoPool

theorem SameSaved.refl (c : Cameras) : SameSaved c c := by constructor <;> rfl

theorem SameSaved.trans {a b c : Cameras} (first : SameSaved a b) (second : SameSaved b c) : SameSaved a c := by
  obtain ⟨f1, f2, f3, f4, f5, f6, f7, f8, f9⟩ := first
  obtain ⟨s1, s2, s3, s4, s5, s6, s7, s8, s9⟩ := second
  exact ⟨s1.trans f1, s2.trans f2, s3.trans f3, s4.trans f4, s5.trans f5, s6.trans f6, s7.trans f7, s8.trans f8,
    s9.trans f9⟩

/-- The ways to leave before a tag is whole: nothing is extracted, and no pointer is followed. -/
def LeavesSaved (c : Cameras) : ReceiveOutcome → Prop
  | .kept c' packet _ => packet = none ∧ SameSaved c c'
  | .deleted _ | .waiting => True
  | .fault => False

theorem LeavesSaved.of_same {c d : Cameras} {outcome : ReceiveOutcome} (same : SameSaved c d)
    (h : LeavesSaved d outcome) : LeavesSaved c outcome := by
  cases outcome with
  | kept c' packet socket => exact ⟨h.1, same.trans h.2⟩
  | _ => exact h

theorem receiveFlvHeader_saved (c : Cameras) (socket : CameraSocket) :
    EarlyExit.Ends (LeavesSaved c) (fun r => SameSaved c r.1) (receiveFlvHeader c socket) := by
  unfold receiveFlvHeader
  split_ifs
  · rcases readPart c.flvHeader _ _ socket with _ | _ | _ | _
    · constructor <;> rfl
    · exact ⟨rfl, by constructor <;> rfl⟩
    · trivial
    · trivial
  · constructor <;> rfl
  · exact SameSaved.refl c

theorem receiveTagHeader_saved (c : Cameras) (socket : CameraSocket) :
    EarlyExit.Ends (LeavesSaved c) (fun r => SameSaved c r.1) (receiveTagHeader c socket) := by
  unfold receiveTagHeader
  split_ifs
  · rcases readPart c.tagHeader _ _ socket with _ | _ | _ | _
    · constructor <;> rfl
    · exact ⟨rfl, by constructor <;> rfl⟩
    · trivial
    · trivial
  · exact SameSaved.refl c

theorem receiveTagData_saved (c : Cameras) (socket : CameraSocket) :
    EarlyExit.Ends (LeavesSaved c) (fun r => SameSaved c r.1) (receiveTagData c socket) := by
  unfold receiveTagData
  split_ifs
  · rcases readPart c.tagData _ _ socket with _ | _ | _ | _
    · constructor <;> rfl
    · exact ⟨rfl, by constructor <;> rfl⟩
    · trivial
    · trivial
  · exact SameSaved.refl c

theorem receiveParts_saved (c : Cameras) (socket : CameraSocket) :
    EarlyExit.Ends (LeavesSaved c) (fun r => SameSaved c r.1) (receiveParts c socket) :=
  (receiveFlvHeader_saved c socket).bind fun r first =>
    ((receiveTagHeader_saved r.1 r.2).mono (fun _ => .of_same first) fun _ => first.trans).bind fun r second =>
      (receiveTagData_saved r.1 r.2).mono (fun _ => .of_same second) fun _ => second.trans

theorem PastTagData.tagKind_eq {tags : List (List UInt8)} {c : Cameras} {consumed : List UInt8}
    (h : PastTagData tags c consumed) : tagKind c.tagHeader c.tagData = packetKind (c.tagHeader ++ c.tagData) := by
  rw [packetKind, List.take_append_of_le_length (Nat.le_of_eq h.tagLength.symm), ← h.tagLength, List.take_length,
    List.drop_left]

/-- Whether a call completes a tag that goes to the viewers. -/
def extractsMedia (c : Cameras) (socket : CameraSocket) : Prop :=
  ∃ d rest isKeyFrame, receiveParts c socket = .ok (d, rest) ∧ tagKind d.tagHeader d.tagData = .media isKeyFrame

/-- A call that keeps the channel extracts nothing, or a packet that it saves or gives to the viewers
as the packet's kind says. -/
theorem receiveStreamCb_cases {c c' : Cameras} {consumed : List UInt8} {tags : List (List UInt8)}
    {socket rest : CameraSocket} {packet : Option (List UInt8)} (framing : Framing c consumed tags)
    (called : receiveStreamCb c socket = .kept c' packet rest) :
    (packet = none ∧ SameSaved c c') ∨
      ∃ p d e, packet = some p ∧ SameSaved c d ∧ d.flvHeader.length = flvHeaderSize + previousTagSize ∧
        handleTag d p (packetKind p) = some e ∧ SameSaved e c' ∧
        (∀ isKeyFrame, packetKind p = .media isKeyFrame → extractsMedia c socket) := by
  have phases := receiveParts_ok framing socket
  have saved := receiveParts_saved c socket
  unfold receiveStreamCb at called
  match parts : receiveParts c socket, phases, saved with
  | .error outcome, _, saved =>
    rw [parts] at called
    obtain rfl : outcome = _ := called
    exact .inl saved
  | .ok (d, after), ⟨more, _, past⟩, saved =>
    rw [parts] at called
    dsimp only at called
    cases finished : finishTag d with
    | none => simp [finished] at called
    | some result =>
      obtain ⟨e, p⟩ := result
      simp only [finished, ReceiveOutcome.kept.injEq] at called
      obtain ⟨rfl, rfl, rfl⟩ := called
      obtain ⟨rfl, _⟩ := finishTag_framing past finished
      simp only [finishTag, Option.bind_eq_bind, Option.bind_eq_some_iff, Option.some.injEq, Prod.mk.injEq] at finished
      obtain ⟨handled, handle, rfl, packet⟩ := finished
      rw [packet, past.tagKind_eq] at handle
      refine .inr ⟨_, d, handled, rfl, saved, past.length, handle, by constructor <;> rfl, fun isKeyFrame kind => ?_⟩
      exact ⟨d, after, isKeyFrame, parts, past.tagKind_eq.trans kind⟩

/-- A call follows no dangling pointer as long as the queues of all viewers are sound. -/
theorem receiveStreamCb_no_fault {c : Cameras} {socket : CameraSocket}
    (queues : ∀ id v, c.viewerInfoPool.lookup id = some v → ∃ f, Matches v f) : receiveStreamCb c socket ≠ .fault := by
  have saved := receiveParts_saved c socket
  unfold receiveStreamCb
  match parts : receiveParts c socket, saved with
  | .error outcome, saved =>
    rintro rfl
    exact saved
  | .ok (d, after), saved =>
    have handled : (finishTag d).isSome := by
      unfold finishTag
      cases tagKind d.tagHeader d.tagData with
      | media isKeyFrame =>
        have pushed := Pool.traverse_isSome (p := d.viewerInfoPool)
          (f := pushToViewer ⟨isKeyFrame, d.tagHeader.take tagHeaderSize ++ d.tagData.take d.tagDataSize, 0⟩) <| by
            intro id v found
            obtain ⟨f, sound⟩ := queues id v (saved.viewerInfoPool ▸ found)
            obtain ⟨v', pushed, _⟩ := pushToViewer_matches sound
              ⟨isKeyFrame, d.tagHeader.take tagHeaderSize ++ d.tagData.take d.tagDataSize, 0⟩
            exact pushed ▸ rfl
        obtain ⟨pool, pushed⟩ := Option.isSome_iff_exists.mp pushed
        simp [handleTag, pushed]
      | _ => rfl
    obtain ⟨result, finished⟩ := Option.isSome_iff_exists.mp handled
    simp [finished]

/-! ### The saved headers -/

def latest (kind : TagKind) (packets : List (List UInt8)) : Option (List UInt8) :=
  (packets.filter (packetKind · = kind)).getLast?

theorem latest_concat (kind : TagKind) (packets : List (List UInt8)) (p : List UInt8) :
    latest kind (packets ++ [p]) = if packetKind p = kind then some p else latest kind packets := by
  rw [latest, List.filter_append]
  by_cases same : packetKind p = kind <;> simp [same, latest]

theorem latest_mem {kind : TagKind} {packets : List (List UInt8)} {p : List UInt8} (h : latest kind packets = some p) :
    p ∈ packets ∧ packetKind p = kind := by
  have member := List.mem_of_getLast? h
  simpa using member

/-- The channel holds the last packets of the three kinds that are saved. -/
structure Saves (c : Cameras) (packets : List (List UInt8)) : Prop where
  exists_ : c.scriptTagExists = (latest .scriptTag packets).isSome
  script : c.flvScriptTag = (latest .scriptTag packets).getD []
  avc : c.avcSequenceHeader = (latest .avcSequenceHeader packets).getD []
  aac : c.aacSequenceHeader = (latest .aacSequenceHeader packets).getD []

theorem newCameras_saves : Saves newCameras [] := ⟨rfl, rfl, rfl, rfl⟩

theorem Saves.of_same {c c' : Cameras} {packets : List (List UInt8)} (h : Saves c packets) (same : SameSaved c c') :
    Saves c' packets :=
  ⟨same.scriptTagExists.trans h.exists_, same.flvScriptTag.trans h.script, same.avcSequenceHeader.trans h.avc,
    same.aacSequenceHeader.trans h.aac⟩

theorem handleTag_saves {c c' : Cameras} {packets : List (List UInt8)} {p : List UInt8} (h : Saves c packets)
    (handled : handleTag c p (packetKind p) = some c') : Saves c' (packets ++ [p]) := by
  obtain ⟨exists_, script, avc, aac⟩ := h
  cases kind : packetKind p with
  | media isKeyFrame =>
    rw [kind] at handled
    simp only [handleTag, Option.bind_eq_bind, Option.bind_eq_some_iff, Option.some.injEq] at handled
    obtain ⟨pool, _, rfl⟩ := handled
    constructor <;> simpa [latest_concat, kind]
  | _ =>
    rw [kind] at handled
    obtain rfl := Option.some.inj handled
    constructor <;> simp [latest_concat, kind, exists_, script, avc, aac]

/-- What a packet does to one viewer, if there is one. -/
def viewerAfter (packet : List UInt8) : TagKind → Option ViewerInfo → Option ViewerInfo
  | .media isKeyFrame, v => v.bind (pushToViewer ⟨isKeyFrame, packet, 0⟩)
  | _, v => v

theorem handleTag_viewer {c c' : Cameras} {p : List UInt8} {kind : TagKind} (handled : handleTag c p kind = some c')
    (id : ClientId) : c'.viewerInfoPool.lookup id = viewerAfter p kind (c.viewerInfoPool.lookup id) := by
  cases kind with
  | media isKeyFrame =>
    simp only [handleTag, Option.bind_eq_bind, Option.bind_eq_some_iff, Option.some.injEq] at handled
    obtain ⟨pool, pushed, rfl⟩ := handled
    exact Pool.lookup_traverse pushed id
  | _ =>
    obtain rfl := Option.some.inj handled
    rfl

end LiveStreaming.Streamer
