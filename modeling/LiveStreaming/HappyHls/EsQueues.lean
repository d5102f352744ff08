import LiveStreaming.Library.Backlog
import LiveStreaming.HappyHls.TagCalls

/-!
# The queues of frames

A tag puts up to three frames into the queues of `receive_stream_cb`, and a call takes at most one out of them.
-/

namespace LiveStreaming.HappyHls.ReceiveStream
open Library EarlyExit

variable {setting : Setting} {c c' : Call}

def Call.waiting (c : Call) : Nat := c.statics.aacEsQueue.length + c.statics.avcEsQueue.length

/-- The audio is held back for video that has not come. -/
def AudioHeld (c : Call) : Prop := c.statics.avcEsQueue = [] ∧ ¬ AudioDue c

/-- How many frames a tag puts into the queues. -/
def framesQueued (header data : List UInt8) : Nat :=
  if header.headD 0 = tagAudio then
    if data.getD 0 0 >>> 4 = mediaTypeAac ∧ data.getD 1 0 = flvAacRawType then 1 else 0
  else if header.headD 0 = tagVideo ∧ data.getD 0 0 &&& 0x0F = mediaTypeAvc ∧ data.getD 1 0 = flvAvcNaluType then
    if data.getD 0 0 >>> 4 = flvKeyFrame then 3 else 1
  else 0

theorem handleTag_queued {d d' : Decoder} {header data : List UInt8} {frames : Frames}
    (handled : d.handleTag header data = some (d', frames)) :
    frames.aac.length + frames.avc.length = framesQueued header data := by
  rw [Decoder.handleTag] at handled
  rw [framesQueued]
  split at handled
  · next audio =>
    obtain ⟨size, read, rfl⟩ := handleAudio_spec handled
    obtain ⟨codec, type⟩ := getFlvAacTag_type read
    rw [if_pos audio]
    by_cases raw : size ≠ -1 ∧ d'.aacTag.aacPacketType = flvAacRawType
    · rw [if_pos raw, if_pos ⟨codec.mp raw.1, type raw.1 ▸ raw.2⟩]
      rfl
    · rw [if_neg raw, if_neg fun both => raw ⟨codec.mpr both.1, (type (codec.mpr both.1)).trans both.2⟩]
      rfl
  · next notAudio =>
    rw [if_neg notAudio]
    split at handled
    · next video =>
      obtain ⟨aac, avc⟩ := handleVideo_spec handled
      rw [aac, avc, List.length_nil, Nat.zero_add]
      simp only [video, true_and]
    · next other =>
      cases handled
      rw [if_neg fun both => other both.1]
      rfl

/-- Changes of the segment leave the queues as they are. -/
theorem changeSegments_queues (tag : TagCalls) (c : Call) : Ends (fun _ => True)
    (fun c' => c'.statics.aacEsQueue = c.statics.aacEsQueue ∧ c'.statics.avcEsQueue = c.statics.avcEsQueue)
    (c.changeSegments tag) := by
  rw [Call.changeSegments]
  refine @Ends.foldlM _ _ _ _ (fun _ c' => c'.statics.aacEsQueue = c.statics.aacEsQueue ∧
    c'.statics.avcEsQueue = c.statics.avcEsQueue) _ ?_ _ c ⟨rfl, rfl⟩
  rintro setting _ c₁ ⟨aac, avc⟩
  refine (changeSegment_cases c₁).mono (fun _ _ => trivial) ?_
  rintro c' (rfl | next)
  · exact ⟨aac, avc⟩
  · exact ⟨next.aac.trans aac, next.avc.trans avc⟩

/-- At most one frame is taken out, and none only where there is no video and the audio is held back. -/
theorem writeFrame_serves (wrote : c.writeFrame setting = .ok c') :
    c.statics.firstCreateTs = true ∧ c' = c ∨
      c.statics.firstCreateTs = false ∧ (c'.waiting + 1 = c.waiting ∨ c' = c ∧ AudioHeld c) := by
  have kept : ∀ {c c' : Call} {frame : List UInt8} {segments : Segments}, c.wrote frame segments = .ok c' →
      c'.waiting = c.waiting := by
    intro c c' frame segments wrote
    rcases (wrote_straight _ _ _).of_ok wrote with ⟨_, rfl⟩ | ⟨_, _, file, files, _, rfl⟩ <;> rfl
  rcases (writeFrame_straight _).of_ok wrote with stays | ⟨first, audio | video | ⟨noAudio, empty, rfl⟩⟩
  · exact .inl stays
  · obtain ⟨frame, rest, segments, _, queue, _, wrote⟩ := audio
    refine .inr ⟨first, .inl ?_⟩
    rw [kept wrote, Call.waiting, Call.waiting, queue, List.length_cons]
    exact Nat.add_right_comm _ _ 1
  · obtain ⟨frame, rest, segments, _, queue, _, wrote⟩ := video
    refine .inr ⟨first, .inl ?_⟩
    rw [kept wrote, Call.waiting, Call.waiting, queue, List.length_cons]
    exact Nat.add_assoc _ _ 1
  · exact .inr ⟨first, .inr ⟨rfl, empty, noAudio⟩⟩

theorem muxTag_serves (muxed : c.muxTag setting = .ok c') :
    ∃ served ≤ 1, c'.waiting + served = c.waiting + framesQueued c.viewer.flvTagHeader c.viewer.flvTagData ∧
      (served = 0 → AudioHeld c') := by
  obtain ⟨c₁, handled, muxed⟩ := bind_ok muxed
  obtain ⟨c₂, awaited, wrote⟩ := bind_ok muxed
  have queued : c₁.waiting = c.waiting + framesQueued c.viewer.flvTagHeader c.viewer.flvTagData := by
    obtain ⟨decoder, frames, taken, rfl⟩ := (handleTag_straight _).of_ok handled
    rw [← handleTag_queued taken, Call.waiting, Call.waiting]
    dsimp only
    rw [List.length_append, List.length_append]
    omega
  rw [← queued]
  have served : c₂.waiting = c₁.waiting → c₂.statics.firstCreateTs = false → ∃ served ≤ 1,
      c'.waiting + served = c₁.waiting ∧ (served = 0 → AudioHeld c') := by
    intro same running
    rcases writeFrame_serves wrote with ⟨first, _⟩ | ⟨_, one | ⟨rfl, held⟩⟩
    · rw [running] at first
      cases first
    · exact ⟨1, Nat.le_refl 1, one.trans same, fun none => absurd none Nat.one_ne_zero⟩
    · exact ⟨0, Nat.zero_le 1, same, fun _ => held⟩
  rcases (awaitKeyFrame_straight _).of_ok awaited with ⟨first, rfl⟩ | ⟨first, frame, rest, queue, rfl | rfl⟩
  · exact served rfl first
  · exact served rfl rfl
  · rcases writeFrame_serves wrote with ⟨_, rfl⟩ | ⟨running, _⟩
    · refine ⟨1, Nat.le_refl 1, ?_, fun none => absurd none Nat.one_ne_zero⟩
      rw [Call.waiting, Call.waiting, queue]
      exact Nat.add_assoc _ _ 1
    · exact absurd (running.symm.trans first) Bool.false_ne_true

/-- A tag is a step of a queue that is served once at most. -/
theorem receiveTag_serves {tag : TagCalls} (received : c.receiveTag tag = .ok c') :
    ∃ served ≤ 1, c'.waiting + served = c.waiting + framesQueued tag.header tag.data ∧
      (served = 0 → AudioHeld c') := by
  obtain ⟨c₁, changed, received⟩ := bind_ok received
  obtain ⟨c₂, muxed, finished⟩ := bind_ok received
  obtain rfl := Except.ok.inj finished
  obtain ⟨aac, avc⟩ := (changeSegments_queues tag c).of_ok changed
  have same : (c₁.withTag tag).waiting = c.waiting := by
    change c₁.statics.aacEsQueue.length + c₁.statics.avcEsQueue.length = _
    rw [aac, avc, Call.waiting]
  rw [← same]
  obtain ⟨served, one, balance, idle⟩ := muxTag_serves muxed
  exact ⟨served, one, balance, idle⟩

/-! ### Whole streams -/

open Finset in
/-- The queues stay bounded if and only if no stretch of the stream has many more frames than tags, and not much audio
is ever held back. -/
theorem waiting_bounded_iff {run : Nat → Call} {tags : Nat → TagCalls}
    (received : ∀ n, (run n).receiveTag (tags n) = .ok (run (n + 1))) :
    (∃ bound, ∀ n, (run n).waiting ≤ bound) ↔
      ∃ bound, (∀ m n, ∑ k ∈ range n, framesQueued (tags (m + k)).header (tags (m + k)).data ≤ n + bound) ∧
        ∀ n, AudioHeld (run n) → (run n).statics.aacEsQueue.length ≤ bound := by
  choose served one balance idles using fun n => receiveTag_serves (received n)
  rw [@Backlog.bounded_iff _ _ _ (fun n => AudioHeld (run n)) balance one idles]
  refine exists_congr fun bound => and_congr_right fun _ => forall₂_congr fun n held => ?_
  rw [Call.waiting, held.1, List.length_nil, Nat.add_zero]

/-! ### A stream of key frames -/

theorem key_frame_run : ∃ run : Nat → Call, run 0 = .begun sampleSetting [97] ∧
    ∀ n, (run n).receiveTag sampleKeyFrame = .ok (run (n + 1)) := by
  choose next received keeps using fun c : { c // FirstSegment c } => sampleKeyFrame_received c.2
  let run : Nat → { c // FirstSegment c } := fun n => (fun c => ⟨next c, keeps c⟩)^[n] ⟨_, begun_firstSegment⟩
  refine ⟨fun n => (run n).1, rfl, fun n => ?_⟩
  simp only [run, Function.iterate_succ_apply']
  exact received _

/-- A key frame is three frames, of which its call takes one. -/
theorem key_frames_pile_up : ∃ run : Nat → Call, run 0 = .begun sampleSetting [97] ∧
    (∀ n, (run n).receiveTag sampleKeyFrame = .ok (run (n + 1))) ∧ ∀ bound, ∃ n, bound < (run n).waiting := by
  obtain ⟨run, begins, received⟩ := key_frame_run
  have grows : ∀ n, 2 * n ≤ (run n).waiting := by
    intro n
    induction n with
    | zero => exact Nat.zero_le _
    | succ n ih =>
      obtain ⟨served, one, balance, _⟩ := receiveTag_serves (received n)
      rw [show framesQueued sampleKeyFrame.header sampleKeyFrame.data = 3 from rfl] at balance
      omega
  exact ⟨run, begins, received, fun bound =>
    ⟨bound + 1, (show bound < 2 * (bound + 1) by omega).trans_le (grows (bound + 1))⟩⟩

theorem waiting_bounded_iff_sample : ∃ run : Nat → Call,
    (∀ n, (run n).receiveTag sampleKeyFrame = .ok (run (n + 1))) ∧ ¬ ∃ bound, ∀ n, (run n).waiting ≤ bound := by
  obtain ⟨run, _, received⟩ := key_frame_run
  refine ⟨run, received, fun bounded => ?_⟩
  obtain ⟨bound, stretches, _⟩ := (waiting_bounded_iff received).mp bounded
  have frames := stretches 0 (bound + 1)
  rw [Finset.sum_const_nat fun _ _ => rfl, Finset.card_range,
    show framesQueued sampleKeyFrame.header sampleKeyFrame.data = 3 from rfl] at frames
  omega

end LiveStreaming.HappyHls.ReceiveStream
