import LiveStreaming.Streamer.Saved

/-!
# One call of `send_tags_cb`

What a call may change: the header phase moves counters and writes header parts, and the tag phase takes
the viewer's feed one step on.
-/

namespace LiveStreaming.Streamer
open Library

/-- Everything but the counters of the bytes sent is unchanged. -/
structure SameBuffers (c c' : Cameras) : Prop where
  framing : SameFraming c c'
  scriptTagExists : c'.scriptTagExists = c.scriptTagExists
  flvScriptTag : c'.flvScriptTag = c.flvScriptTag
  avcSequenceHeader : c'.avcSequenceHeader = c.avcSequenceHeader
  aacSequenceHeader : c'.aacSequenceHeader = c.aacSequenceHeader
  viewerInfoPool : c'.viewerInfoPool = c.viewerInfoPool

theorem SameBuffers.refl (c : Cameras) : SameBuffers c c := ⟨.refl c, rfl, rfl, rfl, rfl, rfl⟩

theorem SameBuffers.buffer {c c' : Cameras} (same : SameBuffers c c') (part : HeaderPart) :
    part.buffer c' = part.buffer c := by
  obtain ⟨framing, _, script, avc, aac, _⟩ := same
  cases part <;> simp only [HeaderPart.buffer, framing.flvHeader, script, avc, aac]

theorem SameBuffers.present {c c' : Cameras} (same : SameBuffers c c') (part : HeaderPart) :
    part.present c' = part.present c := by
  obtain ⟨_, exists_, _, avc, aac, _⟩ := same
  cases part <;> simp only [HeaderPart.present, exists_, avc, aac]

theorem SameBuffers.trans {a b c : Cameras} (first : SameBuffers a b) (second : SameBuffers b c) :
    SameBuffers a c := by
  obtain ⟨⟨f1, f2, f3, f4, f5, f6, f7, f8, f9, f10, f11⟩, g1, g2, g3, g4, g5⟩ := first
  obtain ⟨⟨s1, s2, s3, s4, s5, s6, s7, s8, s9, s10, s11⟩, t1, t2, t3, t4, t5⟩ := second
  exact ⟨⟨s1.trans f1, s2.trans f2, s3.trans f3, s4.trans f4, s5.trans f5, s6.trans f6, s7.trans f7, s8.trans f8,
    s9.trans f9, s10.trans f10, s11.trans f11⟩, t1.trans g1, t2.trans g2, t3.trans g3, t4.trans g4, t5.trans g5⟩

theorem advance_sameBuffers (part : HeaderPart) (s : SendState) (n : Nat) :
    SameBuffers s.camera (part.advance s n).camera := by
  cases part <;> exact ⟨by constructor <;> rfl, rfl, rfl, rfl, rfl, rfl⟩

/-- No counter has run past the end of its part. -/
def CountersOk (c : Cameras) (sentHttpResponseBytes : Nat) : Prop :=
  ∀ part : HeaderPart, part.sentBytes c sentHttpResponseBytes ≤ (part.buffer c).length

theorem CountersOk.advance {part : HeaderPart} {s : SendState} {n : Nat}
    (h : CountersOk s.camera s.sentHttpResponseBytes) (short : n < (s.left part).length) :
    CountersOk (part.advance s n).camera (part.advance s n).sentHttpResponseBytes := by
  intro other
  have before := h other
  rw [SendState.left, List.length_drop] at short
  rw [(advance_sameBuffers part s n).buffer]
  cases part <;> cases other <;> simp only [HeaderPart.advance, HeaderPart.sentBytes] at * <;> omega

theorem CountersOk.finish {part : HeaderPart} {s : SendState} (h : CountersOk s.camera s.sentHttpResponseBytes) :
    CountersOk (part.finish s).camera (part.finish s).sentHttpResponseBytes := by
  intro other
  have before := h other
  cases part
  case httpResponse =>
    cases other
    case httpResponse => exact Nat.zero_le _
    all_goals exact before
  all_goals exact before

/-- What the header phase may change. -/
structure HeaderFrame (s s' : SendState) : Prop where
  camera : SameBuffers s.camera s'.camera
  viewerQueue : s'.viewer.viewerQueue = s.viewer.viewerQueue
  sendKeyFrameFirst : s'.viewer.sendKeyFrameFirst = s.viewer.sendKeyFrameFirst
  sendFirst : s'.viewer.sendFirst = s.viewer.sendFirst
  counters : CountersOk s.camera s.sentHttpResponseBytes → CountersOk s'.camera s'.sentHttpResponseBytes
  writes : ∃ ws, s'.writes = s.writes ++ ws ∧ ∀ w ∈ ws, ∃ part buffer, w.item = .header part buffer

theorem HeaderFrame.refl (s : SendState) : HeaderFrame s s :=
  ⟨.refl _, rfl, rfl, rfl, id, [], by simp⟩

theorem HeaderFrame.trans {a b c : SendState} (first : HeaderFrame a b) (second : HeaderFrame b c) :
    HeaderFrame a c := by
  obtain ⟨f1, f2, f3, f4, f5, ws, f6, header⟩ := first
  obtain ⟨s1, s2, s3, s4, s5, ws', s6, header'⟩ := second
  refine ⟨f1.trans s1, s2.trans f2, s3.trans f3, s4.trans f4, fun ok => s5 (f5 ok), ws ++ ws',
    by rw [s6, f6, List.append_assoc], ?_⟩
  intro w member
  rcases List.mem_append.mp member with old | new
  · exact header w old
  · exact header' w new

theorem wrote_frame (s : SendState) (part : HeaderPart) (taken : List UInt8) (socket : List Socket.WriteEvent) :
    HeaderFrame s (s.wrote part taken socket) :=
  ⟨.refl _, rfl, rfl, rfl, id, _, rfl, by simp⟩

theorem HeaderPartSent.frame {part : HeaderPart} {s : SendState} {result : Except SendOutcome SendState}
    (h : HeaderPartSent part s result) :
    EarlyExit.Ends (fun
      | .returned s' | .deleted s' => HeaderFrame s s'
      | .waiting => True
      | .fault => False) (HeaderFrame s) result := by
  cases h with
  | skipped notDue => exact .refl s
  | waiting => trivial
  | deleted due cut => exact wrote_frame ..
  | partly due cut short =>
    refine (wrote_frame ..).trans ⟨advance_sameBuffers .., ?_, ?_, ?_, fun ok => ok.advance short, [], ?_, by simp⟩
    all_goals cases part <;> first | rfl | exact (List.append_nil _).symm
  | complete due =>
    refine (wrote_frame ..).trans ⟨?_, ?_, ?_, ?_, CountersOk.finish, [], ?_, by simp⟩
    · cases part <;> exact .refl _
    all_goals cases part <;> first | rfl | exact (List.append_nil _).symm

/-- What a call may change, told with the feed. -/
structure CallSent (s : SendState) (f : Feed) (s' : SendState) (f' : Feed) : Prop where
  camera : SameBuffers s.camera s'.camera
  counters : CountersOk s.camera s.sentHttpResponseBytes → CountersOk s'.camera s'.sentHttpResponseBytes
  step : f' = f ∨ ∃ n, f' = f.send n
  writes : ∃ hs ts, s'.writes = s.writes ++ (hs ++ ts) ∧ f'.writes = f.writes ++ ts ∧
    (∀ w ∈ hs, ∃ part buffer, w.item = .header part buffer) ∧ (∀ w ∈ ts, ∃ t, w.item = .tag t) ∧
    (hs ≠ [] → s.viewer.sendFirst = true) ∧ (ts ≠ [] → s'.viewer.sendFirst = false)
  sendFirst : s.viewer.sendFirst = false → s'.viewer.sendFirst = false

theorem CallSent.refl (s : SendState) (f : Feed) : CallSent s f s f :=
  ⟨.refl _, id, .inl rfl, ⟨[], [], by simp⟩, id⟩

theorem HeaderFrame.callSent {s s' : SendState} (h : HeaderFrame s s') (f : Feed)
    (first : s.viewer.sendFirst = true) : CallSent s f s' f := by
  obtain ⟨camera, _, _, _, counters, ws, writes, header⟩ := h
  exact ⟨camera, counters, .inl rfl, ⟨ws, [], by simp [writes], by simp, header, by simp, fun _ => first, by simp⟩,
    fun off => absurd first (by simp [off])⟩

theorem sendTopTag_call {s : SendState} {f : Feed} (h : Matches s.viewer f) (past : s.viewer.sendFirst = false) :
    ∃ s' f', ((sendTopTag s = .returned s' ∧ Matches s'.viewer f') ∨ sendTopTag s = .deleted s') ∧
      CallSent s f s' f' := by
  obtain ⟨s', f', outcome, step, ⟨ws, writes, feedWrites, tags⟩, camera, http, sendFirst, _⟩ := sendTopTag_sends h
  refine ⟨s', f', outcome, camera ▸ .refl _, by rw [camera, http]; exact id, step, ?_, fun _ => sendFirst.trans past⟩
  exact ⟨[], ws, writes, feedWrites, by simp, tags, by simp, fun _ => sendFirst.trans past⟩

theorem CallSent.after_headers {s t s' : SendState} {f f' : Feed} (headers : HeaderFrame s t)
    (first : s.viewer.sendFirst = true)
    (h : CallSent { t with viewer := { t.viewer with sendFirst := false } } f s' f') : CallSent s f s' f' := by
  obtain ⟨camera, _, _, _, counters, ws, writes, header⟩ := headers
  obtain ⟨camera', counters', step, ⟨hs, ts, writes', feedWrites, header', tags, firsts, lasts⟩, off⟩ := h
  refine ⟨camera.trans camera', fun ok => counters' (counters ok), step, ⟨ws ++ hs, ts, ?_, feedWrites, ?_, tags,
    fun _ => first, lasts⟩, fun off => absurd first (by simp [off])⟩
  · rw [writes']
    simp [writes]
  · intro w member
    rcases List.mem_append.mp member with old | new
    · exact header w old
    · exact header' w new

/-- A call spins for ever or takes the viewer and its feed a step on. It never follows a dangling
pointer. -/
theorem sendTagsCb_sends (c : Cameras) {v : ViewerInfo} (sentHttpResponseBytes : Nat)
    (socket : List Socket.WriteEvent) {f : Feed} (h : Matches v f) :
    sendTagsCb c v sentHttpResponseBytes socket = .waiting ∨
      ∃ s' f', ((sendTagsCb c v sentHttpResponseBytes socket = .returned s' ∧ Matches s'.viewer f') ∨
        sendTagsCb c v sentHttpResponseBytes socket = .deleted s') ∧
        CallSent ⟨c, v, sentHttpResponseBytes, socket, []⟩ f s' f' := by
  unfold sendTagsCb
  dsimp only
  split_ifs
  swap
  · exact .inr ⟨_, f, .inl ⟨rfl, h⟩, .refl _ f⟩
  generalize start : (⟨c, v, sentHttpResponseBytes, socket, []⟩ : SendState) = s
  have matched : Matches s.viewer f := start ▸ h
  by_cases first : s.viewer.sendFirst = true
  · have phase := sendHeaders_rule (I := fun _ => HeaderFrame s) (Q := fun
      | .returned s' | .deleted s' => HeaderFrame s s'
      | .waiting => True
      | .fault => False) (fun part rest t result before sent => sent.frame.mono (by
        rintro (_ | _ | _ | _) after
        · exact before.trans after
        · exact before.trans after
        · trivial
        · exact after) fun _ after => before.trans after) first (.refl s)
    cases headers : sendHeaders s with
    | error outcome =>
      rw [headers] at phase
      cases outcome with
      | returned s' =>
        have frame : HeaderFrame s s' := phase
        refine .inr ⟨s', f, .inl ⟨rfl, ?_, ?_⟩, frame.callSent f first⟩
        · exact frame.viewerQueue ▸ matched.queue
        · exact frame.sendKeyFrameFirst.trans matched.waits
      | deleted s' =>
        have frame : HeaderFrame s s' := phase
        exact .inr ⟨s', f, .inr rfl, frame.callSent f first⟩
      | waiting => exact .inl rfl
      | fault => exact phase.elim
    | ok u =>
      rw [headers] at phase
      obtain ⟨t, frame, rfl⟩ := phase
      have still : Matches { t.viewer with sendFirst := false } f :=
        ⟨frame.viewerQueue ▸ matched.queue, frame.sendKeyFrameFirst.trans matched.waits⟩
      obtain ⟨s', f', outcome, sent⟩ := sendTopTag_call
        (s := { t with viewer := { t.viewer with sendFirst := false } }) still rfl
      exact .inr ⟨s', f', outcome, sent.after_headers frame first⟩
  · have past : s.viewer.sendFirst = false := by simpa using first
    have headers : sendHeaders s = .ok s := by
      unfold sendHeaders
      rw [past]
      rfl
    rw [headers]
    exact .inr (sendTopTag_call matched past)

end LiveStreaming.Streamer
