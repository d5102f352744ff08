import LiveStreaming.Streamer.RelayRuns

/-!
# What a viewer is sent behind its stream headers

Two properties of the tag phase over all runs of a channel. The bytes of tags are a prefix of whole
tags of the camera, in order, as long as `drop_frame` never takes a head of which a part has been
sent. And no tag that is not a key frame is begun before one whole key frame.
-/

namespace LiveStreaming.Streamer
open Library

def bytesOf (es : List Entry) : List UInt8 := es.flatMap (·.write.taken)

theorem bytesOf_append (es es' : List Entry) : bytesOf (es ++ es') = bytesOf es ++ bytesOf es' := List.flatMap_append


/-! ### The relay -/

theorem FedBy.bytes {allowed : Feed → Feed.Event → Prop} {s : Relay} {id : ClientId} {f : Feed} {hs ts : List Entry}
    (h : FedBy allowed s id f hs ts) : bytesOf ts = f.bytes := by
  rw [bytesOf, Feed.bytes, ← h.writes, List.flatMap_map]

theorem FedBy.behind {allowed : Feed → Feed.Event → Prop} {s : Relay} {id : ClientId} {f : Feed} {hs ts : List Entry}
    (h : FedBy allowed s id f hs ts) {pre post : List Entry} {e : Entry} (log : s.log id = pre ++ e :: post)
    {t : FlvTagFrame} (item : e.write.item = .tag t) : ∃ middle, pre = hs ++ middle ∧ ts = middle ++ e :: post := by
  rcases List.append_eq_append_iff.mp (h.log.symm.trans log) with ⟨more, rfl, split⟩ | ⟨more, header, split⟩
  · exact ⟨more, rfl, split⟩
  · cases more with
    | nil => exact ⟨[], by simpa using header.symm, by simpa using split.symm⟩
    | cons x xs =>
      obtain ⟨rfl, _⟩ := List.cons.inj split
      obtain ⟨part, buffer, header'⟩ := h.headers e (by rw [header]; simp)
      rw [item] at header'
      cases header'

/-- When the camera completes a tag for a viewer whose queue is full, and a part of the head has been
sent, then `drop_frame` finds another tag to drop. -/
def SparesHead (id : ClientId) (s : Relay) : Relay.Event → Prop
  | .receive => ∀ c v, s.camera = some c → extractsMedia c s.socket → s.viewer id = some v →
      viewerQueueFull v.viewerQueue = true → ∀ t, viewerQueueTop v.viewerQueue = some t → 0 < t.sentBytes →
      ∃ pos, dropFrameScan v.viewerQueue cachedTagsLimit v.viewerQueue.front = some (some pos) ∧
        pos ≠ v.viewerQueue.front
  | _ => True

theorem SparesHead.spares {id : ClientId} {s : Relay} {c : Cameras} {v : ViewerInfo} {f : Feed}
    (h : SparesHead id s .receive) (camera : s.camera = some c) (viewer : s.viewer id = some v) (matched : Matches v f)
    (media : extractsMedia c s.socket) (t : FlvTagFrame) : f.Spares (.push t) := by
  intro full head rest queue begun
  obtain ⟨rep, _⟩ := matched
  have top := viewerQueueTop_eq rep
  rw [queue] at top
  obtain ⟨pos, scanned, other⟩ := h c v camera media viewer ((viewerQueueFull_iff rep).mpr full) head top begun
  have scan := dropFrameScan_eq rep cachedTagsLimit 0 (by rw [full]; decide) (by omega)
  rw [Nat.add_zero, Nat.mod_eq_of_lt (rep.inRange (by simp [queue])).1, List.drop_zero, scanned, queue,
    Option.some.injEq] at scan
  obtain ⟨i, found, at_⟩ := Option.map_eq_some_iff.mp scan.symm
  rw [List.findIdx?_cons] at found
  split at found
  · obtain rfl := Option.some.inj found
    rw [Nat.zero_add, Nat.add_zero, Nat.mod_eq_of_lt (rep.inRange (by simp [queue])).1] at at_
    exact absurd at_.symm other
  · next key =>
    obtain ⟨j, inside, _⟩ := Option.map_eq_some_iff.mp found
    refine ⟨by simpa using key, ?_⟩
    rw [← List.findIdx?_isSome, inside]
    rfl

def Item.isTag : Item → Bool
  | .header _ _ => false
  | .tag _ => true

/-- The stream headers come first, and what follows them is a prefix of whole tags of the camera, each
at most once and in stream order. -/
structure MediaWhole (packets : List (List UInt8)) (log : List Entry) : Prop where
  behind : ∃ hs ts, log = hs ++ ts ∧ (∀ e ∈ hs, e.write.item.isTag = false) ∧ ∀ e ∈ ts, e.write.item.isTag = true
  whole : ∃ tags : List (List UInt8), tags.Sublist packets ∧ (∀ t ∈ tags, WholeTag t) ∧
    bytesOf (log.filter (·.write.item.isTag)) <+: tags.flatten

theorem FedBy.isTag {allowed : Feed → Feed.Event → Prop} {s : Relay} {id : ClientId} {f : Feed} {hs ts : List Entry}
    (h : FedBy allowed s id f hs ts) :
    (∀ e ∈ hs, e.write.item.isTag = false) ∧ ∀ e ∈ ts, e.write.item.isTag = true := by
  constructor
  · intro e member
    obtain ⟨part, buffer, item⟩ := h.headers e member
    rw [item]
    rfl
  · intro e member
    obtain ⟨t, item⟩ := h.tags e member
    rw [item]
    rfl

/-- In every run in which `drop_frame` spares a viewer's head whenever it has been begun, that viewer
gets whole tags. -/
theorem run_media_whole {viewersLimit : Nat} {socket₀ : CameraSocket} {s : Relay} {id : ClientId}
    (run : Relay.Run (SparesHead id) viewersLimit socket₀ s) : MediaWhole s.packets (s.log id) := by
  obtain ⟨f, hs, ts, fed⟩ := run_fed (A := Feed.Spares)
    (fun s c v f isKeyFrame packet spares camera viewer matched media =>
      SparesHead.spares spares camera viewer matched media _) (fun _ _ => trivial) run
  obtain ⟨done, whole⟩ := Feed.run_whole fed.run
  obtain ⟨tags, order, start⟩ := whole.prefix_of_tags
  obtain ⟨headers, media⟩ := fed.isTag
  have sub := order.trans fed.camera
  refine ⟨⟨hs, ts, fed.log, headers, media⟩, tags, sub, fun t member => (run_sound run).whole t (sub.subset member), ?_⟩
  have filtered : (s.log id).filter (·.write.item.isTag) = ts := by
    rw [fed.log, List.filter_append, List.filter_eq_nil_iff.mpr fun e member => by simp [headers e member],
      List.filter_eq_self.mpr media, List.nil_append]
  rw [filtered, fed.bytes]
  exact start

def sampleScriptTag : List UInt8 := [18, 0, 0, 1, 0, 0, 0, 0, 0, 0, 0, 2, 0, 0, 0, 12]
def sampleKeyFrame : List UInt8 := [9, 0, 0, 2, 0, 0, 0, 0, 0, 0, 0, 0x17, 1, 0, 0, 0, 13]
def sampleInterFrame : List UInt8 := [9, 0, 0, 2, 0, 0, 0, 0, 0, 0, 0, 0x27, 1, 0, 0, 0, 13]

def sampleCamera (packets : List (List UInt8)) : CameraSocket := [.data 0x46 (sampleHeader.tail ++ packets.flatten)]

def sampleHeaderPhase (clock : Nat) : List Entry :=
  [⟨clock, ⟨.header .httpResponse httpResponse, 0, httpResponse⟩⟩,
    ⟨clock, ⟨.header .flvHeader sampleHeader, 0, sampleHeader⟩⟩]

theorem run_media_whole_sample :
    ∃ s : Relay, MediaWhole s.packets (s.log 7) ∧
      s.log 7 = sampleHeaderPhase 1 ++ [⟨1, ⟨.tag ⟨true, sampleKeyFrame, 0⟩, 0, sampleKeyFrame.take 5⟩⟩] := by
  have joined : Relay.Run (SparesHead 7) 5 (sampleCamera [sampleKeyFrame]) _ := .tail (e := .join 7) .refl trivial rfl
  have received : Relay.Run (SparesHead 7) 5 (sampleCamera [sampleKeyFrame]) _ :=
    .tail (e := .receive) joined (by
      intro c v camera _ viewer full
      cases camera
      cases viewer
      cases full) rfl
  have sent : Relay.Run (SparesHead 7) 5 (sampleCamera [sampleKeyFrame]) _ :=
    .tail (e := .send 7 [.accept 99, .accept 99, .accept 4]) received trivial rfl
  exact ⟨_, run_media_whole sent, rfl⟩

/-- A viewer whose queue runs full behind a tag that has been begun: the sixth byte of the tag is
never sent, and the next tag follows in its place. -/
def overflowEvents : List Relay.Event :=
  [.join 7, .receive, .send 7 [.accept 99, .accept 99, .accept 99], .receive, .send 7 [.accept 4, .eagain]] ++
    List.replicate 79 .receive ++ [.send 7 [.accept 99]]

def overflowMedia : List Entry :=
  [⟨1, ⟨.tag ⟨true, sampleKeyFrame, 0⟩, 0, sampleKeyFrame⟩⟩,
    ⟨2, ⟨.tag ⟨false, sampleInterFrame, 0⟩, 0, sampleInterFrame.take 5⟩⟩,
    ⟨81, ⟨.tag ⟨false, sampleInterFrame, 0⟩, 0, sampleInterFrame⟩⟩]

theorem overflow_log :
    (Transition.exec Relay.step (.start 5 (sampleCamera (sampleKeyFrame :: List.replicate 80 sampleInterFrame)))
      overflowEvents).map (fun s => (s.packets, s.log 7)) =
    some (sampleKeyFrame :: List.replicate 80 sampleInterFrame, sampleHeaderPhase 1 ++ overflowMedia) := by
  decide +kernel

theorem overflow_splices_tags :
    ¬∀ viewersLimit socket₀ s, Relay.Run (fun _ _ => True) viewersLimit socket₀ s →
      ∀ id, MediaWhole s.packets (s.log id) := by
  intro always
  obtain ⟨s, ran, result⟩ := Option.map_eq_some_iff.mp overflow_log
  obtain ⟨packets, log⟩ := Prod.mk.inj result
  obtain ⟨_, tags, sub, _, start⟩ := always 5 _ s (Transition.reach_of_exec .refl (fun _ _ _ => trivial) ran) 7
  rw [log] at start
  have known : ∀ t ∈ tags, t = sampleKeyFrame ∨ t = sampleInterFrame := by
    intro t member
    have inside := packets ▸ sub.subset member
    rcases List.mem_cons.mp inside with first | later
    · exact .inl first
    · exact .inr (List.eq_of_mem_replicate later)
  have bytes : bytesOf ((sampleHeaderPhase 1 ++ overflowMedia).filter (·.write.item.isTag)) =
      sampleKeyFrame ++ (sampleInterFrame.take 5 ++ sampleInterFrame) := by decide
  rw [bytes] at start
  -- The second of the whole tags would have to be the spliced one.
  match tags, known, start with
  | [], _, start => exact absurd start.length_le (by decide)
  | [a], known, start =>
    rcases known a List.mem_cons_self with rfl | rfl <;> exact absurd start.length_le (by decide)
  | a :: b :: rest, known, ⟨more, split⟩ =>
    have second := congrArg (fun l : List UInt8 => (l.drop 17).take 17) split
    rcases known a List.mem_cons_self with rfl | rfl <;>
      rcases known b (List.mem_cons_of_mem _ List.mem_cons_self) with rfl | rfl <;>
      simp [sampleKeyFrame, sampleInterFrame] at second

/-- In every run, a tag from the queue that is not a key frame is begun only behind a whole key frame
of the camera. -/
theorem run_key_frame_first {viewersLimit : Nat} {socket₀ : CameraSocket} {s : Relay}
    (run : Relay.Run (fun _ _ => True) viewersLimit socket₀ s) (id : ClientId) {pre post : List Entry} {e : Entry}
    (log : s.log id = pre ++ e :: post) {t : FlvTagFrame} (item : e.write.item = .tag t)
    (plain : packetKind t.tag ≠ .media true) :
    t.tag ∈ s.packets ∧ ∃ k ∈ s.packets, packetKind k = .media true ∧ k <:+: bytesOf pre := by
  obtain ⟨f, hs, ts, fed⟩ : ∃ f hs ts, FedBy (fun _ _ => True) s id f hs ts :=
    run_fed (fun _ _ _ _ _ _ _ _ _ _ _ => trivial) (fun _ _ => trivial) run
  have ok := Feed.run_ok fed.run
  have fromCamera : ∀ u ∈ f.pushed, u.tag ∈ s.packets := fun u member =>
    fed.camera.subset (List.mem_map_of_mem member)
  obtain ⟨middle, rfl, split⟩ := fed.behind log item
  have writes := fed.writes
  rw [split, List.map_append, List.map_cons] at writes
  have pushed := ok.written e.write (by rw [← writes]; simp) t item
  have kind := fed.kinds _ pushed
  have notKey : t.isKeyFrame = false := by
    cases flag : t.isKeyFrame with
    | false => rfl
    | true => exact absurd (kind.trans (congrArg _ flag)) plain
  obtain ⟨k, member, key, inside⟩ := ok.first _ _ _ writes.symm t item notKey
  refine ⟨fromCamera { t with sentBytes := 0 } pushed, k.tag, fromCamera k member,
    (fed.kinds k member).trans (congrArg _ key), ?_⟩
  rw [List.flatMap_map] at inside
  rw [bytesOf_append]
  exact inside.trans (List.suffix_append _ _).isInfix

def Item.flvTag : Item → Option (List UInt8)
  | .header .httpResponse _ | .header .flvHeader _ => none
  | .header _ buffer => some buffer
  | .tag t => some t.tag

/-- No byte of a tag that is not a video key frame precedes the first whole key frame. -/
def KeyFrameFirst (packets : List (List UInt8)) (log : List Entry) : Prop :=
  ∀ pre e post, log = pre ++ e :: post → ∀ tag, e.write.item.flvTag = some tag → packetKind tag ≠ .media true →
    e.write.taken ≠ [] → ∃ k ∈ packets, packetKind k = .media true ∧ k <:+: bytesOf pre

def sampleEvents : List Relay.Event :=
  [.join 7, .receive, .receive, .send 7 [.accept 99, .accept 99, .accept 99, .accept 99], .receive,
    .send 7 [.accept 99]]

def sampleLog : List Entry :=
  sampleHeaderPhase 2 ++ [⟨2, ⟨.header .scriptTag sampleScriptTag, 0, sampleScriptTag⟩⟩,
    ⟨2, ⟨.tag ⟨true, sampleKeyFrame, 0⟩, 0, sampleKeyFrame⟩⟩]

theorem sampleEvents_log :
    (Transition.exec Relay.step (.start 5 (sampleCamera [sampleScriptTag, sampleKeyFrame, sampleInterFrame]))
      sampleEvents).map (fun s => (s.packets, s.log 7)) =
    some ([sampleScriptTag, sampleKeyFrame, sampleInterFrame],
      sampleLog ++ [⟨3, ⟨.tag ⟨false, sampleInterFrame, 0⟩, 0, sampleInterFrame⟩⟩]) := by
  decide

theorem run_key_frame_first_sample :
    ∃ s : Relay, sampleInterFrame ∈ s.packets ∧ ∃ k ∈ s.packets, packetKind k = .media true ∧
      k <:+: bytesOf sampleLog := by
  obtain ⟨s, ran, result⟩ := Option.map_eq_some_iff.mp sampleEvents_log
  have log := (Prod.mk.inj result).2
  exact ⟨s, run_key_frame_first (t := ⟨false, sampleInterFrame, 0⟩)
    (Transition.reach_of_exec .refl (fun _ _ _ => trivial) ran) 7 log rfl (by decide)⟩

theorem script_tag_precedes_key_frame :
    ¬∀ viewersLimit socket₀ s, Relay.Run (fun _ _ => True) viewersLimit socket₀ s →
      ∀ id, KeyFrameFirst s.packets (s.log id) := by
  intro always
  obtain ⟨s, ran, result⟩ := Option.map_eq_some_iff.mp sampleEvents_log
  obtain ⟨packets, log⟩ := Prod.mk.inj result
  obtain ⟨k, member, key, inside⟩ := always 5 _ s (Transition.reach_of_exec .refl (fun _ _ _ => trivial) ran) 7
    (sampleHeaderPhase 2) _ _ log sampleScriptTag rfl (by decide) (by decide)
  rw [packets] at member
  obtain rfl | rfl | rfl : k = sampleScriptTag ∨ k = sampleKeyFrame ∨ k = sampleInterFrame := by simpa using member
  · exact absurd key (by decide)
  · exact absurd inside (by decide +kernel)
  · exact absurd key (by decide)

end LiveStreaming.Streamer
