import LiveStreaming.Library.Transition
import LiveStreaming.Streamer.FeedRuns
import LiveStreaming.Streamer.Relay

/-!
# Runs of a channel

Every step keeps the channel sound, and in every run each viewer is fed by a run of its feed.
-/

namespace LiveStreaming.Streamer
open Library

theorem sendTagsCb_idle {c : Cameras} {v : ViewerInfo} {http : Nat} {socket : List Socket.WriteEvent}
    (idle : v.watcherActive = false) : sendTagsCb c v http socket = .returned ⟨c, v, http, socket, []⟩ := by
  unfold sendTagsCb
  rw [idle]
  rfl

theorem ViewerStep.queues {socket₀ : CameraSocket} {s s' : Relay} {e : Relay.Event} {id : ClientId}
    (h : ViewerStep s s' id e) (sound : Sound socket₀ s) {v' : ViewerInfo} (found : s'.viewer id = some v') :
    ∃ f, Matches v' f := by
  cases h with
  | quiet packets viewer log received =>
    rcases viewer with same | gone
    · exact sound.queues id v' (same ▸ found)
    · rw [gone] at found
      cases found
  | pushed camera viewer viewer' kind media pushed log received =>
    rw [viewer'] at found
    cases found
    obtain ⟨f, matched⟩ := sound.queues id _ viewer
    obtain ⟨v'', pushed', matched'⟩ := pushToViewer_matches matched ⟨_, _, 0⟩
    rw [pushed] at pushed'
    cases pushed'
    exact ⟨_, matched'⟩
  | joined viewer' log received =>
    rw [viewer'] at found
    cases found
    exact ⟨_, newViewerInfo_matches id⟩
  | sent camera viewer outcome log received =>
    obtain ⟨f, matched⟩ := sound.queues id _ viewer
    rcases outcome with ⟨called, viewer'⟩ | ⟨called, viewer'⟩
    · rw [viewer'] at found
      cases found
      obtain ⟨f', matched', _⟩ := sendTagsCb_ended matched (.inl called)
      exact ⟨f', matched' called⟩
    · rw [viewer'] at found
      cases found

theorem ViewerStep.active {socket₀ : CameraSocket} {s s' : Relay} {e : Relay.Event} {id : ClientId}
    (h : ViewerStep s s' id e) (sound : Sound socket₀ s) {v' : ViewerInfo} (found : s'.viewer id = some v')
    (active : v'.watcherActive = true) : s'.packets ≠ [] := by
  cases h with
  | quiet packets viewer log received =>
    rcases viewer with same | gone
    · have some_ := sound.active id v' (same ▸ found) active
      rw [received]
      exact List.append_ne_nil_of_left_ne_nil some_ _
    · rw [gone] at found
      cases found
  | pushed camera viewer viewer' kind media pushed log received => simp [received]
  | joined viewer' log received =>
    rw [viewer'] at found
    cases found
    cases active
  | @sent c v t socket camera viewer outcome log received =>
    rw [received]
    cases on : v.watcherActive with
    | true => exact sound.active id v viewer on
    | false =>
      rcases outcome with ⟨called, viewer'⟩ | ⟨called, viewer'⟩
      · rw [sendTagsCb_idle on] at called
        cases called
        rw [viewer'] at found
        cases found
        rw [on] at active
        cases active
      · rw [viewer'] at found
        cases found

theorem SameBuffers.framing_with {c c' : Cameras} {consumed : List UInt8} {tags : List (List UInt8)}
    (same : SameBuffers c c') (pool : Pool ClientId ViewerInfo) (h : Framing c consumed tags) :
    Framing { c' with viewerInfoPool := pool } consumed tags := by
  obtain ⟨f1, f2, f3, f4, f5, f6, f7, f8, f9, f10, f11⟩ := same.framing
  exact SameFraming.framing ⟨f1, f2, f3, f4, f5, f6, f7, f8, f9, f10, f11⟩ h

/-- The part of `Sound` that speaks of the camera and not of the viewers. -/
structure ChannelSound (socket₀ : CameraSocket) (s : Relay) : Prop where
  whole : ∀ p ∈ s.packets, WholeTag p
  channel : ∀ c, s.camera = some c →
    (∃ consumed, Socket.incoming socket₀ = consumed ++ Socket.incoming s.socket ∧ Framing c consumed s.packets) ∧
      Saves c s.packets ∧ CountersOk c s.sentHttpResponseBytes

theorem receive_channel {socket₀ : CameraSocket} {s s' : Relay} (sound : Sound socket₀ s)
    (next : s.receive = some s') : ChannelSound socket₀ s' := by
  obtain ⟨_, http, c, camera, after⟩ := receive_cases sound next
  obtain ⟨consumed, _, framing⟩ := sound.framing c camera
  have saves := sound.saves c camera
  have counters := sound.counters c camera
  cases after with
  | deleted camera' received =>
    refine ⟨received ▸ sound.whole, fun c' found => ?_⟩
    rw [camera'] at found
    cases found
  | nothing camera' received same framing' =>
    obtain ⟨consumed', stream, framing'⟩ := framing'
    refine ⟨framing'.whole, fun c' found => ?_⟩
    rw [camera'] at found
    cases found
    refine ⟨⟨consumed', stream, framing'⟩, received ▸ saves.of_same same, http ▸ same.counters ?_ counters⟩
    rw [framing.flvHeader_length, framing'.flvHeader_length]
  | packet camera' received before length handled after _ framing' =>
    obtain ⟨consumed', stream, framing'⟩ := framing'
    refine ⟨framing'.whole, fun c' found => ?_⟩
    rw [camera'] at found
    cases found
    refine ⟨⟨consumed', stream, framing'⟩, received ▸ (handleTag_saves (saves.of_same before) handled).of_same after,
      ?_⟩
    have extracted := before.counters (by rw [length, framing.flvHeader_length]) counters
    rw [http]
    refine after.counters ?_ (handleTag_counters handled extracted)
    rw [framing'.flvHeader_length, (handleTag_sameFraming handled).flvHeader, length]

theorem join_channel {socket₀ : CameraSocket} {s s' : Relay} {id : ClientId} (sound : Sound socket₀ s)
    (next : s.join id = some s') : ChannelSound socket₀ s' := by
  rcases join_cases next with rfl | ⟨c, camera, rfl⟩
  · exact ⟨sound.whole, fun c found => ⟨sound.framing c found, sound.saves c found, sound.counters c found⟩⟩
  · refine ⟨sound.whole, fun c' found => ?_⟩
    obtain rfl := Option.some.inj found
    obtain ⟨consumed, stream, framing⟩ := sound.framing c camera
    refine ⟨⟨consumed, stream, (SameBuffers.refl c).framing_with _ framing⟩, ?_, ?_⟩
    · obtain ⟨exists_, script, avc, aac⟩ := sound.saves c camera
      exact ⟨exists_, script, avc, aac⟩
    · intro part
      have before := sound.counters c camera part
      cases part <;> exact before

theorem send_channel {socket₀ : CameraSocket} {s s' : Relay} {id : ClientId} {socket : List Socket.WriteEvent}
    (sound : Sound socket₀ s) (next : s.send id socket = some s') : ChannelSound socket₀ s' := by
  obtain ⟨c, v, t, camera, lookup, outcome⟩ := send_cases next
  obtain ⟨f, matched⟩ := sound.queues id v ((Relay.viewer_eq camera id).trans lookup)
  obtain ⟨f', _, sent⟩ := sendTagsCb_ended matched (outcome.imp And.left And.left)
  obtain ⟨consumed, stream, framing⟩ := sound.framing c camera
  obtain ⟨exists_, script, avc, aac⟩ := sound.saves c camera
  obtain ⟨same, e1, e2, e3, e4, _⟩ := sent.camera
  obtain ⟨pool, rfl⟩ : ∃ pool, s' = s.sent id t pool := by
    rcases outcome with ⟨_, after⟩ | ⟨_, after⟩ <;> exact ⟨_, after⟩
  refine ⟨sound.whole, fun c' found => ?_⟩
  obtain rfl := Option.some.inj found
  refine ⟨⟨consumed, stream, sent.camera.framing_with pool framing⟩, ?_, ?_⟩
  · exact ⟨e1.trans exists_, e2.trans script, e3.trans avc, e4.trans aac⟩
  · intro part
    have after := sent.counters (sound.counters c camera) part
    cases part <;> exact after

theorem step_sound {socket₀ : CameraSocket} {s s' : Relay} {e : Relay.Event} (sound : Sound socket₀ s)
    (next : s.step e = some s') : Sound socket₀ s' := by
  have viewers := step_viewer sound next
  obtain ⟨whole, channel⟩ : ChannelSound socket₀ s' := by
    cases e with
    | receive => exact receive_channel sound next
    | join id => exact join_channel sound next
    | send id socket => exact send_channel sound next
  constructor
  · exact fun c found => (channel c found).1
  · exact fun c found => (channel c found).2.1
  · exact fun c found => (channel c found).2.2
  · exact whole
  · exact fun id _ found => (viewers id).queues sound found
  · exact fun id _ found active => (viewers id).active sound found active

/-! ### Runs -/

/-- The runs of a channel from its creation on, by steps that are all `allowed`. -/
abbrev Relay.Run (allowed : Relay → Relay.Event → Prop) (viewersLimit : Nat) (socket : CameraSocket) : Relay → Prop :=
  Transition.Reach Relay.step allowed (.start viewersLimit socket)

theorem run_sound {allowed : Relay → Relay.Event → Prop} {viewersLimit : Nat} {socket₀ : CameraSocket} {s : Relay}
    (run : Relay.Run allowed viewersLimit socket₀ s) : Sound socket₀ s :=
  run.invariant (start_sound viewersLimit socket₀) fun _ _ _ sound _ next => step_sound sound next

/-- No callback follows a dangling pointer in any state the channel reaches. -/
theorem run_no_fault {allowed : Relay → Relay.Event → Prop} {viewersLimit : Nat} {socket₀ : CameraSocket} {s : Relay}
    (run : Relay.Run allowed viewersLimit socket₀ s) {c : Cameras} (camera : s.camera = some c) :
    receiveStreamCb c s.socket ≠ .fault ∧
      ∀ id v socket, s.viewer id = some v → sendTagsCb c v s.sentHttpResponseBytes socket ≠ .fault := by
  have sound := run_sound run
  constructor
  · apply receiveStreamCb_no_fault
    intro id v found
    exact sound.queues id v ((Relay.viewer_eq camera id).trans found)
  · intro id v socket found
    obtain ⟨f, matched⟩ := sound.queues id v found
    rcases sendTagsCb_sends c s.sentHttpResponseBytes socket matched with
      waiting | ⟨t', f', ⟨returned, _⟩ | deleted, _⟩
    · rw [waiting]
      exact SendOutcome.noConfusion
    · rw [returned]
      exact SendOutcome.noConfusion
    · rw [deleted]
      exact SendOutcome.noConfusion

/-- The writes to a viewer are header parts and then the writes of a run of a feed, which is that of
the viewer as long as there is one, and whose tags come from the camera in order. -/
structure FedBy (allowed : Feed → Feed.Event → Prop) (s : Relay) (id : ClientId) (f : Feed) (hs ts : List Entry) :
    Prop where
  run : Feed.Run allowed f
  log : s.log id = hs ++ ts
  headers : ∀ e ∈ hs, ∃ part buffer, e.write.item = .header part buffer
  tags : ∀ e ∈ ts, ∃ t, e.write.item = .tag t
  writes : ts.map (·.write) = f.writes
  camera : (f.pushed.map (·.tag)).Sublist s.packets
  kinds : ∀ t ∈ f.pushed, packetKind t.tag = .media t.isKeyFrame
  viewer : ∀ v, s.viewer id = some v → Matches v f ∧ (ts ≠ [] → v.sendFirst = false)

theorem Feed.send_pushed (f : Feed) (n : Nat) : (f.send n).pushed = f.pushed := by
  unfold Feed.send
  cases f.queue with
  | nil => rfl
  | cons t rest =>
    dsimp only
    split_ifs <;> rfl

theorem CallSent.splits {s s' : SendState} {f f' : Feed} (sent : CallSent s f s' f') (fresh : s.writes = [])
    (clock : Nat) {hs ts : List Entry} (headers : ∀ e ∈ hs, ∃ part buffer, e.write.item = .header part buffer)
    (tags : ∀ e ∈ ts, ∃ t, e.write.item = .tag t) (past : ts ≠ [] → s.viewer.sendFirst = false)
    (writes : ts.map (·.write) = f.writes) :
    ∃ hs' ts', hs ++ ts ++ s'.writes.map (⟨clock, ·⟩) = hs' ++ ts' ∧
      (∀ e ∈ hs', ∃ part buffer, e.write.item = .header part buffer) ∧ (∀ e ∈ ts', ∃ t, e.write.item = .tag t) ∧
      ts'.map (·.write) = f'.writes ∧ (ts' ≠ [] → s'.viewer.sendFirst = false) := by
  obtain ⟨_, _, _, ⟨ws, us, added, feedWrites, headers', tags', first, last⟩, off⟩ := sent
  rw [fresh, List.nil_append] at added
  have stamped : (us.map (Entry.mk clock)).map (·.write) = us := by
    rw [List.map_map]
    exact List.map_id us
  have tagged : ∀ e ∈ us.map (Entry.mk clock), ∃ t, e.write.item = .tag t := by
    intro e member
    obtain ⟨w, inside, rfl⟩ := List.mem_map.mp member
    exact tags' w inside
  rcases List.eq_nil_or_concat' ts with rfl | ⟨_, _, some_⟩
  · refine ⟨hs ++ ws.map (⟨clock, ·⟩), us.map (⟨clock, ·⟩), by simp [added], ?_, tagged, ?_, by simpa using last⟩
    · intro e member
      rcases List.mem_append.mp member with old | new
      · exact headers e old
      · obtain ⟨w, inside, rfl⟩ := List.mem_map.mp new
        exact headers' w inside
    · rw [stamped, feedWrites, ← writes]
      rfl
  · have past := past (by simp [some_])
    have none_ : ws = [] := by
      by_contra some_
      rw [first some_] at past
      cases past
    refine ⟨hs, ts ++ us.map (⟨clock, ·⟩), by simp [added, none_], headers, ?_, ?_, fun _ => off past⟩
    · intro e member
      rcases List.mem_append.mp member with old | new
      · exact tags e old
      · exact tagged e new
    · rw [List.map_append, stamped, feedWrites, writes]

/-- The relay refines a feed for every viewer, if what the relay may do allows the feed its pushes. -/
theorem run_fed {allowed : Relay → Relay.Event → Prop} {A : Feed → Feed.Event → Prop} {viewersLimit : Nat}
    {socket₀ : CameraSocket} {s : Relay} {id : ClientId}
    (pushes : ∀ s c v f isKeyFrame packet, allowed s .receive → s.camera = some c → s.viewer id = some v →
      Matches v f → extractsMedia c s.socket → A f (.push ⟨isKeyFrame, packet, 0⟩))
    (sends : ∀ f n, A f (.send n)) (run : Relay.Run allowed viewersLimit socket₀ s) :
    ∃ f hs ts, FedBy A s id f hs ts := by
  refine run.invariant_with (K := Sound socket₀) (I := fun s => ∃ f hs ts, FedBy A s id f hs ts)
    (fun s => run_sound) ?_ ?_
  · exact ⟨.new, [], [], .refl, rfl, by simp, by simp, rfl, List.nil_sublist _, by simp [Feed.new],
      fun v found => by cases found⟩
  rintro s e s' sound ⟨f, hs, ts, feedRun, log, headers, tags, writes, camera, kinds, viewer⟩ ok next
  cases step_viewer sound next id with
  | quiet packets viewer' log' received =>
    refine ⟨f, hs, ts, feedRun, log'.trans log, headers, tags, writes, ?_, kinds, fun v found => ?_⟩
    · rw [received]
      exact camera.trans (List.sublist_append_left _ _)
    · rcases viewer' with same | gone
      · exact viewer v (same ▸ found)
      · rw [gone] at found
        cases found
  | @pushed c v v' isKeyFrame packet camera' viewer' after kind media pushed log' received =>
    obtain ⟨matched, past⟩ := viewer v viewer'
    obtain ⟨v'', pushed', matched'⟩ := pushToViewer_matches matched ⟨isKeyFrame, packet, 0⟩
    obtain rfl := Option.some.inj (pushed.symm.trans pushed')
    refine ⟨f.push ⟨isKeyFrame, packet, 0⟩, hs, ts, .tail feedRun (pushes s c v f _ _ ok camera' viewer' matched media)
      rfl, log'.trans log, headers, tags, writes, ?_, ?_, ?_⟩
    · rw [received, Feed.push, List.map_append]
      exact camera.append (List.Sublist.refl _)
    · intro t member
      rcases List.mem_append.mp member with old | new
      · exact kinds t old
      · obtain rfl := List.mem_singleton.mp new
        exact kind
    · intro u found
      obtain rfl := Option.some.inj (after.symm.trans found)
      exact ⟨matched', fun some_ => (pushToViewer_flags pushed).1.trans (past some_)⟩
  | joined after log' received =>
    -- The descriptor may have been another viewer's before: the feed starts anew, as the log does.
    refine ⟨.new, [], [], .refl, log', by simp, by simp, rfl, List.nil_sublist _, by simp [Feed.new], fun v found => ?_⟩
    obtain rfl := Option.some.inj (after.symm.trans found)
    exact ⟨newViewerInfo_matches id, fun some_ => absurd rfl some_⟩
  | @sent c v t socket camera' viewer' outcome log' received =>
    obtain ⟨matched, past⟩ := viewer v viewer'
    obtain ⟨f', matched', sent⟩ := sendTagsCb_ended matched (outcome.imp And.left And.left)
    obtain ⟨hs', ts', split, headers', tags', writes', past'⟩ :=
      sent.splits rfl s.packets.length headers tags past writes
    have same : f'.pushed = f.pushed := by
      rcases sent.step with rfl | ⟨n, rfl⟩
      · rfl
      · exact f.send_pushed n
    refine ⟨f', hs', ts', ?_, by rw [log', log, split], headers', tags', writes', ?_, by rwa [same], ?_⟩
    · rcases sent.step with rfl | ⟨n, rfl⟩
      · exact feedRun
      · exact .tail feedRun (sends f n) rfl
    · rw [same, received]
      exact camera
    · intro u found
      rcases outcome with ⟨called, after⟩ | ⟨called, after⟩
      · obtain rfl := Option.some.inj (after.symm.trans found)
        exact ⟨matched' called, past'⟩
      · rw [after] at found
        cases found

end LiveStreaming.Streamer
