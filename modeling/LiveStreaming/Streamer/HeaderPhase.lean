import LiveStreaming.Streamer.HeaderCall

/-!
# The stream headers a viewer is sent

In every run in which the shared counters are the viewer's own whenever it is called, its stream begins
with every part that the channel has, whole and in order.
-/

namespace LiveStreaming.Streamer
open Library

/-- The condition on one viewer's calls in the header phase. -/
def OwnsProgress (id : ClientId) (s : Relay) : Relay.Event → Prop
  | .send other _ => other = id → ∀ c v, s.camera = some c → s.viewer id = some v → v.watcherActive = true →
      v.sendFirst = true → OwnProgress c s.sentHttpResponseBytes v (s.log id)
  | _ => True

def Relay.owed (socket₀ : CameraSocket) (s : Relay) (clock : Nat) (part : HeaderPart) : Option (List UInt8) :=
  part.owed (streamHeader socket₀) (s.packets.take clock)

/-- How far the header phase of one viewer is, in any state reached. -/
structure Headed (socket₀ : CameraSocket) (s : Relay) (id : ClientId) (flags : HeaderPart → Bool)
    (content : HeaderPart → List UInt8) (cur : Option HeaderPart) : Prop where
  progress : Progress (s.owed socket₀) (headersOf (s.log id)) flags content cur
  clocks : ∀ e ∈ s.log id, e.clock ≤ s.packets.length
  media : (∃ e ∈ s.log id, e.write.item.isTag = true) →
    cur = none ∧ Ended (s.owed socket₀) (headersOf (s.log id)) flags
  viewer : ∀ v, s.viewer id = some v → todo v = flags ∧
    (v.sendFirst = true → (∃ part, flags part = true ∧ (part.owed (streamHeader socket₀) s.packets).isSome) ∧
      ∀ e ∈ s.log id, e.write.item.isTag = false) ∧
    (v.sendFirst = false → cur = none ∧ Ended (s.owed socket₀) (headersOf (s.log id)) flags)

theorem Relay.owed_take {socket₀ : CameraSocket} {s s' : Relay} {more : List (List UInt8)}
    (received : s'.packets = s.packets ++ more) {clock : Nat} (past : clock ≤ s.packets.length) (part : HeaderPart) :
    s'.owed socket₀ clock part = s.owed socket₀ clock part := by
  rw [Relay.owed, received, List.take_append_of_le_length past, ← Relay.owed]

theorem Ended.congr {owed owed' : Nat → HeaderPart → Option (List UInt8)} {hs : List Entry}
    {flags : HeaderPart → Bool} (h : Ended owed hs flags)
    (same : ∀ e ∈ hs, ∀ part, owed' e.clock part = owed e.clock part) : Ended owed' hs flags := by
  obtain ⟨last, at_, all⟩ := h
  exact ⟨last, at_, fun part => by rw [same last (List.mem_of_getLast? at_), all]⟩

theorem Headed.quiet {socket₀ : CameraSocket} {s s' : Relay} {id : ClientId} {flags : HeaderPart → Bool}
    {content : HeaderPart → List UInt8} {cur : Option HeaderPart} (h : Headed socket₀ s id flags content cur)
    {more : List (List UInt8)} (received : s'.packets = s.packets ++ more) (log : s'.log id = s.log id)
    (viewer : ∀ v', s'.viewer id = some v' → ∃ v, s.viewer id = some v ∧ todo v' = todo v ∧
      v'.sendFirst = v.sendFirst) :
    Headed socket₀ s' id flags content cur := by
  obtain ⟨progress, clocks, media, connected⟩ := h
  have same : ∀ e ∈ headersOf (s.log id), ∀ part, s'.owed socket₀ e.clock part = s.owed socket₀ e.clock part :=
    fun e member => Relay.owed_take received (clocks e (List.mem_of_mem_filter member))
  refine ⟨?_, ?_, ?_, ?_⟩
  · rw [log]
    exact progress.congr same
  · rw [log, received, List.length_append]
    exact fun e member => Nat.le_add_right_of_le (clocks e member)
  · rw [log]
    intro some_
    obtain ⟨none_, ended⟩ := media some_
    exact ⟨none_, ended.congr same⟩
  · intro v' found
    obtain ⟨v, found, flags', first⟩ := viewer v' found
    obtain ⟨sameFlags, pending, passed⟩ := connected v found
    rw [log, flags', first, received]
    refine ⟨sameFlags, fun first => ?_, fun past => ?_⟩
    · obtain ⟨⟨part, due, owes⟩, headers⟩ := pending first
      exact ⟨⟨part, due, HeaderPart.owed_mono more owes⟩, headers⟩
    · obtain ⟨none_, ended⟩ := passed past
      exact ⟨none_, ended.congr same⟩

theorem Headed.joined {socket₀ : CameraSocket} {s : Relay} {id : ClientId} (log : s.log id = [])
    (viewer : ∀ v, s.viewer id = some v → v = newViewerInfo id) :
    Headed socket₀ s id (fun _ => true) (fun _ => []) none := by
  refine ⟨?_, by simp [log], by simp [log], ?_⟩
  · rw [log]
    exact .new _
  · intro v found
    obtain rfl := viewer v found
    refine ⟨?_, fun _ => ⟨⟨.httpResponse, rfl, rfl⟩, by simp [log]⟩, fun past => by cases past⟩
    funext q
    cases q <;> rfl

theorem OwnProgress.headers {c : Cameras} {http : Nat} {v : ViewerInfo} {log : List Entry}
    (h : OwnProgress c http v log) : OwnProgress c http v (headersOf log) := by
  obtain ⟨counter, order⟩ := h
  refine ⟨fun part due => ?_, fun part pre later split due q member => ?_⟩
  · rw [sentOf_headersOf]
    exact counter part due
  · rw [sentOf_headersOf]
    exact order part pre later split due q member

theorem Headed.phase {socket₀ : CameraSocket} {s s' : Relay} {id : ClientId} {flags : HeaderPart → Bool}
    {content : HeaderPart → List UInt8} {cur : Option HeaderPart} (h : Headed socket₀ s id flags content cur)
    {v : ViewerInfo} (viewer : s.viewer id = some v) (first : v.sendFirst = true) {c : Cameras} {t : SendState}
    {goesOn : Prop} (sent : PhaseSent (s.owed socket₀) s.packets.length (headersOf (s.log id)) c goesOn t)
    (now : ∀ q : HeaderPart, q.present c = true → (q.owed (streamHeader socket₀) s.packets).isSome)
    (viewer' : ∀ v', s'.viewer id = some v' → v' = t.viewer ∧ goesOn)
    (log : s'.log id = s.log id ++ stamp s.packets.length t.writes) (received : s'.packets = s.packets) :
    ∃ content' cur', Headed socket₀ s' id (todo t.viewer) content' cur' := by
  obtain ⟨_, clocks, _, connected⟩ := h
  obtain ⟨_, headers⟩ := (connected v viewer).2.1 first
  obtain ⟨content', cur', progress, stage⟩ := sent
  have owed : s'.owed socket₀ = s.owed socket₀ := by
    funext clock part
    rw [Relay.owed, received, ← Relay.owed]
  refine ⟨content', cur', ?_, ?_, ?_, ?_⟩
  · rw [log, headersOf_append, owed]
    exact progress
  · rw [log, received]
    intro e member
    rcases List.mem_append.mp member with old | new
    · exact clocks e old
    · exact Nat.le_of_eq (stamp_clock new)
  · rw [log, headersOf_append, owed]
    rintro ⟨e, member, tag⟩
    rcases stage with ⟨_, plain, _⟩ | ⟨_, none_, ended⟩
    · rcases List.mem_append.mp member with old | new
      · rw [headers e old] at tag
        cases tag
      · obtain ⟨w, inside, rfl⟩ := List.mem_map.mp new
        rw [plain w inside] at tag
        cases tag
    · exact ⟨none_, ended⟩
  · intro v' found
    obtain ⟨rfl, goes⟩ := viewer' v' found
    rw [log, headersOf_append, owed, received]
    refine ⟨rfl, ?_, ?_⟩
    · intro still
      rcases stage with ⟨_, plain, due⟩ | ⟨passed, _⟩
      · obtain ⟨part, present, flag⟩ := due goes
        refine ⟨⟨part, flag, now part present⟩, fun e member => ?_⟩
        rcases List.mem_append.mp member with old | new
        · exact headers e old
        · obtain ⟨w, inside, rfl⟩ := List.mem_map.mp new
          exact plain w inside
      · rw [passed] at still
        cases still
    · intro passed
      rcases stage with ⟨still, _⟩ | ⟨_, none_, ended⟩
      · rw [passed] at still
        cases still
      · exact ⟨none_, ended⟩

theorem Headed.past {socket₀ : CameraSocket} {s s' : Relay} {id : ClientId} {flags : HeaderPart → Bool}
    {content : HeaderPart → List UInt8} {cur : Option HeaderPart} (h : Headed socket₀ s id flags content cur)
    {v : ViewerInfo} (viewer : s.viewer id = some v) (past : v.sendFirst = false) {t : SendState}
    (tags : ∀ w ∈ t.writes, ∃ t, w.item = .tag t) (sameFlags : todo t.viewer = todo v)
    (still : t.viewer.sendFirst = false) (viewer' : ∀ v', s'.viewer id = some v' → v' = t.viewer)
    (log : s'.log id = s.log id ++ stamp s.packets.length t.writes) (received : s'.packets = s.packets) :
    Headed socket₀ s' id flags content cur := by
  obtain ⟨progress, clocks, _, connected⟩ := h
  obtain ⟨todo_, _, passed⟩ := connected v viewer
  have owed : s'.owed socket₀ = s.owed socket₀ := by
    funext clock part
    rw [Relay.owed, received, ← Relay.owed]
  have headers : headersOf (s'.log id) = headersOf (s.log id) := by
    rw [log, headersOf_append, headersOf_tags tags, List.append_nil]
  refine ⟨?_, ?_, ?_, ?_⟩
  · rw [headers, owed]
    exact progress
  · rw [log, received]
    intro e member
    rcases List.mem_append.mp member with old | new
    · exact clocks e old
    · exact Nat.le_of_eq (stamp_clock new)
  · rw [headers, owed]
    exact fun _ => passed past
  · intro v' found
    obtain rfl := viewer' v' found
    rw [headers, owed]
    refine ⟨sameFlags.trans todo_, fun first => ?_, fun _ => passed past⟩
    rw [still] at first
    cases first

theorem sendTagsCb_past {c : Cameras} {v : ViewerInfo} {http : Nat} {socket : List Socket.WriteEvent} {f : Feed}
    {t : SendState} (matched : Matches v f) (on : v.watcherActive = true) (past : v.sendFirst = false)
    (ended : sendTagsCb c v http socket = .returned t ∨ sendTagsCb c v http socket = .deleted t) :
    (∀ w ∈ t.writes, ∃ t, w.item = .tag t) ∧ todo t.viewer = todo v ∧ t.viewer.sendFirst = false := by
  have called : sendTagsCb c v http socket = sendTopTag ⟨c, v, http, socket, []⟩ := by
    unfold sendTagsCb sendHeaders
    dsimp only
    rw [on, past]
    rfl
  obtain ⟨t', f', outcome, _, ⟨ws, writes, _, tags⟩, _, _, sendFirst, flags⟩ :=
    sendTopTag_sends (s := ⟨c, v, http, socket, []⟩) matched
  have facts : (∀ w ∈ t'.writes, ∃ t, w.item = .tag t) ∧ todo t'.viewer = todo v ∧ t'.viewer.sendFirst = false := by
    refine ⟨?_, funext flags, sendFirst.trans past⟩
    rw [writes]
    exact tags
  rw [called] at ended
  rcases outcome with ⟨returned, _⟩ | deleted
  · rw [returned] at ended
    rcases ended with ended | ended <;> cases ended
    exact facts
  · rw [deleted] at ended
    rcases ended with ended | ended <;> cases ended
    exact facts

theorem Headed.step {socket₀ : CameraSocket} {s s' : Relay} {e : Relay.Event} {id : ClientId}
    {flags : HeaderPart → Bool} {content : HeaderPart → List UInt8} {cur : Option HeaderPart}
    (h : Headed socket₀ s id flags content cur) (sound : Sound socket₀ s) (own : OwnsProgress id s e)
    (next : s.step e = some s') : ∃ flags' content' cur', Headed socket₀ s' id flags' content' cur' := by
  cases step_viewer sound next id with
  | quiet packets viewer log received =>
    refine ⟨flags, content, cur, h.quiet received log fun v' found => ?_⟩
    rcases viewer with same | gone
    · exact ⟨v', same ▸ found, rfl, rfl⟩
    · rw [gone] at found
      cases found
  | @pushed c v v' isKeyFrame packet camera viewer viewer' kind media pushed log received =>
    refine ⟨flags, content, cur, h.quiet received log fun u found => ?_⟩
    obtain rfl := Option.some.inj (viewer'.symm.trans found)
    obtain ⟨first, same⟩ := pushToViewer_flags pushed
    exact ⟨v, viewer, funext same, first⟩
  | joined viewer' log received =>
    exact ⟨_, _, _, Headed.joined log fun v found => Option.some.inj (found.symm.trans viewer')⟩
  | @sent c v t socket camera viewer outcome log received =>
    obtain ⟨f, matched⟩ := sound.queues id v viewer
    cases on : v.watcherActive with
    | false =>
      rcases outcome with ⟨called, viewer'⟩ | ⟨called, _⟩
      · rw [sendTagsCb_idle on] at called
        cases called
        refine ⟨flags, content, cur, h.quiet (received.trans (List.append_nil _).symm) (by simpa using log)
          fun u found => ?_⟩
        obtain rfl := Option.some.inj (viewer'.symm.trans found)
        exact ⟨_, viewer, rfl, rfl⟩
      · rw [sendTagsCb_idle on] at called
        cases called
    | true =>
      cases first : v.sendFirst with
      | false =>
        obtain ⟨tags, same, still⟩ := sendTagsCb_past matched on first (outcome.imp And.left And.left)
        refine ⟨flags, content, cur, h.past viewer first tags same still (fun u found => ?_) log received⟩
        rcases outcome with ⟨_, viewer'⟩ | ⟨_, viewer'⟩
        · exact Option.some.inj (found.symm.trans viewer')
        · rw [viewer'] at found
          cases found
      | true =>
        have some_ := sound.active id v viewer on
        have owes := sound.owed camera some_
        have present : ∀ q : HeaderPart, (q.owed (streamHeader socket₀) s.packets).isSome ↔ q.present c = true := by
          intro q
          rw [owes q]
          by_cases there : q.present c = true <;> simp [there]
        obtain ⟨same, pending, _⟩ := h.viewer v viewer
        obtain ⟨⟨part, due, owed⟩, _⟩ := pending first
        have phase := @sendTagsCb_phase (s.owed socket₀) s.packets.length (headersOf (s.log id)) c
          s.sentHttpResponseBytes v socket f matched on first (sound.counters c camera)
          (own rfl c v camera viewer on first).headers
          ⟨fun q => by rw [Relay.owed, List.take_length, owes q], fun e member q was => by
            rw [Relay.owed, List.take_length, ← List.take_append_drop e.clock s.packets]
            exact HeaderPart.owed_mono _ was⟩
          ⟨content, cur, by rw [same]; exact h.progress⟩ ⟨part, (present part).mp owed, by rw [same]; exact due⟩ t
        rcases outcome with ⟨called, viewer'⟩ | ⟨called, viewer'⟩
        · obtain ⟨content', cur', headed⟩ := h.phase viewer first (phase.1 called) (fun q => (present q).mpr)
            (fun u found => ⟨Option.some.inj (found.symm.trans viewer'), trivial⟩) log received
          exact ⟨_, content', cur', headed⟩
        · obtain ⟨content', cur', headed⟩ := h.phase viewer first (phase.2 called) (fun q => (present q).mpr)
            (fun u found => by rw [viewer'] at found; cases found) log received
          exact ⟨_, content', cur', headed⟩

theorem run_headed {viewersLimit : Nat} {socket₀ : CameraSocket} {s : Relay} {id : ClientId}
    (run : Relay.Run (OwnsProgress id) viewersLimit socket₀ s) :
    ∃ flags content cur, Headed socket₀ s id flags content cur := by
  refine run.invariant_with (K := Sound socket₀) (I := fun s =>
    ∃ flags content cur, Headed socket₀ s id flags content cur)
    (fun s => run_sound) ?_ ?_
  · exact ⟨_, _, _, Headed.joined rfl fun v found => by cases found⟩
  · rintro s e s' sound ⟨flags, content, cur, headed⟩ own next
    exact headed.step sound own next

/-- A viewer's stream begins with the stream headers: each at most once and in the order of the phase,
with the content that the channel had when it was written, and once a tag has been written all of
them are whole and they are those that the channel had at the last of these writes. Every write goes
on where this viewer's own last write of the part ended. -/
structure HeadersInOrder (socket₀ : CameraSocket) (packets : List (List UInt8)) (log : List Entry) : Prop where
  behind : ∃ hs ts, log = hs ++ ts ∧ (∀ e ∈ hs, e.write.item.isTag = false) ∧ ∀ e ∈ ts, e.write.item.isTag = true
  headers : ∃ parts : List (HeaderPart × List UInt8), (parts.map Prod.fst).Sublist HeaderPart.order ∧
    (∀ x ∈ parts, ∃ e ∈ headersOf log, e.write.item = .header x.1 x.2 ∧
      x.1.owed (streamHeader socket₀) (packets.take e.clock) = some x.2) ∧
    bytesOf (headersOf log) <+: (parts.map Prod.snd).flatten ∧
    ((∃ e ∈ log, e.write.item.isTag = true) → bytesOf (headersOf log) = (parts.map Prod.snd).flatten ∧
      ∃ last, (headersOf log).getLast? = some last ∧ ∀ part, part ∈ parts.map Prod.fst ↔
        (part.owed (streamHeader socket₀) (packets.take last.clock)).isSome)
  own : ∀ pre e post, headersOf log = pre ++ e :: post → ∀ part buffer, e.write.item = .header part buffer →
    e.write.start = (sentOf part pre).length

theorem Progress.sublist {owed : Nat → HeaderPart → Option (List UInt8)} {hs : List Entry} {flags : HeaderPart → Bool}
    {content : HeaderPart → List UInt8} {cur : Option HeaderPart} (h : Progress owed hs flags content cur) :
    (HeaderPart.order.filter (!flags ·) ++ cur.toList).Sublist HeaderPart.order := by
  cases cur with
  | none => simp
  | some part =>
    obtain ⟨due, _, later⟩ := h.current part rfl
    rw [Option.toList_some, ← order_filter_update due later]
    exact List.filter_sublist

/-- In every run in which the shared counters are the viewer's own whenever it is called in its header
phase, its stream begins with the stream headers. -/
theorem run_headers_in_order {viewersLimit : Nat} {socket₀ : CameraSocket} {s : Relay} {id : ClientId}
    (run : Relay.Run (OwnsProgress id) viewersLimit socket₀ s) : HeadersInOrder socket₀ s.packets (s.log id) := by
  obtain ⟨f, hs, ts, fed⟩ : ∃ f hs ts, FedBy (fun _ _ => True) s id f hs ts :=
    run_fed (fun _ _ _ _ _ _ _ _ _ _ _ => trivial) (fun _ _ => trivial) run
  obtain ⟨headers, media⟩ := fed.isTag
  obtain ⟨flags, content, cur, headed⟩ := run_headed run
  have progress := headed.progress
  set done := HeaderPart.order.filter (!flags ·) with done_eq
  have contents : (((done ++ cur.toList).map fun part => (part, content part)).map Prod.snd).flatten =
      done.flatMap content ++ (cur.toList.map content).flatten := by
    rw [List.map_map, List.map_append, List.flatten_append]
    rfl
  have names : ((done ++ cur.toList).map fun part => (part, content part)).map Prod.fst = done ++ cur.toList := by
    rw [List.map_map]
    exact List.map_id _
  refine ⟨⟨hs, ts, fed.log, headers, media⟩,
    ⟨(done ++ cur.toList).map fun part => (part, content part), ?_, ?_, ?_, ?_⟩, progress.starts⟩
  · rw [names]
    exact progress.sublist
  · intro x member
    obtain ⟨part, inside, rfl⟩ := List.mem_map.mp member
    apply progress.origin
    rcases List.mem_append.mp inside with old | new
    · exact .inl (by simpa using (List.mem_filter.mp old).2)
    · exact .inr (Option.mem_toList.mp new)
  · rw [contents, progress.bytes, List.prefix_append_right_inj]
    cases cur with
    | none => exact List.nil_prefix
    | some part => simpa using (progress.current part rfl).2.1
  · intro some_
    obtain ⟨rfl, last, at_, all⟩ := headed.media some_
    refine ⟨by rw [contents, progress.bytes]; rfl, last, at_, fun part => ?_⟩
    rw [names, Option.toList_none, List.append_nil, done_eq, List.mem_filter]
    have inOrder : part ∈ HeaderPart.order := by cases part <;> decide
    rw [← Relay.owed, ← all part]
    simp [inOrder]

theorem run_headers_in_order_sample :
    ∃ s : Relay, HeadersInOrder (sampleCamera [sampleKeyFrame]) s.packets (s.log 7) ∧
      s.log 7 = [⟨1, ⟨.header .httpResponse httpResponse, 0, httpResponse⟩⟩,
        ⟨1, ⟨.header .flvHeader sampleHeader, 0, sampleHeader.take 5⟩⟩] := by
  have joined : Relay.Run (OwnsProgress 7) 5 (sampleCamera [sampleKeyFrame]) _ :=
    .tail (e := .join 7) .refl trivial rfl
  have received : Relay.Run (OwnsProgress 7) 5 (sampleCamera [sampleKeyFrame]) _ :=
    .tail (e := .receive) joined trivial rfl
  have sent : Relay.Run (OwnsProgress 7) 5 (sampleCamera [sampleKeyFrame]) _ :=
    .tail (e := .send 7 [.accept 99, .accept 4]) received (by
      rintro - c v camera viewer - -
      cases camera
      cases viewer
      exact .fresh (by intro part; cases part <;> rfl) (by intro part; cases part <;> rfl)) rfl
  exact ⟨_, run_headers_in_order sent, rfl⟩

/-- Two viewers in their header phase: the first is sent 5 bytes of the stream header, and the second
the rest. -/
def sharedEvents : List Relay.Event :=
  [.join 7, .join 8, .receive, .send 7 [.accept 99, .accept 4, .eagain],
    .send 8 [.accept 99, .accept 99, .accept 99]]

def sharedLog : List Entry :=
  [⟨1, ⟨.header .httpResponse httpResponse, 0, httpResponse⟩⟩,
    ⟨1, ⟨.header .flvHeader sampleHeader, 5, sampleHeader.drop 5⟩⟩,
    ⟨1, ⟨.tag ⟨true, sampleKeyFrame, 0⟩, 0, sampleKeyFrame⟩⟩]

theorem sharedEvents_log :
    (Transition.exec Relay.step (.start 5 (sampleCamera [sampleKeyFrame])) sharedEvents).map
      (fun s => (s.packets, s.log 8)) = some ([sampleKeyFrame], sharedLog) := by
  decide

theorem shared_counter_truncates_header :
    ¬∀ viewersLimit socket₀ s, Relay.Run (fun _ _ => True) viewersLimit socket₀ s →
      ∀ id, HeadersInOrder socket₀ s.packets (s.log id) := by
  intro always
  obtain ⟨s, ran, result⟩ := Option.map_eq_some_iff.mp sharedEvents_log
  obtain ⟨packets, log⟩ := Prod.mk.inj result
  obtain ⟨_, ⟨parts, _, origin, _, whole⟩, _⟩ :=
    always 5 _ s (Transition.reach_of_exec .refl (fun _ _ _ => trivial) ran) 8
  rw [log, packets] at whole
  obtain ⟨bytes, last, at_, owed⟩ := whole (by decide)
  obtain rfl : (⟨1, ⟨.header .flvHeader sampleHeader, 5, sampleHeader.drop 5⟩⟩ : Entry) = last :=
    Option.some.inj at_
  have content : ∀ x ∈ parts, ∃ n, x.1.owed (streamHeader (sampleCamera [sampleKeyFrame]))
    (s.packets.take n) = some x.2 := by
    intro x member
    obtain ⟨e, _, _, was⟩ := origin x member
    exact ⟨e.clock, was⟩
  -- The HTTP response and the stream header are both owed, and they are longer than what was sent.
  obtain ⟨x, first, isResponse⟩ := List.mem_map.mp ((owed .httpResponse).mpr rfl)
  obtain ⟨y, second, isHeader⟩ := List.mem_map.mp ((owed .flvHeader).mpr rfl)
  obtain ⟨_, response⟩ := content x first
  obtain ⟨_, header⟩ := content y second
  rw [isResponse] at response
  rw [isHeader] at header
  have long : x.2.length = 45 := by rw [← Option.some.inj response]; decide
  have long' : y.2.length = 13 := by rw [← Option.some.inj header]; decide
  have short : (bytesOf (headersOf sharedLog)).length = 53 := by decide
  obtain ⟨before, after, rfl⟩ := List.append_of_mem first
  have other : y ∈ before ++ after := by
    rcases List.mem_append.mp second with left | right
    · exact List.mem_append_left _ left
    · rcases List.mem_cons.mp right with rfl | right
      · rw [isResponse] at isHeader
        cases isHeader
      · exact List.mem_append_right _ right
  obtain ⟨before', after', split⟩ := List.append_of_mem other
  have total := congrArg (fun l => (l.map fun z : HeaderPart × List UInt8 => z.2.length).sum) split
  rw [bytes] at short
  simp only [List.map_append, List.map_cons, List.sum_append, List.sum_cons, List.length_flatten, List.map_map,
    Function.comp_def] at total short
  omega

end LiveStreaming.Streamer
