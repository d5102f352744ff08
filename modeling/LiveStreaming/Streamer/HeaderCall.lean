import LiveStreaming.Streamer.HeaderProgress

/-!
# A call of `send_tags_cb` in the header phase

How far a viewer is stands in counters of the channel and not of the viewer. As long as these agree with
what the viewer itself has been sent, a call goes on where the last one stopped.
-/

namespace LiveStreaming.Streamer
open Library

/-- The counters of the channel are those of this viewer: for every part still to be sent to it, the
counter is the number of bytes of the part that it has been sent, and no such part comes before one
that has been begun. -/
structure OwnProgress (c : Cameras) (http : Nat) (v : ViewerInfo) (log : List Entry) : Prop where
  counter : ∀ part : HeaderPart, part.Due c v → sentOf part log = (part.buffer c).take (part.sentBytes c http)
  order : ∀ (part : HeaderPart) pre later, HeaderPart.order = pre ++ part :: later → part.Due c v →
    ∀ q ∈ later, sentOf q log = [] ∧ q.notSentDone v = true

theorem OwnProgress.fresh {c : Cameras} {http : Nat} {v : ViewerInfo}
    (counters : ∀ part : HeaderPart, part.sentBytes c http = 0)
    (new : ∀ part : HeaderPart, part.notSentDone v = true) : OwnProgress c http v [] := by
  constructor
  · intro part _
    rw [counters, List.take_zero]
    rfl
  · intro part pre later _ _ q _
    exact ⟨rfl, new q⟩

def todo (v : ViewerInfo) : HeaderPart → Bool := fun part => part.notSentDone v

theorem todo_setDone (v : ViewerInfo) (part : HeaderPart) :
    todo (part.setDone v) = Function.update (todo v) part false := by
  funext q
  cases part <;> cases q <;> rfl

def stamp (clock : Nat) (ws : List Write) : List Entry := ws.map (Entry.mk clock)

theorem stamp_clock {clock : Nat} {ws : List Write} {e : Entry} (member : e ∈ stamp clock ws) : e.clock = clock := by
  obtain ⟨w, _, rfl⟩ := List.mem_map.mp member
  rfl

/-- Between two parts of a call that started with the channel `c`, the viewer `v` and the writes `hs`:
the parts before those to come are done, and for those to come nothing has changed. -/
structure InPhase (owed : Nat → HeaderPart → Option (List UInt8)) (clock : Nat) (hs : List Entry) (c : Cameras)
    (http : Nat) (v : ViewerInfo) (parts : List HeaderPart) (t : SendState) : Prop where
  split : ∃ pre, HeaderPart.order = pre ++ parts
  camera : SameBuffers c t.camera
  bounded : CountersOk t.camera t.sentHttpResponseBytes
  counter : ∀ q ∈ parts, q.sentBytes t.camera t.sentHttpResponseBytes = q.sentBytes c http
  kept : ∀ q ∈ parts, todo t.viewer q = todo v q
  sent : ∀ q ∈ parts, sentOf q (hs ++ stamp clock t.writes) = sentOf q hs
  passed : ∀ q, q ∉ parts → q.present c = true → todo t.viewer q = false
  idle : t.writes = [] → todo t.viewer = todo v
  progress : ∃ content cur, Progress owed (hs ++ stamp clock t.writes) (todo t.viewer) content cur

/-- How a call may leave the header phase. -/
def LeavesPhase (owed : Nat → HeaderPart → Option (List UInt8)) (clock : Nat) (hs : List Entry) (c : Cameras) :
    SendOutcome → Prop
  | .returned t => (∃ part : HeaderPart, part.present c = true ∧ todo t.viewer part = true) ∧
      ∃ content cur, Progress owed (hs ++ stamp clock t.writes) (todo t.viewer) content cur
  | .deleted t => ∃ content cur, Progress owed (hs ++ stamp clock t.writes) (todo t.viewer) content cur
  | _ => True

/-- What the channel owes now is what it holds, and what it owed at an earlier write it still owes. -/
structure Owes (owed : Nat → HeaderPart → Option (List UInt8)) (clock : Nat) (hs : List Entry) (c : Cameras) :
    Prop where
  now : ∀ q : HeaderPart, owed clock q = if q.present c then some (q.buffer c) else none
  since : ∀ e ∈ hs, ∀ q, (owed e.clock q).isSome → (owed clock q).isSome

variable {owed : Nat → HeaderPart → Option (List UInt8)} {clock : Nat} {hs : List Entry} {c : Cameras} {http : Nat}
  {v : ViewerInfo}

theorem Owes.present (owes : Owes owed clock hs c) {q : HeaderPart} (some_ : (owed clock q).isSome) :
    q.present c = true := by
  rw [owes.now] at some_
  by_contra absent
  simp [absent] at some_

theorem Owes.was_owed (owes : Owes owed clock hs c) {ws : List Write} {e : Entry} (member : e ∈ hs ++ stamp clock ws)
    {q : HeaderPart} (was : (owed e.clock q).isSome) : (owed clock q).isSome := by
  rcases List.mem_append.mp member with old | new
  · exact owes.since e old q was
  · rwa [stamp_clock new] at was

theorem order_nodup : HeaderPart.order.Nodup := by decide

theorem order_later_ne {pre later : List HeaderPart} {part : HeaderPart}
    (split : HeaderPart.order = pre ++ part :: later)
    {q : HeaderPart} (member : q ∈ later) : q ≠ part := by
  rintro rfl
  have nodup : (pre ++ q :: later).Nodup := split ▸ order_nodup
  exact (List.nodup_cons.mp nodup.of_append_right).1 member

theorem order_split_unique {pre pre' later later' : List HeaderPart} {part : HeaderPart}
    (split : HeaderPart.order = pre ++ part :: later) (split' : HeaderPart.order = pre' ++ part :: later') :
    later' = later := by
  have nodup : (pre ++ part :: later).Nodup := split ▸ order_nodup
  have notBefore : part ∉ pre := fun member => List.disjoint_of_nodup_append nodup member List.mem_cons_self
  have notBehind : part ∉ later := (List.nodup_cons.mp nodup.of_append_right).1
  exact ((List.append_cons_inj_of_notMem notBefore notBehind).mp (split.symm.trans split')).2.2.symm

theorem wrote_stamp (s : SendState) (part : HeaderPart) (taken : List UInt8) (socket : List Socket.WriteEvent)
    (clock : Nat) (hs : List Entry) :
    hs ++ stamp clock (s.wrote part taken socket).writes = hs ++ stamp clock s.writes ++
      [⟨clock, ⟨.header part (part.buffer s.camera), part.sentBytes s.camera s.sentHttpResponseBytes, taken⟩⟩] := by
  simp [stamp, SendState.wrote]

theorem advance_viewer (part : HeaderPart) (s : SendState) (n : Nat) :
    (part.advance s n).viewer = s.viewer ∧ (part.advance s n).writes = s.writes := by
  cases part <;> exact ⟨rfl, rfl⟩

theorem finish_viewer (part : HeaderPart) (s : SendState) :
    (part.finish s).viewer = part.setDone s.viewer ∧ (part.finish s).writes = s.writes ∧
      (part.finish s).camera = s.camera := by
  cases part <;> exact ⟨rfl, rfl, rfl⟩

theorem finish_sentBytes {part q : HeaderPart} (s : SendState) (other : q ≠ part) :
    q.sentBytes (part.finish s).camera (part.finish s).sentHttpResponseBytes =
      q.sentBytes s.camera s.sentHttpResponseBytes := by
  cases part <;> cases q <;> first | rfl | exact absurd rfl other

theorem InPhase.start {part : HeaderPart} {rest : List HeaderPart} {t : SendState}
    (h : InPhase owed clock hs c http v (part :: rest) t) (own : OwnProgress c http v hs)
    (due : part.Due t.camera t.viewer) : part.Due c v ∧ sentOf part (hs ++ stamp clock t.writes) =
      (part.buffer t.camera).take (part.sentBytes t.camera t.sentHttpResponseBytes) := by
  have dueFirst : part.Due c v :=
    ⟨(h.camera.present part).symm.trans due.1, (h.kept part List.mem_cons_self).symm.trans due.2⟩
  refine ⟨dueFirst, ?_⟩
  rw [h.sent part List.mem_cons_self, own.counter part dueFirst, h.camera.buffer, h.counter part List.mem_cons_self]

/-- A part under way is the one that is due: an earlier one has been done, a later one has not been begun. -/
theorem InPhase.current {part : HeaderPart} {rest : List HeaderPart} {t : SendState}
    (h : InPhase owed clock hs c http v (part :: rest) t) (own : OwnProgress c http v hs)
    (owes : Owes owed clock hs c) (due : part.Due c v) : ∃ content cur, (cur = none ∨ cur = some part) ∧
      Progress owed (hs ++ stamp clock t.writes) (todo t.viewer) content cur := by
  obtain ⟨pre, split⟩ := h.split
  obtain ⟨content, cur, progress⟩ := h.progress
  cases cur with
  | none => exact ⟨content, none, .inl rfl, progress⟩
  | some q =>
    by_cases same : q = part
    · exact ⟨content, some q, .inr (by rw [same]), progress⟩
    obtain ⟨flagged, _, _⟩ := progress.current q rfl
    obtain ⟨e, member, _, was⟩ := progress.origin q (.inr rfl)
    have presentQ : q.present c = true := owes.present (owes.was_owed member (by rw [was]; rfl))
    have inside : q ∈ part :: rest := by
      by_contra outside
      rw [h.passed q outside presentQ] at flagged
      cases flagged
    have inRest : q ∈ rest := (List.mem_cons.mp inside).resolve_left same
    refine ⟨content, none, .inl rfl, progress.forget ?_⟩
    rw [h.sent q inside]
    exact (own.order part pre rest split due q inRest).1

theorem InPhase.write {part : HeaderPart} {rest : List HeaderPart} {t : SendState}
    (h : InPhase owed clock hs c http v (part :: rest) t) (own : OwnProgress c http v hs)
    (owes : Owes owed clock hs c) (due : part.Due t.camera t.viewer) {taken : List UInt8}
    {socket : List Socket.WriteEvent} (cut : taken <+: t.left part) : ∃ content, content part = part.buffer c ∧
      Progress owed (hs ++ stamp clock (t.wrote part taken socket).writes) (todo t.viewer) content (some part) := by
  obtain ⟨dueFirst, start⟩ := h.start own due
  obtain ⟨content, cur, free, progress⟩ := h.current own owes dueFirst
  obtain ⟨pre, split⟩ := h.split
  have later : ∀ pre later, HeaderPart.order = pre ++ part :: later → ∀ q ∈ later, todo t.viewer q = true := by
    intro pre' later split' q member
    have inRest : q ∈ rest := order_split_unique split split' ▸ member
    rw [h.kept q (List.mem_cons_of_mem _ inRest)]
    exact (own.order part _ _ split' dueFirst q member).2
  have owedPart : owed clock part = some (part.buffer t.camera) := by
    rw [owes.now, if_pos dueFirst.1, h.camera.buffer]
  refine ⟨Function.update content part (part.buffer t.camera), ?_, ?_⟩
  · rw [Function.update_self, h.camera.buffer]
  · rw [wrote_stamp]
    exact progress.write due.2 free later start (h.bounded part) cut owedPart

/-- One part of the phase: the invariant goes on to the parts behind it, or the call ends. -/
theorem InPhase.step {part : HeaderPart} {rest : List HeaderPart} {t : SendState}
    {result : Except SendOutcome SendState} (h : InPhase owed clock hs c http v (part :: rest) t)
    (own : OwnProgress c http v hs) (owes : Owes owed clock hs c) (called : HeaderPartSent part t result) :
    EarlyExit.Ends (LeavesPhase owed clock hs c) (InPhase owed clock hs c http v rest) result := by
  obtain ⟨pre, split⟩ := h.split
  have distinct : ∀ q ∈ rest, q ≠ part := fun q member => order_later_ne split member
  have passed : ∀ {flags : HeaderPart → Bool}, (part.present c = true → flags part = false) →
      (∀ q, q ≠ part → flags q = todo t.viewer q) → ∀ q, q ∉ rest → q.present c = true → flags q = false := by
    intro flags done others q outside present
    by_cases same : q = part
    · exact same ▸ done (same ▸ present)
    · rw [others q same]
      exact h.passed q (by simp [same, outside]) present
  cases called with
  | skipped notDue =>
    refine ⟨⟨pre ++ [part], by simp [split]⟩, h.camera, h.bounded, fun q member => h.counter q (.tail _ member),
      fun q member => h.kept q (.tail _ member), fun q member => h.sent q (.tail _ member), ?_, h.idle, h.progress⟩
    refine passed (fun present => ?_) fun _ _ => rfl
    by_contra flag
    have notDone : todo t.viewer part = true := by simpa using flag
    exact notDue ⟨(h.camera.present part).trans present, notDone⟩
  | waiting => trivial
  | deleted due cut =>
    obtain ⟨content, _, progress⟩ := h.write own owes due cut
    exact ⟨content, some part, progress⟩
  | @partly taken socket due cut short =>
    obtain ⟨content, _, progress⟩ := h.write own owes due cut
    obtain ⟨viewer, writes⟩ := advance_viewer part (t.wrote part taken socket) taken.length
    unfold EarlyExit.Ends LeavesPhase
    dsimp only
    rw [viewer, writes]
    exact ⟨⟨part, (h.camera.present part).symm.trans due.1, due.2⟩, content, some part, progress⟩
  | @complete socket due =>
    -- What the viewer had been sent and what is written now make the whole part.
    obtain ⟨content, whole, progress⟩ := h.write own owes due List.prefix_rfl
    obtain ⟨viewer, writes, camera⟩ := finish_viewer part (t.wrote part (t.left part) socket)
    have all : sentOf part (hs ++ stamp clock (t.wrote part (t.left part) socket).writes) = content part := by
      rw [wrote_stamp, sentOf_concat, if_pos rfl, (h.start own due).2, SendState.left, List.take_append_drop, whole,
        h.camera.buffer]
    have finished := progress.finish all
    have flags : todo (part.finish (t.wrote part (t.left part) socket)).viewer =
        Function.update (todo t.viewer) part false := by
      rw [viewer]
      exact todo_setDone _ part
    have bounded : CountersOk (t.wrote part (t.left part) socket).camera
        (t.wrote part (t.left part) socket).sentHttpResponseBytes := h.bounded
    refine ⟨⟨pre ++ [part], by simp [split]⟩, camera ▸ h.camera, bounded.finish, ?_, ?_, ?_, ?_, ?_,
      content, none, ?_⟩
    · intro q member
      rw [finish_sentBytes _ (distinct q member)]
      exact h.counter q (.tail _ member)
    · intro q member
      rw [flags, Function.update_of_ne (distinct q member)]
      exact h.kept q (.tail _ member)
    · intro q member
      rw [writes, wrote_stamp, sentOf_concat, if_neg (distinct q member)]
      exact h.sent q (.tail _ member)
    · refine passed (fun _ => ?_) fun q other => ?_
      · rw [flags, Function.update_self]
      · rw [flags, Function.update_of_ne other]
    · intro none_
      rw [writes] at none_
      simp [SendState.wrote] at none_
    · rw [flags, writes]
      exact finished

/-- The header phase is over: the viewer has been sent what it was owed at the time of the last write. -/
def Ended (owed : Nat → HeaderPart → Option (List UInt8)) (hs : List Entry) (flags : HeaderPart → Bool) : Prop :=
  ∃ last, hs.getLast? = some last ∧ ∀ part, flags part = false ↔ (owed last.clock part).isSome

/-- Behind the last part nothing is under way, and what the channel has has been sent. A part was due, so
the last write is one of this call. -/
theorem InPhase.ends {t : SendState} (h : InPhase owed clock hs c http v [] t) (owes : Owes owed clock hs c)
    (due : ∃ part : HeaderPart, part.present c = true ∧ todo v part = true) :
    ∃ content, Progress owed (hs ++ stamp clock t.writes) (todo t.viewer) content none ∧
      Ended owed (hs ++ stamp clock t.writes) (todo t.viewer) := by
  obtain ⟨content, cur, progress⟩ := h.progress
  have doneOf : ∀ q : HeaderPart, q.present c = true → todo t.viewer q = false :=
    fun q present => h.passed q (by simp) present
  have noCur : cur = none := by
    cases cur with
    | none => rfl
    | some q =>
      obtain ⟨flag, _⟩ := progress.current q rfl
      obtain ⟨e, member, _, was⟩ := progress.origin q (.inr rfl)
      rw [doneOf q (owes.present (owes.was_owed member (by rw [was]; rfl)))] at flag
      cases flag
  refine ⟨content, noCur ▸ progress, ?_⟩
  obtain ⟨part, present, flag⟩ := due
  rcases List.eq_nil_or_concat' t.writes with none_ | ⟨before, last, writes⟩
  · rw [← h.idle none_, doneOf part present] at flag
    cases flag
  · refine ⟨⟨clock, last⟩, by simp [writes, stamp], fun q => ⟨fun done => ?_, fun some_ => ?_⟩⟩
    · obtain ⟨e, member, _, was⟩ := progress.origin q (.inl done)
      exact owes.was_owed member (by rw [was]; rfl)
    · exact doneOf q (owes.present some_)

theorem headersOf_append (log log' : List Entry) : headersOf (log ++ log') = headersOf log ++ headersOf log' :=
  List.filter_append ..

theorem headersOf_headers {clock : Nat} {ws : List Write}
    (headers : ∀ w ∈ ws, ∃ part buffer, w.item = .header part buffer) :
    headersOf (stamp clock ws) = stamp clock ws := by
  apply List.filter_eq_self.mpr
  intro e member
  obtain ⟨w, inside, rfl⟩ := List.mem_map.mp member
  obtain ⟨part, buffer, item⟩ := headers w inside
  simp [item, Item.isTag]

theorem headersOf_tags {clock : Nat} {ws : List Write} (tags : ∀ w ∈ ws, ∃ t, w.item = .tag t) :
    headersOf (stamp clock ws) = [] := by
  apply List.filter_eq_nil_iff.mpr
  intro e member
  obtain ⟨w, inside, rfl⟩ := List.mem_map.mp member
  obtain ⟨t, item⟩ := tags w inside
  simp [item, Item.isTag]

/-- What a call in the header phase leaves behind. -/
def PhaseSent (owed : Nat → HeaderPart → Option (List UInt8)) (clock : Nat) (hs : List Entry) (c : Cameras)
    (goesOn : Prop) (t : SendState) : Prop :=
  ∃ content cur, Progress owed (hs ++ headersOf (stamp clock t.writes)) (todo t.viewer) content cur ∧
    ((t.viewer.sendFirst = true ∧ (∀ w ∈ t.writes, w.item.isTag = false) ∧
        (goesOn → ∃ part : HeaderPart, part.present c = true ∧ todo t.viewer part = true)) ∨
      (t.viewer.sendFirst = false ∧ cur = none ∧
        Ended owed (hs ++ headersOf (stamp clock t.writes)) (todo t.viewer)))

theorem HeaderFrame.headers {socket : List Socket.WriteEvent} {t : SendState}
    (frame : HeaderFrame ⟨c, v, http, socket, []⟩ t) : ∀ w ∈ t.writes, ∃ part buffer, w.item = .header part buffer := by
  obtain ⟨ws, writes, headers⟩ := frame.writes
  rw [List.nil_append] at writes
  exact writes ▸ headers

theorem PhaseSent.left {socket : List Socket.WriteEvent} {t : SendState} {goesOn : Prop}
    (frame : HeaderFrame ⟨c, v, http, socket, []⟩ t) (first : v.sendFirst = true)
    {content : HeaderPart → List UInt8} {cur : Option HeaderPart}
    (progress : Progress owed (hs ++ stamp clock t.writes) (todo t.viewer) content cur)
    (due : goesOn → ∃ part : HeaderPart, part.present c = true ∧ todo t.viewer part = true) :
    PhaseSent owed clock hs c goesOn t := by
  refine ⟨content, cur, ?_, .inl ⟨frame.sendFirst.trans first, fun w member => ?_, due⟩⟩
  · rw [headersOf_headers frame.headers]
    exact progress
  · obtain ⟨part, buffer, item⟩ := frame.headers w member
    rw [item]
    rfl

theorem PhaseSent.passed {u t : SendState} {f f' : Feed} {goesOn : Prop}
    (headers : ∀ w ∈ u.writes, ∃ part buffer, w.item = .header part buffer)
    (sent : TagSent { u with viewer := { u.viewer with sendFirst := false } } f t f')
    {content : HeaderPart → List UInt8}
    (progress : Progress owed (hs ++ stamp clock u.writes) (todo u.viewer) content none)
    (ended : Ended owed (hs ++ stamp clock u.writes) (todo u.viewer)) : PhaseSent owed clock hs c goesOn t := by
  obtain ⟨_, ⟨ws, writes, _, tags⟩, _, _, sendFirst, flags⟩ := sent
  have sameHeaders : headersOf (stamp clock t.writes) = stamp clock u.writes := by
    calc headersOf (stamp clock t.writes)
      _ = headersOf (stamp clock u.writes ++ stamp clock ws) := by rw [writes, stamp, List.map_append]; rfl
      _ = stamp clock u.writes := by
        rw [headersOf_append, headersOf_tags tags, headersOf_headers headers, List.append_nil]
  have sameFlags : todo t.viewer = todo u.viewer := by
    funext q
    refine (flags q).trans ?_
    cases q <;> rfl
  rw [PhaseSent, sameHeaders, sameFlags]
  exact ⟨content, none, progress, .inr ⟨sendFirst, rfl, ended⟩⟩

theorem sendTagsCb_phase {socket : List Socket.WriteEvent} {f : Feed} (matched : Matches v f)
    (on : v.watcherActive = true) (first : v.sendFirst = true) (bounded : CountersOk c http)
    (own : OwnProgress c http v hs) (owes : Owes owed clock hs c)
    (progress : ∃ content cur, Progress owed hs (todo v) content cur)
    (due : ∃ part : HeaderPart, part.present c = true ∧ todo v part = true) {t : SendState} :
    (sendTagsCb c v http socket = .returned t → PhaseSent owed clock hs c True t) ∧
      (sendTagsCb c v http socket = .deleted t → PhaseSent owed clock hs c False t) := by
  have begin_ : InPhase owed clock hs c http v HeaderPart.order ⟨c, v, http, socket, []⟩ :=
    ⟨⟨[], rfl⟩, .refl c, bounded, fun _ _ => rfl, fun _ _ => rfl, fun q _ => by simp [stamp],
      fun q outside => absurd (by cases q <;> decide) outside, fun _ => rfl, by simpa [stamp] using progress⟩
  have phase := sendHeaders_rule
    (I := fun parts t => HeaderFrame ⟨c, v, http, socket, []⟩ t ∧ InPhase owed clock hs c http v parts t)
    (Q := fun
      | .returned t => HeaderFrame ⟨c, v, http, socket, []⟩ t ∧ LeavesPhase owed clock hs c (.returned t)
      | .deleted t => HeaderFrame ⟨c, v, http, socket, []⟩ t ∧ LeavesPhase owed clock hs c (.deleted t)
      | _ => True)
    (fun part rest s result before called => by
      have frame := called.frame
      have step := before.2.step own owes called
      cases result with
      | ok s' => exact ⟨before.1.trans frame, step⟩
      | error outcome =>
        cases outcome with
        | returned s' => exact ⟨before.1.trans frame, step⟩
        | deleted s' => exact ⟨before.1.trans frame, step⟩
        | waiting => trivial
        | fault => trivial) first ⟨.refl _, begin_⟩
  unfold sendTagsCb
  rw [on]
  dsimp only
  cases result : sendHeaders ⟨c, v, http, socket, []⟩ with
  | error outcome =>
    rw [result] at phase
    constructor
    · rintro rfl
      obtain ⟨frame, due', content, cur, progress'⟩ := phase
      exact .left frame first progress' fun _ => due'
    · rintro rfl
      obtain ⟨frame, content, cur, progress'⟩ := phase
      exact .left frame first progress' False.elim
  | ok w =>
    rw [result] at phase
    obtain ⟨u, ⟨frame, inPhase⟩, rfl⟩ := phase
    obtain ⟨content, progress', ended⟩ := inPhase.ends owes due
    obtain ⟨t', f', outcome, sent⟩ := sendTopTag_sends
      (s := { u with viewer := { u.viewer with sendFirst := false } }) (f := f)
      ⟨frame.viewerQueue ▸ matched.queue, frame.sendKeyFrameFirst.trans matched.waits⟩
    have final : ∀ goesOn, PhaseSent owed clock hs c goesOn t' :=
      fun goesOn => .passed frame.headers sent progress' ended
    dsimp only
    rw [if_pos rfl]
    rcases outcome with ⟨returned, _⟩ | deleted
    · rw [returned]
      constructor
      · rintro ⟨⟩
        exact final True
      · intro other
        cases other
    · rw [deleted]
      constructor
      · intro other
        cases other
      · rintro ⟨⟩
        exact final False

end LiveStreaming.Streamer
