import LiveStreaming.Streamer.SendTags

/-!
# The feed of one viewer

A feed is what the tag phase makes of a viewer: a bounded FIFO list whose head is sent in pieces,
preceded by the wait for a key frame. The queue and the flags of a viewer refine it.
-/

namespace LiveStreaming.Streamer
open Library

/-- A viewer's tags: those queued, those ever pushed, and the writes that sent them. -/
structure Feed where
  queue : List FlvTagFrame
  waitsForKey : Bool
  pushed : List FlvTagFrame
  writes : List Write

namespace Feed

def new : Feed := ⟨[], true, [], []⟩

inductive Event where
  | push (flvTag : FlvTagFrame)
  /-- The kernel would take `n` more bytes. -/
  | send (n : Nat)

def push (f : Feed) (t : FlvTagFrame) : Feed :=
  { f with queue := Fifo.pushTag f.queue t, pushed := f.pushed ++ [{ t with sentBytes := 0 }] }

/-- Send the next `n` bytes of the head, or skip it while the feed waits for a key frame. -/
def send (f : Feed) (n : Nat) : Feed :=
  match f.queue with
  | [] => f
  | t :: rest =>
    if f.waitsForKey && !t.isKeyFrame then { f with queue := rest }
    else if t.dataSize ≠ t.sentBytes then
      let left := t.tag.drop t.sentBytes
      let writes := f.writes ++ [⟨.tag t, t.sentBytes, left.take n⟩]
      if left.length ≤ n then { f with queue := rest, waitsForKey := false, writes }
      else { f with queue := { t with sentBytes := t.sentBytes + n } :: rest, writes }
    else { f with queue := rest, waitsForKey := false }

def step (f : Feed) : Event → Feed
  | .push t => f.push t
  | .send n => f.send n

end Feed

/-- The queue and the flag of the viewer are those of the feed. -/
structure Matches (v : ViewerInfo) (f : Feed) : Prop where
  queue : Represents v.viewerQueue f.queue
  waits : v.sendKeyFrameFirst = f.waitsForKey

theorem newViewerInfo_matches (clientFd : ClientId) : Matches (newViewerInfo clientFd) .new :=
  ⟨represents_new, rfl⟩

theorem pushToViewer_matches {v : ViewerInfo} {f : Feed} (h : Matches v f) (t : FlvTagFrame) :
    ∃ v', pushToViewer t v = some v' ∧ Matches v' (f.push t) := by
  obtain ⟨rep, waits⟩ := h
  obtain ⟨q, pushed, rep'⟩ := pushTag_represents rep t
  unfold pushToViewer
  split
  · simp only [Option.bind_eq_bind, pushed, Option.bind_some]
    exact ⟨_, rfl, rep', waits⟩
  · simp only [Option.bind_eq_bind, pushed, Option.bind_some]
    exact ⟨_, rfl, rep', waits⟩

theorem pushToViewer_flags {v v' : ViewerInfo} {t : FlvTagFrame} (pushed : pushToViewer t v = some v') :
    v'.sendFirst = v.sendFirst ∧ ∀ part : HeaderPart, part.notSentDone v' = part.notSentDone v := by
  unfold pushToViewer at pushed
  obtain ⟨q, _, after⟩ := Option.bind_eq_some_iff.mp pushed
  obtain rfl := Option.some.inj after
  constructor
  · split <;> rfl
  · intro part
    cases part <;> (dsimp only [HeaderPart.notSentDone]; split <;> rfl)

theorem setTopSentBytes_represents {q : ViewerQueue} {t : FlvTagFrame} {rest : List FlvTagFrame}
    (rep : Represents q (t :: rest)) (sentBytes : Nat) :
    Represents (setTopSentBytes q sentBytes) ({ t with sentBytes } :: rest) := by
  have ⟨inside, rear⟩ := rep.inRange (by simp)
  have bounded := rep.bounded
  unfold setTopSentBytes
  rw [rep.slot_front]
  constructor
  · exact bounded
  · exact .inr ⟨inside, rear⟩
  · simp [rep.notEmpty]
  · have window := rep.live
    rw [List.length_cons, Ring.window_succ, List.map_cons] at window
    rw [List.length_cons] at bounded
    change Ring.window _ (slotAt (q.flvTags.setIfInBounds q.front _)) q.front _ = _
    have kept := Ring.window_update_front q.slot (some { t with sentBytes }) q.front
      (show rest.length < cachedTagsLimit by omega)
    rw [Nat.mod_eq_of_lt inside] at kept
    rw [slotAt_set _ _ inside, List.length_cons, Ring.window_succ, Nat.mod_eq_of_lt inside, Function.update_self,
      List.map_cons]
    exact congrArg _ (kept.trans (List.cons.inj window).2)

/-- What the tag phase may change, told with the feed. -/
structure TagSent (s : SendState) (f : Feed) (s' : SendState) (f' : Feed) : Prop where
  step : f' = f ∨ ∃ n, f' = f.send n
  writes : ∃ ws, s'.writes = s.writes ++ ws ∧ f'.writes = f.writes ++ ws ∧ ∀ w ∈ ws, ∃ t, w.item = .tag t
  camera : s'.camera = s.camera
  sentHttpResponseBytes : s'.sentHttpResponseBytes = s.sentHttpResponseBytes
  sendFirst : s'.viewer.sendFirst = s.viewer.sendFirst
  flags : ∀ part : HeaderPart, part.notSentDone s'.viewer = part.notSentDone s.viewer

theorem popTag_pops {s : SendState} {t : FlvTagFrame} {rest : List FlvTagFrame}
    (rep : Represents s.viewer.viewerQueue (t :: rest)) :
    ∃ q, popTag s = some { s with viewer := { s.viewer with viewerQueue := q } } ∧ Represents q rest := by
  obtain ⟨q, popped, rep'⟩ := viewerQueuePop_represents rep
  exact ⟨q, by simp only [popTag, Option.bind_eq_bind, popped]; rfl, rep'⟩

theorem sendTopTag_sends {s : SendState} {f : Feed} (h : Matches s.viewer f) :
    ∃ s' f', ((sendTopTag s = .returned s' ∧ Matches s'.viewer f') ∨ sendTopTag s = .deleted s') ∧
      TagSent s f s' f' := by
  obtain ⟨rep, waits⟩ := h
  unfold sendTopTag
  have top := viewerQueueTop_eq rep
  cases queue : f.queue with
  | nil =>
    rw [queue] at rep
    rw [if_pos (show viewerQueueEmpty s.viewer.viewerQueue = true from rep.emptyFlag.mpr rfl)]
    exact ⟨_, f, .inl ⟨rfl, queue ▸ rep, waits⟩,
      ⟨.inl rfl, ⟨[], by simp⟩, rfl, rfl, rfl, fun part => by cases part <;> rfl⟩⟩
  | cons t rest =>
    rw [queue] at rep top
    have notEmpty : viewerQueueEmpty s.viewer.viewerQueue = false := rep.notEmpty (by simp)
    obtain ⟨q, popped, rep'⟩ := popTag_pops rep
    simp only [notEmpty, Bool.false_eq_true, if_false, top, List.head?_cons, waits]
    by_cases skipped : (f.waitsForKey && !t.isKeyFrame) = true
    · have sent : f.send 0 = { f with queue := rest } := by
        simp only [Feed.send, queue, skipped, if_true]
      rw [if_pos skipped, popped]
      exact ⟨_, f.send 0, .inl ⟨rfl, sent ▸ rep', sent ▸ waits⟩,
        ⟨.inr ⟨0, rfl⟩, ⟨[], by simp [sent]⟩, rfl, rfl, rfl, fun part => by cases part <;> rfl⟩⟩
    rw [if_neg skipped]
    by_cases unfinished : t.dataSize ≠ t.sentBytes
    · rw [if_pos unfinished]
      obtain ⟨cut, ret⟩ := writeSpecifySize_spec (t.tag.drop t.sentBytes) s.socket
      generalize writeSpecifySize (t.tag.drop t.sentBytes) s.socket = r at cut ret
      have taken : (t.tag.drop t.sentBytes).take r.taken.length = r.taken := (List.prefix_iff_eq_take.mp cut).symm
      have left : t.dataSize - t.sentBytes = (t.tag.drop t.sentBytes).length := by
        rw [List.length_drop, FlvTagFrame.dataSize]
      have fits := cut.length_le
      have writes : (f.send r.taken.length).writes = f.writes ++ [⟨.tag t, t.sentBytes, r.taken⟩] := by
        simp only [Feed.send, queue, skipped, if_false, if_pos unfinished, taken, Bool.false_eq_true]
        split <;> rfl
      have tagged : ∀ w ∈ [(⟨.tag t, t.sentBytes, r.taken⟩ : Write)], ∃ t, w.item = .tag t := by simp
      rcases ret with failed | sent
      · rw [failed]
        exact ⟨_, f.send r.taken.length, .inr rfl,
          ⟨.inr ⟨_, rfl⟩, ⟨_, rfl, writes, tagged⟩, rfl, rfl, rfl, fun _ => rfl⟩⟩
      rw [sent, left]
      dsimp only
      by_cases short : r.taken.length ≠ (t.tag.drop t.sentBytes).length
      · have after : (f.send r.taken.length).queue = { t with sentBytes := t.sentBytes + r.taken.length } :: rest ∧
            (f.send r.taken.length).waitsForKey = f.waitsForKey := by
          simp only [Feed.send, queue, skipped, if_false, if_pos unfinished, Bool.false_eq_true]
          rw [if_neg (by omega)]
          exact ⟨rfl, rfl⟩
        rw [if_pos short]
        refine ⟨_, f.send r.taken.length, .inl ⟨rfl, ?_, ?_⟩,
          ⟨.inr ⟨_, rfl⟩, ⟨_, rfl, writes, tagged⟩, rfl, rfl, rfl, fun part => by cases part <;> rfl⟩⟩
        · rw [after.1]
          exact setTopSentBytes_represents rep _
        · exact after.2.symm
      · have after : (f.send r.taken.length).queue = rest ∧ (f.send r.taken.length).waitsForKey = false := by
          simp only [Feed.send, queue, skipped, if_false, if_pos unfinished, Bool.false_eq_true]
          rw [if_pos (by omega)]
          exact ⟨rfl, rfl⟩
        rw [if_neg short, sendTopTag.finishTopTag]
        obtain ⟨q, popped, rep'⟩ := popTag_pops (s := { s with
          socket := r.socket, writes := s.writes ++ [⟨.tag t, t.sentBytes, r.taken⟩] }) rep
        rw [popped]
        exact ⟨_, f.send r.taken.length, .inl ⟨rfl, after.1 ▸ rep', after.2.symm⟩,
          ⟨.inr ⟨_, rfl⟩, ⟨_, rfl, writes, tagged⟩, rfl, rfl, rfl, fun part => by cases part <;> rfl⟩⟩
    · have sent : f.send 0 = { f with queue := rest, waitsForKey := false } := by
        simp only [Feed.send, queue, skipped, if_false, if_neg unfinished, Bool.false_eq_true]
      rw [if_neg unfinished, sendTopTag.finishTopTag, popped]
      exact ⟨_, f.send 0, .inl ⟨rfl, sent ▸ rep', sent ▸ rfl⟩,
        ⟨.inr ⟨0, rfl⟩, ⟨[], by simp [sent]⟩, rfl, rfl, rfl, fun part => by cases part <;> rfl⟩⟩

end LiveStreaming.Streamer
