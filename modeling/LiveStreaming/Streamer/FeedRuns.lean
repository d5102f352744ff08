import LiveStreaming.Library.Transition
import LiveStreaming.Streamer.Feed

/-!
# Runs of a feed

In every run of a feed nothing but a key frame is begun before one whole key frame, and as long as
`drop_frame` never takes a head of which a part has been sent the bytes are those of whole tags.
-/

namespace LiveStreaming.Streamer
open Library

abbrev Feed.Run (allowed : Feed → Feed.Event → Prop) : Feed → Prop :=
  Transition.Reach (fun f e => some (f.step e)) allowed .new

namespace Feed

def bytes (f : Feed) : List UInt8 := f.writes.flatMap (·.taken)

def headSent (f : Feed) : List UInt8 :=
  match f.queue with
  | [] => []
  | t :: _ => t.tag.take t.sentBytes

theorem headSent_cons {f : Feed} {t : FlvTagFrame} {rest : List FlvTagFrame} (queue : f.queue = t :: rest) :
    f.headSent = t.tag.take t.sentBytes := by
  unfold headSent
  rw [queue]

theorem headSent_fresh {f : Feed} (fresh : ∀ t ∈ f.queue, t.sentBytes = 0) : f.headSent = [] := by
  cases queue : f.queue with
  | nil =>
    unfold headSent
    rw [queue]
  | cons t rest => rw [headSent_cons queue, fresh t (by rw [queue]; exact List.mem_cons_self), List.take_zero]

theorem bytes_concat (f : Feed) (w : Write) : (f.writes ++ [w]).flatMap (·.taken) = f.bytes ++ w.taken := by
  rw [List.flatMap_append, List.flatMap_singleton]
  rfl

/-! ### One step -/

/-- The ways a feed may go on when its viewer's socket is writable. -/
inductive Sent (f : Feed) (n : Nat) : Feed → Prop where
  | idle (queue : f.queue = []) : Sent f n f
  | skipped {t : FlvTagFrame} {rest : List FlvTagFrame} (queue : f.queue = t :: rest) (waits : f.waitsForKey = true)
      (plain : t.isKeyFrame = false) : Sent f n { f with queue := rest }
  | partly {t : FlvTagFrame} {rest : List FlvTagFrame} (queue : f.queue = t :: rest)
      (may : f.waitsForKey = true → t.isKeyFrame = true) (short : n < (t.tag.drop t.sentBytes).length) :
      Sent f n { f with
        queue := { t with sentBytes := t.sentBytes + n } :: rest
        writes := f.writes ++ [⟨.tag t, t.sentBytes, (t.tag.drop t.sentBytes).take n⟩] }
  | whole {t : FlvTagFrame} {rest : List FlvTagFrame} (queue : f.queue = t :: rest)
      (may : f.waitsForKey = true → t.isKeyFrame = true) :
      Sent f n { f with
        queue := rest
        waitsForKey := false
        writes := f.writes ++ [⟨.tag t, t.sentBytes, t.tag.drop t.sentBytes⟩] }
  | already {t : FlvTagFrame} {rest : List FlvTagFrame} (queue : f.queue = t :: rest)
      (may : f.waitsForKey = true → t.isKeyFrame = true) (all : t.tag.length = t.sentBytes) :
      Sent f n { f with queue := rest, waitsForKey := false }

theorem send_cases (f : Feed) (n : Nat) : Sent f n (f.send n) := by
  unfold send
  split
  · next queue => exact .idle queue
  · next t rest queue =>
    dsimp only
    split_ifs with skipped unfinished enough
    · rw [Bool.and_eq_true, Bool.not_eq_true'] at skipped
      exact .skipped queue skipped.1 skipped.2
    · have may : f.waitsForKey = true → t.isKeyFrame = true := by simpa using skipped
      rw [List.take_of_length_le enough]
      exact .whole queue may
    · have may : f.waitsForKey = true → t.isKeyFrame = true := by simpa using skipped
      exact .partly queue may (by omega)
    · have may : f.waitsForKey = true → t.isKeyFrame = true := by simpa using skipped
      exact .already queue may (not_not.mp unfinished)

/-- A push appends a tag of which nothing has been sent; what was queued before keeps its head or
has only tags from behind it. -/
theorem pushTag_cases (queue : List FlvTagFrame) (t : FlvTagFrame) :
    ∃ kept, Fifo.pushTag queue t = kept ++ [{ t with sentBytes := 0 }] ∧ kept.Sublist queue ∧
      ((∃ head rest rest', queue = head :: rest ∧ kept = head :: rest' ∧ rest'.Sublist rest) ∨
        kept.Sublist queue.tail) := by
  unfold Fifo.pushTag
  refine ⟨_, rfl, ?_⟩
  split_ifs
  · refine ⟨Fifo.dropFrame_sublist queue, ?_⟩
    unfold Fifo.dropFrame
    split
    · cases queue with
      | nil => exact .inr (List.Sublist.refl _)
      | cons head rest =>
        cases key : head.isKeyFrame with
        | false =>
          rw [List.eraseP_cons_of_pos (by simp [key])]
          exact .inr (List.Sublist.refl _)
        | true =>
          rw [List.eraseP_cons_of_neg (by simp [key])]
          exact .inl ⟨head, rest, _, rfl, rfl, List.eraseP_sublist⟩
    · exact .inr (List.Sublist.refl _)
  · refine ⟨List.Sublist.refl _, ?_⟩
    cases queue with
    | nil => exact .inr (List.Sublist.refl _)
    | cons head rest => exact .inl ⟨head, rest, rest, rfl, rfl, List.Sublist.refl _⟩

/-! ### The first key frame -/

def HasKeyFrame (pushed : List FlvTagFrame) (bytes : List UInt8) : Prop :=
  ∃ k ∈ pushed, k.isKeyFrame = true ∧ k.tag <:+: bytes

theorem HasKeyFrame.mono {pushed : List FlvTagFrame} {bytes : List UInt8} (h : HasKeyFrame pushed bytes)
    (pushed' : List FlvTagFrame) (bytes' : List UInt8) : HasKeyFrame (pushed ++ pushed') (bytes ++ bytes') := by
  obtain ⟨k, member, key, inside⟩ := h
  exact ⟨k, List.mem_append_left _ member, key, inside.trans (List.infix_append' [] bytes bytes')⟩

/-- What holds of a feed in any state it reaches. -/
structure Ok (f : Feed) : Prop where
  /-- Only the head has been begun. -/
  fresh : ∀ t ∈ f.queue.tail, t.sentBytes = 0
  waits : f.waitsForKey = true → ∀ t rest, f.queue = t :: rest → t.isKeyFrame = false → t.sentBytes = 0
  /-- The last bytes sent are those of the head. -/
  shown : f.headSent <:+ f.bytes
  keyed : f.waitsForKey = false → HasKeyFrame f.pushed f.bytes
  queued : ∀ t ∈ f.queue, { t with sentBytes := 0 } ∈ f.pushed
  written : ∀ w ∈ f.writes, ∀ t, w.item = .tag t → { t with sentBytes := 0 } ∈ f.pushed
  /-- A tag that is not a key frame is begun behind a whole key frame. -/
  first : ∀ pre w post, f.writes = pre ++ w :: post → ∀ t, w.item = .tag t → t.isKeyFrame = false →
    HasKeyFrame f.pushed (pre.flatMap (·.taken))

theorem new_ok : Ok .new := by
  constructor
  case shown => exact List.suffix_rfl
  all_goals simp [Feed.new]

theorem push_ok {f : Feed} (h : Ok f) (t : FlvTagFrame) : Ok (f.push t) := by
  obtain ⟨fresh, waits, shown, keyed, queued, written, first⟩ := h
  obtain ⟨kept, pushed, sub, heads⟩ := pushTag_cases f.queue t
  have queue : (f.push t).queue = kept ++ [{ t with sentBytes := 0 }] := pushed
  have freshAll : kept.Sublist f.queue.tail → ∀ u ∈ kept ++ [{ t with sentBytes := 0 }], u.sentBytes = 0 := by
    intro behind u member
    rcases List.mem_append.mp member with old | new
    · exact fresh u (behind.subset old)
    · rw [List.mem_singleton.mp new]
  constructor
  · rw [queue]
    rcases heads with ⟨head, rest, rest', was, rfl, behind⟩ | behind
    · intro u member
      rcases List.mem_append.mp member with old | new
      · exact fresh u (by rw [was]; exact behind.subset old)
      · rw [List.mem_singleton.mp new]
    · exact fun u member => freshAll behind u (List.mem_of_mem_tail member)
  · intro wait u rest' at_ plain
    rcases heads with ⟨head, rest, _, was, rfl, _⟩ | behind
    · rw [queue, List.cons_append] at at_
      obtain ⟨rfl, _⟩ := List.cons.inj at_
      exact waits wait head rest was plain
    · exact freshAll behind u (by rw [← queue, at_]; exact List.mem_cons_self)
  · unfold headSent at shown ⊢
    rw [queue]
    rcases heads with ⟨head, rest, rest', was, rfl, _⟩ | behind
    · rw [was] at shown
      exact shown
    · cases split : kept ++ [{ t with sentBytes := 0 }] with
      | nil => exact List.nil_suffix
      | cons u us =>
        have none_ := freshAll behind u (by rw [split]; exact List.mem_cons_self)
        dsimp only
        rw [none_, List.take_zero]
        exact List.nil_suffix
  · intro wait
    have before := (keyed wait).mono [{ t with sentBytes := 0 }] []
    rwa [List.append_nil] at before
  · rw [queue]
    intro u member
    rcases List.mem_append.mp member with old | new
    · exact List.mem_append_left _ (queued u (sub.subset old))
    · rw [List.mem_singleton.mp new]
      exact List.mem_append_right _ List.mem_cons_self
  · exact fun w member u item => List.mem_append_left _ (written w member u item)
  · intro pre w post split u item plain
    have before := (first pre w post split u item plain).mono [{ t with sentBytes := 0 }] []
    rwa [List.append_nil] at before

theorem first_concat {pushed : List FlvTagFrame} {writes : List Write} {w : Write}
    (first : ∀ pre u post, writes = pre ++ u :: post → ∀ t, u.item = .tag t → t.isKeyFrame = false →
      HasKeyFrame pushed (pre.flatMap (·.taken)))
    (last : ∀ t, w.item = .tag t → t.isKeyFrame = false → HasKeyFrame pushed (writes.flatMap (·.taken))) :
    ∀ pre u post, writes ++ [w] = pre ++ u :: post → ∀ t, u.item = .tag t → t.isKeyFrame = false →
      HasKeyFrame pushed (pre.flatMap (·.taken)) := by
  intro pre u post split t item plain
  rcases List.eq_nil_or_concat' post with rfl | ⟨more, x, rfl⟩
  · obtain ⟨rfl, same⟩ := List.append_inj' split rfl
    obtain rfl := List.singleton_inj.mp same
    exact last t item plain
  · rw [← List.cons_append, ← List.append_assoc] at split
    exact first pre u more (List.append_inj' split rfl).1 t item plain

theorem Ok.behind {f : Feed} (h : Ok f) {t : FlvTagFrame} {rest : List FlvTagFrame} (queue : f.queue = t :: rest) :
    ∀ u ∈ rest, u.sentBytes = 0 := by
  intro u member
  exact h.fresh u (by rw [queue]; exact member)

theorem Ok.head_pushed {f : Feed} (h : Ok f) {t : FlvTagFrame} {rest : List FlvTagFrame} (queue : f.queue = t :: rest) :
    { t with sentBytes := 0 } ∈ f.pushed :=
  h.queued t (by rw [queue]; exact List.mem_cons_self)

theorem Ok.rest_pushed {f : Feed} (h : Ok f) {t : FlvTagFrame} {rest : List FlvTagFrame} (queue : f.queue = t :: rest) :
    ∀ u ∈ rest, { u with sentBytes := 0 } ∈ f.pushed := by
  intro u member
  exact h.queued u (by rw [queue]; exact List.mem_cons_of_mem _ member)

/-- When a head that may be sent is whole, it or a tag before it is a whole key frame. -/
theorem Ok.key_of_whole {f : Feed} (h : Ok f) {t : FlvTagFrame} {rest : List FlvTagFrame} (queue : f.queue = t :: rest)
    (may : f.waitsForKey = true → t.isKeyFrame = true) {more : List UInt8}
    (whole : t.tag.take t.sentBytes ++ more = t.tag) : HasKeyFrame f.pushed (f.bytes ++ more) := by
  cases wait : f.waitsForKey with
  | false => simpa using (h.keyed wait).mono [] more
  | true =>
    obtain ⟨before, split⟩ := h.shown
    rw [headSent_cons queue] at split
    refine ⟨_, h.head_pushed queue, may wait, before, [], ?_⟩
    rw [List.append_nil, ← split, List.append_assoc, whole]

/-- A write of the head keeps what is known of all writes, if the head may be sent. -/
theorem Ok.write {f : Feed} (h : Ok f) {t : FlvTagFrame} {rest : List FlvTagFrame} (queue : f.queue = t :: rest)
    (may : f.waitsForKey = true → t.isKeyFrame = true) (start : Nat) (taken : List UInt8) :
    (∀ w ∈ f.writes ++ [⟨.tag t, start, taken⟩], ∀ u, w.item = .tag u → { u with sentBytes := 0 } ∈ f.pushed) ∧
      ∀ pre w post, f.writes ++ [⟨.tag t, start, taken⟩] = pre ++ w :: post → ∀ u, w.item = .tag u →
        u.isKeyFrame = false → HasKeyFrame f.pushed (pre.flatMap (·.taken)) := by
  constructor
  · intro w member u item
    rcases List.mem_append.mp member with old | new
    · exact h.written w old u item
    · rw [List.mem_singleton.mp new] at item
      obtain rfl := Item.tag.inj item
      exact h.head_pushed queue
  · apply first_concat h.first
    intro u item plain
    obtain rfl := Item.tag.inj item
    cases wait : f.waitsForKey with
    | false => exact h.keyed wait
    | true =>
      rw [may wait] at plain
      cases plain

theorem send_ok {f : Feed} (h : Ok f) (n : Nat) : Ok (f.send n) := by
  have sent := send_cases f n
  generalize f.send n = f' at sent
  cases sent with
  | idle queue => exact h
  | @skipped t rest queue wait plain =>
    have fresh := h.behind queue
    refine ⟨fun u member => fresh u (List.mem_of_mem_tail member), ?_, ?_, h.keyed, h.rest_pushed queue, h.written,
      h.first⟩
    · intro _ u us at_ _
      exact fresh u (by rw [show rest = u :: us from at_]; exact List.mem_cons_self)
    · rw [headSent_fresh fresh]
      exact List.nil_suffix
  | @partly t rest queue may short =>
    obtain ⟨written, first⟩ := h.write queue may t.sentBytes ((t.tag.drop t.sentBytes).take n)
    refine ⟨h.behind queue, ?_, ?_, ?_, ?_, written, first⟩
    · -- A head that is begun while the feed waits is a key frame.
      intro wait u us at_ plain
      obtain ⟨rfl, _⟩ := List.cons.inj at_
      have key : t.isKeyFrame = true := may wait
      rw [show t.isKeyFrame = false from plain] at key
      cases key
    · obtain ⟨before, split⟩ := h.shown
      rw [headSent_cons queue] at split
      change t.tag.take (t.sentBytes + n) <:+ _
      rw [bytes, bytes_concat, List.take_add, ← split]
      exact ⟨before, (List.append_assoc ..).symm⟩
    · intro wait
      rw [bytes, bytes_concat]
      simpa using (h.keyed wait).mono [] _
    · intro u member
      have begun := h.head_pushed queue
      rcases List.mem_cons.mp member with rfl | old
      · exact begun
      · exact h.rest_pushed queue u old
  | @whole t rest queue may =>
    have fresh := h.behind queue
    obtain ⟨written, first⟩ := h.write queue may t.sentBytes (t.tag.drop t.sentBytes)
    refine ⟨fun u member => fresh u (List.mem_of_mem_tail member), ?_, ?_, ?_, h.rest_pushed queue, written, first⟩
    · intro wait
      cases wait
    · rw [headSent_fresh fresh]
      exact List.nil_suffix
    · intro _
      rw [bytes, bytes_concat]
      exact h.key_of_whole queue may (List.take_append_drop _ _)
  | @already t rest queue may all =>
    have fresh := h.behind queue
    refine ⟨fun u member => fresh u (List.mem_of_mem_tail member), ?_, ?_, ?_, h.rest_pushed queue, h.written, h.first⟩
    · intro wait
      cases wait
    · rw [headSent_fresh fresh]
      exact List.nil_suffix
    · intro _
      have now := h.key_of_whole queue may (show t.tag.take t.sentBytes ++ [] = t.tag by
        rw [List.append_nil, ← all, List.take_length])
      rwa [List.append_nil] at now

theorem run_ok {allowed : Feed → Event → Prop} {f : Feed} (run : Feed.Run allowed f) : Ok f := by
  refine run.invariant new_ok fun f e f' h _ next => ?_
  obtain rfl := Option.some.inj next
  cases e with
  | push t => exact push_ok h t
  | send n => exact send_ok h n

/-! ### Whole tags -/

/-- `drop_frame` on a full queue does not take a head that has been begun. -/
def Spares (f : Feed) : Event → Prop
  | .push _ => f.queue.length = cachedTagsLimit → ∀ t rest, f.queue = t :: rest → 0 < t.sentBytes →
      t.isKeyFrame = true ∧ rest.any (!·.isKeyFrame) = true
  | .send _ => True

/-- The bytes are those of whole tags and of the part of the head that has been sent. -/
structure Whole (f : Feed) (done : List (List UInt8)) : Prop where
  order : (done ++ f.queue.map (·.tag)).Sublist (f.pushed.map (·.tag))
  bytes : f.bytes = done.flatten ++ f.headSent

theorem push_headSent {f : Feed} (h : Ok f) (t : FlvTagFrame) (spares : Spares f (.push t)) :
    (f.push t).headSent = f.headSent := by
  obtain ⟨kept, pushed, sub, heads⟩ := pushTag_cases f.queue t
  have queue' : (f.push t).queue = kept ++ [{ t with sentBytes := 0 }] := pushed
  rcases heads with ⟨head, rest, rest', queue, rfl, _⟩ | behind
  · unfold headSent
    rw [queue', queue]
    rfl
  · -- The head has gone, so nothing had been sent of it.
    have fresh : ∀ u ∈ f.queue, u.sentBytes = 0 := by
      intro u member
      cases queue : f.queue with
      | nil => simp [queue] at member
      | cons head rest =>
        rw [queue] at member
        rcases List.mem_cons.mp member with rfl | later
        · by_contra begun
          have shorter := behind.length_le
          have length := congrArg List.length pushed
          rw [queue, List.length_tail, List.length_cons] at shorter
          unfold Fifo.pushTag at pushed length
          by_cases full : f.queue.length = cachedTagsLimit
          · obtain ⟨key, others⟩ := spares full u rest queue (Nat.pos_of_ne_zero begun)
            rw [if_pos full, queue] at pushed
            have dropped := (List.append_inj' pushed rfl).1
            have any_ : (u :: rest).any (!·.isKeyFrame) = true := by
              rw [List.any_cons, others, Bool.or_true]
            rw [Fifo.dropFrame, if_pos any_, List.eraseP_cons_of_neg (by simp [key])] at dropped
            have inTail : u ∈ f.queue.tail := behind.subset (by rw [← dropped]; exact List.mem_cons_self)
            exact begun (h.fresh u inTail)
          · rw [if_neg full, queue] at length
            simp only [List.length_append, List.length_cons, List.length_nil] at length
            omega
        · exact h.fresh u (by rw [queue]; exact later)
    rw [headSent_fresh fresh, headSent_fresh]
    intro u member
    rw [queue'] at member
    rcases List.mem_append.mp member with old | new
    · exact fresh u (sub.subset old)
    · rw [List.mem_singleton.mp new]

theorem push_whole {f : Feed} {done : List (List UInt8)} (h : Ok f) (whole : Whole f done) (t : FlvTagFrame)
    (spares : Spares f (.push t)) : Whole (f.push t) done := by
  obtain ⟨order, bytes⟩ := whole
  constructor
  · obtain ⟨kept, pushed, sub, _⟩ := pushTag_cases f.queue t
    rw [show (f.push t).queue = _ from pushed, List.map_append, ← List.append_assoc, Feed.push, List.map_append]
    exact (((sub.map _).append_left done).trans order).append (List.Sublist.refl _)
  · rw [push_headSent h t spares]
    exact bytes

theorem send_whole {f : Feed} {done : List (List UInt8)} (h : Ok f) (whole : Whole f done) (n : Nat) :
    ∃ done', Whole (f.send n) done' := by
  obtain ⟨order, bytes⟩ := whole
  have next : ∀ {t : FlvTagFrame} {rest : List FlvTagFrame}, f.queue = t :: rest →
      (done ++ [t.tag] ++ rest.map (·.tag)).Sublist (f.pushed.map (·.tag)) := by
    intro t rest queue
    rw [queue] at order
    simpa using order
  have sent := send_cases f n
  generalize f.send n = f' at sent
  cases sent with
  | idle queue => exact ⟨done, order, bytes⟩
  | @skipped t rest queue wait plain =>
    -- What is skipped while the feed waits has not been begun.
    refine ⟨done, ?_, ?_⟩
    · rw [queue] at order
      exact ((List.sublist_cons_self _ _).append_left done).trans order
    · rw [headSent_fresh (h.behind queue)]
      rw [headSent_cons queue, h.waits wait t rest queue plain, List.take_zero] at bytes
      exact bytes
  | @partly t rest queue may short =>
    refine ⟨done, by simpa [queue] using order, ?_⟩
    change (f.writes ++ [_]).flatMap Write.taken = done.flatten ++ t.tag.take (t.sentBytes + n)
    rw [bytes_concat, bytes, headSent_cons queue, List.take_add, List.append_assoc]
  | @whole t rest queue may =>
    refine ⟨done ++ [t.tag], next queue, ?_⟩
    rw [headSent_fresh (h.behind queue)]
    change (f.writes ++ [_]).flatMap Write.taken = _
    rw [bytes_concat, bytes, headSent_cons queue, List.append_assoc, List.take_append_drop]
    simp
  | @already t rest queue may all =>
    refine ⟨done ++ [t.tag], next queue, ?_⟩
    rw [headSent_fresh (h.behind queue)]
    change f.bytes = _
    rw [bytes, headSent_cons queue, ← all, List.take_length]
    simp

theorem run_whole {f : Feed} (run : Feed.Run Spares f) : ∃ done, Whole f done := by
  refine run.invariant_with (K := Ok) (I := fun f => ∃ done, Whole f done) (fun f => run_ok)
    ⟨[], List.Sublist.refl _, rfl⟩ ?_
  rintro f e f' h ⟨done, whole⟩ spares next
  obtain rfl := Option.some.inj next
  cases e with
  | push t => exact ⟨done, push_whole h whole t spares⟩
  | send n => exact send_whole h whole n

theorem Whole.prefix_of_tags {f : Feed} {done : List (List UInt8)} (h : Whole f done) :
    ∃ tags : List (List UInt8), tags.Sublist (f.pushed.map (·.tag)) ∧ f.bytes <+: tags.flatten := by
  obtain ⟨order, bytes⟩ := h
  refine ⟨done ++ f.queue.map (·.tag), order, ?_⟩
  rw [bytes, List.flatten_append, List.prefix_append_right_inj]
  unfold headSent
  cases f.queue with
  | nil => exact List.nil_prefix
  | cons t rest => exact (List.take_prefix _ _).trans (List.prefix_append _ _)

end Feed

end LiveStreaming.Streamer
