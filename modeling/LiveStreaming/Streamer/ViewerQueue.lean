import LiveStreaming.Library.Ring
import Mathlib.Data.List.InsertIdx

/-!
# The viewer queue

Every viewer of a channel owns a circular array of `CACHED_TAGS_LIMIT` tag pointers. This file
models its operations and shows that the array refines a bounded FIFO list, including
`drop_frame`, which deletes in the middle of a full queue.
-/

namespace LiveStreaming.Streamer
open Library

def cachedTagsLimit : Nat := 79

/-- `FLV_TAG_FRAME`: the array `TAG` has exactly `data_size` bytes, so the size is not kept apart. -/
structure FlvTagFrame where
  isKeyFrame : Bool
  tag : List UInt8
  sentBytes : Nat
  deriving DecidableEq, Repr

def FlvTagFrame.dataSize (t : FlvTagFrame) : Nat := t.tag.length

/-- `VIEWER_QUEUE`: a slot holds `none` for a NULL pointer. -/
structure ViewerQueue where
  flvTags : Vector (Option FlvTagFrame) cachedTagsLimit
  front : Nat
  rear : Nat
  empty : Bool
  deriving DecidableEq, Repr

def newViewerQueue : ViewerQueue where
  flvTags := .replicate _ none
  front := cachedTagsLimit
  rear := cachedTagsLimit
  empty := true

/-- The pointer at `pos`, `none` also when `pos` is outside the array. -/
def slotAt (tags : Vector (Option FlvTagFrame) cachedTagsLimit) (pos : Nat) : Option FlvTagFrame :=
  tags[pos]?.join

def ViewerQueue.slot (q : ViewerQueue) (pos : Nat) : Option FlvTagFrame := slotAt q.flvTags pos

def viewerQueueFull (q : ViewerQueue) : Bool := !q.empty && q.front == q.rear

def viewerQueueEmpty (q : ViewerQueue) : Bool := q.empty

/-- The result is `none` where the C code would dereference a pointer that is not there. -/
def viewerQueuePop (q : ViewerQueue) : Option ViewerQueue :=
  if viewerQueueEmpty q then some q
  else do
    let _ ← q.slot q.front
    let front := (q.front + 1) % cachedTagsLimit
    some { q with
      flvTags := q.flvTags.setIfInBounds q.front none
      front
      empty := if front = q.rear then true else q.empty }

/-- The pointer handed out through `flv_tag`, `none` when it is left as it was. -/
def viewerQueueTop (q : ViewerQueue) : Option FlvTagFrame :=
  if viewerQueueEmpty q then none else q.slot q.front

/-- The queue keeps a copy of the tag of which nothing has been sent. -/
def viewerQueuePush (q : ViewerQueue) (flvTag : FlvTagFrame) : Option ViewerQueue :=
  let rear := if q.rear = cachedTagsLimit then 0 else q.rear
  let front := if q.front = cachedTagsLimit then 0 else q.front
  if rear < cachedTagsLimit then
    some {
      flvTags := q.flvTags.setIfInBounds rear (some { flvTag with sentBytes := 0 })
      front
      rear := (rear + 1) % cachedTagsLimit
      empty := false }
  else none

/-- The `do … while( pos != rear )` of `viewer_queue_delete`; `none` when the fuel runs out. -/
def viewerQueueShift (rear : Nat) :
    Nat → Vector (Option FlvTagFrame) cachedTagsLimit → Nat → Option (Vector (Option FlvTagFrame) cachedTagsLimit)
  | 0, _, _ => none
  | fuel + 1, tags, pos =>
    let next := (pos + 1) % cachedTagsLimit
    let tags := tags.setIfInBounds pos (slotAt tags next)
    if next = rear then some tags else viewerQueueShift rear fuel tags next

def viewerQueueDelete (q : ViewerQueue) (pos : Nat) : Option ViewerQueue :=
  if viewerQueueEmpty q then some q
  else do
    let _ ← q.slot pos
    let tags ← viewerQueueShift q.rear cachedTagsLimit (q.flvTags.setIfInBounds pos none) pos
    let rear := if q.rear = 0 then cachedTagsLimit - 1 else q.rear - 1
    some { q with flvTags := tags.setIfInBounds rear none, rear }

def dropFrameScan (q : ViewerQueue) : Nat → Nat → Option (Option Nat)
  | 0, _ => none
  | fuel + 1, pointer => do
    let t ← q.slot pointer
    if !t.isKeyFrame then some (some pointer)
    else
      let next := (pointer + 1) % cachedTagsLimit
      if next = q.rear then some none else dropFrameScan q fuel next

def dropFrame (q : ViewerQueue) : Option ViewerQueue :=
  if viewerQueueEmpty q then some q
  else do
    match ← dropFrameScan q cachedTagsLimit q.front with
    | some pointer => viewerQueueDelete q pointer
    | none => viewerQueuePop q

/-- What the push loop of `receive_stream_cb` does to one queue. -/
def pushTag (q : ViewerQueue) (flvTag : FlvTagFrame) : Option ViewerQueue := do
  let q ← if viewerQueueFull q then dropFrame q else some q
  viewerQueuePush q flvTag

/-! ### The FIFO list the queue stands for -/

namespace Fifo

/-- The overflow policy: the first tag that is not a key frame goes, or else the head. -/
def dropFrame (l : List FlvTagFrame) : List FlvTagFrame :=
  if l.any (!·.isKeyFrame) then l.eraseP (!·.isKeyFrame) else l.tail

def pushTag (l : List FlvTagFrame) (t : FlvTagFrame) : List FlvTagFrame :=
  (if l.length = cachedTagsLimit then dropFrame l else l) ++ [{ t with sentBytes := 0 }]

end Fifo

/-- `q` holds exactly the tags `l`, from `front` on. -/
structure Represents (q : ViewerQueue) (l : List FlvTagFrame) : Prop where
  bounded : l.length ≤ cachedTagsLimit
  /-- Both indices are at the limit until the first push, and in range ever after. -/
  indices : (q.front = cachedTagsLimit ∧ q.rear = cachedTagsLimit ∧ l = []) ∨
    (q.front < cachedTagsLimit ∧ q.rear = (q.front + l.length) % cachedTagsLimit)
  emptyFlag : q.empty = true ↔ l = []
  live : Ring.window cachedTagsLimit q.slot q.front l.length = l.map some

theorem slotAt_set (tags : Vector (Option FlvTagFrame) cachedTagsLimit) {pos : Nat} (x : Option FlvTagFrame)
    (inside : pos < cachedTagsLimit) :
    slotAt (tags.setIfInBounds pos x) = Function.update (slotAt tags) pos x := by
  funext j
  by_cases same : j = pos
  · subst j
    simp [slotAt, inside]
  · simp [slotAt, Function.update_of_ne same, Ne.symm same]

theorem represents_new : Represents newViewerQueue [] :=
  ⟨by decide, .inl ⟨rfl, rfl, rfl⟩, by decide, rfl⟩

theorem Represents.inRange {q : ViewerQueue} {l : List FlvTagFrame} (rep : Represents q l) (some_ : l ≠ []) :
    q.front < cachedTagsLimit ∧ q.rear = (q.front + l.length) % cachedTagsLimit := by
  rcases rep.indices with ⟨_, _, none_⟩ | inside
  · exact absurd none_ some_
  · exact inside

theorem Represents.notEmpty {q : ViewerQueue} {l : List FlvTagFrame} (rep : Represents q l) (some_ : l ≠ []) :
    q.empty = false := by
  rw [← Bool.not_eq_true, rep.emptyFlag]
  exact some_

theorem Represents.slot_eq {q : ViewerQueue} {l : List FlvTagFrame} (rep : Represents q l) {k : Nat}
    (inside : k < l.length) : q.slot ((q.front + k) % cachedTagsLimit) = some l[k] := by
  have window := rep.live
  have at_ := congrArg (fun w => w[k]?) window
  simpa [Ring.window, inside] using at_

theorem Represents.slot_front {q : ViewerQueue} {t : FlvTagFrame} {rest : List FlvTagFrame}
    (rep : Represents q (t :: rest)) : q.slot q.front = some t := by
  have first := rep.slot_eq (k := 0) (by simp)
  rwa [Nat.add_zero, Nat.mod_eq_of_lt (rep.inRange (by simp)).1] at first

theorem viewerQueueTop_eq {q : ViewerQueue} {l : List FlvTagFrame} (rep : Represents q l) :
    viewerQueueTop q = l.head? := by
  cases l with
  | nil => simp [viewerQueueTop, viewerQueueEmpty, rep.emptyFlag.mpr rfl]
  | cons t rest => simp [viewerQueueTop, viewerQueueEmpty, rep.notEmpty, rep.slot_front]

theorem viewerQueueFull_iff {q : ViewerQueue} {l : List FlvTagFrame} (rep : Represents q l) :
    viewerQueueFull q = true ↔ l.length = cachedTagsLimit := by
  cases l with
  | nil => simp [viewerQueueFull, rep.emptyFlag.mpr rfl, cachedTagsLimit]
  | cons t rest =>
    have ⟨inside, rear⟩ := rep.inRange (by simp)
    have bounded := rep.bounded
    simp only [viewerQueueFull, rep.notEmpty (by simp), Bool.not_false, Bool.true_and, beq_iff_eq, rear]
    simp only [List.length_cons, cachedTagsLimit] at *
    omega

theorem viewerQueuePop_represents {q : ViewerQueue} {l : List FlvTagFrame} (rep : Represents q l) :
    ∃ q', viewerQueuePop q = some q' ∧ Represents q' l.tail := by
  cases l with
  | nil => exact ⟨q, by simp [viewerQueuePop, viewerQueueEmpty, rep.emptyFlag.mpr rfl], rep⟩
  | cons t rest =>
    have ⟨inside, rear⟩ := rep.inRange (by simp)
    have bounded : rest.length + 1 ≤ cachedTagsLimit := rep.bounded
    have flag := rep.notEmpty (by simp)
    refine ⟨{ q with
      flvTags := q.flvTags.setIfInBounds q.front none
      front := (q.front + 1) % cachedTagsLimit
      empty := if (q.front + 1) % cachedTagsLimit = q.rear then true else q.empty }, ?_, ?_⟩
    · simp only [viewerQueuePop, viewerQueueEmpty, flag, rep.slot_front, Bool.false_eq_true, if_false,
        Option.bind_eq_bind, Option.bind_some]
    rw [List.length_cons] at rear
    rw [List.tail_cons]
    constructor
    · exact Nat.le_of_succ_le bounded
    · refine .inr ⟨Nat.mod_lt _ (by decide), ?_⟩
      rw [rear, Nat.mod_add_mod]
      congr 1
      omega
    · have full : (q.front + 1) % cachedTagsLimit = q.rear ↔ rest = [] := by
        rw [rear]
        constructor
        · intro same
          by_contra more
          have := List.length_pos_iff.mpr more
          exact Ring.offset_ne (i := 1) (by omega) (by omega) same
        · rintro rfl
          rfl
      simp [full, flag]
    · have window := rep.live
      rw [List.length_cons, Ring.window_succ, List.map_cons] at window
      rw [← (List.cons.inj window).2]
      have set_ := slotAt_set q.flvTags none inside
      have kept := Ring.window_update_front q.slot none q.front
        (show rest.length < cachedTagsLimit by omega)
      rw [Nat.mod_eq_of_lt inside] at kept
      exact (congrArg (fun f => Ring.window cachedTagsLimit f _ _) set_).trans kept

theorem viewerQueuePush_inRange {q : ViewerQueue} {l : List FlvTagFrame} (t : FlvTagFrame)
    (inside : q.front < cachedTagsLimit) (rear : q.rear = (q.front + l.length) % cachedTagsLimit)
    (live : Ring.window cachedTagsLimit q.slot q.front l.length = l.map some)
    (room : l.length < cachedTagsLimit) :
    ∃ q', viewerQueuePush q t = some q' ∧ Represents q' (l ++ [{ t with sentBytes := 0 }]) := by
  have small : q.rear < cachedTagsLimit := rear ▸ Nat.mod_lt _ (by decide)
  refine ⟨_, by simp only [viewerQueuePush, if_neg small.ne, if_neg inside.ne, if_pos small]; rfl, ?_⟩
  constructor
  · rw [List.length_append, List.length_singleton]
    exact room
  · refine .inr ⟨inside, ?_⟩
    simp [rear, Nat.add_assoc]
  · simp
  · have set_ := slotAt_set q.flvTags (some { t with sentBytes := 0 }) small
    rw [List.length_append, List.length_singleton, List.map_append, Ring.window_concat]
    change Ring.window _ (slotAt (q.flvTags.setIfInBounds _ _)) _ _ ++
      [slotAt (q.flvTags.setIfInBounds _ _) ((q.front + l.length) % _)] = _
    rw [set_, rear, Function.update_self, Ring.window_update_rear _ _ room]
    exact congrArg (· ++ _) live

theorem viewerQueuePush_represents {q : ViewerQueue} {l : List FlvTagFrame} (rep : Represents q l)
    (t : FlvTagFrame) (room : l.length < cachedTagsLimit) :
    ∃ q', viewerQueuePush q t = some q' ∧ Represents q' (l ++ [{ t with sentBytes := 0 }]) := by
  rcases rep.indices with ⟨front, rear, rfl⟩ | ⟨inside, rear⟩
  · -- The first push moves both indices from the limit to slot 0.
    have first := viewerQueuePush_inRange (q := { q with front := 0, rear := 0 }) (l := []) t
      (Nat.zero_lt_succ 78) rfl rfl (Nat.zero_lt_succ 78)
    simpa [viewerQueuePush, front, rear] using first
  · exact viewerQueuePush_inRange t inside rear rep.live room

/-! ### Deleting in the middle -/

/-- The loop of `viewer_queue_delete` reaches the rear and moves down every slot behind the gap. -/
theorem viewerQueueShift_eq {front n : Nat} (bounded : n ≤ cachedTagsLimit) (fuel k : Nat)
    (tags : Vector (Option FlvTagFrame) cachedTagsLimit) (inside : k < n) (enough : n - k ≤ fuel) :
    ∃ tags', viewerQueueShift ((front + n) % cachedTagsLimit) fuel tags ((front + k) % cachedTagsLimit) = some tags' ∧
      slotAt tags' = Ring.shiftDown cachedTagsLimit (n - k) (slotAt tags) ((front + k) % cachedTagsLimit) := by
  induction fuel generalizing k tags with
  | zero => omega
  | succ fuel ih =>
    have next : ((front + k) % cachedTagsLimit + 1) % cachedTagsLimit = (front + (k + 1)) % cachedTagsLimit := by
      rw [Nat.mod_add_mod]; rfl
    have set_ := slotAt_set tags (slotAt tags ((front + (k + 1)) % cachedTagsLimit))
      (Nat.mod_lt (front + k) (by decide))
    rw [show n - k = (n - (k + 1)) + 1 by omega, Ring.shiftDown, next, ← set_, viewerQueueShift, next]
    by_cases last : k + 1 = n
    · subst last
      exact ⟨_, if_pos rfl, by simp [Ring.shiftDown]⟩
    · rw [if_neg (Ring.offset_ne (by omega) (by omega))]
      exact ih (k + 1) _ (by omega) (by omega)

theorem viewerQueueDelete_represents {q : ViewerQueue} {l : List FlvTagFrame} (rep : Represents q l) {k : Nat}
    (inside : k < l.length) (more : 1 < l.length) :
    ∃ q', viewerQueueDelete q ((q.front + k) % cachedTagsLimit) = some q' ∧ Represents q' (l.eraseIdx k) := by
  have some_ : l ≠ [] := List.length_pos_iff.mp (by omega)
  have ⟨front, rear⟩ := rep.inRange some_
  have bounded := rep.bounded
  set pos := (q.front + k) % cachedTagsLimit with pos_eq
  have posIn : pos < cachedTagsLimit := Nat.mod_lt _ (by decide)
  obtain ⟨tags, shifted, moved⟩ := @viewerQueueShift_eq q.front _ bounded cachedTagsLimit k
    (q.flvTags.setIfInBounds pos none) inside (by omega)
  have newRear : (if q.rear = 0 then cachedTagsLimit - 1 else q.rear - 1) =
      (q.front + (l.length - 1)) % cachedTagsLimit := by
    by_cases zero : q.rear = 0
    · rw [if_pos zero]
      simp only [cachedTagsLimit] at *
      omega
    · rw [if_neg zero]
      simp only [cachedTagsLimit] at *
      omega
  have length : (l.eraseIdx k).length = l.length - 1 := List.length_eraseIdx_of_lt inside
  refine ⟨{ q with
    flvTags := tags.setIfInBounds ((q.front + (l.length - 1)) % cachedTagsLimit) none
    rear := (q.front + (l.length - 1)) % cachedTagsLimit }, ?_, ?_⟩
  · rw [← pos_eq, ← rear] at shifted
    simp only [viewerQueueDelete, viewerQueueEmpty, rep.notEmpty some_, Bool.false_eq_true, if_false,
      pos_eq, rep.slot_eq inside, Option.bind_eq_bind, Option.bind_some]
    rw [← pos_eq, shifted, Option.bind_some, newRear]
  · constructor
    · omega
    · exact .inr ⟨front, by rw [length]⟩
    · have kept : l.eraseIdx k ≠ [] := List.length_pos_iff.mp (by omega)
      simp [rep.notEmpty some_, kept]
    · rw [length, ← List.eraseIdx_map, ← rep.live]
      change Ring.window _ (slotAt (tags.setIfInBounds _ none)) q.front _ = _
      rw [slotAt_set _ none (Nat.mod_lt _ (by decide)), Ring.window_update_rear _ _ (by omega), moved,
        slotAt_set _ none posIn]
      apply Ring.window_eraseIdx inside
      · intro i small
        rw [Ring.shiftDown_outside fun j less => Ring.offset_ne (by omega) (by omega)]
        exact Function.update_of_ne (Ring.offset_ne small (by omega)) _ _
      · intro i large small
        have step := Ring.shiftDown_inside (Function.update (slotAt q.flvTags) pos none) q.front k
          (show i - k < l.length - k by omega) (by omega) (show i - k + 1 < cachedTagsLimit by omega)
        rw [show k + (i - k) = i by omega] at step
        exact step.trans (Function.update_of_ne (Ring.offset_ne (by omega) (by omega)).symm _ _)

/-- The scan visits the live tags from offset `k` on and stops at the first that is not a key frame. -/
theorem dropFrameScan_eq {q : ViewerQueue} {l : List FlvTagFrame} (rep : Represents q l) (fuel k : Nat)
    (inside : k < l.length) (enough : l.length - k ≤ fuel) :
    dropFrameScan q fuel ((q.front + k) % cachedTagsLimit) =
      some (((l.drop k).findIdx? (!·.isKeyFrame)).map fun i => (q.front + (k + i)) % cachedTagsLimit) := by
  have bounded := rep.bounded
  have rear := (rep.inRange (List.length_pos_iff.mp (by omega))).2
  induction fuel generalizing k with
  | zero => omega
  | succ fuel ih =>
    have next : ((q.front + k) % cachedTagsLimit + 1) % cachedTagsLimit = (q.front + (k + 1)) % cachedTagsLimit := by
      rw [Nat.mod_add_mod]; rfl
    rw [dropFrameScan, rep.slot_eq inside, List.drop_eq_getElem_cons inside, List.findIdx?_cons]
    simp only [Option.bind_eq_bind, Option.bind_some, next]
    split
    · rfl
    · by_cases last : k + 1 = l.length
      · rw [if_pos (by rw [rear, last]), List.drop_eq_nil_of_le (by omega)]
        rfl
      · rw [if_neg (by rw [rear]; exact Ring.offset_ne (by omega) (by omega)),
          ih (k + 1) (by omega) (by omega), Option.map_map]
        congr 2
        funext i
        simp only [Function.comp]
        congr 1
        omega

theorem dropFrame_represents {q : ViewerQueue} {l : List FlvTagFrame} (rep : Represents q l)
    (more : 1 < l.length) : ∃ q', dropFrame q = some q' ∧ Represents q' (Fifo.dropFrame l) := by
  have some_ : l ≠ [] := List.length_pos_iff.mp (by omega)
  have scan := dropFrameScan_eq rep cachedTagsLimit 0 (by omega) (by have := rep.bounded; omega)
  rw [Nat.add_zero, Nat.mod_eq_of_lt (rep.inRange some_).1, List.drop_zero] at scan
  simp only [dropFrame, viewerQueueEmpty, rep.notEmpty some_, Bool.false_eq_true, if_false, scan,
    Option.bind_eq_bind, Option.bind_some, Fifo.dropFrame, List.eraseP_eq_eraseIdx]
  cases found : l.findIdx? (!·.isKeyFrame) with
  | none =>
    have absent : l.any (!·.isKeyFrame) = false := by
      rw [← Bool.not_eq_true, ← List.findIdx?_isSome, found]
      decide
    rw [absent]
    exact viewerQueuePop_represents rep
  | some k =>
    have present : l.any (!·.isKeyFrame) = true := by
      rw [← List.findIdx?_isSome, found]
      rfl
    obtain ⟨inside, _⟩ := List.findIdx?_eq_some_iff_getElem.mp found
    rw [present]
    simpa using viewerQueueDelete_represents rep inside more

theorem Fifo.length_dropFrame {l : List FlvTagFrame} (some_ : l ≠ []) :
    (Fifo.dropFrame l).length + 1 = l.length := by
  have := List.length_pos_iff.mpr some_
  unfold Fifo.dropFrame
  split
  · next present =>
    rw [List.length_eraseP, if_pos present]
    omega
  · rw [List.length_tail]
    omega

/-- The push loop keeps the bound whatever the queue holds. -/
theorem pushTag_represents {q : ViewerQueue} {l : List FlvTagFrame} (rep : Represents q l) (t : FlvTagFrame) :
    ∃ q', pushTag q t = some q' ∧ Represents q' (Fifo.pushTag l t) := by
  unfold pushTag Fifo.pushTag
  have full := viewerQueueFull_iff rep
  by_cases length : l.length = cachedTagsLimit
  · have some_ : l ≠ [] := List.length_pos_iff.mp (by rw [length]; decide)
    obtain ⟨q', dropped, rep'⟩ := dropFrame_represents rep (by rw [length]; decide)
    rw [if_pos (full.mpr length), if_pos length, dropped]
    have shorter := Fifo.length_dropFrame some_
    exact viewerQueuePush_represents rep' t (by omega)
  · have notFull : ¬viewerQueueFull q = true := fun h => length (full.mp h)
    have bounded := rep.bounded
    rw [if_neg notFull, if_neg length]
    exact viewerQueuePush_represents rep t (by omega)

/-! ### Runs -/

inductive QueueOp where
  | push (flvTag : FlvTagFrame)
  | top
  | pop

/-- One operation as the callbacks perform it; `top` only hands out a pointer. -/
def queueStep (q : ViewerQueue) : QueueOp → Option ViewerQueue
  | .push flvTag => pushTag q flvTag
  | .top => some q
  | .pop => viewerQueuePop q

def queueRun (q : ViewerQueue) : List QueueOp → Option ViewerQueue
  | [] => some q
  | op :: ops => (queueStep q op).bind (queueRun · ops)

/-- The FIFO list with the history of its elements: every copy pushed, every tag popped from the
head, and how often the overflow policy removed one. -/
structure Fifo.State where
  queue : List FlvTagFrame
  pushed : List FlvTagFrame
  popped : List FlvTagFrame
  drops : Nat

def Fifo.step (s : Fifo.State) : QueueOp → Fifo.State
  | .push t => {
      queue := Fifo.pushTag s.queue t
      pushed := s.pushed ++ [{ t with sentBytes := 0 }]
      popped := s.popped
      drops := if s.queue.length = cachedTagsLimit then s.drops + 1 else s.drops }
  | .top => s
  | .pop => { s with queue := s.queue.tail, popped := s.popped ++ s.queue.head?.toList }

def Fifo.run (s : Fifo.State) (ops : List QueueOp) : Fifo.State := ops.foldl Fifo.step s

/-- Nothing but `drop_frame` loses a tag, and nothing duplicates or reorders one. -/
def Fifo.Conserved (s : Fifo.State) : Prop :=
  (s.popped ++ s.queue).Sublist s.pushed ∧
  s.pushed.length = s.popped.length + s.queue.length + s.drops

theorem Fifo.dropFrame_sublist (l : List FlvTagFrame) : (Fifo.dropFrame l).Sublist l := by
  unfold Fifo.dropFrame
  split
  · exact List.eraseP_sublist
  · exact List.tail_sublist l

/-- `drop_frame` takes out one element: the first that is not a key frame, or else the head. -/
theorem Fifo.dropFrame_removes_one {l : List FlvTagFrame} (some_ : l ≠ []) :
    ∃ pre t post, l = pre ++ t :: post ∧ Fifo.dropFrame l = pre ++ post ∧
      (∀ u ∈ pre, u.isKeyFrame = true) ∧
      (t.isKeyFrame = false ∨ (pre = [] ∧ ∀ u ∈ l, u.isKeyFrame = true)) := by
  unfold Fifo.dropFrame
  by_cases present : l.any (!·.isKeyFrame) = true
  · rw [if_pos present]
    obtain ⟨t, member, plain⟩ := List.any_eq_true.mp present
    obtain ⟨u, pre, post, before, plain', split, erased⟩ := List.exists_of_eraseP (p := (!·.isKeyFrame)) member plain
    exact ⟨pre, u, post, split, erased, by simpa using before, .inl (by simpa using plain')⟩
  · rw [if_neg present]
    obtain ⟨t, rest, rfl⟩ := List.exists_cons_of_ne_nil some_
    refine ⟨[], t, rest, rfl, rfl, by simp, .inr ⟨rfl, fun u member => ?_⟩⟩
    by_contra plain
    exact present (List.any_eq_true.mpr ⟨u, member, by simpa using plain⟩)

theorem Fifo.step_conserved {s : Fifo.State} (h : Fifo.Conserved s) (op : QueueOp) :
    Fifo.Conserved (Fifo.step s op) := by
  obtain ⟨sub, count⟩ := h
  cases op with
  | top => exact ⟨sub, count⟩
  | pop =>
    cases queue : s.queue with
    | nil =>
      rw [queue] at sub count
      simpa [Fifo.Conserved, Fifo.step, queue] using And.intro sub count
    | cons t rest =>
      rw [queue] at sub count
      refine ⟨by simpa [Fifo.step, queue] using sub, ?_⟩
      simp only [Fifo.step, queue, List.tail_cons, List.head?_cons, Option.toList_some, List.length_append,
        List.length_cons, List.length_nil] at count ⊢
      omega
  | push t =>
    simp only [Fifo.Conserved, Fifo.step, Fifo.pushTag]
    split
    · next full =>
      have some_ : s.queue ≠ [] := List.length_pos_iff.mp (by rw [full]; decide)
      have shorter := Fifo.length_dropFrame some_
      refine ⟨?_, by simp only [List.length_append, List.length_singleton]; omega⟩
      rw [← List.append_assoc]
      exact (((Fifo.dropFrame_sublist _).append_left _).trans sub).append_right _
    · refine ⟨?_, by simp only [List.length_append, List.length_singleton]; omega⟩
      rw [← List.append_assoc]
      exact sub.append_right _

theorem Fifo.run_conserved {s : Fifo.State} (h : Fifo.Conserved s) (ops : List QueueOp) :
    Fifo.Conserved (Fifo.run s ops) := by
  induction ops generalizing s with
  | nil => exact h
  | cons op ops ih => exact ih (Fifo.step_conserved h op)

theorem queueStep_represents {q : ViewerQueue} {s : Fifo.State} (rep : Represents q s.queue) (op : QueueOp) :
    ∃ q', queueStep q op = some q' ∧ Represents q' (Fifo.step s op).queue := by
  cases op with
  | push t => exact pushTag_represents rep t
  | top => exact ⟨q, rfl, rep⟩
  | pop => exact viewerQueuePop_represents rep

theorem queueRun_represents {q : ViewerQueue} {s : Fifo.State} (rep : Represents q s.queue) (ops : List QueueOp) :
    ∃ q', queueRun q ops = some q' ∧ Represents q' (Fifo.run s ops).queue := by
  induction ops generalizing q s with
  | nil => exact ⟨q, rfl, rep⟩
  | cons op ops ih =>
    obtain ⟨q', stepped, rep'⟩ := queueStep_represents rep op
    obtain ⟨q'', ran, rep''⟩ := ih rep'
    exact ⟨q'', by simp [queueRun, stepped, ran], rep''⟩

/-- Every run of the array from the empty queue succeeds and represents the FIFO list of the same
run. There `top`, `pop` and `push` act on the head and the tail of the list, `drop_frame` on a full
queue takes out the element that the policy names, and the list accounts for every tag. -/
theorem viewerQueue_refines_fifo (ops : List QueueOp) :
    let s := Fifo.run ⟨[], [], [], 0⟩ ops
    ∃ q, queueRun newViewerQueue ops = some q ∧ Represents q s.queue ∧ Fifo.Conserved s ∧
      viewerQueueTop q = s.queue.head? ∧
      (∃ q', viewerQueuePop q = some q' ∧ Represents q' s.queue.tail) ∧
      (s.queue.length < cachedTagsLimit → ∀ t, ∃ q', viewerQueuePush q t = some q' ∧
        Represents q' (s.queue ++ [{ t with sentBytes := 0 }])) ∧
      (viewerQueueFull q = true ↔ s.queue.length = cachedTagsLimit) ∧
      (viewerQueueFull q = true → ∃ q' pre t post, dropFrame q = some q' ∧
        s.queue = pre ++ t :: post ∧ Represents q' (pre ++ post) ∧ (∀ u ∈ pre, u.isKeyFrame = true) ∧
        (t.isKeyFrame = false ∨ (pre = [] ∧ ∀ u ∈ s.queue, u.isKeyFrame = true))) := by
  intro s
  obtain ⟨q, ran, rep⟩ := queueRun_represents (s := ⟨[], [], [], 0⟩) represents_new ops
  have full := viewerQueueFull_iff rep
  refine ⟨q, ran, rep, Fifo.run_conserved (by simp [Fifo.Conserved]) ops, viewerQueueTop_eq rep,
    viewerQueuePop_represents rep, fun room t => viewerQueuePush_represents rep t room, full, fun isFull => ?_⟩
  have length := full.mp isFull
  have some_ : s.queue ≠ [] := List.length_pos_iff.mp (by rw [length]; decide)
  obtain ⟨q', dropped, rep'⟩ := dropFrame_represents rep (by rw [length]; decide)
  obtain ⟨pre, t, post, split, removed, keys, policy⟩ := Fifo.dropFrame_removes_one some_
  exact ⟨q', pre, t, post, dropped, split, removed ▸ rep', keys, policy⟩

end LiveStreaming.Streamer
