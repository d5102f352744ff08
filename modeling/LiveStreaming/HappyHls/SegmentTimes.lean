import LiveStreaming.HappyHls.TagCalls
import Mathlib.Algebra.Ring.Nat

/-!
# The times in a segment

`receive_stream_cb` sets the clock of the video on when it has written a frame from its queue. In the queue a key frame
is three frames, two of which are parameter sets.
-/

namespace LiveStreaming.HappyHls.ReceiveStream
open Library EarlyExit

/-- What a frame is. The frames of a video tag have its number. -/
inductive Piece where
  | audio
  | parameterSet (tag : Nat)
  | picture (tag : Nat)
  deriving DecidableEq

namespace Piece

def isVideo : Piece → Bool
  | .audio => false
  | _ => true

def isPicture : Piece → Bool
  | .picture _ => true
  | _ => false

def isSet : Piece → Bool
  | .parameterSet _ => true
  | _ => false

end Piece

/-- The frames that a video tag puts into the queue. -/
def pieces (tag : Nat) : Nat → List Piece
  | 0 => []
  | n + 1 => List.replicate n (.parameterSet tag) ++ [.picture tag]

/-- A frame in a segment, with the time that `pes_2_ts` was called with. -/
structure Entry where
  piece : Piece
  frame : List UInt8
  time : UInt64

/-- The stages that a call goes through. -/
inductive Stage where
  | changeSegment (setting : Setting)
  | readTag (tag : TagCalls)
  | handleTag
  | awaitKeyFrame (setting : Setting)
  | writeFrame (setting : Setting)
  | finish

def Call.stage : Stage → Call → Except CallEnd Call
  | .changeSegment setting, c => c.changeSegment setting
  | .readTag tag, c => .ok (c.withTag tag)
  | .handleTag, c => c.handleTag
  | .awaitKeyFrame setting, c => c.awaitKeyFrame setting
  | .writeFrame setting, c => c.writeFrame setting
  | .finish, c => .ok c.finish

def stagesOf (tag : TagCalls) : List Stage :=
  (tag.earlier ++ [tag.setting]).map Stage.changeSegment ++
    [.readTag tag, .handleTag, .awaitKeyFrame tag.setting, .writeFrame tag.setting, .finish]

/-- A call with what the frames in the video queue are, and with what is in the segments, the latest first. -/
structure Muxed where
  call : Call
  waits : List Piece
  segments : List (List Entry)

instance audioDueDecidable (c : Call) : Decidable (AudioDue c) := inferInstanceAs (Decidable (_ ∧ _))

namespace Muxed

/-- What the code takes from a queue to write it. -/
def takes (s : Muxed) : Option Entry :=
  if s.call.statics.firstCreateTs then none
  else if AudioDue s.call then
    s.call.statics.aacEsQueue.head?.map fun frame => ⟨.audio, frame.frameBuffer, s.call.statics.segments.aacPts⟩
  else
    match s.waits, s.call.statics.avcEsQueue with
    | piece :: _, frame :: _ => some ⟨piece, frame.frameBuffer, s.call.statics.segments.h264Pts⟩
    | _, _ => none

/-- Nothing is written of a frame that is empty. -/
def writes (s : Muxed) : List Entry := s.takes.toList.filter fun e => e.frame ≠ []

/-- What is known after a stage that has ended with `c`. -/
def after (s : Muxed) (c : Call) : Stage → Muxed
  | .changeSegment _ =>
    { s with
      call := c
      segments := if c.tsFiles.length = s.call.tsFiles.length then s.segments else [] :: s.segments }
  | .handleTag =>
    { s with
      call := c
      waits := s.waits ++
        pieces s.call.handled.length (c.statics.avcEsQueue.length - s.call.statics.avcEsQueue.length) }
  | .awaitKeyFrame _ =>
    { s with
      call := c
      waits := s.waits.drop (s.call.statics.avcEsQueue.length - c.statics.avcEsQueue.length) }
  | .writeFrame _ =>
    { call := c
      waits := s.waits.drop (s.call.statics.avcEsQueue.length - c.statics.avcEsQueue.length)
      segments := s.segments.modifyHead (· ++ s.writes) }
  | _ => { s with call := c }

def step (s : Muxed) (e : Stage) : Option Muxed :=
  match s.call.stage e with
  | .error _ => none
  | .ok c => some (s.after c e)

/-- The header of a stream has been read. -/
def start (setting : Setting) (channel : List UInt8) : Muxed :=
  { call := .begun setting channel
    waits := []
    segments := (Call.begun setting channel).tsFiles.map fun _ => [] }

end Muxed

/-! ### What is asked of a segment -/

/-- The pictures are as far apart as the frame rate says, and parameter sets have the time of their key frame. -/
structure InStep (segment : List Entry) : Prop where
  pictures : ∀ n e, (segment.filter fun e => e.piece.isPicture)[n]? = some e →
    e.time = UInt64.ofNat (n * 90000 / h264FrameRate)
  parameterSets : ∀ n, ∀ e ∈ segment, ∀ e' ∈ segment, e.piece = .parameterSet n → e'.piece = .picture n →
    e.time = e'.time

/-- No picture is behind a parameter set. -/
def PicturesFirst (segment : List Entry) : Prop :=
  segment.Pairwise fun e e' => e.piece.isSet → ¬ e'.piece.isPicture

/-- A stage does not write a picture into a segment that holds a parameter set. -/
def KeepsStep (s : Muxed) : Stage → Prop
  | .writeFrame _ => ∀ e ∈ s.writes, e.piece.isPicture → ∀ segment ∈ s.segments.head?, ∀ e' ∈ segment,
      ¬ e'.piece.isSet
  | _ => True

/-! ### The calls are runs of stages -/

def callStep (c : Call) (e : Stage) : Option Call := (c.stage e).toOption

variable {setting : Setting} {c c' : Call} {s s' : Muxed}

theorem callStep_of {e : Stage} (ran : c.stage e = .ok c') : callStep c e = some c' := by
  rw [callStep, ran]
  rfl

theorem changeSegments_exec (settings : List Setting)
    (changed : settings.foldlM (fun c setting => c.changeSegment setting) c = .ok c') :
    Transition.exec callStep c (settings.map .changeSegment) = some c' := by
  induction settings generalizing c with
  | nil => exact congrArg some (Except.ok.inj changed)
  | cons setting settings ih =>
    rw [List.foldlM_cons] at changed
    obtain ⟨c₁, first, changed⟩ := bind_ok changed
    rw [List.map_cons, Transition.exec, callStep_of (e := .changeSegment setting) first]
    exact ih changed

/-- What a call does with its tag are the stages in this order. -/
theorem receiveTag_exec {tag : TagCalls} (received : c.receiveTag tag = .ok c') :
    Transition.exec callStep c (stagesOf tag) = some c' := by
  obtain ⟨c₁, changed, received⟩ := bind_ok received
  obtain ⟨c₂, muxed, finished⟩ := bind_ok received
  obtain ⟨c₃, handled, muxed⟩ := bind_ok muxed
  obtain ⟨c₄, awaited, wrote⟩ := bind_ok muxed
  rw [stagesOf, Transition.exec_append, changeSegments_exec _ changed, Option.bind_some, Transition.exec,
    callStep_of (e := .readTag tag) rfl, Option.bind_some, Transition.exec, callStep_of (e := .handleTag) handled,
    Option.bind_some, Transition.exec, callStep_of (e := .awaitKeyFrame tag.setting) awaited, Option.bind_some,
    Transition.exec, callStep_of (e := .writeFrame tag.setting) wrote]
  exact congrArg some (Except.ok.inj finished)

/-- What is known of the frames does not change what the code does. -/
theorem Muxed.step_call {e : Stage} (next : s.step e = some s') : callStep s.call e = some s'.call := by
  rw [Muxed.step] at next
  cases ran : s.call.stage e with
  | error _ =>
    rw [ran] at next
    cases next
  | ok c =>
    rw [ran] at next
    obtain rfl := Option.some.inj next
    rw [callStep_of ran]
    cases e <;> rfl

/-! ### What every run keeps -/

/-- The parameter sets of a tag do not come behind its picture. -/
def InOrder (l : List Piece) : Prop := l.Pairwise fun p q => ∀ n, p = .picture n → q ≠ .parameterSet n

def videos (segment : List Entry) : List Entry := segment.filter fun e => e.piece.isVideo

/-- The frames of the video have the times that belong to their places. -/
def Timed (segment : List Entry) : Prop :=
  ∀ i e, (videos segment)[i]? = some e → e.time = UInt64.ofNat (3000 * i)

/-- `segment` is the open segment. -/
structure Current (s : Muxed) (segment : List Entry) (closed : List (List Entry)) : Prop where
  segments : s.segments = segment :: closed
  h264Pts : s.call.statics.segments.h264Pts = UInt64.ofNat (3000 * (videos segment).length)
  fresh : s.call.statics.firstCreateTs = true → segment = []
  order : InOrder (segment.map Entry.piece ++ s.waits)
  tags : ∀ n, .picture n ∈ segment.map Entry.piece ++ s.waits → n < s.call.handled.length

structure Tracked (s : Muxed) : Prop where
  waits : s.waits.length = s.call.statics.avcEsQueue.length
  video : ∀ p ∈ s.waits, p.isVideo = true
  files : s.segments.map (fun segment => segment.map Entry.frame) = s.call.tsFiles.map TsFile.frames
  timed : ∀ segment ∈ s.segments, Timed segment ∧ InOrder (segment.map Entry.piece)
  current : s.call.statics.ftsHandler = .opened → ∃ segment closed, Current s segment closed

theorem Timed.nil : Timed [] := fun _ _ known => by cases known

theorem Timed.concat_audio {segment : List Entry} (timed : Timed segment) {e : Entry}
    (audio : e.piece.isVideo = false) : Timed (segment ++ [e]) ∧ videos (segment ++ [e]) = videos segment := by
  have same : videos (segment ++ [e]) = videos segment := by simp [videos, audio]
  refine ⟨?_, same⟩
  rw [Timed, same]
  exact timed

theorem Timed.concat_video {segment : List Entry} (timed : Timed segment) {e : Entry} (video : e.piece.isVideo = true)
    (time : e.time = UInt64.ofNat (3000 * (videos segment).length)) :
    Timed (segment ++ [e]) ∧ (videos (segment ++ [e])).length = (videos segment).length + 1 := by
  have more : videos (segment ++ [e]) = videos segment ++ [e] := by simp [videos, video]
  refine ⟨fun i e' known => ?_, by rw [more, List.length_append, List.length_singleton]⟩
  rw [more] at known
  rcases Nat.lt_or_ge i (videos segment).length with inside | behind
  · rw [List.getElem?_append_left inside] at known
    exact timed i e' known
  · rw [List.getElem?_append_right behind, List.getElem?_singleton] at known
    split at known
    · next last =>
      obtain rfl := Option.some.inj known
      rw [time, Nat.le_antisymm (Nat.sub_eq_zero_iff_le.mp last) behind]
    · cases known

theorem tracked_start (setting : Setting) (channel : List UInt8) : Tracked (.start setting channel) := by
  have next : ((∃ directory url, (Call.begun setting channel).tsFiles = [⟨directory, url, []⟩]) ∨
      (Call.begun setting channel).tsFiles = [] ∧ (Call.begun setting channel).statics.ftsHandler = .null) ∧
      (Call.begun setting channel).statics.segments.h264Pts = 0 ∧
      (Call.begun setting channel).statics.avcEsQueue = [] := by
    obtain ⟨next, _⟩ := createTs_next { (⟨{ Statics.start with readHttpReplyFirst := false }, [], fun _ => none,
      .start 7, [], [], []⟩ : Call) with statics := { Statics.start with
        readHttpReplyFirst := false
        theFirst := false
        m3u8Config := ⟨directoryOf channel, channel, setting.timestamp, 1, 15, 4, 3⟩
        prev := setting.timestamp } }
    rw [Call.begun, Call.firstSegment]
    rcases next with ⟨directory, url, tsFiles, statics⟩ | ⟨tsFiles, statics⟩
    · rw [tsFiles, statics]
      exact ⟨.inl ⟨directory, url, rfl⟩, rfl, rfl⟩
    · rw [tsFiles, statics]
      exact ⟨.inr ⟨rfl, rfl⟩, rfl, rfl⟩
  obtain ⟨files, h264Pts, avc⟩ := next
  refine ⟨?_, fun p member => absurd member List.not_mem_nil, ?_, ?_, fun opened => ?_⟩
  · change 0 = (Call.begun setting channel).statics.avcEsQueue.length
    rw [avc]
    rfl
  · rcases files with ⟨directory, url, files⟩ | ⟨files, _⟩
    · simp [Muxed.start, files]
    · simp [Muxed.start, files]
  · intro segment member
    obtain ⟨_, _, rfl⟩ := List.mem_map.mp member
    exact ⟨Timed.nil, List.Pairwise.nil⟩
  · rcases files with ⟨directory, url, files⟩ | ⟨_, closed⟩
    · refine ⟨[], [], by simp [Muxed.start, files], h264Pts, fun _ => rfl, List.Pairwise.nil, fun n member => ?_⟩
      exact absurd member List.not_mem_nil
    · change (Call.begun setting channel).statics.ftsHandler = .opened at opened
      rw [closed] at opened
      cases opened

theorem tracked_changeSegment (tracked : Tracked s) (changed : s.call.changeSegment setting = .ok c) :
    Tracked (s.after c (.changeSegment setting)) := by
  rcases (changeSegment_cases s.call).of_ok changed with rfl | next
  · rw [Muxed.after, if_pos rfl]
    exact tracked
  · obtain ⟨segment, closed, current⟩ := tracked.current next.opened
    rcases next.tsFiles with ⟨directory, url, files, _⟩ | ⟨files, closed_⟩
    · have longer : c.tsFiles.length ≠ s.call.tsFiles.length := by
        rw [files, List.length_cons]
        exact Nat.succ_ne_self _
      rw [Muxed.after, if_neg longer]
      refine ⟨tracked.waits.trans (congrArg List.length next.avc.symm), tracked.video, ?_, ?_, fun _ =>
        ⟨[], s.segments, rfl, ?_, fun _ => rfl, ?_, ?_⟩⟩
      · dsimp only
        rw [files, List.map_cons, List.map_cons, tracked.files]
        rfl
      · intro segment member
        rcases List.mem_cons.mp member with rfl | member
        · exact ⟨Timed.nil, List.Pairwise.nil⟩
        · exact tracked.timed segment member
      · dsimp only
        rw [next.segments]
        rfl
      · exact (List.pairwise_append.mp current.order).2.1
      · intro n member
        dsimp only
        rw [next.handled]
        exact current.tags n (List.mem_append_right _ member)
    · rw [Muxed.after, if_pos (congrArg List.length files)]
      refine ⟨tracked.waits.trans (congrArg List.length next.avc.symm), tracked.video,
        tracked.files.trans (by rw [files]), tracked.timed,
        fun opened => ?_⟩
      dsimp only at opened
      rw [closed_] at opened
      cases opened

theorem mem_pieces {tag count : Nat} {p : Piece} (member : p ∈ pieces tag count) :
    p = .parameterSet tag ∨ p = .picture tag := by
  cases count with
  | zero => cases member
  | succ n =>
    rcases List.mem_append.mp member with set | picture
    · exact .inl (List.eq_of_mem_replicate set)
    · exact .inr (List.mem_singleton.mp picture)

/-- The frames of a tag come behind all others. -/
theorem inOrder_pieces {l : List Piece} (order : InOrder l) {tag : Nat} (older : ∀ n, .picture n ∈ l → n < tag)
    (count : Nat) : InOrder (l ++ pieces tag count) := by
  refine List.pairwise_append.mpr ⟨order, ?_, ?_⟩
  · cases count with
    | zero => exact List.Pairwise.nil
    | succ n =>
      refine List.pairwise_append.mpr ⟨List.pairwise_replicate.mpr (.inr ?_), List.pairwise_singleton _ _, ?_⟩
      · rintro _ ⟨⟩
      · intro p set q _ m picture
        rw [List.eq_of_mem_replicate set] at picture
        cases picture
  · rintro p member q new n rfl same
    have small := older n member
    rcases mem_pieces new with rfl | rfl
    · obtain rfl := Piece.parameterSet.inj same
      exact Nat.lt_irrefl _ small
    · cases same

theorem length_pieces (tag : Nat) (count : Nat) : (pieces tag count).length = count := by
  cases count with
  | zero => rfl
  | succ n => rw [pieces, List.length_append, List.length_replicate, List.length_singleton]

theorem tracked_handleTag (tracked : Tracked s) (handled : s.call.handleTag = .ok c) :
    Tracked (s.after c .handleTag) := by
  obtain ⟨decoder, frames, _, rfl⟩ := (handleTag_straight _).of_ok handled
  have count : (s.call.statics.avcEsQueue ++ frames.avc).length - s.call.statics.avcEsQueue.length =
      frames.avc.length := by
    rw [List.length_append, Nat.add_sub_cancel_left]
  refine ⟨?_, fun p member => ?_, tracked.files, tracked.timed, fun opened => ?_⟩
  · rw [Muxed.after]
    dsimp only
    rw [count, List.length_append, length_pieces, List.length_append, tracked.waits]
  · rcases List.mem_append.mp member with old | new
    · exact tracked.video p old
    · rcases mem_pieces new with rfl | rfl <;> rfl
  · obtain ⟨segment, closed, current⟩ := tracked.current opened
    refine ⟨segment, closed, current.segments, current.h264Pts, current.fresh, ?_, ?_⟩
    · rw [Muxed.after]
      dsimp only
      rw [← List.append_assoc]
      exact inOrder_pieces current.order current.tags _
    · intro n member
      rw [Muxed.after] at member ⊢
      dsimp only at member ⊢
      rw [List.length_append, List.length_singleton]
      rw [← List.append_assoc] at member
      rcases List.mem_append.mp member with older | new
      · exact Nat.lt_succ_of_lt (current.tags n older)
      · rcases mem_pieces new with same | same
        · cases same
        · obtain rfl := Piece.picture.inj same
          exact Nat.lt_succ_self _

theorem tracked_awaitKeyFrame (tracked : Tracked s) (awaited : s.call.awaitKeyFrame setting = .ok c) :
    Tracked (s.after c (.awaitKeyFrame setting)) := by
  rcases (awaitKeyFrame_straight _).of_ok awaited with ⟨_, rfl⟩ | ⟨first, frame, rest, queue, rfl | rfl⟩
  · rw [Muxed.after, Nat.sub_self]
    exact tracked
  · rw [Muxed.after, Nat.sub_self]
    refine ⟨tracked.waits, tracked.video, tracked.files, tracked.timed, fun opened => ?_⟩
    obtain ⟨segment, closed, current⟩ := tracked.current opened
    obtain rfl := current.fresh first
    exact ⟨[], closed, current.segments, rfl, fun _ => rfl, current.order, current.tags⟩
  · have one : s.call.statics.avcEsQueue.length - rest.length = 1 := by
      rw [queue, List.length_cons, Nat.add_sub_cancel_left]
    rw [Muxed.after]
    dsimp only
    rw [one]
    refine ⟨?_, fun p member => tracked.video p (List.mem_of_mem_drop member), tracked.files, tracked.timed,
      fun opened => ?_⟩
    · dsimp only
      rw [List.length_drop, tracked.waits, queue, List.length_cons, Nat.add_sub_cancel]
    · obtain ⟨segment, closed, current⟩ := tracked.current opened
      have fewer : (segment.map Entry.piece ++ s.waits.drop 1).Sublist (segment.map Entry.piece ++ s.waits) :=
        (List.drop_sublist 1 s.waits).append_left _
      exact ⟨segment, closed, current.segments, current.h264Pts, current.fresh, current.order.sublist fewer,
        fun n member => current.tags n (fewer.mem member)⟩

theorem writeAac_h264Pts {segments segments' : Segments} {frame : List UInt8} {pes : TsPes}
    {head tail : TsAdaptationField} {index : Nat} (wrote : segments.writeAac frame pes head tail index =
      some segments') :
    segments'.h264Pts = segments.h264Pts := by
  rw [Segments.writeAac] at wrote
  split at wrote
  · obtain ⟨w, _, wrote⟩ := Option.bind_eq_some_iff.mp wrote
    obtain ⟨rate, _, rfl⟩ := Option.map_eq_some_iff.mp wrote
    rfl
  · cases wrote
    rfl

theorem writeH264_h264Pts {segments segments' : Segments} {frame : List UInt8} {pes : TsPes}
    {head tail : TsAdaptationField} (wrote : segments.writeH264 frame pes head tail = some segments') :
    segments'.h264Pts = if frame = [] then segments.h264Pts else segments.h264Pts + 3000 := by
  split
  · next empty =>
    subst empty
    cases wrote
    rfl
  · next some_ =>
    obtain ⟨muxer, ran⟩ := writeH264_eq segments some_ pes head tail
    rw [ran] at wrote
    cases wrote
    rfl

/-- The open segment has got one more frame. -/
theorem Current.wrote {segment : List Entry} {closed : List (List Entry)} (current : Current s segment closed)
    (tracked : Tracked s) {e : Entry} {waits : List Piece} {file : TsFile} {files : List TsFile}
    (length : waits.length = c.statics.avcEsQueue.length) (video : ∀ p ∈ waits, p.isVideo = true)
    (known : s.call.tsFiles = file :: files)
    (wrote : c.tsFiles = { file with frames := file.frames ++ [e.frame] } :: files) (timed : Timed (segment ++ [e]))
    (h264Pts : c.statics.segments.h264Pts = UInt64.ofNat (3000 * (videos (segment ++ [e])).length))
    (running : c.statics.firstCreateTs = false) (handled : c.handled = s.call.handled)
    (order : InOrder ((segment ++ [e]).map Entry.piece ++ waits))
    (older : ∀ n, .picture n ∈ (segment ++ [e]).map Entry.piece ++ waits →
      .picture n ∈ segment.map Entry.piece ++ s.waits) :
    Tracked ⟨c, waits, (segment ++ [e]) :: closed⟩ := by
  have before := tracked.files
  rw [current.segments, known, List.map_cons, List.map_cons] at before
  obtain ⟨head, tail⟩ := List.cons.inj before
  refine ⟨length, video, ?_, ?_, fun _ =>
    ⟨segment ++ [e], closed, rfl, h264Pts, fun first => ?_, order, fun n member => ?_⟩⟩
  · dsimp only
    rw [wrote, List.map_cons, List.map_cons, List.map_append, head, tail]
    rfl
  · intro other member
    rcases List.mem_cons.mp member with rfl | member
    · exact ⟨timed, (List.pairwise_append.mp order).1⟩
    · exact tracked.timed other (current.segments ▸ List.mem_cons_of_mem _ member)
  · rw [running] at first
    cases first
  · dsimp only
    rw [handled]
    exact current.tags n (older n member)

theorem modifyHead_nil (segments : List (List Entry)) : segments.modifyHead (· ++ []) = segments := by
  cases segments with
  | nil => rfl
  | cons segment closed => exact congrArg (· :: closed) (List.append_nil segment)

/-- What is taken from the queue of the audio. -/
theorem takes_audio {frame : TsPesFrame} {rest : List TsPesFrame} (running : s.call.statics.firstCreateTs = false)
    (due : AudioDue s.call) (queue : s.call.statics.aacEsQueue = frame :: rest) :
    s.takes = some ⟨.audio, frame.frameBuffer, s.call.statics.segments.aacPts⟩ := by
  rw [Muxed.takes, running, if_neg Bool.false_ne_true, if_pos due, queue]
  rfl

theorem takes_video {frame : TsPesFrame} {rest : List TsPesFrame} {piece : Piece} {waits : List Piece}
    (running : s.call.statics.firstCreateTs = false) (noAudio : ¬ AudioDue s.call)
    (queue : s.call.statics.avcEsQueue = frame :: rest) (waiting : s.waits = piece :: waits) :
    s.takes = some ⟨piece, frame.frameBuffer, s.call.statics.segments.h264Pts⟩ := by
  rw [Muxed.takes, running, if_neg Bool.false_ne_true, if_neg noAudio, queue, waiting]

theorem writes_of {e : Entry} (taken : s.takes = some e) : s.writes = if e.frame = [] then [] else [e] := by
  rw [Muxed.writes, taken, Option.toList_some]
  split
  · next empty => simp [empty]
  · next some_ => simp [some_]

theorem inOrder_audio {l r : List Piece} (order : InOrder (l ++ r)) : InOrder (l ++ [.audio] ++ r) := by
  obtain ⟨left, right, across⟩ := List.pairwise_append.mp order
  rw [List.append_assoc]
  refine List.pairwise_append.mpr ⟨left, List.pairwise_cons.mpr ⟨?_, right⟩, fun p inLeft q inRight => ?_⟩
  · rintro q _ n ⟨⟩
  · rcases List.mem_cons.mp inRight with rfl | inRight
    · rintro n _ ⟨⟩
    · exact across p inLeft q inRight

theorem tracked_wroteAudio (tracked : Tracked s) {frame : TsPesFrame} {rest : List TsPesFrame} {segments : Segments}
    {index : Nat} (running : s.call.statics.firstCreateTs = false) (due : AudioDue s.call)
    (queue : s.call.statics.aacEsQueue = frame :: rest)
    (ran : s.call.statics.segments.writeAac frame.frameBuffer setting.pes setting.head setting.tail index =
      some segments)
    (wrote : Call.wrote { s.call with statics := { s.call.statics with aacEsQueue := rest } } frame.frameBuffer
      segments = .ok c) : Tracked (s.after c (.writeFrame setting)) := by
  have h264Pts := writeAac_h264Pts ran
  have stays : s.call.statics.avcEsQueue.length - c.statics.avcEsQueue.length = 0 := by
    rcases (wrote_straight _ _ _).of_ok wrote with ⟨_, rfl⟩ | ⟨_, _, file, files, _, rfl⟩ <;> exact Nat.sub_self _
  rw [Muxed.after, stays, writes_of (takes_audio running due queue)]
  rcases (wrote_straight _ _ _).of_ok wrote with ⟨empty, rfl⟩ | ⟨some_, opened, file, files, known, rfl⟩
  · rw [if_pos empty, modifyHead_nil]
    refine ⟨tracked.waits, tracked.video, tracked.files, tracked.timed, fun opened => ?_⟩
    obtain ⟨segment, closed, current⟩ := tracked.current opened
    exact ⟨segment, closed, current.segments, h264Pts.trans current.h264Pts, current.fresh, current.order,
      current.tags⟩
  · obtain ⟨segment, closed, current⟩ := tracked.current opened
    rw [if_neg some_, current.segments]
    have timed := (tracked.timed segment (current.segments ▸ List.mem_cons_self)).1
    obtain ⟨timed', same⟩ := @Timed.concat_audio segment timed
      ⟨.audio, frame.frameBuffer, s.call.statics.segments.aacPts⟩ rfl
    refine current.wrote tracked tracked.waits tracked.video known rfl timed' ?_ running rfl ?_ ?_
    · rw [same, ← current.h264Pts]
      exact h264Pts
    · rw [List.map_append]
      exact inOrder_audio current.order
    · intro n member
      rw [List.map_append, List.append_assoc] at member
      rcases List.mem_append.mp member with old | new
      · exact List.mem_append_left _ old
      · rcases List.mem_cons.mp new with same | new
        · cases same
        · exact List.mem_append_right _ new

theorem tracked_wroteVideo (tracked : Tracked s) {frame : TsPesFrame} {rest : List TsPesFrame} {segments : Segments}
    (running : s.call.statics.firstCreateTs = false) (noAudio : ¬ AudioDue s.call)
    (queue : s.call.statics.avcEsQueue = frame :: rest)
    (ran : s.call.statics.segments.writeH264 frame.frameBuffer setting.pes setting.head setting.tail = some segments)
    (wrote : Call.wrote { s.call with statics := { s.call.statics with avcEsQueue := rest } } frame.frameBuffer
      segments = .ok c) : Tracked (s.after c (.writeFrame setting)) := by
  obtain ⟨piece, waits, waiting⟩ : ∃ piece waits, s.waits = piece :: waits := by
    refine List.exists_cons_of_ne_nil fun none_ => ?_
    have length := tracked.waits
    rw [none_, queue] at length
    cases length
  have h264Pts := writeH264_h264Pts ran
  have one : s.call.statics.avcEsQueue.length - c.statics.avcEsQueue.length = 1 := by
    rcases (wrote_straight _ _ _).of_ok wrote with ⟨_, rfl⟩ | ⟨_, _, file, files, _, rfl⟩
    · rw [queue, List.length_cons]
      exact Nat.add_sub_cancel_left _ _
    · rw [queue, List.length_cons]
      exact Nat.add_sub_cancel_left _ _
  have isVideo := tracked.video piece (waiting ▸ List.mem_cons_self)
  have later : ∀ p ∈ waits, p.isVideo = true := fun p member =>
    tracked.video p (waiting ▸ List.mem_cons_of_mem _ member)
  have length : waits.length = rest.length := by
    have length := tracked.waits
    rw [waiting, queue] at length
    exact Nat.succ.inj length
  rw [Muxed.after, one, writes_of (takes_video running noAudio queue waiting), waiting, List.drop_one, List.tail_cons]
  rcases (wrote_straight _ _ _).of_ok wrote with ⟨empty, rfl⟩ | ⟨some_, opened, file, files, known, rfl⟩
  · rw [if_pos empty, modifyHead_nil]
    rw [if_pos empty] at h264Pts
    refine ⟨length, later, tracked.files, tracked.timed, fun opened => ?_⟩
    obtain ⟨segment, closed, current⟩ := tracked.current opened
    have fewer : (segment.map Entry.piece ++ waits).Sublist (segment.map Entry.piece ++ s.waits) := by
      rw [waiting]
      exact (List.sublist_cons_self piece waits).append_left _
    exact ⟨segment, closed, current.segments, h264Pts.trans current.h264Pts, current.fresh,
      current.order.sublist fewer, fun n member => current.tags n (fewer.mem member)⟩
  · obtain ⟨segment, closed, current⟩ := tracked.current opened
    rw [if_neg some_, current.segments]
    rw [if_neg some_] at h264Pts
    have timed := (tracked.timed segment (current.segments ▸ List.mem_cons_self)).1
    obtain ⟨timed', more⟩ := @Timed.concat_video segment timed
      ⟨piece, frame.frameBuffer, s.call.statics.segments.h264Pts⟩ isVideo current.h264Pts
    have all : (segment ++ [(⟨piece, frame.frameBuffer, s.call.statics.segments.h264Pts⟩ : Entry)]).map Entry.piece ++
        waits = segment.map Entry.piece ++ s.waits := by
      rw [List.map_append, List.append_assoc, waiting]
      rfl
    refine current.wrote tracked length later known rfl timed' ?_ running rfl ?_ ?_
    · rw [more, Nat.mul_succ, UInt64.ofNat_add, ← current.h264Pts]
      exact h264Pts
    · rw [all]
      exact current.order
    · rw [all]
      exact fun _ member => member

theorem tracked_writeFrame (tracked : Tracked s) (wrote : s.call.writeFrame setting = .ok c) :
    Tracked (s.after c (.writeFrame setting)) := by
  rcases (writeFrame_straight _).of_ok wrote with ⟨first, rfl⟩ | ⟨running, audio | video | ⟨noAudio, empty, rfl⟩⟩
  · have none_ : s.writes = [] := by
      rw [Muxed.writes, Muxed.takes, first]
      rfl
    rw [Muxed.after, Nat.sub_self, none_, modifyHead_nil]
    exact tracked
  · obtain ⟨frame, rest, segments, due, queue, ran, wrote⟩ := audio
    exact tracked_wroteAudio tracked running due queue ran wrote
  · obtain ⟨frame, rest, segments, noAudio, queue, ran, wrote⟩ := video
    exact tracked_wroteVideo tracked running noAudio queue ran wrote
  · have none_ : s.writes = [] := by
      rw [Muxed.writes, Muxed.takes, running, if_neg Bool.false_ne_true, if_neg noAudio, empty]
      cases s.waits <;> rfl
    rw [Muxed.after, Nat.sub_self, none_, modifyHead_nil]
    exact tracked

theorem step_ok {e : Stage} (next : s.step e = some s') : ∃ c, s.call.stage e = .ok c ∧ s' = s.after c e := by
  rw [Muxed.step] at next
  cases ran : s.call.stage e with
  | error _ =>
    rw [ran] at next
    cases next
  | ok c =>
    rw [ran] at next
    exact ⟨c, rfl, (Option.some.inj next).symm⟩

theorem tracked_step {e : Stage} (tracked : Tracked s) (next : s.step e = some s') : Tracked s' := by
  obtain ⟨c, ran, rfl⟩ := step_ok next
  have same : ∀ viewer : Viewer, Tracked { s with call := { s.call with viewer } } := fun viewer =>
    ⟨tracked.waits, tracked.video, tracked.files, tracked.timed, fun opened =>
      (tracked.current opened).imp fun segment ⟨closed, current⟩ =>
        ⟨closed, current.segments, current.h264Pts, current.fresh, current.order, current.tags⟩⟩
  cases e with
  | changeSegment setting => exact tracked_changeSegment tracked ran
  | readTag tag =>
    obtain rfl := Except.ok.inj ran
    exact same _
  | handleTag => exact tracked_handleTag tracked ran
  | awaitKeyFrame setting => exact tracked_awaitKeyFrame tracked ran
  | writeFrame setting => exact tracked_writeFrame tracked ran
  | finish =>
    obtain rfl := Except.ok.inj ran
    exact same _

theorem tracked_run {allowed : Muxed → Stage → Prop} {channel : List UInt8}
    (run : Transition.Reach Muxed.step allowed (.start setting channel) s) : Tracked s :=
  run.invariant (tracked_start setting channel) fun _ _ _ tracked _ next => tracked_step tracked next

/-! ### Segments in step -/

theorem PicturesFirst.step {e : Stage} (first : ∀ segment ∈ s.segments, PicturesFirst segment) (keeps : KeepsStep s e)
    (next : s.step e = some s') : ∀ segment ∈ s'.segments, PicturesFirst segment := by
  obtain ⟨c, _, rfl⟩ := step_ok next
  cases e with
  | changeSegment setting =>
    intro segment member
    dsimp only [Muxed.after] at member
    split at member
    · exact first segment member
    · rcases List.mem_cons.mp member with rfl | member
      · exact List.Pairwise.nil
      · exact first segment member
  | writeFrame setting =>
    intro segment member
    dsimp only [Muxed.after] at member
    cases segments : s.segments with
    | nil =>
      rw [segments] at member
      cases member
    | cons current closed =>
      rw [segments] at member first
      rcases List.mem_cons.mp member with rfl | member
      · have alone : s.writes.Pairwise fun e e' => e.piece.isSet → ¬ e'.piece.isPicture := by
          rw [Muxed.writes]
          refine List.Pairwise.sublist List.filter_sublist ?_
          cases s.takes with
          | none => exact List.Pairwise.nil
          | some e => exact List.pairwise_singleton _ e
        refine List.pairwise_append.mpr ⟨first current List.mem_cons_self, alone, fun e before e' new set picture => ?_⟩
        exact keeps e' new picture current (by rw [segments]; rfl) e before set
      · exact first segment (List.mem_cons_of_mem _ member)
  | _ => exact first

theorem pictures_prefix {segment : List Entry} (first : PicturesFirst segment) :
    (segment.filter fun e => e.piece.isPicture) <+: videos segment := by
  induction segment with
  | nil => exact List.prefix_rfl
  | cons e segment ih =>
    obtain ⟨behind, first⟩ := List.pairwise_cons.mp first
    rw [videos]
    cases piece : e.piece with
    | audio =>
      rw [List.filter_cons_of_neg (by simp [piece, Piece.isPicture]),
        List.filter_cons_of_neg (by simp [piece, Piece.isVideo])]
      exact ih first
    | picture tag =>
      rw [List.filter_cons_of_pos (by simp [piece, Piece.isPicture]),
        List.filter_cons_of_pos (by simp [piece, Piece.isVideo])]
      exact List.cons_prefix_cons.mpr ⟨rfl, ih first⟩
    | parameterSet tag =>
      rw [List.filter_eq_nil_iff.mpr]
      · exact List.nil_prefix
      · intro e' member
        rcases List.mem_cons.mp member with rfl | member
        · rw [piece]
          exact Bool.false_ne_true
        · exact behind e' member (by rw [piece]; rfl)

theorem frameTime (n : Nat) : n * 90000 / h264FrameRate = 3000 * n := by
  rw [h264FrameRate]
  omega

theorem ofNat_injective_below {a b : Nat} (small : a < 2 ^ 64) (small' : b < 2 ^ 64)
    (same : UInt64.ofNat a = UInt64.ofNat b) : a = b := by
  have values := congrArg UInt64.toNat same
  rwa [UInt64.toNat_ofNat_of_lt' small, UInt64.toNat_ofNat_of_lt' small'] at values

theorem Timed.inStep {segment : List Entry} (timed : Timed segment) (order : InOrder (segment.map Entry.piece))
    (first : PicturesFirst segment) : InStep segment where
  pictures := by
    intro n e known
    obtain ⟨sets, split⟩ := pictures_prefix first
    have place : (videos segment)[n]? = some e := by
      rw [← split, List.getElem?_append_left (List.getElem?_eq_some_iff.mp known).1]
      exact known
    rw [timed n e place, frameTime]
  parameterSets := by
    intro n e member e' member' set picture
    exfalso
    obtain ⟨i, inside, rfl⟩ := List.getElem_of_mem member
    obtain ⟨j, inside', rfl⟩ := List.getElem_of_mem member'
    rcases Nat.lt_trichotomy i j with before | rfl | behind
    · have no := List.pairwise_iff_getElem.mp first i j inside inside' before
      rw [set, picture] at no
      exact no rfl rfl
    · rw [set] at picture
      cases picture
    · have no := List.pairwise_iff_getElem.mp (List.pairwise_map.mp order) j i inside' inside behind
      exact no n picture set

theorem filter_at {segment : List Entry} {p : Entry → Bool} {j : Nat} (inside : j < segment.length)
    (holds : p segment[j] = true) : (segment.filter p)[((segment.take j).filter p).length]? = some segment[j] := by
  have split : segment.filter p = (segment.take j).filter p ++ segment[j] :: (segment.drop (j + 1)).filter p := by
    rw [← List.filter_cons_of_pos holds, ← List.filter_append, ← List.drop_eq_getElem_cons inside,
      List.take_append_drop]
  rw [split, List.getElem?_append_right (Nat.le_refl _), Nat.sub_self]
  rfl

/-- There is no other way to be in step while the clock has not gone round. -/
theorem Timed.inStep_iff {segment : List Entry} (timed : Timed segment) (order : InOrder (segment.map Entry.piece))
    (short : 3000 * segment.length < 2 ^ 64) : InStep segment ↔ PicturesFirst segment := by
  refine ⟨fun inStep => List.pairwise_iff_getElem.mpr fun i j inside inside' before set picture => ?_,
    timed.inStep order⟩
  have video : segment[j].piece.isVideo = true := by
    cases piece : segment[j].piece with
    | audio =>
      rw [piece] at picture
      cases picture
    | _ => rfl
  have fewer : ((segment.take j).filter fun e => e.piece.isPicture).length < (videos (segment.take j)).length := by
    have twice : (segment.take j).filter (fun e => e.piece.isPicture) =
        (videos (segment.take j)).filter fun e => e.piece.isPicture := by
      rw [videos, List.filter_filter]
      refine List.filter_congr fun e _ => ?_
      cases e.piece <;> rfl
    rw [twice, List.length_filter_lt_length_iff_exists]
    refine ⟨segment[i], List.mem_filter.mpr ⟨List.mem_take_iff_getElem.mpr ⟨i, by omega, rfl⟩, ?_⟩, ?_⟩
    · cases piece : segment[i].piece with
      | audio =>
        rw [piece] at set
        cases set
      | _ => rfl
    · cases piece : segment[i].piece with
      | picture _ =>
        rw [piece] at set
        cases set
      | _ => exact Bool.false_ne_true
  have due := inStep.pictures _ _ (@filter_at segment (fun e => e.piece.isPicture) j inside' picture)
  have written := timed (videos (segment.take j)).length _
    (@filter_at segment (fun e => e.piece.isVideo) j inside' video)
  have most : (videos (segment.take j)).length ≤ segment.length :=
    (List.length_filter_le _ _).trans (List.length_take_le' _ _)
  rw [frameTime] at due
  have same := ofNat_injective_below (by omega) (by omega) (due.symm.trans written)
  omega

/-- Where no picture goes into a segment that holds a parameter set, all segments are in step. -/
theorem segments_inStep {channel : List UInt8}
    (run : Transition.Reach Muxed.step KeepsStep (.start setting channel) s) :
    ∀ segment ∈ s.segments, InStep segment := by
  have first : ∀ segment ∈ s.segments, PicturesFirst segment := by
    refine run.invariant ?_ fun _ _ _ first keeps next => PicturesFirst.step first keeps next
    intro segment member
    obtain ⟨_, _, rfl⟩ := List.mem_map.mp member
    exact List.Pairwise.nil
  intro segment member
  obtain ⟨timed, order⟩ := (tracked_run run).timed segment member
  exact timed.inStep order (first segment member)

instance keepsStepDecidable : ∀ s e, Decidable (KeepsStep s e)
  | _, .writeFrame _ => inferInstanceAs (Decidable (∀ _ ∈ _, _ → ∀ _ ∈ _, ∀ _ ∈ _, ¬ _))
  | _, .changeSegment _ => .isTrue trivial
  | _, .readTag _ => .isTrue trivial
  | _, .handleTag => .isTrue trivial
  | _, .awaitKeyFrame _ => .isTrue trivial
  | _, .finish => .isTrue trivial

/-- A picture that refers to others. -/
def samplePFrame : TagCalls :=
  { sampleKeyFrame with data := [0x27, 1, 0, 0, 0, 0, 0, 0, 3, 0x61, 0x88, 0x80] }

def Muxed.times (s : Muxed) : List (List (Piece × UInt64)) :=
  s.segments.map fun segment => segment.map fun e => (e.piece, e.time)

theorem segments_inStep_sample : ∃ s : Muxed,
    s.times = [[(.picture 0, 0), (.picture 1, 3000)]] ∧ ∀ segment ∈ s.segments, InStep segment := by
  have ran : (Transition.exec (fun s e => if KeepsStep s e then s.step e else none) (.start sampleSetting [97])
      (stagesOf samplePFrame ++ stagesOf samplePFrame)).map Muxed.times =
      some [[(.picture 0, 0), (.picture 1, 3000)]] := by decide
  obtain ⟨s, reached, times⟩ := Option.map_eq_some_iff.mp ran
  exact ⟨s, times, segments_inStep (Transition.reach_of_checked .refl reached)⟩

/-- A key frame is late by its two parameter sets. -/
theorem key_frame_out_of_step : ∃ s : Muxed, Transition.exec Muxed.step (.start sampleSetting [97])
    (stagesOf sampleKeyFrame ++ stagesOf sampleKeyFrame ++ stagesOf sampleKeyFrame) = some s ∧
      ∃ segment ∈ s.segments, ¬ InStep segment := by
  have ran : (Transition.exec Muxed.step (.start sampleSetting [97])
      (stagesOf sampleKeyFrame ++ stagesOf sampleKeyFrame ++ stagesOf sampleKeyFrame)).map Muxed.times =
      some [[(.parameterSet 0, 0), (.parameterSet 0, 3000), (.picture 0, 6000)]] := by decide
  obtain ⟨s, reached, times⟩ := Option.map_eq_some_iff.mp ran
  obtain ⟨segment, only, entries⟩ := List.map_eq_singleton_iff.mp times
  have known : ∀ p ∈ ([(.parameterSet 0, 0), (.parameterSet 0, 3000), (.picture 0, 6000)] : List (Piece × UInt64)),
      ∃ e ∈ segment, (e.piece, e.time) = p := by
    rw [← entries]
    exact fun p member => List.mem_map.mp member
  refine ⟨s, reached, segment, by rw [only]; exact List.mem_singleton.mpr rfl, fun inStep => ?_⟩
  obtain ⟨set, inside, first⟩ := known (.parameterSet 0, 0) (by simp)
  obtain ⟨picture, inside', last⟩ := known (.picture 0, 6000) (by simp)
  have same := inStep.parameterSets 0 set inside picture inside' (congrArg Prod.fst first) (congrArg Prod.fst last)
  rw [show set.time = 0 from congrArg Prod.snd first, show picture.time = 6000 from congrArg Prod.snd last] at same
  exact absurd same (by decide)

end LiveStreaming.HappyHls.ReceiveStream
