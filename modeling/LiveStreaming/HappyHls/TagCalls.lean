import LiveStreaming.HappyHls.ReceiveStreamRuns

/-!
# One tag after another

The calls of `receive_stream_cb` for one tag of a stream: what each part of a call does where the header of the stream
has been read before. That the callback stops its watcher when it has handled a tag is left aside.
-/

namespace LiveStreaming.HappyHls.ReceiveStream
open Library Streamer

/-- The calls that a tag comes in with. They all look at the time, and the last has the tag whole. -/
structure TagCalls where
  earlier : List Setting
  setting : Setting
  previousTagSize : List UInt8
  header : List UInt8
  data : List UInt8

namespace Call

def changeSegments (tag : TagCalls) (c : Call) : Except CallEnd Call :=
  (tag.earlier ++ [tag.setting]).foldlM (fun c setting => c.changeSegment setting) c

def readTag (c : Call) : Except CallEnd Call := do
  let c ← c.readPreviousTagSize
  let c ← c.readTagHeader
  c.readTagData

/-- The tag has been read. -/
def withTag (tag : TagCalls) (c : Call) : Call :=
  { c with viewer := { c.viewer with
    previousTagSize := tag.previousTagSize
    flvTagHeader := tag.header
    flvTagData := tag.data
    flvTagDataTotalBytes := tag.data.length } }

/-- What a call does behind its reads. -/
def muxTag (setting : Setting) (c : Call) : Except CallEnd Call := do
  let c ← c.handleTag
  let c ← c.awaitKeyFrame setting
  c.writeFrame setting

def receiveTag (tag : TagCalls) (c : Call) : Except CallEnd Call := do
  let c ← c.changeSegments tag
  let c ← (c.withTag tag).muxTag tag.setting
  .ok c.finish

end Call

/-! ### What a call leaves behind -/

open EarlyExit

variable {setting : Setting} {channel : List UInt8} {c c' : Call}

/-- These parts of a call only leave it where they go astray. -/
abbrev Straight (next : Call → Prop) (body : Except CallEnd Call) : Prop :=
  Ends (fun ended => ended = .outside) next body

/-- `c'` has the queues of `c` and writes to the same segment. -/
structure SameSegment (c c' : Call) : Prop where
  aac : c'.statics.aacEsQueue = c.statics.aacEsQueue
  avc : c'.statics.avcEsQueue = c.statics.avcEsQueue
  segments : c'.statics.segments = c.statics.segments
  ftsHandler : c'.statics.ftsHandler = c.statics.ftsHandler
  tsFiles : c'.tsFiles = c.tsFiles
  handled : c'.handled = c.handled

theorem SameSegment.refl (c : Call) : SameSegment c c := ⟨rfl, rfl, rfl, rfl, rfl, rfl⟩

theorem SameSegment.trans {c₁ c₂ c₃ : Call} (first : SameSegment c₁ c₂) (second : SameSegment c₂ c₃) :
    SameSegment c₁ c₃ where
  aac := second.aac.trans first.aac
  avc := second.avc.trans first.avc
  segments := second.segments.trans first.segments
  ftsHandler := second.ftsHandler.trans first.ftsHandler
  tsFiles := second.tsFiles.trans first.tsFiles
  handled := second.handled.trans first.handled

/-- The segment of `c` has been closed and, where that can be done, another one opened. -/
structure NextSegment (c c' : Call) : Prop where
  opened : c.statics.ftsHandler = .opened
  aac : c'.statics.aacEsQueue = c.statics.aacEsQueue
  avc : c'.statics.avcEsQueue = c.statics.avcEsQueue
  segments : c'.statics.segments = c.statics.segments.createTsFile
  firstCreateTs : c'.statics.firstCreateTs = true
  tsFiles : (∃ directory url, c'.tsFiles = ⟨directory, url, []⟩ :: c.tsFiles ∧ c'.statics.ftsHandler = .opened) ∨
    c'.tsFiles = c.tsFiles ∧ c'.statics.ftsHandler = .null
  handled : c'.handled = c.handled

theorem addTsUrl_same (c : Call) : Straight (fun c' => SameSegment c c' ∧ c'.statics = c.statics) c.addTsUrl := by
  rw [Call.addTsUrl]
  cases addTsUrl2M3u8File c.viewer.tsUrlsPool c.statics.m3u8Config c.playlists with
  | none => rfl
  | some _ => exact ⟨⟨rfl, rfl, rfl, rfl, rfl, rfl⟩, rfl⟩

theorem createTs_next (c : Call) :
    ((∃ directory url, c.createTs.tsFiles = ⟨directory, url, []⟩ :: c.tsFiles ∧
        c.createTs.statics = { c.statics with ftsHandler := .opened }) ∨
      c.createTs.tsFiles = c.tsFiles ∧ c.createTs.statics = { c.statics with ftsHandler := .null }) ∧
    c.createTs.handled = c.handled := by
  rw [Call.createTs]
  cases HappyHls.createTsFile c.statics.m3u8Config with
  | none => exact ⟨.inr ⟨rfl, rfl⟩, rfl⟩
  | some url => exact ⟨.inl ⟨_, _, rfl, rfl⟩, rfl⟩

theorem nextSegment_next (c : Call) : Straight (NextSegment c) (c.nextSegment setting) := by
  rw [Call.nextSegment]
  split
  · rfl
  · next opened =>
    refine (addTsUrl_same _).mono (fun _ astray => astray) ?_
    rintro c' ⟨same, statics⟩
    obtain ⟨next, handled⟩ := createTs_next { c with statics := { c.statics with
      prev := setting.now
      m3u8Config := { c.statics.m3u8Config with
        timestamp := setting.now
        mediaCurSequence := c.statics.m3u8Config.mediaCurSequence + 1 }
      firstCreateTs := true
      segments := c.statics.segments.createTsFile } }
    rcases next with ⟨directory, url, tsFiles, changed⟩ | ⟨tsFiles, changed⟩
    · rw [changed] at statics
      exact ⟨not_not.mp opened, by rw [statics], by rw [statics], by rw [statics], by rw [statics],
        .inl ⟨directory, url, same.tsFiles.trans tsFiles, by rw [statics]⟩, same.handled.trans handled⟩
    · rw [changed] at statics
      exact ⟨not_not.mp opened, by rw [statics], by rw [statics], by rw [statics], by rw [statics],
        .inr ⟨same.tsFiles.trans tsFiles, by rw [statics]⟩, same.handled.trans handled⟩

theorem changeSegment_cases (c : Call) : Straight (fun c' => c' = c ∨ NextSegment c c')
    (c.changeSegment setting) := by
  rw [Call.changeSegment]
  split
  · have made : Straight (SameSegment c) c.createPlaylist := by
      rw [Call.createPlaylist]
      split
      · refine (addTsUrl_same _).mono (fun _ astray => astray) fun c' same => ?_
        have marked : SameSegment c { c with
            statics := { c.statics with initFirst := false, firstCreateTs := true }
            playlists := (createM3u8File c.statics.m3u8Config false c.playlists).2 } := ⟨rfl, rfl, rfl, rfl, rfl, rfl⟩
        exact marked.trans same.1
      · exact .refl c
    refine made.bind fun c₁ same => (nextSegment_next c₁).mono (fun _ astray => astray) fun c' next => .inr ?_
    have tsFiles := next.tsFiles
    rw [same.tsFiles] at tsFiles
    exact ⟨same.ftsHandler ▸ next.opened, next.aac.trans same.aac, next.avc.trans same.avc,
      next.segments.trans (by rw [same.segments]), next.firstCreateTs, tsFiles, next.handled.trans same.handled⟩
  · exact .inl rfl

theorem handleTag_straight (c : Call) : Straight
    (fun c' => ∃ decoder frames,
      c.statics.decoder.handleTag c.viewer.flvTagHeader c.viewer.flvTagData = some (decoder, frames) ∧
        c' = { c with
          statics := { c.statics with
            decoder
            aacEsQueue := c.statics.aacEsQueue ++ frames.aac
            avcEsQueue := c.statics.avcEsQueue ++ frames.avc }
          handled := c.handled ++ [c.viewer.previousTagSize ++ c.viewer.flvTagHeader ++ c.viewer.flvTagData] })
    c.handleTag := by
  rw [Call.handleTag]
  cases c.statics.decoder.handleTag c.viewer.flvTagHeader c.viewer.flvTagData with
  | none => rfl
  | some next => exact ⟨next.1, next.2, rfl, rfl⟩

theorem awaitKeyFrame_straight (c : Call) : Straight
    (fun c' => c.statics.firstCreateTs = false ∧ c' = c ∨
      c.statics.firstCreateTs = true ∧ ∃ frame rest, c.statics.avcEsQueue = frame :: rest ∧
        (c' = { c with statics := { c.statics with
            firstCreateTs := false
            segments := { c.statics.segments with aacPts := 0, h264Pts := 0 } } } ∨
          c' = { c with statics := { c.statics with prev := setting.later, avcEsQueue := rest } }))
    (c.awaitKeyFrame setting) := by
  rw [Call.awaitKeyFrame]
  split
  · next first =>
    cases c.statics.avcEsQueue with
    | nil => rfl
    | cons frame rest =>
      dsimp only
      split
      · exact .inr ⟨first, frame, rest, rfl, .inl rfl⟩
      · exact .inr ⟨first, frame, rest, rfl, .inr rfl⟩
  · next first => exact .inl ⟨Bool.eq_false_iff.mpr first, rfl⟩

/-- The open segment has the frame, unless it is empty. -/
theorem wrote_straight (c : Call) (frame : List UInt8) (segments : Segments) : Straight
    (fun c' => frame = [] ∧ c' = { c with statics := { c.statics with segments } } ∨
      frame ≠ [] ∧ c.statics.ftsHandler = .opened ∧ ∃ file files, c.tsFiles = file :: files ∧
        c' = { c with
          statics := { c.statics with segments }
          tsFiles := { file with frames := file.frames ++ [frame] } :: files })
    (c.wrote frame segments) := by
  rw [Call.wrote]
  split
  · next empty => exact .inl ⟨empty, rfl⟩
  · next some_ =>
    cases c.tsFiles with
    | nil => rfl
    | cons file files =>
      dsimp only
      split
      · next opened => exact .inr ⟨some_, opened, file, files, rfl, rfl⟩
      · rfl

/-- A frame of the audio waits, and its clock is behind. -/
def AudioDue (c : Call) : Prop :=
  c.statics.segments.aacPts < c.statics.segments.h264Pts ∧ c.statics.aacEsQueue ≠ []

theorem no_audio (noAudio : ¬ AudioDue c) :
    (if c.statics.segments.aacPts < c.statics.segments.h264Pts then c.statics.aacEsQueue else []) = [] := by
  split
  · next behind => exact not_not.mp fun some_ => noAudio ⟨behind, some_⟩
  · rfl

theorem writeFrame_straight (c : Call) : Straight
    (fun c' => c.statics.firstCreateTs = true ∧ c' = c ∨
      c.statics.firstCreateTs = false ∧
        ((∃ frame rest segments, AudioDue c ∧ c.statics.aacEsQueue = frame :: rest ∧
            c.statics.segments.writeAac frame.frameBuffer setting.pes setting.head setting.tail
              c.statics.decoder.aacTag.samplingFrequencyIndex.toNat = some segments ∧
            Call.wrote { c with statics := { c.statics with aacEsQueue := rest } } frame.frameBuffer segments =
              .ok c') ∨
          (∃ frame rest segments, ¬ AudioDue c ∧ c.statics.avcEsQueue = frame :: rest ∧
            c.statics.segments.writeH264 frame.frameBuffer setting.pes setting.head setting.tail = some segments ∧
            Call.wrote { c with statics := { c.statics with avcEsQueue := rest } } frame.frameBuffer segments =
              .ok c') ∨
          ¬ AudioDue c ∧ c.statics.avcEsQueue = [] ∧ c' = c))
    (c.writeFrame setting) := by
  rw [Call.writeFrame]
  split
  · next first => exact .inl ⟨first, rfl⟩
  · next first =>
    have running := Bool.eq_false_iff.mpr first
    dsimp only
    by_cases due : AudioDue c
    · obtain ⟨frame, rest, queue⟩ := List.exists_cons_of_ne_nil due.2
      rw [if_pos due.1, queue]
      dsimp only
      cases ran : c.statics.segments.writeAac frame.frameBuffer setting.pes setting.head setting.tail
          c.statics.decoder.aacTag.samplingFrequencyIndex.toNat with
      | none => rfl
      | some segments =>
        refine (wrote_straight _ _ _).exact.mono (fun _ astray => astray) fun c' wrote => ?_
        exact .inr ⟨running, .inl ⟨frame, rest, segments, due, rfl, ran, wrote⟩⟩
    · rw [no_audio due]
      cases c.statics.avcEsQueue with
      | nil => exact .inr ⟨running, .inr (.inr ⟨due, rfl, rfl⟩)⟩
      | cons frame rest =>
        dsimp only
        cases ran : c.statics.segments.writeH264 frame.frameBuffer setting.pes setting.head setting.tail with
        | none => rfl
        | some segments =>
          refine (wrote_straight _ _ _).exact.mono (fun _ astray => astray) fun c' wrote => ?_
          exact .inr ⟨running, .inr (.inl ⟨frame, rest, segments, due, rfl, ran, wrote⟩)⟩

/-! ### The calls of the callback -/

/-- `c'` has been read from the connection of `c`. -/
structure Reads (c c' : Call) : Prop where
  statics : c'.statics = c.statics
  tsFiles : c'.tsFiles = c.tsFiles
  playlists : c'.playlists = c.playlists
  tsUrlsPool : c'.viewer.tsUrlsPool = c.viewer.tsUrlsPool
  handled : c'.handled = c.handled

theorem Reads.refl (c : Call) : Reads c c := ⟨rfl, rfl, rfl, rfl, rfl⟩

theorem Reads.trans {c₁ c₂ c₃ : Call} (first : Reads c₁ c₂) (second : Reads c₂ c₃) : Reads c₁ c₃ where
  statics := second.statics.trans first.statics
  tsFiles := second.tsFiles.trans first.tsFiles
  playlists := second.playlists.trans first.playlists
  tsUrlsPool := second.tsUrlsPool.trans first.tsUrlsPool
  handled := second.handled.trans first.handled

/-- A call that returns before it has a tag whole has only read. -/
def LeftReading (c : Call) : CallEnd → Prop
  | .returns c' => Reads c c'
  | .stops _ => False
  | _ => True

theorem LeftReading.after {c c₁ : Call} (reads : Reads c c₁) : ∀ ended, LeftReading c₁ ended → LeftReading c ended := by
  intro ended left
  cases ended with
  | returns c' => exact reads.trans left
  | stops c' => exact left
  | _ => trivial

theorem readRest_reads {c : Call} {total : Nat} {sofar : List UInt8} {store : Viewer → List UInt8 → Viewer}
    (pool : ∀ viewer bytes, (store viewer bytes).tsUrlsPool = viewer.tsUrlsPool) :
    Ends (LeftReading c) (Reads c) (c.readRest total sofar store) := by
  rw [Call.readRest]
  cases readSpecifySize (total - sofar.length) c.socket with
  | none => trivial
  | some r =>
    dsimp only
    split
    · trivial
    · split
      · exact ⟨rfl, rfl, rfl, pool _ _, rfl⟩
      · exact ⟨rfl, rfl, rfl, pool _ _, rfl⟩

theorem readTag_reads (c : Call) : Ends (LeftReading c) (Reads c) c.readTag := by
  have size : Ends (LeftReading c) (Reads c) c.readPreviousTagSize := by
    rw [Call.readPreviousTagSize]
    split
    · exact readRest_reads (by intro _ _; rfl)
    · exact .refl c
  refine size.bind fun c₁ reads => ?_
  have header : Ends (LeftReading c₁) (Reads c₁) c₁.readTagHeader := by
    rw [Call.readTagHeader]
    split
    · refine (readRest_reads (by intro _ _; rfl)).bind ?_
      intro c' reads'
      exact ⟨reads'.statics, reads'.tsFiles, reads'.playlists, reads'.tsUrlsPool, reads'.handled⟩
    · exact .refl c₁
  refine (header.mono (LeftReading.after reads) fun c₂ reads₂ => reads.trans reads₂).bind fun c₂ reads₂ => ?_
  have data : Ends (LeftReading c₂) (Reads c₂) c₂.readTagData := by
    rw [Call.readTagData]
    split
    · exact readRest_reads (by intro _ _; rfl)
    · exact .refl c₂
  exact data.mono (LeftReading.after reads₂) fun c₃ reads₃ => reads₂.trans reads₃

theorem muxTag_straight (c : Call) : Straight (fun _ => True) (c.muxTag setting) := by
  refine (handleTag_straight c).bind fun c₁ _ => (awaitKeyFrame_straight c₁).bind fun c₂ _ => ?_
  exact (writeFrame_straight c₂).mono (fun _ astray => astray) fun _ _ => trivial

/-- Once the header of the stream has been read, a call may change the segment, reads on, and where the tag is whole
then handles it. -/
def Went (setting : Setting) (c : Call) : CallEnd → Prop
  | .returns c' => ∃ c₁, c.changeSegment setting = .ok c₁ ∧ Reads c₁ c'
  | .stops c' => ∃ c₁ c₂ c₃, c.changeSegment setting = .ok c₁ ∧ Reads c₁ c₂ ∧ c₂.muxTag setting = .ok c₃ ∧
      c' = c₃.finish
  | _ => True

theorem receiveStreamCb_went (begun : c.statics.theFirst = false) :
    Went setting c (receiveStreamCb setting channel c) := by
  have closed : ∀ P : Prop, ¬ (c.statics.theFirst = true ∧ P) := by
    rintro P ⟨first, _⟩
    rw [begun] at first
    cases first
  have replied : c.readReply setting = .ok c := if_neg (closed _)
  have headed : c.readFlvHeader setting channel = .ok c := if_neg (closed _)
  have body : receiveStreamCb setting channel c = Call.leave (c.changeSegment setting >>= fun c₁ =>
      c₁.readTag >>= fun c => c.muxTag setting) := by
    rw [receiveStreamCb_eq, replied]
    change Call.leave (c.behindReply setting channel) = _
    unfold Call.behindReply Call.readTag Call.muxTag
    rw [headed]
    simp only [bind_assoc]
    rfl
  have astray : ∀ ended, ended = .outside → Went setting c ended := by
    rintro _ rfl
    trivial
  have ends : Ends (Went setting c) (fun c₃ => Went setting c (.stops c₃.finish)) (c.changeSegment setting >>= fun c₁ =>
      c₁.readTag >>= fun c => c.muxTag setting) := by
    refine ((changeSegment_cases c).exact.mono astray fun _ changed => changed).bind fun c₁ changed => ?_
    have left : ∀ ended, LeftReading c₁ ended → Went setting c ended := by
      intro ended left
      cases ended with
      | returns c' => exact ⟨c₁, changed, left⟩
      | stops c' => exact absurd left id
      | _ => trivial
    refine ((readTag_reads c₁).mono left fun _ reads => reads).bind fun c₂ reads => ?_
    exact (muxTag_straight c₂).exact.mono astray fun c₃ muxed => ⟨c₁, c₂, c₃, changed, reads, muxed, rfl⟩
  rw [body]
  cases whole : (c.changeSegment setting >>= fun c₁ => c₁.readTag >>= fun c => c.muxTag setting) with
  | error ended =>
    rw [whole] at ends
    exact ends
  | ok c₃ =>
    rw [whole] at ends
    exact ends

/-! ### A frame that is written -/

/-- The header of a stream has been read, and its first segment opened. -/
def Call.begun (setting : Setting) (channel : List UInt8) : Call :=
  Call.firstSegment setting channel
    ⟨{ Statics.start with readHttpReplyFirst := false }, [], fun _ => none, .start 7, [], [], []⟩

def sampleKeyFrame : TagCalls where
  earlier := []
  setting := sampleSetting
  previousTagSize := [0, 0, 0, 0]
  header := [9, 0, 0, 12, 0, 0, 0, 0, 0, 0, 0]
  data := [0x17, 1, 0, 0, 0, 0, 0, 0, 3, 0x65, 0x88, 0x80]

theorem sampleKeyFrame_handled (d : Decoder) : ∃ d' frame,
    d.handleTag sampleKeyFrame.header sampleKeyFrame.data = some (d', ⟨[], [⟨startCode ++ d.spsBuffer, some true⟩,
      ⟨startCode ++ d.ppsBuffer, some true⟩, ⟨frame, some true⟩]⟩) ∧ frame ≠ [] ∧
      d'.spsBuffer = d.spsBuffer ∧ d'.ppsBuffer = d.ppsBuffer := by
  exact ⟨_, _, rfl, List.cons_ne_nil _ _, rfl, rfl⟩

theorem changeSegments_early (early : ¬ (c.statics.m3u8Config.targetDuration : Int) ≤ setting.now - c.statics.prev)
    {tag : TagCalls} (alone : tag.earlier = []) (last : tag.setting = setting) : c.changeSegments tag = .ok c := by
  have stays : c.changeSegment setting = .ok c := if_neg early
  rw [Call.changeSegments, alone, last, List.nil_append, List.foldlM_cons, stays]
  rfl

theorem handleTag_of {decoder : Decoder} {frames : Frames}
    (taken : c.statics.decoder.handleTag c.viewer.flvTagHeader c.viewer.flvTagData = some (decoder, frames)) :
    c.handleTag = .ok { c with
      statics := { c.statics with
        decoder
        aacEsQueue := c.statics.aacEsQueue ++ frames.aac
        avcEsQueue := c.statics.avcEsQueue ++ frames.avc }
      handled := c.handled ++ [c.viewer.previousTagSize ++ c.viewer.flvTagHeader ++ c.viewer.flvTagData] } := by
  rw [Call.handleTag, taken]

theorem awaitKeyFrame_running (running : c.statics.firstCreateTs = false) : c.awaitKeyFrame setting = .ok c := by
  rw [Call.awaitKeyFrame, running]
  rfl

/-- A frame of the video goes into the open segment. -/
theorem writeFrame_video {frame : TsPesFrame} {rest : List TsPesFrame} {file : TsFile} {files : List TsFile}
    (running : c.statics.firstCreateTs = false) (opened : c.statics.ftsHandler = .opened) (noAudio : ¬ AudioDue c)
    (queue : c.statics.avcEsQueue = frame :: rest) (some_ : frame.frameBuffer ≠ [])
    (known : c.tsFiles = file :: files) :
    ∃ muxer, c.writeFrame setting = .ok { c with
      statics := { c.statics with
        avcEsQueue := rest
        segments := { c.statics.segments with
          muxer, h264Pts := c.statics.segments.h264Pts + UInt64.ofNat (1000 * 90 / h264FrameRate) } }
      tsFiles := { file with frames := file.frames ++ [frame.frameBuffer] } :: files } := by
  obtain ⟨muxer, ran⟩ := writeH264_eq c.statics.segments some_ setting.pes setting.head setting.tail
  refine ⟨muxer, ?_⟩
  rw [Call.writeFrame, running, if_neg Bool.false_ne_true]
  dsimp only
  rw [no_audio noAudio, queue]
  dsimp only
  rw [ran]
  dsimp only
  rw [Call.wrote, if_neg some_]
  dsimp only
  rw [known]
  dsimp only
  rw [if_pos opened]

theorem muxTag_running {c₁ c₂ : Call} (handled : c.handleTag = .ok c₁) (running : c₁.statics.firstCreateTs = false)
    (wrote : c₁.writeFrame setting = .ok c₂) : c.muxTag setting = .ok c₂ := by
  rw [Call.muxTag, handled]
  change (c₁.awaitKeyFrame setting >>= fun c => c.writeFrame setting) = _
  rw [awaitKeyFrame_running running]
  exact wrote

/-- The stream is in its first segment, and there has been no audio. -/
structure FirstSegment (c : Call) : Prop where
  target : c.statics.m3u8Config.targetDuration = 15
  prev : c.statics.prev = 100
  firstCreateTs : c.statics.firstCreateTs = false
  ftsHandler : c.statics.ftsHandler = .opened
  tsFiles : c.tsFiles ≠ []
  aac : c.statics.aacEsQueue = []
  avc : ∀ frame ∈ c.statics.avcEsQueue, frame.frameBuffer ≠ []

theorem begun_firstSegment : FirstSegment (.begun sampleSetting [97]) where
  target := rfl
  prev := rfl
  firstCreateTs := rfl
  ftsHandler := rfl
  tsFiles := List.cons_ne_nil _ _
  aac := rfl
  avc := fun _ member => absurd member List.not_mem_nil

theorem FirstSegment.early (first : FirstSegment c) :
    ¬ (c.statics.m3u8Config.targetDuration : Int) ≤ sampleSetting.now - c.statics.prev := by
  rw [first.target, first.prev]
  decide

/-- There is a frame in the queue once a tag has put one there, and it is written. -/
theorem FirstSegment.received (first : FirstSegment c) {tag : TagCalls} (alone : tag.earlier = [])
    (last : tag.setting = sampleSetting) {d' : Decoder} {avc : List TsPesFrame}
    (taken : c.statics.decoder.handleTag tag.header tag.data = some (d', ⟨[], avc⟩))
    {frame : TsPesFrame} {rest : List TsPesFrame} (queue : c.statics.avcEsQueue ++ avc = frame :: rest)
    (some_ : ∀ frame ∈ avc, frame.frameBuffer ≠ []) {file : TsFile} {files : List TsFile}
    (known : c.tsFiles = file :: files) : ∃ muxer, c.receiveTag tag = .ok { c with
      statics := { c.statics with
        decoder := d'
        avcEsQueue := rest
        segments := { c.statics.segments with
          muxer, h264Pts := c.statics.segments.h264Pts + UInt64.ofNat (1000 * 90 / h264FrameRate) } }
      viewer := { c.viewer with previousTagSize := [], flvTagHeader := [], flvTagData := [], flvTagDataTotalBytes := 0 }
      handled := c.handled ++ [tag.previousTagSize ++ tag.header ++ tag.data]
      tsFiles := { file with frames := file.frames ++ [frame.frameBuffer] } :: files } := by
  have noAudio : ¬ AudioDue c := fun due => due.2 first.aac
  have filled : frame.frameBuffer ≠ [] := by
    have member : frame ∈ c.statics.avcEsQueue ++ avc := by
      rw [queue]
      exact List.mem_cons_self
    exact (List.mem_append.mp member).elim (first.avc frame) (some_ frame)
  obtain ⟨muxer, wrote⟩ := @writeFrame_video sampleSetting { c with
      statics := { c.statics with decoder := d', avcEsQueue := c.statics.avcEsQueue ++ avc }
      viewer := (c.withTag tag).viewer
      handled := c.handled ++ [tag.previousTagSize ++ tag.header ++ tag.data] } frame rest file files
    first.firstCreateTs first.ftsHandler noAudio queue filled known
  refine ⟨muxer, ?_⟩
  have handled : (c.withTag tag).handleTag = .ok { c with
      statics := { c.statics with decoder := d', avcEsQueue := c.statics.avcEsQueue ++ avc }
      viewer := (c.withTag tag).viewer
      handled := c.handled ++ [tag.previousTagSize ++ tag.header ++ tag.data] } := by
    rw [@handleTag_of (c.withTag tag) d' ⟨[], avc⟩ taken]
    dsimp only
    rw [List.append_nil]
    rfl
  rw [Call.receiveTag, changeSegments_early first.early alone last, last]
  change ((c.withTag tag).muxTag sampleSetting >>= fun c => Except.ok c.finish) = _
  rw [muxTag_running handled first.firstCreateTs wrote]
  rfl

theorem sampleKeyFrame_received (first : FirstSegment c) :
    ∃ c', c.receiveTag sampleKeyFrame = .ok c' ∧ FirstSegment c' := by
  obtain ⟨d', picture, taken, some_, _⟩ := sampleKeyFrame_handled c.statics.decoder
  obtain ⟨file, files, known⟩ := List.exists_cons_of_ne_nil first.tsFiles
  have filled : ∀ frame ∈ [⟨startCode ++ c.statics.decoder.spsBuffer, some true⟩,
      ⟨startCode ++ c.statics.decoder.ppsBuffer, some true⟩, (⟨picture, some true⟩ : TsPesFrame)],
      frame.frameBuffer ≠ [] := by
    simp [startCode, some_]
  obtain ⟨frame, rest, queue⟩ := List.exists_cons_of_ne_nil
    (List.append_ne_nil_of_right_ne_nil c.statics.avcEsQueue (List.cons_ne_nil
      ⟨startCode ++ c.statics.decoder.spsBuffer, some true⟩
      [⟨startCode ++ c.statics.decoder.ppsBuffer, some true⟩, (⟨picture, some true⟩ : TsPesFrame)]))
  obtain ⟨muxer, received⟩ := first.received rfl rfl taken queue filled known
  refine ⟨_, received, first.target, first.prev, first.firstCreateTs, first.ftsHandler, List.cons_ne_nil _ _,
    first.aac, ?_⟩
  intro later member
  have inside : later ∈ frame :: rest := List.mem_cons_of_mem frame member
  rw [← queue] at inside
  exact (List.mem_append.mp inside).elim (first.avc later) (filled later)

end LiveStreaming.HappyHls.ReceiveStream
