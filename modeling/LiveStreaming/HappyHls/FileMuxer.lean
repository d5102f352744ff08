import LiveStreaming.HappyHls.AacFile
import LiveStreaming.HappyHls.H264File

/-!
# A transport stream from two files

`ts_mux_for_h264_aac` writes the frames of an H.264 file and of an AAC file, each time one of the file whose clock is
behind. It looks for the end of the first only where that is the file to read from.
-/

namespace LiveStreaming.HappyHls
open Library FlvMux

inductive Stream where
  | h264 | aac
  deriving DecidableEq

/-- A frame that has been handed to `pes_2_ts`, and its time. -/
structure WrittenFrame where
  stream : Stream
  frame : List UInt8
  time : Nat

/-- The variables of `ts_mux_for_h264_aac`, what is left of its files, and the frames written so far. No file is long
enough to carry the clocks, of type `unsigned long`, round. -/
structure MuxState where
  muxer : Muxer
  h264File : List UInt8
  aacFile : List UInt8
  h264Pts : Nat
  aacPts : Nat
  handleH264Done : Bool
  handleAacDone : Bool
  aacFrame : Nat → UInt8
  frameLength : Nat
  h264Pes : TsPes
  aacPes : TsPes
  tsAdaptationFieldHead : TsAdaptationField
  tsAdaptationFieldTail : TsAdaptationField
  written : List WrittenFrame

namespace MuxState

def writeH264 (s : MuxState) (frame : List UInt8) : Run MuxState :=
  let h264Pes := h264Frame2Pes frame (UInt64.ofNat s.h264Pts) s.h264Pes
  if h264Pes.pesPacketLengthBeyond ≠ 0 then
    let head := writeAdaptiveHeadFields s.tsAdaptationFieldHead (UInt32.ofNat s.h264Pts)
    let tail := writeAdaptiveTailFields s.tsAdaptationFieldTail
    match pes2Ts s.muxer h264Pes tsH264Pid head tail (UInt64.ofNat s.h264Pts) (UInt64.ofNat s.aacPts) with
    | none => .error .fuel
    | some w =>
      .ok { s with
        muxer := w.muxer
        h264Pts := s.h264Pts + 1000 * 90 / h264FrameRate
        h264Pes := w.pes
        tsAdaptationFieldHead := head
        tsAdaptationFieldTail := tail
        written := s.written ++ [⟨.h264, frame, s.h264Pts⟩] }
  else .ok { s with h264Pes := h264Pes }

def writeAac (aacFrameSamplerate : Nat) (s : MuxState) : Run MuxState :=
  let frame := slice s.aacFrame 0 s.frameLength
  let aacPes := aacFrame2Pes frame (UInt64.ofNat s.aacPts) s.aacPes
  if aacPes.pesPacketLengthBeyond ≠ 0 then
    -- both calls are for the fields of a tail
    let head := writeAdaptiveTailFields s.tsAdaptationFieldHead
    let tail := writeAdaptiveTailFields s.tsAdaptationFieldTail
    match pes2Ts s.muxer aacPes tsAacPid head tail (UInt64.ofNat s.h264Pts) (UInt64.ofNat s.aacPts) with
    | none => .error .fuel
    | some w =>
      .ok { s with
        muxer := w.muxer
        aacPts := s.aacPts + 1024 * 1000 * 90 / aacFrameSamplerate
        aacPes := w.pes
        tsAdaptationFieldHead := head
        tsAdaptationFieldTail := tail
        written := s.written ++ [⟨.aac, frame, s.aacPts⟩] }
  else .ok { s with aacPes := aacPes }

/-- What the loop does while the video is not done. -/
def round (aacFrameSamplerate : Nat) (s : MuxState) : Run MuxState :=
  if s.h264Pts ≤ s.aacPts then do
    let (frame, h264File) ← readH264Frame s.h264File
    let s := { s with h264File := h264File }
    match frame with
    | none => .ok { s with handleH264Done := true }
    | some frame => writeH264 { s with frameLength := frame.length } frame
  else if s.handleAacDone then .ok s
  else
    match readAacFrame s.aacFile s.aacFrame s.frameLength with
    | none => .error .undefined
    | some r =>
      let s := { s with aacFile := r.file, aacFrame := r.frame, frameLength := r.frameLength }
      if r.status ≠ .ok then .ok { s with handleAacDone := true } else s.writeAac aacFrameSamplerate

/-- The loop, whose rounds take one unit of fuel each. -/
def loop (aacFrameSamplerate : Nat) : Nat → MuxState → Run MuxState
  | 0, _ => .error .fuel
  | fuel + 1, s => if s.handleH264Done then .ok s else round aacFrameSamplerate s >>= loop aacFrameSamplerate fuel

/-- The files have been opened. `stale` is what the variables hold that are not set, and what earlier calls have left
of the counters. -/
def opened (stale : MuxState) (h264File aacFile : List UInt8) : MuxState :=
  { stale with
    muxer := { stale.muxer with file := [] }
    h264File := h264File
    aacFile := aacFile
    h264Pts := 0
    aacPts := 0
    handleH264Done := false
    handleAacDone := false
    frameLength := 0
    written := [] }

end MuxState

def tsMuxForH264Aac (fuel : Nat) (stale : MuxState) (h264File aacFile : List UInt8) : Run MuxState :=
  MuxState.loop (obtainAacFileSamplerate aacFile stale.aacFrame) fuel (stale.opened h264File aacFile)

/-! ### The files -/

/-- An ADTS frame, which is as long as its header says. -/
structure AdtsFrame where
  bytes : List UInt8
  headed : adtsHeaderSize ≤ bytes.length
  synced : syncs fun i => bytes.getD i 0
  said : (AdtsHeader.read fun i => bytes.getD i 0).aacFrameLength.toNat = bytes.length

def adtsBytes (frames : List AdtsFrame) : List UInt8 := frames.flatMap AdtsFrame.bytes

theorem store_header {bytes : List UInt8} (headed : adtsHeaderSize ≤ bytes.length) (buffer : Nat → UInt8) {i : Nat}
    (inside : i < 7) : store buffer (bytes.take 7) i = bytes.getD i 0 := by
  have seven : adtsHeaderSize = 7 := rfl
  have place : i < bytes.length := by omega
  rw [store, List.getElem?_take_of_lt inside, List.getElem?_eq_getElem place, List.getD_eq_getElem?_getD,
    List.getElem?_eq_getElem place]
  rfl

theorem AdtsFrame.read_eq (f : AdtsFrame) (buffer : Nat → UInt8) :
    syncs (store buffer (f.bytes.take 7)) ∧
      (AdtsHeader.read (store buffer (f.bytes.take 7))).aacFrameLength.toNat = f.bytes.length := by
  have header := fun i inside => @store_header f.bytes f.headed buffer i inside
  constructor
  · have synced := f.synced
    rw [syncs] at synced ⊢
    rwa [header 0 (by decide), header 1 (by decide)]
  · have said := f.said
    rw [read_aacFrameLength] at said ⊢
    rwa [header 3 (by decide), header 4 (by decide), header 5 (by decide)]

theorem readAacFrame_adts (f : AdtsFrame) (frames : List AdtsFrame) (buffer : Nat → UInt8) (frameLength : Nat) :
    readAacFrame (adtsBytes (f :: frames)) buffer frameLength =
      some ⟨.ok, store buffer f.bytes, f.bytes.length, adtsBytes frames⟩ := by
  obtain ⟨synced, said⟩ := f.read_eq buffer
  exact readAacFrame_frame buffer synced f.headed said (adtsBytes frames) frameLength

theorem readAacFrame_end (buffer : Nat → UInt8) (frameLength : Nat) :
    readAacFrame (adtsBytes []) buffer frameLength = some ⟨.fileEof, store buffer [], frameLength, []⟩ := rfl

/-! ### What is asked of the loop -/

/-- The frames with their times, where each takes `step`. -/
def scheduled (step : Nat) (frames : List (List UInt8)) : List (List UInt8 × Nat) :=
  frames.mapIdx fun n frame => (frame, step * n)

def MuxState.log (stream : Stream) (s : MuxState) : List (List UInt8 × Nat) :=
  (s.written.filter fun w => w.stream = stream).map fun w => (w.frame, w.time)

def h264Step : Nat := 1000 * 90 / h264FrameRate

def aacStep (stale : MuxState) (audio : List AdtsFrame) : Nat :=
  1024 * 1000 * 90 / obtainAacFileSamplerate (adtsBytes audio) stale.aacFrame

/-- The loop comes to an end. It has written every frame of the video in order, and in order as many of the audio as
have times up to `last`, or more. -/
def Completes (stale : MuxState) (video : List H264Unit) (audio : List AdtsFrame) (last : Nat) : Prop :=
  ∃ fuel out, tsMuxForH264Aac fuel stale (h264Bytes video) (adtsBytes audio) = .ok out ∧
    out.log .h264 = scheduled h264Step (video.map H264Unit.frame) ∧
    ∃ k, out.log .aac = scheduled (aacStep stale audio) ((audio.map AdtsFrame.bytes).take k) ∧
      ∀ n < audio.length, aacStep stale audio * n ≤ last → n < k

theorem scheduled_concat (step : Nat) (frames : List (List UInt8)) (frame : List UInt8) :
    scheduled step (frames ++ [frame]) = scheduled step frames ++ [(frame, step * frames.length)] := by
  rw [scheduled, List.mapIdx_concat]
  rfl

theorem scheduled_fst (step : Nat) (frames : List (List UInt8)) : (scheduled step frames).map Prod.fst = frames := by
  refine List.ext_getElem (by simp [scheduled]) fun i _ _ => ?_
  simp [scheduled]

/-- The same writes come from equally many frames. -/
theorem scheduled_take {step : Nat} {frames : List (List UInt8)} {j k : Nat}
    (same : scheduled step (frames.take j) = scheduled step (frames.take k)) :
    min j frames.length = min k frames.length := by
  have taken := congrArg (fun log => (log.map Prod.fst).length) same
  simpa only [scheduled_fst, List.length_take] using taken

/-! ### One round -/

namespace MuxState

theorem writeH264_ok (s : MuxState) {frame : List UInt8} (some_ : frame ≠ []) : ∃ muxer h264Pes head tail,
    s.writeH264 frame = .ok { s with
      muxer := muxer
      h264Pts := s.h264Pts + h264Step
      h264Pes := h264Pes
      tsAdaptationFieldHead := head
      tsAdaptationFieldTail := tail
      written := s.written ++ [⟨.h264, frame, s.h264Pts⟩] } := by
  have written : WrittenField (writeAdaptiveHeadFields s.tsAdaptationFieldHead (UInt32.ofNat s.h264Pts)) :=
    .inl ⟨_, _, rfl⟩
  obtain ⟨w, _, _, ran, _⟩ := @pes2Ts_carries tsH264Pid (.inl rfl) _
    (writeAdaptiveTailFields s.tsAdaptationFieldTail) written s.muxer
    (h264Frame2Pes frame (UInt64.ofNat s.h264Pts) s.h264Pes) (UInt64.ofNat s.h264Pts) (UInt64.ofNat s.aacPts) _ rfl
  have filled : (h264Frame2Pes frame (UInt64.ofNat s.h264Pts) s.h264Pes).pesPacketLengthBeyond ≠ 0 :=
    fun zero => some_ (List.eq_nil_of_length_eq_zero zero)
  rw [writeH264]
  dsimp only
  rw [if_pos filled, ran]
  exact ⟨_, _, _, _, rfl⟩

theorem writeAac_ok (s : MuxState) (rate : Nat) (some_ : s.frameLength ≠ 0) : ∃ muxer aacPes head tail,
    s.writeAac rate = .ok { s with
      muxer := muxer
      aacPts := s.aacPts + 1024 * 1000 * 90 / rate
      aacPes := aacPes
      tsAdaptationFieldHead := head
      tsAdaptationFieldTail := tail
      written := s.written ++ [⟨.aac, slice s.aacFrame 0 s.frameLength, s.aacPts⟩] } := by
  have written : WrittenField (writeAdaptiveTailFields s.tsAdaptationFieldHead) := .inr ⟨_, rfl⟩
  obtain ⟨w, _, _, ran, _⟩ := @pes2Ts_carries tsAacPid (.inr rfl) _
    (writeAdaptiveTailFields s.tsAdaptationFieldTail) written s.muxer
    (aacFrame2Pes (slice s.aacFrame 0 s.frameLength) (UInt64.ofNat s.aacPts) s.aacPes) (UInt64.ofNat s.h264Pts)
    (UInt64.ofNat s.aacPts) _ rfl
  have filled : (aacFrame2Pes (slice s.aacFrame 0 s.frameLength) (UInt64.ofNat s.aacPts) s.aacPes).pesPacketLengthBeyond
      ≠ 0 := by
    intro zero
    have length : (slice s.aacFrame 0 s.frameLength).length = 0 := zero
    rw [length_slice] at length
    exact some_ length
  rw [writeAac]
  dsimp only
  rw [if_pos filled, ran]
  exact ⟨_, _, _, _, rfl⟩

theorem log_same {s : MuxState} {stream : Stream} {frame : List UInt8} {time : Nat} :
    log stream { s with written := s.written ++ [⟨stream, frame, time⟩] } = s.log stream ++ [(frame, time)] := by
  simp [log]

theorem log_other {s : MuxState} {stream other : Stream} (differ : other ≠ stream) {frame : List UInt8} {time : Nat} :
    log stream { s with written := s.written ++ [⟨other, frame, time⟩] } = s.log stream := by
  simp [log, differ]

end MuxState

/-- The first `i` frames of the video and the first `j` of the audio have been written. -/
structure Progress (video : List H264Unit) (audio : List AdtsFrame) (step i j : Nat) (s : MuxState) : Prop where
  h264File : s.h264File = h264Bytes (video.drop i)
  aacFile : s.aacFile = adtsBytes (audio.drop j)
  h264Pts : s.h264Pts = h264Step * i
  aacPts : s.aacPts = step * j
  h264Log : s.log .h264 = scheduled h264Step ((video.take i).map H264Unit.frame)
  aacLog : s.log .aac = scheduled step ((audio.take j).map AdtsFrame.bytes)
  running : s.handleH264Done = false
  aacDone : s.handleAacDone = true → audio.length ≤ j

namespace Progress
open MuxState

variable {video : List H264Unit} {audio : List AdtsFrame} {rate i j : Nat} {s : MuxState}

/-- A frame of the video is due. -/
theorem video_round (p : Progress video audio (1024 * 1000 * 90 / rate) i j s) (due : s.h264Pts ≤ s.aacPts)
    (more : i < video.length) :
    if video[i].frame.length + lookahead (video.drop (i + 1)) ≤ maxVideoTagBufSize then
      ∃ s', s.round rate = .ok s' ∧ Progress video audio (1024 * 1000 * 90 / rate) (i + 1) j s'
    else s.round rate = .error .undefined := by
  have rest : video.drop i = video[i] :: video.drop (i + 1) := List.drop_eq_getElem_cons more
  have read := video[i].readH264Frame_unit (video.drop (i + 1))
  rw [← rest, ← p.h264File] at read
  rw [MuxState.round, if_pos due, read]
  split
  · have some_ : video[i].frame ≠ [] := by
      rw [H264Unit.frame, H264Unit.code]
      cases video[i].long <;> simp [shortCode]
    obtain ⟨muxer, pes, head, tail, wrote⟩ := writeH264_ok { s with
      h264File := h264Bytes (video.drop (i + 1)), frameLength := video[i].frame.length } some_
    refine ⟨_, wrote, ?_⟩
    have taken : (video.take (i + 1)).map H264Unit.frame =
        (video.take i).map H264Unit.frame ++ [video[i].frame] := by
      rw [List.take_succ_eq_append_getElem more, List.map_append]
      rfl
    have count : ((video.take i).map H264Unit.frame).length = i := by
      rw [List.length_map, List.length_take, Nat.min_eq_left (Nat.le_of_lt more)]
    exact {
      h264File := rfl
      aacFile := p.aacFile
      h264Pts := by
        rw [p.h264Pts]
        exact (Nat.mul_succ _ i).symm
      aacPts := p.aacPts
      h264Log := by
        rw [taken, scheduled_concat, count, ← p.h264Log, ← p.h264Pts]
        exact log_same
      aacLog := (log_other (by decide)).trans p.aacLog
      running := p.running
      aacDone := p.aacDone }
  · rfl

/-- The end of the video is noticed when a frame of it is due. -/
theorem video_end (p : Progress video audio (1024 * 1000 * 90 / rate) video.length j s) (due : s.h264Pts ≤ s.aacPts) :
    s.round rate = .ok { s with h264File := [], handleH264Done := true } := by
  have none : s.h264File = h264Bytes [] := by rw [p.h264File, List.drop_length]
  rw [MuxState.round, if_pos due, none, readH264Frame_end]
  rfl

/-- A frame of the audio is due. -/
theorem audio_round (p : Progress video audio (1024 * 1000 * 90 / rate) i j s) (due : s.aacPts < s.h264Pts)
    (more : j < audio.length) :
    ∃ s', s.round rate = .ok s' ∧ Progress video audio (1024 * 1000 * 90 / rate) i (j + 1) s' := by
  have rest : audio.drop j = audio[j] :: audio.drop (j + 1) := List.drop_eq_getElem_cons more
  have open_ : ¬ s.handleAacDone = true := fun done => absurd (p.aacDone done) (Nat.not_le_of_lt more)
  have read := readAacFrame_adts audio[j] (audio.drop (j + 1)) s.aacFrame s.frameLength
  rw [← rest, ← p.aacFile] at read
  have some_ : audio[j].bytes.length ≠ 0 := by
    have headed := audio[j].headed
    rw [show adtsHeaderSize = 7 from rfl] at headed
    omega
  obtain ⟨muxer, pes, head, tail, wrote⟩ := writeAac_ok { s with
    aacFile := adtsBytes (audio.drop (j + 1))
    aacFrame := store s.aacFrame audio[j].bytes
    frameLength := audio[j].bytes.length } rate some_
  rw [MuxState.round, if_neg (Nat.not_le_of_lt due), if_neg open_, read]
  dsimp only
  rw [if_neg (by decide), wrote]
  refine ⟨_, rfl, ?_⟩
  have taken : (audio.take (j + 1)).map AdtsFrame.bytes =
      (audio.take j).map AdtsFrame.bytes ++ [audio[j].bytes] := by
    rw [List.take_succ_eq_append_getElem more, List.map_append]
    rfl
  have whole : slice (store s.aacFrame audio[j].bytes) 0 audio[j].bytes.length = audio[j].bytes :=
    slice_store s.aacFrame [] audio[j].bytes
  have count : ((audio.take j).map AdtsFrame.bytes).length = j := by
    rw [List.length_map, List.length_take, Nat.min_eq_left (Nat.le_of_lt more)]
  exact {
    h264File := p.h264File
    aacFile := rfl
    h264Pts := p.h264Pts
    aacPts := by
      rw [p.aacPts]
      exact (Nat.mul_succ _ j).symm
    h264Log := (log_other (by decide)).trans p.h264Log
    aacLog := by
      rw [taken, scheduled_concat, count, ← p.aacLog, ← p.aacPts, whole]
      exact log_same
    running := p.running
    aacDone := fun done => absurd done open_ }

/-- At the end of the audio nothing moves any more while the video is ahead. -/
theorem audio_end (p : Progress video audio (1024 * 1000 * 90 / rate) i audio.length s) (due : s.aacPts < s.h264Pts) :
    ∃ s', s.round rate = .ok s' ∧ Progress video audio (1024 * 1000 * 90 / rate) i audio.length s' := by
  rw [MuxState.round, if_neg (Nat.not_le_of_lt due)]
  by_cases done : s.handleAacDone = true
  · rw [if_pos done]
    exact ⟨s, rfl, p⟩
  · have none : s.aacFile = adtsBytes [] := by rw [p.aacFile, List.drop_length]
    rw [if_neg done, none, readAacFrame_end]
    refine ⟨_, if_pos (by decide : FileStatus.fileEof ≠ .ok), ?_⟩
    exact { p with aacFile := by rw [List.drop_length]; rfl, aacDone := fun _ => Nat.le_refl _ }

theorem loop_round (p : Progress video audio (1024 * 1000 * 90 / rate) i j s) (fuel : Nat) :
    s.loop rate (fuel + 1) = s.round rate >>= MuxState.loop rate fuel := by
  rw [loop, p.running, if_neg Bool.false_ne_true]

/-- Nothing is written any more then. -/
theorem stuck (p : Progress video audio (1024 * 1000 * 90 / rate) i audio.length s) (due : s.aacPts < s.h264Pts)
    (fuel : Nat) : s.loop rate fuel = .error .fuel := by
  induction fuel generalizing s with
  | zero => rfl
  | succ fuel ih =>
    obtain ⟨s', ran, p'⟩ := p.audio_end due
    rw [p.loop_round, ran]
    exact ih p' (by rwa [p'.aacPts, p'.h264Pts, ← p.aacPts, ← p.h264Pts])

/-- A loop that comes to an end has written the whole video, and the audio up to a frame that is due when the video
ends. -/
theorem of_loop (p : Progress video audio (1024 * 1000 * 90 / rate) i j s) (inVideo : i ≤ video.length)
    (inAudio : j ≤ audio.length) {fuel : Nat} {out : MuxState} (ran : s.loop rate fuel = .ok out) :
    UnitsFit (video.drop i) ∧ out.log .h264 = scheduled h264Step (video.map H264Unit.frame) ∧
      ∃ k ≤ audio.length,
        out.log .aac = scheduled (1024 * 1000 * 90 / rate) ((audio.map AdtsFrame.bytes).take k) ∧
        h264Step * video.length ≤ 1024 * 1000 * 90 / rate * k ∧
        ∀ n, j ≤ n → n < k → 1024 * 1000 * 90 / rate * n < h264Step * video.length := by
  induction fuel generalizing i j s with
  | zero => cases ran
  | succ fuel ih =>
    rw [p.loop_round] at ran
    rcases Nat.lt_or_ge s.aacPts s.h264Pts with due | due
    · rcases Nat.lt_or_eq_of_le inAudio with more | rfl
      · obtain ⟨s', step, p'⟩ := p.audio_round due more
        rw [step] at ran
        obtain ⟨fit, h264Log, k, within, aacLog, reached, before⟩ := ih p' inVideo more ran
        refine ⟨fit, h264Log, k, within, aacLog, reached, fun n low high => ?_⟩
        rcases Nat.eq_or_lt_of_le low with rfl | low
        · rw [← p.aacPts]
          exact due.trans_le (p.h264Pts.le.trans (Nat.mul_le_mul_left _ inVideo))
        · exact before n low high
      · have never := p.stuck due (fuel + 1)
        rw [p.loop_round, ran] at never
        cases never
    · rcases Nat.lt_or_eq_of_le inVideo with more | rfl
      · have step := p.video_round due more
        split at step
        · rename_i room
          obtain ⟨s', step, p'⟩ := step
          rw [step] at ran
          obtain ⟨fit, rest⟩ := ih p' more inAudio ran
          refine ⟨?_, rest⟩
          rw [List.drop_eq_getElem_cons more]
          exact ⟨room, fit⟩
        · rw [step] at ran
          cases ran
      · rw [p.video_end due] at ran
        have ended : { s with h264File := [], handleH264Done := true } = out := by
          cases fuel with
          | zero => cases ran
          | succ fuel => exact Except.ok.inj ran
        subst ended
        have h264Log := p.h264Log
        have aacLog := p.aacLog
        rw [List.take_length] at h264Log
        rw [List.map_take] at aacLog
        rw [List.drop_length]
        refine ⟨trivial, h264Log, j, inAudio, aacLog, ?_, fun n low high => absurd low (Nat.not_le_of_lt high)⟩
        rwa [← p.h264Pts, ← p.aacPts]

/-- The loop comes to an end where the units fit and the audio is as long as the video. -/
theorem exists_loop (p : Progress video audio (1024 * 1000 * 90 / rate) i j s) (inVideo : i ≤ video.length)
    (inAudio : j ≤ audio.length) (fit : UnitsFit (video.drop i))
    (long : h264Step * video.length ≤ 1024 * 1000 * 90 / rate * audio.length) :
    ∃ fuel out, s.loop rate fuel = .ok out := by
  obtain ⟨rest, counted⟩ : ∃ rest, rest = video.length - i + (audio.length - j) := ⟨_, rfl⟩
  induction rest using Nat.strong_induction_on generalizing i j s with
  | _ rest ih =>
    have continues : ∀ {s'}, s.round rate = .ok s' → (∃ fuel out, s'.loop rate fuel = .ok out) →
        ∃ fuel out, s.loop rate fuel = .ok out := by
      rintro s' step ⟨fuel, out, ran⟩
      refine ⟨fuel + 1, out, ?_⟩
      rw [p.loop_round, step]
      exact ran
    rcases Nat.lt_or_ge s.aacPts s.h264Pts with due | due
    · rcases Nat.lt_or_eq_of_le inAudio with more | rfl
      · obtain ⟨s', step, p'⟩ := p.audio_round due more
        exact continues step (ih _ (by omega) p' inVideo more fit rfl)
      · rw [p.aacPts, p.h264Pts] at due
        exact absurd (due.trans_le (Nat.mul_le_mul_left _ inVideo)) (Nat.not_lt_of_le long)
    · rcases Nat.lt_or_eq_of_le inVideo with more | rfl
      · rw [List.drop_eq_getElem_cons more] at fit
        have step := p.video_round due more
        rw [if_pos fit.1] at step
        obtain ⟨s', step, p'⟩ := step
        exact continues step (ih _ (by omega) p' more inAudio fit.2 rfl)
      · exact continues (p.video_end due) ⟨1, _, rfl⟩

end Progress

/-! ### A whole run -/

variable (stale : MuxState) (video : List H264Unit) (audio : List AdtsFrame)

theorem progress_opened (step : Nat) :
    Progress video audio step 0 0 (stale.opened (h264Bytes video) (adtsBytes audio)) where
  h264File := rfl
  aacFile := rfl
  h264Pts := rfl
  aacPts := rfl
  h264Log := rfl
  aacLog := rfl
  running := rfl
  aacDone := by
    rintro ⟨⟩

/-- What the loop does for audio with times up to `last`. -/
theorem completes_iff (last : Nat) :
    Completes stale video audio last ↔
      UnitsFit video ∧ h264Step * video.length ≤ aacStep stale audio * audio.length ∧
        ∀ n < audio.length, aacStep stale audio * n ≤ last →
          aacStep stale audio * n < h264Step * video.length := by
  have start := progress_opened stale video audio (aacStep stale audio)
  constructor
  · rintro ⟨fuel, out, ran, -, m, taken, due⟩
    obtain ⟨fit, _, k, within, aacLog, reached, before⟩ := start.of_loop (Nat.zero_le _) (Nat.zero_le _) ran
    refine ⟨fit, reached.trans (Nat.mul_le_mul_left _ within), fun n inside early => before n (Nat.zero_le n) ?_⟩
    have same := scheduled_take (taken.symm.trans aacLog)
    rw [List.length_map, Nat.min_eq_left within] at same
    rw [← same]
    exact Nat.lt_min.mpr ⟨due n inside early, inside⟩
  · rintro ⟨fit, long, early⟩
    obtain ⟨fuel, out, ran⟩ := start.exists_loop (Nat.zero_le _) (Nat.zero_le _) fit long
    obtain ⟨_, h264Log, k, _, aacLog, reached, _⟩ := start.of_loop (Nat.zero_le _) (Nat.zero_le _) ran
    refine ⟨fuel, out, ran, h264Log, k, aacLog, fun n inside until_ => ?_⟩
    exact Nat.lt_of_mul_lt_mul_left ((early n inside until_).trans_le reached)

/-- The video ends when its last frame has been shown. The code comes to an end only if the audio is as long, and it
misses a frame of the audio that begins then. -/
theorem tsMuxForH264Aac_completes_iff :
    Completes stale video audio (h264Step * video.length) ↔
      UnitsFit video ∧ h264Step * video.length ≤ aacStep stale audio * audio.length ∧
        ∀ n < audio.length, aacStep stale audio * n ≠ h264Step * video.length := by
  rw [completes_iff]
  refine and_congr_right fun _ => and_congr_right fun _ => forall₂_congr fun n _ => ?_
  exact ⟨fun early => fun same => (early same.le).ne same, fun differ until_ => until_.lt_of_ne differ⟩

/-- No frame of the audio up to the time of the last picture is missed. -/
theorem completes_shown_iff (some_ : video ≠ []) :
    Completes stale video audio (h264Step * (video.length - 1)) ↔
      UnitsFit video ∧ h264Step * video.length ≤ aacStep stale audio * audio.length := by
  rw [completes_iff]
  refine and_congr_right fun _ => and_iff_left fun n _ shown => ?_
  have one := List.length_pos_iff.mpr some_
  have longer : h264Step * (video.length - 1) < h264Step * video.length :=
    Nat.mul_lt_mul_of_pos_left (by omega) (by decide)
  exact shown.trans_lt longer

/-! ### A file that is too short -/

def samplePicture : H264Unit where
  long := false
  data := [0x65]
  noCode := by decide
  noZero := by decide

/-- A frame at 44100 Hz without data. -/
def sampleAdts : AdtsFrame where
  bytes := [0xFF, 0xF1, 0x50, 0x80, 0x00, 0xFF, 0xFC]
  headed := by decide
  synced := by decide
  said := by decide

def blankMux : MuxState where
  muxer := Segments.start.muxer
  h264File := []
  aacFile := []
  h264Pts := 0
  aacPts := 0
  handleH264Done := false
  handleAacDone := false
  aacFrame := fun _ => 0
  frameLength := 0
  h264Pes := blankPes
  aacPes := blankPes
  tsAdaptationFieldHead := blankField
  tsAdaptationFieldTail := blankField
  written := []

/-- One frame of each, where that of the audio is over first. -/
theorem short_audio_loops : ¬ Completes blankMux [samplePicture] [sampleAdts] (h264Step * 1) := by
  rw [completes_iff]
  rintro ⟨_, long, _⟩
  exact absurd long (by decide)

end LiveStreaming.HappyHls
