import LiveStreaming.FlvMux.Mux
import LiveStreaming.FlvMux.VideoUnits
import LiveStreaming.Library.Binary64

/-!
# The file that the muxer writes

Every turn of the loop appends a tag and its size. Where the audio file has ended, or a frame of it is cut off, the
size is written without a tag.
-/

namespace LiveStreaming.FlvMux
open Library FlvFile EarlyExit

variable {δ : Type} {d : Double δ} {left : Nat → UInt8 × UInt8} {settings : Settings δ} {n : Nat} {s s' : Mux δ}
  {tags : List (List UInt8)}

/-! ### One turn -/

structure Wrote (s s' : Mux δ) (tag : List UInt8) : Prop where
  stretch : Stretch tag
  flv : s'.flv = (s.writeTag tag).flv
  writeSizePos : s'.writeSizePos = (s.writeTag tag).writeSizePos

structure AudioTurn (s s' : Mux δ) (tag : List UInt8) : Prop extends Wrote s s' tag where
  other : isKeyFrameTag tag = false
  decodeAudioDone : s'.decodeAudioDone → s.decodeAudioDone ∨ tag = []
  video : s'.video = s.video
  decodeVideoDone : s'.decodeVideoDone = s.decodeVideoDone
  filepositions : s'.filepositions = s.filepositions

/-- What a turn of the loop does: an audio tag or the size of none, the end of the video file, or a video tag. -/
inductive Turn (d : Double δ) (n : Nat) (s s' : Mux δ) : Prop where
  | audio (tag : List UInt8) (turn : AudioTurn s s' tag)
  | ended (last : Bool) (passes : Passes s.video s'.video false last)
      (done : s'.decodeVideoDone = (s.decodeVideoDone || last)) (audio : s'.decodeAudioDone = s.decodeAudioDone)
      (flv : s'.flv = s.flv) (writeSizePos : s'.writeSizePos = s.writeSizePos)
        (same : s'.filepositions = s.filepositions)
  | video (tag : List UInt8) (last : Bool) (wrote : Wrote s s' tag)
      (passes : Passes s.video s'.video (isKeyFrameTag tag) last)
      (done : s'.decodeVideoDone = (s.decodeVideoDone || last)) (audio : s'.decodeAudioDone = s.decodeAudioDone)
      (filepositions : if isKeyFrameTag tag then s.filepositions.length < n ∧ s'.filepositions = s.filepositions ++
          [d.ofNat (s'.writeSizePos + UInt32.ofNat (scriptSize n) - UInt32.ofNat tag.length - 4).toNat]
        else s'.filepositions = s.filepositions)

/-- A key frame comes, and the arrays are full. -/
def Overruns (n : Nat) (s : Mux δ) : Prop :=
  n ≤ s.filepositions.length ∧ ∃ video last, Passes s.video video true last

theorem not_isKeyFrameTag {tag : List UInt8} (type : tag.head? = some 0x08) : isKeyFrameTag tag = false := by
  unfold isKeyFrameTag
  rw [← List.head?_eq_getElem?, type]
  simp

theorem writeAudioTag_ends (timestamp : UInt32) (aacPacketType : UInt8) (s : Mux δ) :
    Ends (· = .undefined) (fun s' => ∃ tag, AudioTurn s s' tag) (s.writeAudioTag left timestamp aacPacketType) := by
  refine (writeStructAacTag_ends s.audio timestamp aacPacketType (left s.flv.pos)).bind ?_
  rintro ⟨tag, done, audio⟩ ⟨written, none⟩
  have wrote : Stretch tag ∧ isKeyFrameTag tag = false := by
    rcases written with rfl | ⟨isTag, type⟩
    · exact ⟨.inl rfl, rfl⟩
    · exact ⟨.inr isTag, not_isKeyFrameTag type⟩
  refine ⟨tag, ⟨wrote.1, rfl, rfl⟩, wrote.2, fun ended => ?_, rfl, rfl, rfl⟩
  exact ((Bool.or_eq_true _ _).mp ended).imp id none

theorem audioTurn_ends (s : Mux δ) :
    Ends (· = .undefined) (fun s' => ∃ tag, AudioTurn s s' tag) (s.audioTurn d left settings) := by
  refine (writeAudioTag_ends _ _ s).bind ?_
  rintro s' ⟨tag, turn⟩
  exact ⟨tag, ⟨turn.stretch, turn.flv, turn.writeSizePos⟩, turn.other, turn.decodeAudioDone, turn.video,
    turn.decodeVideoDone, turn.filepositions⟩

theorem videoTurn_ends (fuel : Nat) (s : Mux δ) :
    Ends (fun stop => stop = .overrun → Overruns settings.filepositionsTimesLength s)
      (Turn d settings.filepositionsTimesLength s) (s.videoTurn d fuel settings) := by
  refine ((writeFrameTag_ends fuel s.video _ s.videoFrameType).mono
    (fun stop other same => absurd same other) fun _ written => written).bind ?_
  rintro ⟨tag, videoFrameType, last, video⟩ ⟨key, passes, ⟨rfl, rfl⟩ | ⟨isTag, rfl, kind⟩⟩
  · exact .ended last passes rfl rfl rfl rfl rfl
  · dsimp only
    have some : tag.length ≠ 0 := fun none => not_isTag_nil (List.eq_nil_of_length_eq_zero none ▸ isTag)
    rw [if_neg some]
    by_cases key : videoFrameType = frameI
    · rw [if_pos key]
      unfold Mux.recordKeyFrame
      split
      · next room =>
        refine .video tag last ⟨.inr isTag, rfl, rfl⟩ passes rfl rfl ?_
        rw [if_pos (kind.mp key)]
        exact ⟨room, rfl⟩
      · next full =>
        rw [kind.mp key] at passes
        exact fun _ => ⟨Nat.not_lt.mp full, video, last, passes⟩
    · rw [if_neg key]
      refine .video tag last ⟨.inr isTag, rfl, rfl⟩ passes rfl rfl ?_
      rw [if_neg fun is => key (kind.mpr is)]
      rfl

/-- The turns of the loop, each with the state before it and the one behind it. -/
def Mux.turns (d : Double δ) (left : Nat → UInt8 × UInt8) (settings : Settings δ) :
    Nat → Mux δ → List (Mux δ × Mux δ)
  | 0, _ => []
  | fuel + 1, s =>
    if s.decodeVideoDone ∧ s.decodeAudioDone then []
    else
      match s.turn d left settings fuel with
      | .ok s' => (s, s') :: turns d left settings fuel s'
      | .error _ => []

theorem turn_ends (fuel : Nat) (s : Mux δ) :
    Ends (fun stop => stop = .overrun → Overruns settings.filepositionsTimesLength s)
      (Turn d settings.filepositionsTimesLength s) (s.turn d left settings fuel) := by
  have audio : Ends (fun stop => stop = .overrun → Overruns settings.filepositionsTimesLength s)
      (Turn d settings.filepositionsTimesLength s) (s.audioTurn d left settings) :=
    (audioTurn_ends s).mono (fun stop same => by rw [same]; exact Stop.noConfusion)
      fun s' ⟨tag, turn⟩ => .audio tag turn
  unfold Mux.turn
  split
  · exact audio
  · split
    · exact videoTurn_ends fuel s
    · split
      · exact videoTurn_ends fuel s
      · exact audio

/-- What every turn keeps holds when both files have ended. -/
theorem loop_ends {I : List (Mux δ × Mux δ) → Mux δ → Prop} {post : Stop → Prop}
    (keeps : ∀ turns s s', I turns s → Turn d settings.filepositionsTimesLength s s' → I (turns ++ [(s, s')]) s')
    (stops : ∀ turns s stop, I turns s → (stop = .overrun → Overruns settings.filepositionsTimesLength s) → post stop)
    (fuel : Nat) (turns : List (Mux δ × Mux δ)) (s : Mux δ) (before : I turns s) :
    Ends post (fun s' => I (turns ++ s.turns d left settings fuel) s' ∧ s'.decodeVideoDone ∧ s'.decodeAudioDone)
      (s.loop d left settings fuel) := by
  induction fuel generalizing turns s with
  | zero => exact stops turns s .fuel before Stop.noConfusion
  | succ fuel ih =>
    unfold Mux.loop Mux.turns
    split
    · next done =>
      rw [List.append_nil]
      exact ⟨before, done.1, done.2⟩
    · have ends := @turn_ends δ d left settings fuel s
      cases result : s.turn d left settings fuel with
      | error stop =>
        rw [result] at ends
        exact stops turns s stop before ends
      | ok s' =>
        rw [result] at ends
        have rest := ih (turns ++ [(s, s')]) s' (keeps turns s s' before ends)
        rw [List.append_assoc] at rest
        exact rest

/-! ### The tags -/

def front (n : Nat) : List UInt8 :=
  header 0x05 ++ sizeField 0 ++ List.replicate (scriptSize n) 0 ++ sizeField (scriptSize n)

/-- The file has the tags that have been written, and the size of none for the end of the audio file. -/
structure Layout (n : Nat) (s : Mux δ) (tags : List (List UInt8)) : Prop where
  flv : s.flv = ⟨front n ++ body tags, (front n ++ body tags).length⟩
  stretches : ∀ tag ∈ tags, Stretch tag
  unsized : s.decodeAudioDone → [] ∈ tags

theorem start_layout (n : Nat) (audio video : List UInt8) : Layout n (Mux.start d n audio video) [] where
  flv := by
    have first := SeekableFile.write_end (header 0x05) (sizeField 0)
    have some : sizeField (scriptSize n) ≠ [] := List.cons_ne_nil _ _
    have script := SeekableFile.write_behind (header 0x05 ++ sizeField 0) (scriptSize n) some
    rw [body_nil, List.append_nil, front, ← script, ← first]
    rfl
  stretches _ member := absurd member List.not_mem_nil
  unsized := nofun

theorem writeTag_flv {bytes : List UInt8} (flv : s.flv = ⟨bytes, bytes.length⟩) (tag : List UInt8) :
    (s.writeTag tag).flv = ⟨bytes ++ body [tag], (bytes ++ body [tag]).length⟩ := by
  rw [Mux.writeTag, flv, SeekableFile.write_end, SeekableFile.write_end, body_singleton, List.append_assoc]

theorem Layout.wrote {tag : List UInt8} (layout : Layout n s tags) (wrote : Wrote s s' tag)
    (done : s'.decodeAudioDone → s.decodeAudioDone ∨ tag = []) : Layout n s' (tags ++ [tag]) where
  flv := by
    rw [wrote.flv, writeTag_flv layout.flv, body_append, List.append_assoc]
  stretches other member := by
    rcases List.mem_append.mp member with before | new
    · exact layout.stretches other before
    · rw [List.mem_singleton.mp new]
      exact wrote.stretch
  unsized ended := by
    rcases done ended with before | rfl
    · exact List.mem_append_left _ (layout.unsized before)
    · exact List.mem_append_right _ (List.mem_singleton_self _)

theorem Layout.turn (layout : Layout n s tags) (turn : Turn d n s s') : ∃ tags, Layout n s' tags := by
  rcases turn with ⟨tag, turn⟩ | ⟨last, passes, done, audio, flv, pos, same⟩ |
    ⟨tag, last, wrote, passes, done, audio, positions⟩
  · exact ⟨_, layout.wrote turn.toWrote turn.decodeAudioDone⟩
  · exact ⟨tags, flv.trans layout.flv, layout.stretches, fun ended => layout.unsized (audio ▸ ended)⟩
  · exact ⟨_, layout.wrote wrote fun ended => .inl (audio ▸ ended)⟩

/-- What is written before the loop: a tag of each file. -/
structure Configs (s s' : Mux δ) (audio video : List UInt8) : Prop where
  written : ∃ s₁, AudioTurn s s₁ audio ∧ Wrote s₁ s' video ∧ s'.decodeAudioDone = s₁.decodeAudioDone
  other : isKeyFrameTag audio = false ∧ isKeyFrameTag video = false
  decodeVideoDone : s'.decodeVideoDone = s.decodeVideoDone
  filepositions : s'.filepositions = s.filepositions
  units : ∀ units, Units s.video units → Units s'.video (behind nalPps (behind nalSps units))

theorem writeConfigs_ends (fuel : Nat) (s : Mux δ) (going : s.video.eof = false) :
    Ends (· ≠ .overrun) (fun s' => ∃ audio video, Configs s s' audio video) (s.writeConfigs left fuel) := by
  refine ((writeAudioTag_ends _ _ s).mono (fun stop same => by rw [same]; decide) fun _ turn => turn).bind ?_
  rintro s₁ ⟨audio, turn⟩
  refine (writeConfigTag_ends fuel s₁.video _ s₁.videoFrameType (by rw [turn.video]; exact going)).bind ?_
  rintro ⟨tag, videoFrameType, last, video⟩ ⟨⟨isTag, other⟩, done, units⟩
  dsimp only at done units
  subst done
  refine ⟨audio, tag, ⟨s₁, turn, ⟨.inr isTag, rfl, rfl⟩, rfl⟩, ⟨turn.other, other⟩, ?_, turn.filepositions, ?_⟩
  · exact (Bool.or_false _).trans turn.decodeVideoDone
  · rw [← turn.video]
    exact units

theorem Layout.configs {audio video : List UInt8} (layout : Layout n s tags) (configs : Configs s s' audio video) :
    Layout n s' (tags ++ [audio] ++ [video]) := by
  obtain ⟨s₁, turn, wrote, done⟩ := configs.written
  exact (layout.wrote turn.toWrote turn.decodeAudioDone).wrote wrote fun ended => .inl (done ▸ ended)

theorem length_scriptTag (settings : Settings δ) (s : Mux δ) :
    (s.scriptTag d settings).length = scriptSize settings.filepositionsTimesLength :=
  length_writeStructScriptTag d _ _ _ _ _ _ _ _ _

theorem isTag_scriptTag (few : settings.filepositionsTimesLength ≤ scriptTagArrayLength) (s : Mux δ) :
    IsTag (s.scriptTag d settings) :=
  isTag_writeStructScriptTag d few _ _ _ _ _ _ _ _ _

/-- The script tag takes the room that was left for it. -/
theorem writeScriptTag_ends (layout : Layout settings.filepositionsTimesLength s tags) :
    Ends (fun stop => stop = .overrun ∧ scriptTagArrayLength < settings.filepositionsTimesLength)
      (fun out => IsTag (s.scriptTag d settings) ∧
        out.flv.bytes = header 0x05 ++ sizeField 0 ++ body (s.scriptTag d settings :: tags) ∧
        out = ⟨out.flv, settings.filepositionsTimesLength, filled d _ s.filepositions⟩)
      (s.writeScriptTag d settings) := by
  unfold Mux.writeScriptTag
  split
  · next many => exact ⟨rfl, many⟩
  · next few =>
    have length := length_scriptTag (d := d) settings s
    have isTag := isTag_scriptTag (d := d) (Nat.not_lt.mp few) s
    generalize s.scriptTag d settings = tag at length isTag
    refine ⟨isTag, ?_, rfl⟩
    have place : fileHeaderLength + 4 = (header 0x05 ++ sizeField 0).length := rfl
    have within := @SeekableFile.write_within (header 0x05 ++ sizeField 0)
      (List.replicate (scriptSize settings.filepositionsTimesLength) 0)
      (sizeField (scriptSize settings.filepositionsTimesLength) ++ body tags) tag s.flv.pos
      (length.trans List.length_replicate.symm)
    rw [body_cons, length, ← List.append_assoc (header 0x05 ++ sizeField 0), ← within, place, layout.flv, front,
      List.append_assoc (header 0x05 ++ sizeField 0 ++ List.replicate _ _)]
    rfl

theorem writeHead_ends (fuel : Nat) (width height framerate : δ) (audio video : List UInt8) :
    Ends (· ≠ .overrun) (fun head => ∃ units config sets, Units (.unread video) units ∧
        head.1.filepositionsTimesLength = units.countP countedUnit ∧
        Configs (Mux.start d head.1.filepositionsTimesLength audio video) head.2 config sets)
      (writeHead d left fuel width height framerate audio video) := by
  refine (traverseLoop_ends fuel allocNalu (.unread video) 0 (.inl rfl)).bind ?_
  rintro n ⟨units, all, count⟩
  rw [Nat.zero_add] at count
  refine ((detachHeadAac_ends audio).mono (fun stop same => by rw [same]; decide) fun _ read => read).bind ?_
  rintro ⟨_ | header, _⟩ -
  · exact Stop.noConfusion
  · refine (writeConfigs_ends fuel (Mux.start d n audio video) rfl).bind ?_
    rintro s ⟨config, sets, written⟩
    exact ⟨units, config, sets, all, count, written⟩

def turns (d : Double δ) (left : Nat → UInt8 × UInt8) (fuel : Nat) (width height framerate : δ)
    (audio video : List UInt8) : List (Mux δ × Mux δ) :=
  match writeHead d left fuel width height framerate audio video with
  | .ok (settings, s) => s.turns d left settings fuel
  | .error _ => []

/-- What the first two tags establish and every turn keeps holds when the script tag is written. -/
theorem writeTags_ends {I : Nat → List (Mux δ × Mux δ) → Mux δ → Prop} {post : Stop → Prop} {audio video : List UInt8}
    (configs : ∀ n s units config sets, Units (.unread video) units → n = units.countP countedUnit →
      Configs (Mux.start d n audio video) s config sets → I n [] s)
    (keeps : ∀ n turns s s', I n turns s → Turn d n s s' → I n (turns ++ [(s, s')]) s')
    (early : ∀ stop, stop ≠ .overrun → post stop) (overruns : ∀ n turns s, I n turns s → Overruns n s → post .overrun)
    (fuel : Nat) (width height framerate : δ) :
    Ends post (fun tags => I tags.1.filepositionsTimesLength
      (turns d left fuel width height framerate audio video) tags.2 ∧
        tags.2.decodeVideoDone ∧ tags.2.decodeAudioDone)
      (writeTags d left fuel width height framerate audio video) := by
  have ends := @writeHead_ends δ d left fuel width height framerate audio video
  unfold writeTags turns
  generalize writeHead d left fuel width height framerate audio video = head at ends
  cases head with
  | error stop => exact early stop ends
  | ok head =>
    obtain ⟨settings, s⟩ := head
    obtain ⟨units, config, sets, all, count, written⟩ := ends
    refine (loop_ends (keeps settings.filepositionsTimesLength) (fun turns s stop holds overrun => ?_) fuel [] s
      (configs _ s units config sets all count written)).bind fun s ends => ends
    by_cases same : stop = .overrun
    · rw [same]
      exact overruns _ turns s holds (overrun same)
    · exact early stop same

theorem writeTags_layout (fuel : Nat) (width height framerate : δ) (audio video : List UInt8) :
    Ends (fun _ => True) (fun written => (∃ tags, Layout written.1.filepositionsTimesLength written.2 tags) ∧
        written.2.decodeAudioDone)
      (writeTags d left fuel width height framerate audio video) := by
  refine (writeTags_ends (I := fun n _ s => ∃ tags, Layout n s tags)
    (fun n _ _ _ _ _ _ written => ⟨_, (start_layout n audio video).configs written⟩)
    (fun n _ s s' ⟨tags, layout⟩ turn => layout.turn turn) (fun _ _ => trivial) (fun _ _ _ _ _ => trivial)
    fuel width height framerate).mono (fun _ _ => trivial) ?_
  exact fun written ends => ⟨ends.1, ends.2.2⟩

/-- The file is a sequence of tags and their sizes, with the size of none somewhere. -/
theorem writeBuf2File_layout (fuel : Nat) (width height framerate : δ) (audio video : List UInt8) :
    Ends (fun _ => True) (fun out => ∃ tags, (∀ tag ∈ tags, Stretch tag) ∧ [] ∈ tags ∧
        out.flv.bytes = header 0x05 ++ sizeField 0 ++ body tags)
      (writeBuf2File d left fuel width height framerate audio video) := by
  refine (writeTags_layout fuel width height framerate audio video).bind ?_
  rintro ⟨settings, s⟩ ⟨⟨tags, layout⟩, done⟩
  refine (writeScriptTag_ends layout).mono (fun _ _ => trivial) ?_
  rintro out ⟨isTag, bytes, -⟩
  refine ⟨_, fun tag member => ?_, List.mem_cons_of_mem _ (layout.unsized done), bytes⟩
  rcases List.mem_cons.mp member with rfl | member
  · exact .inr isTag
  · exact layout.stretches tag member

/-- No file that is written is well formed: the size of none stands where the audio file has ended. -/
theorem muxed_malformed {fuel : Nat} {width height framerate : δ} {audio video : List UInt8} {out : Muxed δ}
    (muxed : writeBuf2File d left fuel width height framerate audio video = .ok out) : ¬ WellFormed out.flv.bytes := by
  have ends := @writeBuf2File_layout δ d left fuel width height framerate audio video
  rw [muxed] at ends
  obtain ⟨tags, stretches, unsized, bytes⟩ := ends
  rw [bytes, wellFormed_iff stretches]
  exact fun isTag => not_isTag_nil (isTag [] unsized)

/-- The numbers of the machine, where they are not negative. -/
def binary64 : Double ℚ where
  ofNat n := Binary64.nearest n
  add x y := Binary64.nearest (x + y)
  div x y := Binary64.nearest (x / y)
  gt x y := y < x
  toUInt32 x := UInt32.ofNat x.floor.toNat
  bytes x := Vector.ofFn fun i => UInt8.ofNat (Binary64.bits x >>> (8 * i.val))

/-- A header of 44100 Hz and two channels, and a frame of two bytes. -/
def sampleAudio : List UInt8 := [0xFF, 0xF1, 0x50, 0x80, 0x01, 0x20, 0x00, 0x21, 0x22]

/-- Two parameter sets and a slice of type I. -/
def sampleVideo : List UInt8 :=
  [0, 0, 0, 1, 0x67, 0x42, 0x00, 0x1E, 0, 0, 0, 1, 0x68, 0xCE, 0, 0, 0, 1, 0x65, 0x88, 0x80]

def sampleMuxed : Run (Muxed ℚ) :=
  writeBuf2File binary64 (fun _ => (0, 0)) 30 720 468 30 sampleAudio sampleVideo

theorem sampleMuxed_ok : ∃ out, sampleMuxed = .ok out := by
  have ok : sampleMuxed.isOk = true := by decide +kernel
  cases result : sampleMuxed with
  | error stop =>
    rw [result] at ok
    cases ok
  | ok out => exact ⟨out, rfl⟩

theorem muxed_malformed_sample : ∃ out, sampleMuxed = .ok out ∧ ¬ WellFormed out.flv.bytes := by
  obtain ⟨out, muxed⟩ := sampleMuxed_ok
  exact ⟨out, muxed, muxed_malformed muxed⟩

theorem well_formed_refuted : ¬ ∀ fuel audio video out,
    writeBuf2File binary64 (fun _ => (0, 0)) fuel 720 468 30 audio video = .ok out → WellFormed out.flv.bytes := by
  intro wellFormed
  obtain ⟨out, muxed⟩ := sampleMuxed_ok
  have ends := @writeBuf2File_layout ℚ binary64 (fun _ => (0, 0)) 30 720 468 30 sampleAudio sampleVideo
  rw [show writeBuf2File _ _ _ _ _ _ _ _ = .ok out from muxed] at ends
  obtain ⟨tags, stretches, unsized, bytes⟩ := ends
  have formed := wellFormed 30 sampleAudio sampleVideo out muxed
  rw [bytes, wellFormed_iff stretches] at formed
  exact not_isTag_nil (formed [] unsized)

end LiveStreaming.FlvMux
