import LiveStreaming.FlvMux.Layout

/-!
# What ends

Every read of a unit takes something off the file, so the loop over the frames and that of `WriteBuf2File` come to
an end. The two loops that look for the parameter sets go on reading nothing where the file has none for them.
-/

namespace LiveStreaming.FlvMux
open Library FlvFile EarlyExit

variable {video video' : VideoFile} {units : List (List UInt8)} {n : Nalu}

/-! ### Progress of one read -/

/-- What a reader still has before it: the bytes, and the end of the file. -/
def VideoFile.left (video : VideoFile) : Nat := if video.eof then 0 else video.rest.length + 1

theorem left_unread (rest : List UInt8) : (VideoFile.unread rest).left = rest.length + 1 := rfl

theorem left_going (going : video.eof = false) : video.left = video.rest.length + 1 := by
  rw [VideoFile.left, going]
  rfl

theorem findNext_left (buf rest : List UInt8) :
    Ends (· = .undefined) (fun found => found.2.2.left ≤ rest.length + 4) (findNext buf rest) := by
  induction rest generalizing buf with
  | nil =>
    unfold findNext
    split
    · exact Nat.zero_le _
    · rfl
  | cons c rest ih =>
    have behind (code : List UInt8) (short : code.length ≤ 4) :
        (VideoFile.unread (code ++ rest)).left ≤ (c :: rest).length + 4 := by
      rw [left_unread, List.length_append, List.length_cons]
      omega
    unfold findNext
    split
    · dsimp only
      split
      · exact behind [0, 0, 0, 1] (Nat.le_refl 4)
      · split
        · exact behind [0, 0, 1] (Nat.le_succ 3)
        · refine (ih _).mono (fun _ left => left) fun found bound => Nat.le_trans bound ?_
          rw [List.length_cons]
          omega
    · rfl

/-- Behind a start code the first byte does not end the unit. -/
theorem findNext_start {buf : List UInt8} (start : buf = [0, 0, 1] ∨ buf = [0, 0, 0, 1]) (rest : List UInt8) :
    Ends (· = .undefined) (fun found => found.2.2.left ≤ rest.length + 3) (findNext buf rest) := by
  have room : buf.length < maxVideoTagBufSize := by
    rcases start with rfl | rfl
    · decide
    · decide
  unfold findNext
  rcases rest with _ | ⟨c, rest⟩
  · rw [if_pos room]
    exact Nat.zero_le _
  · have four : (buf ++ [c]).drop ((buf ++ [c]).length - 4) ≠ [0, 0, 0, 1] := by
      rcases start with rfl | rfl
      · exact fun same => absurd (List.cons.inj (List.cons.inj (List.cons.inj same).2).2).1 (by decide)
      · exact fun same => absurd (List.cons.inj (List.cons.inj (List.cons.inj same).2).2).1 (by decide)
    have three : (buf ++ [c]).drop ((buf ++ [c]).length - 3) ≠ [0, 0, 1] := by
      rcases start with rfl | rfl
      · exact fun same => absurd (List.cons.inj (List.cons.inj same).2).1 (by decide)
      · exact fun same => absurd (List.cons.inj (List.cons.inj same).2).1 (by decide)
    dsimp only
    rw [if_pos room, if_neg four, if_neg three]
    exact findNext_left _ rest

theorem readNalu_left (going : video.eof = false) :
    Ends (· = .undefined) (fun read => read.2.left < video.left) (readNalu video) := by
  rw [left_going going]
  unfold readNalu
  split
  · next three =>
    have long := congrArg List.length three
    rw [List.length_take] at long
    simp only [List.length_cons, List.length_nil] at long
    refine (findNext_start (.inl rfl) (video.rest.drop 3)).bind fun found bound => ?_
    rw [List.length_drop] at bound
    show found.2.2.left < _
    omega
  · split
    · exact Nat.succ_pos _
    · next long =>
      split
      · refine (findNext_start (.inr rfl) (video.rest.drop 4)).bind fun found bound => ?_
        rw [List.length_drop] at bound
        show found.2.2.left < _
        omega
      · show (VideoFile.unread _).left < _
        rw [left_unread, List.length_drop]
        omega

theorem left_lt {read : NaluRead} (result : readNalu video = .ok (read, video')) (more : read ≠ .ended) :
    video'.left < video.left := by
  cases going : video.eof with
  | false => exact (readNalu_left going).of_ok result
  | true => exact absurd (congrArg Prod.fst (Except.ok.inj (result.symm.trans (readNalu_eof going)))) more

theorem NaluStep.left_le {step : Int × Nalu × VideoFile} (read : NaluStep n video step) :
    step.2.2.left ≤ video.left := by
  cases read with
  | ended _ => exact Nat.zero_le _
  | bad read => exact Nat.le_of_lt (left_lt read NaluRead.noConfusion)
  | found read _ _ => exact Nat.le_of_lt (left_lt read NaluRead.noConfusion)

/-! ### The search for a parameter set -/

theorem Units.read_ok (all : Units video units) : ∃ read, readNalu video = .ok read := by
  cases all with
  | ended read => exact ⟨_, read⟩
  | bad read _ => exact ⟨_, read⟩
  | found read _ => exact ⟨_, read⟩

theorem getAnnexbNalu_units (all : Units video units) (n : Nalu) :
    Ends (fun _ => False) (NaluStep n video) (getAnnexbNalu n video) := by
  have ends := getAnnexbNalu_ends n video
  obtain ⟨⟨read, video'⟩, result⟩ := all.read_ok
  unfold getAnnexbNalu at ends ⊢
  rw [result] at ends ⊢
  cases read with
  | ended => exact ends
  | bad => exact ends
  | found data next => exact ends

/-- Where the search has not ended after a read for each byte, the file has nothing of the type. -/
theorem findUnit_exhausts {wanted : UInt8} (some : wanted ≠ 0) (fuel : Nat) (n : Nalu) (video : VideoFile)
    (other : n.nalUnitType ≠ wanted) (enough : video.left < fuel) : Ends
    (fun stop => stop = .fuel → ∃ units, Units video units ∧ ∀ data ∈ units, unitType data ≠ wanted) (fun _ => True)
    (findUnit wanted fuel n video) := by
  induction fuel generalizing n video with
  | zero => exact absurd enough (Nat.not_lt_zero _)
  | succ fuel ih =>
    have unchanged : (getFrameType n).nalUnitType ≠ wanted := by rwa [getFrameType_nalUnitType]
    unfold findUnit
    refine ((getAnnexbNalu_ends n video).mono (fun stop same fuel => absurd (same.symm.trans fuel) (by decide))
      fun _ step => step).bind ?_
    rintro _ (read | read | ⟨read, positive, starts⟩)
    · dsimp only
      rw [if_neg (by rwa [getFrameType_nalUnitType])]
      cases findUnit wanted fuel (getFrameType n) .ended with
      | error stop => exact fun _ => ⟨[], .ended read, fun _ member => absurd member List.not_mem_nil⟩
      | ok found => trivial
    · have shorter := left_lt read NaluRead.noConfusion
      dsimp only
      rw [if_neg (by rwa [getFrameType_nalUnitType])]
      refine (ih _ _ unchanged (by omega)).mono (fun stop starved fuel => ?_) fun _ on => on
      obtain ⟨units, all, none⟩ := starved fuel
      exact ⟨units, .bad read all, none⟩
    · next data next video' =>
      have shorter := left_lt read NaluRead.noConfusion
      have same := load_wanted some other data
      dsimp only
      rw [getFrameType_nalUnitType]
      split
      · trivial
      · next there =>
        refine (ih (getFrameType (n.load data)) _ (by rwa [getFrameType_nalUnitType]) (by omega)).mono
          (fun stop starved fuel => ?_) fun _ on => on
        obtain ⟨units, all, none⟩ := starved fuel
        refine ⟨data :: units, .found read all, fun unit member => ?_⟩
        rcases List.mem_cons.mp member with rfl | member
        · exact fun is => there (same.mpr is)
        · exact none unit member

/-- What can be read behind the unit that is found can be read from where the search began. -/
theorem findUnit_back {wanted : UInt8} (some : wanted ≠ 0) (fuel : Nat) (n : Nalu) (video : VideoFile)
    (other : n.nalUnitType ≠ wanted) : Ends (fun _ => True)
    (fun found => ∀ rest, Units found.2 rest → ∃ units, Units video units ∧ behind wanted units = rest)
    (findUnit wanted fuel n video) := by
  induction fuel generalizing n video with
  | zero => trivial
  | succ fuel ih =>
    have unchanged : (getFrameType n).nalUnitType ≠ wanted := by rwa [getFrameType_nalUnitType]
    unfold findUnit
    refine ((getAnnexbNalu_ends n video).mono (fun _ _ => trivial) fun _ step => step).bind ?_
    rintro _ (read | read | ⟨read, positive, starts⟩)
    · dsimp only
      rw [if_neg (by rwa [getFrameType_nalUnitType])]
      refine (ih _ _ unchanged).mono (fun _ left => left) fun found back rest all => ?_
      obtain ⟨units, ended, same⟩ := back rest all
      obtain rfl := ended.of_ended (readNalu_eof rfl)
      exact ⟨[], .ended read, same⟩
    · dsimp only
      rw [if_neg (by rwa [getFrameType_nalUnitType])]
      refine (ih _ _ unchanged).mono (fun _ left => left) fun found back rest all => ?_
      obtain ⟨units, before, same⟩ := back rest all
      exact ⟨units, .bad read before, same⟩
    · next data next video' =>
      have same := load_wanted some other data
      dsimp only
      rw [getFrameType_nalUnitType]
      split
      · next here =>
        intro rest all
        refine ⟨data :: rest, .found read all, ?_⟩
        rw [behind_cons, if_pos (same.mp here)]
      · next there =>
        refine (ih (getFrameType (n.load data)) _ (by rwa [getFrameType_nalUnitType])).mono (fun _ left => left) ?_
        intro found back rest all
        obtain ⟨units, before, rfl⟩ := back rest all
        refine ⟨data :: units, .found read before, ?_⟩
        rw [behind_cons, if_neg fun here => there (same.mpr here)]

theorem findUnit_left (wanted : UInt8) (fuel : Nat) (n : Nalu) (video : VideoFile) :
    Ends (fun _ => True) (fun found => found.2.left ≤ video.left) (findUnit wanted fuel n video) := by
  induction fuel generalizing n video with
  | zero => trivial
  | succ fuel ih =>
    unfold findUnit
    refine ((getAnnexbNalu_ends n video).mono (fun _ _ => trivial) fun _ step => step).bind fun step read => ?_
    have shorter := read.left_le
    dsimp only
    split
    · exact shorter
    · exact (ih _ step.2.2).mono (fun _ left => left) fun found bound => Nat.le_trans bound shorter

/-- A file without the parameter sets: all of it can be read, and no PPS stands behind an SPS. -/
def LacksSets (video : VideoFile) : Prop :=
  ∃ units, Units video units ∧ ∀ data ∈ behind nalSps units, unitType data ≠ nalPps

theorem writeConfigTag_exhausts (fuel : Nat) (timestamp : UInt32) (videoFrameType : UInt8)
    (enough : video.left < fuel) : Ends (fun stop => stop = .fuel → LacksSets video)
    (fun written => written.2.2.2.left ≤ video.left)
    (writeStructH264Tag fuel video timestamp 0x00 videoFrameType) := by
  have first := findUnit_exhausts (show nalSps ≠ 0 by decide) fuel allocNalu video (by decide) enough
  have back := findUnit_back (show nalSps ≠ 0 by decide) fuel allocNalu video (by decide)
  unfold writeStructH264Tag
  split
  · exact Nat.le_refl _
  · rw [if_pos rfl]
    have short := findUnit_left nalSps fuel allocNalu video
    generalize findUnit nalSps fuel allocNalu video = sps at first back short
    cases sps with
    | error stop =>
      intro fuel
      obtain ⟨units, all, none⟩ := first fuel
      refine ⟨units, all, fun data member => absurd member ?_⟩
      have nothing : units.dropWhile (fun data => unitType data ≠ nalSps) = [] :=
        List.dropWhile_eq_nil_iff.mpr fun data member => decide_eq_true (none data member)
      rw [behind, nothing]
      exact List.not_mem_nil
    | ok sps =>
      have second := findUnit_exhausts (show nalPps ≠ 0 by decide) fuel allocNalu sps.2 (by decide)
        (Nat.lt_of_le_of_lt short enough)
      have shorter := findUnit_left nalPps fuel allocNalu sps.2
      change Ends _ _ (findUnit nalPps fuel allocNalu sps.2 >>= _)
      generalize findUnit nalPps fuel allocNalu sps.2 = pps at second shorter
      cases pps with
      | error stop =>
        intro fuel
        obtain ⟨rest, all, none⟩ := second fuel
        obtain ⟨units, before, same⟩ := back rest all
        exact ⟨units, before, same ▸ none⟩
      | ok pps =>
        change Ends _ _ (createAVCDecoderConfigurationRecord sps.1 pps.1 >>= _)
        unfold createAVCDecoderConfigurationRecord
        split
        · exact Stop.noConfusion
        · exact Nat.le_trans shorter short

/-! ### The frames -/

/-- The loop over the frames comes to the end of the file, or has taken something off it. -/
theorem nextFrame_progress (fuel : Nat) (n : Nalu) (video : VideoFile) (enough : video.left < fuel) :
    Ends (· ≠ .fuel) (fun found => found.1 = none ∧ found.2.left ≤ video.left ∨ found.2.left < video.left)
      (nextFrame fuel n video) := by
  induction fuel generalizing n video with
  | zero => exact absurd enough (Nat.not_lt_zero _)
  | succ fuel ih =>
    unfold nextFrame
    refine ((getAnnexbNalu_ends n video).mono (fun stop same => by rw [same]; decide) fun _ step => step).bind ?_
    rintro ⟨code, n', video'⟩ step
    dsimp only
    split
    · exact .inl ⟨rfl, step.left_le⟩
    · next going =>
      have shorter : video'.left < video.left := by
        cases step with
        | ended _ => exact absurd rfl going
        | bad read => exact left_lt read NaluRead.noConfusion
        | found read _ _ => exact left_lt read NaluRead.noConfusion
      have rest := (ih (getFrameType n') video' (by omega)).mono (fun _ left => left)
        fun found => Or.imp (And.imp id fun less => Nat.le_trans less (Nat.le_of_lt shorter))
          fun less => Nat.lt_trans less shorter
      split
      · exact rest
      · split
        · exact .inr shorter
        · exact rest

/-- A call that makes no tag has found the end of the file, and any other has taken something off it. -/
theorem writeFrameTag_progress (fuel : Nat) (video : VideoFile) (timestamp : UInt32) (videoFrameType : UInt8)
    (enough : video.left < fuel) :
    Ends (· ≠ .fuel) (fun written => written.2.2.1 = true ∧ written.2.2.2.left ≤ video.left ∨
        written.2.2.2.left < video.left)
      (writeStructH264Tag fuel video timestamp 0x01 videoFrameType) := by
  unfold writeStructH264Tag
  split
  · exact .inl ⟨rfl, Nat.le_refl _⟩
  · rw [if_neg (by decide)]
    refine (nextFrame_progress fuel allocNalu video enough).bind ?_
    rintro ⟨_ | n, video'⟩ progress
    · exact .inl ⟨rfl, progress.elim And.right Nat.le_of_lt⟩
    · dsimp only
      split
      · exact Stop.noConfusion
      · exact .inr (progress.resolve_left fun both => absurd both.1 (Option.some_ne_none n))

theorem traverseLoop_fuel (fuel : Nat) (n : Nalu) (video : VideoFile) (iFrameNum : Nat) (enough : video.left < fuel) :
    Ends (· ≠ .fuel) (fun _ => True) (traverseLoop fuel n video iFrameNum) := by
  induction fuel generalizing n video iFrameNum with
  | zero => exact absurd enough (Nat.not_lt_zero _)
  | succ fuel ih =>
    unfold traverseLoop
    split
    · trivial
    · next going =>
      refine ((getAnnexbNalu_ends n video).mono (fun stop same => by rw [same]; decide) fun _ step => step).bind ?_
      rintro ⟨code, n', video'⟩ step
      have shorter : video'.left < video.left := by
        cases step with
        | ended read => exact (readNalu_left (Bool.eq_false_iff.mpr going)).of_ok read
        | bad read => exact left_lt read NaluRead.noConfusion
        | found read _ _ => exact left_lt read NaluRead.noConfusion
      exact ih _ _ _ (by show video'.left < fuel; omega)

/-- In a file that can be read, nothing else stops the count. -/
theorem traverseLoop_units (all : Units video units) (fuel : Nat) (n : Nalu) (iFrameNum : Nat) :
    Ends (· = .fuel) (fun _ => True) (traverseLoop fuel n video iFrameNum) := by
  induction fuel generalizing n video units iFrameNum with
  | zero => rfl
  | succ fuel ih =>
    unfold traverseLoop
    split
    · trivial
    · refine ((getAnnexbNalu_units all n).mono (fun _ never => never.elim) fun _ step => step).bind ?_
      rintro _ (read | read | ⟨read, positive, starts⟩)
      · exact ih (.ended (readNalu_eof rfl)) _ _
      · exact ih (all.of_bad read) _ _
      · obtain ⟨rest, rfl, behind⟩ := all.of_found read
        exact ih behind _ _

/-! ### The loop over both files -/

theorem detachHeadAac_progress (rest : List UInt8) : Ends (· = .undefined)
    (fun read => read.1 = none ∧ read.2 = [] ∨ read.1 ≠ none ∧ read.2.length < rest.length) (detachHeadAac rest) := by
  unfold detachHeadAac
  split
  · exact .inl ⟨rfl, rfl⟩
  · split
    · refine .inr ⟨Option.some_ne_none _, ?_⟩
      simp only [List.length_cons]
      omega
    · rfl
  · rfl

theorem writeStructAacTag_progress (audio : AudioFile) (timestamp : UInt32) (left : UInt8 × UInt8) :
    Ends (· ≠ .fuel) (fun written => written.2.1 = true ∧ written.2.2.rest.length ≤ audio.rest.length ∨
      written.2.2.rest.length < audio.rest.length) (writeStructAacTag audio timestamp 0x01 left) := by
  refine ((detachHeadAac_progress audio.rest).mono (fun stop same => by rw [same]; decide) fun _ read => read).bind ?_
  rintro ⟨_ | header, rest⟩ (⟨missing, empty⟩ | ⟨there, less⟩)
  · refine .inl ⟨rfl, ?_⟩
    show rest.length ≤ _
    rw [show rest = [] from empty]
    exact Nat.zero_le _
  · exact absurd rfl there
  · exact absurd missing (Option.some_ne_none _)
  · dsimp only at less ⊢
    rw [if_neg (by decide)]
    split
    · exact Stop.noConfusion
    · split
      · exact .inr (Nat.lt_of_le_of_lt (Nat.zero_le _) less)
      · refine .inr (Nat.lt_of_le_of_lt ?_ less)
        show (rest.drop _).length ≤ _
        rw [List.length_drop]
        exact Nat.sub_le _ _

variable {δ : Type} {d : Double δ} {left : Nat → UInt8 × UInt8} {settings : Settings δ}

/-- What both files still have before them, and which of the ends are still to be found. -/
def Mux.ahead (s : Mux δ) : Nat :=
  s.audio.rest.length + (!s.decodeAudioDone).toNat + (s.video.left + (!s.decodeVideoDone).toNat)

theorem audioTurn_progress (s : Mux δ) (going : s.decodeAudioDone = false) :
    Ends (· ≠ .fuel) (fun s' => s'.ahead < s.ahead) (s.audioTurn d left settings) := by
  have progress := writeStructAacTag_progress s.audio (d.toUInt32 s.timestampAudio) (left s.flv.pos)
  unfold Mux.audioTurn Mux.writeAudioTag
  generalize writeStructAacTag s.audio (d.toUInt32 s.timestampAudio) 0x01 (left s.flv.pos) = written at progress
  cases written with
  | error stop => exact progress
  | ok written =>
    obtain ⟨tag, done, audio⟩ := written
    show audio.rest.length + (!(s.decodeAudioDone || done)).toNat + (s.video.left + (!s.decodeVideoDone).toNat) <
      s.ahead
    rw [Mux.ahead, going, Bool.false_or]
    rcases progress with ⟨rfl, less⟩ | less
    · simp only [Bool.not_true, Bool.toNat_false, Bool.not_false, Bool.toNat_true] at less ⊢
      omega
    · have small := Bool.toNat_le (!done)
      simp only [Bool.not_false, Bool.toNat_true] at less ⊢
      omega

theorem videoTurn_progress (fuel : Nat) (s : Mux δ) (going : s.decodeVideoDone = false)
    (enough : s.video.left < fuel) :
    Ends (· ≠ .fuel) (fun s' => s'.ahead < s.ahead) (s.videoTurn d fuel settings) := by
  refine (writeFrameTag_progress fuel s.video _ s.videoFrameType enough).bind ?_
  rintro ⟨tag, videoFrameType, done, video⟩ progress
  have ahead (s' : Mux δ) (audio : s'.audio = s.audio) (ended : s'.decodeAudioDone = s.decodeAudioDone)
      (rest : s'.video = video) (last : s'.decodeVideoDone = (s.decodeVideoDone || done)) : s'.ahead < s.ahead := by
    rw [Mux.ahead, Mux.ahead, audio, ended, rest, last, going, Bool.false_or]
    rcases progress with ⟨rfl, less⟩ | less
    · simp only [Bool.not_true, Bool.toNat_false, Bool.not_false, Bool.toNat_true] at less ⊢
      omega
    · have small := Bool.toNat_le (!done)
      simp only [Bool.not_false, Bool.toNat_true] at less ⊢
      omega
  dsimp only
  split
  · exact ahead _ rfl rfl rfl rfl
  · unfold Mux.recordKeyFrame
    split
    · split
      · exact ahead _ rfl rfl rfl rfl
      · exact Stop.noConfusion
    · exact ahead _ rfl rfl rfl rfl

theorem turn_progress (fuel : Nat) (s : Mux δ) (going : ¬ (s.decodeVideoDone ∧ s.decodeAudioDone))
    (enough : s.video.left < fuel) :
    Ends (· ≠ .fuel) (fun s' => s'.ahead < s.ahead) (s.turn d left settings fuel) := by
  unfold Mux.turn
  cases video : s.decodeVideoDone with
  | true =>
    rw [if_pos rfl]
    exact audioTurn_progress s (Bool.eq_false_iff.mpr fun audio => going ⟨video, audio⟩)
  | false =>
    have videoTurn := @videoTurn_progress δ d settings fuel s video enough
    rw [if_neg Bool.false_ne_true]
    cases audio : s.decodeAudioDone with
    | true =>
      rw [if_pos rfl]
      exact videoTurn
    | false =>
      rw [if_neg Bool.false_ne_true]
      split
      · exact videoTurn
      · exact audioTurn_progress s audio

/-- Every turn takes something off one of the files, or finds an end. -/
theorem loop_progress (fuel : Nat) (s : Mux δ) (enough : s.ahead < fuel) :
    Ends (· ≠ .fuel) (fun _ => True) (s.loop d left settings fuel) := by
  induction fuel generalizing s with
  | zero => exact absurd enough (Nat.not_lt_zero _)
  | succ fuel ih =>
    unfold Mux.loop
    split
    · trivial
    · next going =>
      have waiting : 1 ≤ (!s.decodeAudioDone).toNat + (!s.decodeVideoDone).toNat := by
        cases video : s.decodeVideoDone with
        | false => exact Nat.le_add_left 1 _
        | true =>
          cases audio : s.decodeAudioDone with
          | false => exact Nat.le_refl 1
          | true => exact absurd ⟨video, audio⟩ going
      have inner : s.video.left < fuel := by
        rw [Mux.ahead] at enough
        omega
      have whole : s.ahead ≤ fuel := Nat.le_of_lt_succ enough
      exact (turn_progress fuel s going inner).bind fun s' less => ih s' (by omega)

/-! ### The whole call -/

theorem writeConfigs_progress (fuel : Nat) (s : Mux δ) (enough : s.video.left < fuel) :
    Ends (fun stop => stop = .fuel → LacksSets s.video)
      (fun s' => s'.audio.rest.length ≤ s.audio.content.length ∧ s'.video.left ≤ s.video.left)
      (s.writeConfigs left fuel) := by
  have undefined (stop : Stop) (same : stop = .undefined) : stop = .fuel → LacksSets s.video := by
    rw [same]
    exact Stop.noConfusion
  have audio : Ends (fun stop => stop = .fuel → LacksSets s.video)
      (fun s₁ => s₁.audio.rest.length ≤ s.audio.content.length ∧ s₁.video = s.video)
      (s.writeAudioTag left 0x00 0x00) := by
    refine Ends.bind (show Ends _ (fun written => written.2.2.rest.length ≤ s.audio.content.length) _ from ?_)
      fun _ bound => ⟨bound, rfl⟩
    refine ((detachHeadAac_progress s.audio.rest).mono undefined fun _ read => read).bind ?_
    rintro ⟨_ | header, rest⟩ (⟨missing, empty⟩ | ⟨there, less⟩)
    · show rest.length ≤ _
      rw [show rest = [] from empty]
      exact Nat.zero_le _
    · exact absurd rfl there
    · exact absurd missing (Option.some_ne_none _)
    · exact Nat.le_refl _
  refine audio.bind ?_
  rintro s₁ ⟨bound, same⟩
  rw [← same] at enough ⊢
  refine (writeConfigTag_exhausts fuel 0x00 s₁.videoFrameType enough).bind ?_
  rintro ⟨tag, videoFrameType, done, video⟩ short
  exact ⟨bound, short⟩

theorem writeBuf2File_exhausts (fuel : Nat) (width height framerate : δ) (audio video : List UInt8)
    (enough : audio.length + video.length + 3 < fuel) :
    Ends (fun stop => stop = .fuel →
        LacksSets (.unread video) ∧ ∃ header rest, detachHeadAac audio = .ok (some header, rest))
      (fun _ => True) (writeBuf2File d left fuel width height framerate audio video) := by
  have long : (VideoFile.unread video).left < fuel := by
    rw [left_unread]
    omega
  have other {stop : Stop} {P : Prop} (same : stop ≠ .fuel) : stop = .fuel → P := fun fuel => absurd fuel same
  unfold writeBuf2File writeTags writeHead
  refine Ends.bind (show Ends _ (fun _ => True) _ from
    Ends.bind (show Ends _ (fun head => head.2.ahead < fuel) _ from ?_) ?_) ?_
  · refine ((traverseLoop_fuel fuel allocNalu (.unread video) 0 long).mono (fun _ same => other same)
      fun _ counted => counted).bind fun n _ => ?_
    have ends := detachHeadAac_progress audio
    dsimp only
    generalize detachHeadAac audio = head at ends
    rcases head with stop | ⟨_ | header, rest⟩
    · exact other (by rw [show stop = .undefined from ends]; decide)
    · exact other (by decide)
    · refine ((writeConfigs_progress fuel (Mux.start d n audio video) long).mono
        (fun stop lacks fuel => ⟨lacks fuel, header, rest, rfl⟩) fun _ bound => bound).bind fun s bound => ?_
      have ends := Bool.toNat_le (!s.decodeAudioDone)
      have last := Bool.toNat_le (!s.decodeVideoDone)
      have audioRest : s.audio.rest.length ≤ audio.length := bound.1
      have videoLeft : s.video.left ≤ video.length + 1 := bound.2
      show s.ahead < fuel
      rw [Mux.ahead]
      omega
  · rintro ⟨settings, s⟩ less
    exact ((loop_progress fuel s less).mono (fun _ same => other same) fun _ on => on).bind fun _ _ => trivial
  · rintro ⟨settings, s⟩ -
    dsimp only
    unfold Mux.writeScriptTag
    split
    · exact Stop.noConfusion
    · trivial

/-- Some number of steps is enough for the body. -/
def Terminates {α : Type} (body : Nat → Run α) : Prop := ∃ fuel, body fuel ≠ .error .fuel

end LiveStreaming.FlvMux
