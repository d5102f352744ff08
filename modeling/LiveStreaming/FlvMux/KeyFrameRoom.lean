import LiveStreaming.FlvMux.Termination

/-!
# The room for the key frames

`TraverseH264File` counts the slices of type I, and `WriteBuf2File` makes an entry for every frame that
`GetFrameType` calls a key frame, which are those of type SI as well.
-/

namespace LiveStreaming.FlvMux
open Library FlvFile EarlyExit

/-- A slice of a type that `GetFrameType` knows. -/
def frameUnit (data : List UInt8) : Bool :=
  isSliceUnit data ∧ unitSliceType data ∈ [0, 5, 3, 8] ++ [1, 6] ++ [2, 7, 4, 9]

/-- The buffer of a tag has room for the unit, if a tag is made of it. -/
def UnitFits (data : List UInt8) : Prop := frameUnit data → 20 + data.length ≤ maxVideoTagBufSize

/-- The parameter sets that are found have room in the record. -/
def SetsFit (units : List (List UInt8)) : Prop :=
  ∃ sps pps, units.find? (fun data => unitType data = nalSps) = some sps ∧ sps.length ≤ maxParameterSetSize ∧
    (behind nalSps units).find? (fun data => unitType data = nalPps) = some pps ∧ pps.length ≤ maxParameterSetSize

/-- A key frame comes for which the count has left no room, and nothing before it is too long for its buffer. -/
def Overfills (video : List UInt8) : Prop :=
  ∃ units before data after, Units (.unread video) units ∧ SetsFit units ∧
    behind nalPps (behind nalSps units) = before ++ data :: after ∧ keyUnit data ∧
    before.countP keyUnit = units.countP countedUnit ∧ ∀ unit ∈ before ++ [data], UnitFits unit

variable {video video' : VideoFile} {units : List (List UInt8)} {data : List UInt8} {n : Nalu}

theorem frameUnit_of_keyUnit (key : keyUnit data) : frameUnit data := by
  rw [keyUnit, decide_eq_true_eq] at key
  rw [frameUnit, decide_eq_true_eq]
  exact ⟨key.1, List.mem_append_right _ key.2⟩

theorem countP_keyUnit_eq_zero (none : ∀ data ∈ units, frameUnit data = false) : units.countP keyUnit = 0 := by
  rw [List.countP_eq_zero]
  intro data member key
  have frame := frameUnit_of_keyUnit key
  rw [none data member] at frame
  exact absurd frame Bool.false_ne_true

/-! ### The parameter sets -/

theorem findUnit_finds {wanted : UInt8} (some_ : wanted ≠ 0) (all : Units video units) (fuel : Nat) (n : Nalu)
    (other : n.nalUnitType ≠ wanted) : Ends (· = .fuel)
    (fun found => ∃ unit, units.find? (fun data => unitType data = wanted) = some unit ∧ found.1.len = unit.length ∧
      Units found.2 (behind wanted units)) (findUnit wanted fuel n video) := by
  induction fuel generalizing n video units with
  | zero => rfl
  | succ fuel ih =>
    have unchanged : (getFrameType n).nalUnitType ≠ wanted := by rwa [getFrameType_nalUnitType]
    unfold findUnit
    refine ((getAnnexbNalu_units all n).mono (fun _ never => never.elim) fun _ step => step).bind ?_
    rintro _ (read | read | ⟨read, positive, starts⟩)
    · obtain rfl := all.of_ended read
      dsimp only
      rw [if_neg unchanged]
      exact ih (.ended (readNalu_eof rfl)) _ unchanged
    · dsimp only
      rw [if_neg unchanged]
      exact ih (all.of_bad read) _ unchanged
    · next data next video' =>
      obtain ⟨rest, rfl, behind⟩ := all.of_found read
      have same := load_wanted some_ other data
      dsimp only
      rw [getFrameType_nalUnitType, behind_cons]
      by_cases here : unitType data = wanted
      · obtain ⟨frametype, loaded⟩ := getFrameType_eq (n.load data)
        rw [if_pos (same.mpr here), if_pos here, List.find?_cons_of_pos (by simpa using here)]
        refine ⟨data, rfl, ?_, behind⟩
        rw [loaded]
        rfl
      · rw [if_neg (mt same.mp here), if_neg here, List.find?_cons_of_neg (by simpa using here)]
        exact ih behind _ (by rw [getFrameType_nalUnitType]; exact mt same.mp here)

theorem writeConfigTag_sets (all : Units video units) (going : video.eof = false) (fuel : Nat) (timestamp : UInt32)
    (videoFrameType : UInt8) : Ends (fun stop => stop = .fuel ∨ ¬ SetsFit units)
      (fun written => SetsFit units ∧ written.2.2.1 = false ∧
        Units written.2.2.2 (behind nalPps (behind nalSps units)))
      (writeStructH264Tag fuel video timestamp 0x00 videoFrameType) := by
  unfold writeStructH264Tag
  rw [if_neg (by rw [going]; decide), if_pos rfl]
  refine ((findUnit_finds (show nalSps ≠ 0 by decide) all fuel allocNalu (by decide)).mono (fun _ => .inl)
    fun _ found => found).bind ?_
  rintro ⟨sps, video₁⟩ ⟨first, foundSps, spsLength, rest₁⟩
  refine ((findUnit_finds (show nalPps ≠ 0 by decide) rest₁ fuel allocNalu (by decide)).mono (fun _ => .inl)
    fun _ found => found).bind ?_
  rintro ⟨pps, video₂⟩ ⟨second, foundPps, ppsLength, rest₂⟩
  dsimp only at spsLength ppsLength ⊢
  unfold createAVCDecoderConfigurationRecord
  split
  · next large =>
    refine .inr ?_
    rintro ⟨sps', pps', foundSps', spsSmall, foundPps', ppsSmall⟩
    obtain rfl := Option.some.inj (foundSps.symm.trans foundSps')
    obtain rfl := Option.some.inj (foundPps.symm.trans foundPps')
    omega
  · next small =>
    exact ⟨⟨first, second, foundSps, by omega, foundPps, by omega⟩, rfl, rest₂⟩

/-! ### The frames -/

def IsFrame (frametype : UInt8) : Prop := frametype = frameI ∨ frametype = frameB ∨ frametype = frameP

instance decidableIsFrame : DecidablePred IsFrame := fun _ => inferInstanceAs (Decidable (_ ∨ _ ∨ _))

theorem getFrameType_isFrame (idle : ¬ IsFrame n.frametype) : IsFrame (getFrameType n).frametype ↔
    n.isSlice ∧ n.sliceType ∈ [0, 5, 3, 8] ++ [1, 6] ++ [2, 7, 4, 9] := by
  rw [List.mem_append, List.mem_append]
  unfold getFrameType
  split
  · next slice =>
    rw [slice, and_iff_right rfl]
    split
    · next p => exact iff_of_true (.inr (.inr rfl)) (.inl (.inl p))
    · next noP =>
      split
      · next b => exact iff_of_true (.inr (.inl rfl)) (.inl (.inr b))
      · next noB =>
        split
        · next i => exact iff_of_true (.inl rfl) (.inr i)
        · next noI => exact iff_of_false idle fun known => known.elim (fun pb => pb.elim noP noB) noI
  · next noSlice =>
    refine iff_of_false ?_ fun both => noSlice both.1
    have other {frametype : UInt8} (type : frametype = nalSei ∨ frametype = nalSps ∨ frametype = nalPps) :
        ¬ IsFrame frametype := by
      unfold IsFrame
      rcases type with rfl | rfl | rfl <;> decide
    split
    · exact other (.inl rfl)
    · split
      · exact other (.inr (.inl rfl))
      · split
        · exact other (.inr (.inr rfl))
        · exact idle

theorem getFrameType_idle (idle : ¬ IsFrame n.frametype) (none : ¬ IsFrame (getFrameType n).frametype) :
    ¬ IsFrame (getFrameType (getFrameType n)).frametype := by
  rw [getFrameType_isFrame none]
  rw [getFrameType_isFrame idle] at none
  obtain ⟨frametype, same⟩ := getFrameType_eq n
  rw [same]
  exact none

/-- An empty unit may be taken for a frame by what lay in the memory before. -/
theorem load_isFrame (idle : ¬ IsFrame n.frametype) (some : data ≠ []) :
    IsFrame (getFrameType (n.load data)).frametype ↔ frameUnit data := by
  rw [getFrameType_isFrame (n := n.load data) idle, load_sliceType, frameUnit, decide_eq_true_eq, Nalu.isSlice,
    load_nalUnitType n some, isSliceUnit]

theorem frameUnit_nil : frameUnit [] = false := by decide

/-- What the loop over the frames finds of the units: none, or the first of them. -/
inductive NextFrame : List (List UInt8) → Option Nalu × VideoFile → Prop where
  | none {units : List (List UInt8)} {video : VideoFile} (skips : ∀ unit ∈ units, frameUnit unit = false)
      (rest : Units video []) : NextFrame units (none, video)
  | found {before after : List (List UInt8)} {data : List UInt8} {n : Nalu} {video : VideoFile}
      (skips : ∀ unit ∈ before, frameUnit unit = false) (frame : frameUnit data ∨ data = [])
      (length : n.len = data.length) (key : n.frametype = frameI ↔ keyUnit data) (rest : Units video after) :
      NextFrame (before ++ data :: after) (some n, video)

theorem NextFrame.skip {found : Option Nalu × VideoFile} (other : frameUnit data = false)
    (next : NextFrame units found) : NextFrame (data :: units) found := by
  cases next with
  | none skips rest => exact .none (List.forall_mem_cons.mpr ⟨other, skips⟩) rest
  | @found before after _ n video skips frame length key rest =>
    exact @NextFrame.found (data :: before) after _ n video (List.forall_mem_cons.mpr ⟨other, skips⟩) frame length key
      rest

theorem nextFrame_units (all : Units video units) (fuel : Nat) (n : Nalu) (idle : ¬ IsFrame n.frametype)
    (none : ¬ IsFrame (getFrameType n).frametype) :
    Ends (· = .fuel) (NextFrame units) (nextFrame fuel n video) := by
  induction fuel generalizing n video units with
  | zero => rfl
  | succ fuel ih =>
    unfold nextFrame
    refine ((getAnnexbNalu_units all n).mono (fun _ never => never.elim) fun _ step => step).bind ?_
    rintro _ (read | read | ⟨read, positive, starts⟩)
    · obtain rfl := all.of_ended read
      exact .none (fun _ member => absurd member List.not_mem_nil) (.ended (readNalu_eof rfl))
    · have rest := ih (all.of_bad read) (getFrameType n) none (getFrameType_idle idle none)
      dsimp only
      rw [if_neg (by decide)]
      split
      · exact rest
      · split
        · next frame => exact absurd frame none
        · exact rest
    · next data next video' =>
      obtain ⟨rest, rfl, behind⟩ := all.of_found read
      have skip (other : frameUnit data = false) (none : ¬ IsFrame (getFrameType (n.load data)).frametype) :=
        (ih behind (getFrameType (n.load data)) none (getFrameType_idle (n := n.load data) idle none)).mono
          (fun _ left => left) fun _ found => found.skip other
      have missed (none : ¬ IsFrame (getFrameType (n.load data)).frametype) : frameUnit data = false := by
        by_cases empty : data = []
        · rw [empty]
          exact frameUnit_nil
        · exact Bool.eq_false_iff.mpr fun frame => none ((load_isFrame idle empty).mpr frame)
      dsimp only
      rw [if_neg (by omega), getFrameType_nalUnitType]
      split
      · next sei =>
        have none : ¬ IsFrame (getFrameType (n.load data)).frametype := by
          rw [getFrameType_isFrame (n := n.load data) idle, Nalu.isSlice, sei]
          exact fun both => absurd both.1 (by decide)
        exact skip (missed none) none
      · split
        · next frame =>
          refine @NextFrame.found [] rest data _ video' (fun _ member => absurd member List.not_mem_nil) ?_ ?_
            (key_load (fun i => idle (.inl i)) data) behind
          · by_cases empty : data = []
            · exact .inr empty
            · exact .inl ((load_isFrame idle empty).mp frame)
          · obtain ⟨frametype, loaded⟩ := getFrameType_eq (n.load data)
            rw [loaded]
            rfl
        · next none => exact skip (missed none) none

/-! ### The turns -/

section
variable {δ : Type} {d : Double δ} {left : Nat → UInt8 × UInt8} {settings : Settings δ} {s s' : Mux δ}

/-- What a turn of the video file does with the units that it has before it. -/
inductive VideoStep (n : Nat) (s : Mux δ) : List (List UInt8) → Run (Mux δ) → Prop where
  | starved {units : List (List UInt8)} : VideoStep n s units (.error .fuel)
  | ended {units : List (List UInt8)} {s' : Mux δ} (none : ∀ unit ∈ units, frameUnit unit = false)
      (rest : Units s'.video []) (audio : s'.audio = s.audio) (filepositions : s'.filepositions = s.filepositions) :
      VideoStep n s units (.ok s')
  | tooLong {before after : List (List UInt8)} {data : List UInt8} (skips : ∀ unit ∈ before, frameUnit unit = false)
      (long : ¬ UnitFits data) : VideoStep n s (before ++ data :: after) (.error .undefined)
  | full {before after : List (List UInt8)} {data : List UInt8} (skips : ∀ unit ∈ before, frameUnit unit = false)
      (fits : UnitFits data) (key : keyUnit data) (many : n ≤ s.filepositions.length) :
      VideoStep n s (before ++ data :: after) (.error .overrun)
  | wrote {before after : List (List UInt8)} {data : List UInt8} {s' : Mux δ}
      (skips : ∀ unit ∈ before, frameUnit unit = false) (fits : UnitFits data)
      (room : keyUnit data → s.filepositions.length < n) (rest : Units s'.video after) (audio : s'.audio = s.audio)
      (done : s'.decodeVideoDone = s.decodeVideoDone)
      (length : s'.filepositions.length = s.filepositions.length + (keyUnit data).toNat) :
      VideoStep n s (before ++ data :: after) (.ok s')

theorem videoTurn_step (all : Units s.video units) (fuel : Nat) :
    VideoStep settings.filepositionsTimesLength s units (s.videoTurn d fuel settings) := by
  have ends := nextFrame_units all fuel allocNalu (by decide) (by decide)
  unfold Mux.videoTurn writeStructH264Tag
  by_cases eof : s.video.eof
  · obtain rfl := all.of_ended (readNalu_eof eof)
    rw [if_pos eof]
    exact .ended (fun _ member => absurd member List.not_mem_nil) all rfl rfl
  · rw [if_neg eof, if_neg (by decide)]
    generalize nextFrame fuel allocNalu s.video = next at ends
    rcases next with stop | found
    · obtain rfl : stop = .fuel := ends
      exact .starved
    · cases ends with
      | none skips rest => exact .ended skips rest rfl rfl
      | @found before after data n video skips frame length key rest =>
        change VideoStep _ _ _ (Except.bind (if maxVideoTagBufSize < 20 + n.len then _ else _) _)
        have fits : ¬ maxVideoTagBufSize < 20 + n.len ↔ UnitFits data := by
          rw [UnitFits, length, Nat.not_lt]
          refine ⟨fun fits _ => fits, fun fits => ?_⟩
          rcases frame with frame | rfl
          · exact fits frame
          · decide
        by_cases long : maxVideoTagBufSize < 20 + n.len
        · rw [if_pos long]
          exact .tooLong skips fun fit => fits.mpr fit long
        · rw [if_neg long]
          dsimp only [Except.bind]
          rw [if_neg (by simp [videoTag, tagHeader])]
          by_cases i : n.frametype = frameI
          · simp only [if_pos i]
            unfold Mux.recordKeyFrame
            split
            · next room =>
              refine .wrote skips (fits.mp long) (fun _ => room) rest rfl (Bool.or_false _) ?_
              rw [key.mp i]
              exact List.length_append
            · next room => exact .full skips (fits.mp long) (key.mp i) (Nat.not_lt.mp room)
          · simp only [if_neg i]
            have other : keyUnit data = false := Bool.eq_false_iff.mpr fun is => i (key.mpr is)
            refine .wrote skips (fits.mp long) (fun is => absurd (key.mpr is) i) rest rfl (Bool.or_false _) ?_
            rw [other]
            rfl

/-- What is behind the header of the audio file and the parameter sets, before the first turn. -/
structure Ready (units : List (List UInt8)) (audio : List UInt8) (head : Settings δ × Mux δ) : Prop where
  sets : SetsFit units
  count : head.1.filepositionsTimesLength = units.countP countedUnit
  units : Units head.2.video (behind nalPps (behind nalSps units))
  filepositions : head.2.filepositions = []
  going : head.2.decodeVideoDone = false
  audio : head.2.audio.rest = audio

theorem writeHead_ready {audio video rest : List UInt8} {header : AdtsHeader} (all : Units (.unread video) units)
    (readable : detachHeadAac audio = .ok (some header, rest)) (fuel : Nat) (width height framerate : δ) :
    Ends (fun stop => stop = .fuel ∨ ¬ SetsFit units) (Ready units audio)
      (writeHead d left fuel width height framerate audio video) := by
  have starved := traverseLoop_units all fuel allocNalu 0
  have counted := traverseLoop_ends fuel allocNalu (.unread video) 0 (.inl rfl)
  unfold writeHead traverseH264File
  generalize traverseLoop fuel allocNalu (.unread video) 0 = result at starved counted
  cases result with
  | error stop => exact .inl starved
  | ok n =>
    obtain ⟨units', all', count⟩ := counted
    obtain rfl := all.unique all'
    rw [Nat.zero_add] at count
    rw [readable]
    have config : ∃ s : Mux δ, (Mux.start d n audio video).writeAudioTag left 0x00 0x00 = .ok s ∧
        s.video = .unread video ∧ s.filepositions = [] ∧ s.decodeVideoDone = false ∧ s.audio.rest = audio := by
      unfold Mux.writeAudioTag writeStructAacTag
      rw [show (Mux.start d n audio video).audio.rest = audio from rfl, readable]
      exact ⟨_, rfl, rfl, rfl, rfl, rfl⟩
    obtain ⟨s, wrote, same, none, going, whole⟩ := config
    have configs : Ends (fun stop => stop = .fuel ∨ ¬ SetsFit units)
        (fun s => SetsFit units ∧ Units s.video (behind nalPps (behind nalSps units)) ∧ s.filepositions = [] ∧
          s.decodeVideoDone = false ∧ s.audio.rest = audio) ((Mux.start d n audio video).writeConfigs left fuel) := by
      unfold Mux.writeConfigs
      rw [wrote]
      show Ends _ _ (writeStructH264Tag fuel s.video 0x00 0x00 s.videoFrameType >>= _)
      rw [same]
      refine (writeConfigTag_sets all rfl fuel 0x00 s.videoFrameType).bind ?_
      rintro ⟨tag, videoFrameType, done, video'⟩ ⟨sets, ended, behind⟩
      obtain rfl : done = false := ended
      exact ⟨sets, behind, none, (Bool.or_false _).trans going, whole⟩
    refine configs.bind ?_
    rintro s ⟨sets, behind, none, going, whole⟩
    exact ⟨sets, count, behind, none, going, whole⟩

theorem loop_rule {I : Mux δ → Prop} {post : Stop → Prop} (starved : post .fuel)
    (turn : ∀ fuel s, I s → Ends post I (s.turn d left settings fuel)) (fuel : Nat) (s : Mux δ) (before : I s) :
    Ends post (fun s' => I s' ∧ s'.decodeVideoDone) (s.loop d left settings fuel) := by
  induction fuel generalizing s with
  | zero => exact starved
  | succ fuel ih =>
    unfold Mux.loop
    split
    · next done => exact ⟨before, done.1⟩
    · exact (turn fuel s before).bind fun s' after => ih s' after

/-! ### Runs that overrun -/

/-- The units that have been passed fit, and each key frame among them has an entry. -/
def Recorded (n : Nat) (all : List (List UInt8)) (s : Mux δ) : Prop :=
  ∃ passed rest, all = passed ++ rest ∧ Units s.video rest ∧ s.filepositions.length = passed.countP keyUnit ∧
    s.filepositions.length ≤ n ∧ ∀ unit ∈ passed, UnitFits unit

/-- One key frame more than there is room for, and none of the units before it is too long. -/
def Excess (n : Nat) (all : List (List UInt8)) : Prop :=
  ∃ before data after, all = before ++ data :: after ∧ keyUnit data ∧ before.countP keyUnit = n ∧
    ∀ unit ∈ before ++ [data], UnitFits unit

theorem fits_of_skips {before : List (List UInt8)} (skips : ∀ unit ∈ before, frameUnit unit = false) :
    ∀ unit ∈ before, UnitFits unit := by
  intro unit member frame
  rw [skips unit member] at frame
  exact absurd frame Bool.false_ne_true

theorem Recorded.videoTurn {n : Nat} {all : List (List UInt8)} (recorded : Recorded n all s)
    (count : settings.filepositionsTimesLength = n) (fuel : Nat) :
    Ends (fun stop => stop = .overrun → Excess n all) (Recorded n all) (s.videoTurn d fuel settings) := by
  obtain ⟨passed, rest, rfl, units, length, room, fits⟩ := recorded
  have step := @videoTurn_step _ δ d settings s units fuel
  rw [count] at step
  generalize s.videoTurn d fuel settings = result at step
  cases step with
  | starved => exact Stop.noConfusion
  | ended none rest' audio filepositions =>
    refine ⟨passed ++ rest, [], (List.append_nil _).symm, rest', ?_, ?_, ?_⟩
    · rw [filepositions, length, List.countP_append, countP_keyUnit_eq_zero none, Nat.add_zero]
    · rw [filepositions]
      exact room
    · exact List.forall_mem_append.mpr ⟨fits, fits_of_skips none⟩
  | tooLong skips long => exact Stop.noConfusion
  | @full before after data skips fit key many =>
    refine fun _ => ⟨passed ++ before, data, after, (List.append_assoc _ _ _).symm, key, ?_, ?_⟩
    · rw [List.countP_append, countP_keyUnit_eq_zero skips, Nat.add_zero, ← length]
      exact Nat.le_antisymm room many
    · rw [List.forall_mem_append, List.forall_mem_append, List.forall_mem_singleton]
      exact ⟨⟨fits, fits_of_skips skips⟩, fit⟩
  | @wrote before after data s' skips fit more rest' audio done length' =>
    refine ⟨passed ++ (before ++ [data]), after, by simp, rest', ?_, ?_, ?_⟩
    · rw [length', length, List.countP_append, List.countP_append, countP_keyUnit_eq_zero skips, List.countP_singleton]
      cases keyUnit data <;> simp
    · rw [length']
      cases key : keyUnit data with
      | false => exact room
      | true => exact more key
    · rw [List.forall_mem_append, List.forall_mem_append, List.forall_mem_singleton]
      exact ⟨fits, fits_of_skips skips, fit⟩

theorem turn_either {I : Mux δ → Prop} {post : Stop → Prop} (fuel : Nat) (s : Mux δ)
    (audio : Ends post I (s.audioTurn d left settings)) (video : Ends post I (s.videoTurn d fuel settings)) :
    Ends post I (s.turn d left settings fuel) := by
  unfold Mux.turn
  split
  · exact audio
  · split
    · exact video
    · split
      · exact video
      · exact audio

theorem Recorded.turn {n : Nat} {all : List (List UInt8)} (recorded : Recorded n all s)
    (count : settings.filepositionsTimesLength = n) (fuel : Nat) :
    Ends (fun stop => stop = .overrun → Excess n all) (Recorded n all) (s.turn d left settings fuel) := by
  refine turn_either fuel s ?_ (recorded.videoTurn count fuel)
  refine (audioTurn_ends s).mono (fun stop same => by rw [same]; exact Stop.noConfusion) ?_
  rintro s' ⟨tag, turn⟩
  obtain ⟨passed, rest, split, units, length, room, fits⟩ := recorded
  refine ⟨passed, rest, split, ?_, ?_, ?_, fits⟩
  · rw [turn.video]
    exact units
  · rw [turn.filepositions]
    exact length
  · rw [turn.filepositions]
    exact room

theorem overfills_of_overrun {fuel : Nat} {width height framerate : δ} {audio video : List UInt8}
    (overrun : writeTags d left fuel width height framerate audio video = .error .overrun) : Overfills video := by
  have head := @writeHead_ends δ d left fuel width height framerate audio video
  have readable : Ends (fun _ => True) (fun _ => ∃ header rest, detachHeadAac audio = .ok (some header, rest))
      (writeHead d left fuel width height framerate audio video) := by
    unfold writeHead
    cases traverseH264File fuel video with
    | error stop => trivial
    | ok n =>
      generalize detachHeadAac audio = read
      rcases read with stop | ⟨_ | header, rest⟩
      · trivial
      · trivial
      · show Ends _ _ ((Mux.start d n audio video).writeConfigs left fuel >>= _)
        cases (Mux.start d n audio video).writeConfigs left fuel with
        | error stop => trivial
        | ok s => exact ⟨header, rest, rfl⟩
  unfold writeTags at overrun
  cases result : writeHead d left fuel width height framerate audio video with
  | error stop =>
    rw [result] at overrun head
    exact absurd (Except.error.inj overrun) head
  | ok written =>
    rw [result] at overrun head readable
    obtain ⟨units, -, -, all, -⟩ := head
    obtain ⟨header, rest, read⟩ := readable
    have ready := (writeHead_ready all read fuel width height framerate).of_ok result
    obtain ⟨settings, s⟩ := written
    have start : Recorded settings.filepositionsTimesLength (behind nalPps (behind nalSps units)) s :=
      ⟨[], _, rfl, ready.units, by rw [ready.filepositions]; rfl, by rw [ready.filepositions]; exact Nat.zero_le _,
        fun _ member => absurd member List.not_mem_nil⟩
    have ends : Ends (fun stop => stop = .overrun →
          Excess settings.filepositionsTimesLength (behind nalPps (behind nalSps units)))
        (fun s' => Recorded settings.filepositionsTimesLength (behind nalPps (behind nalSps units)) s' ∧
          s'.decodeVideoDone) (s.loop d left settings fuel) :=
      loop_rule Stop.noConfusion (fun fuel s recorded => Recorded.turn recorded rfl fuel) fuel s start
    change (s.loop d left settings fuel >>= _) = _ at overrun
    cases loop : s.loop d left settings fuel with
    | ok s' =>
      rw [loop] at overrun
      cases overrun
    | error stop =>
      rw [loop] at overrun ends
      obtain ⟨before, data, after, split, key, full, fits⟩ := ends (Except.error.inj overrun)
      exact ⟨units, before, data, after, all, ready.sets, split, key, full.trans ready.count, fits⟩

/-! ### Files that make a run overrun -/

theorem first_frame {before after skipped rest : List (List UInt8)} {data unit : List UInt8}
    (split : before ++ data :: after = skipped ++ unit :: rest) (skips : ∀ unit ∈ skipped, frameUnit unit = false)
    (frame : frameUnit data) : (before = skipped ∧ data = unit ∧ after = rest) ∨
      ∃ more, before = skipped ++ unit :: more ∧ rest = more ++ data :: after := by
  rcases List.append_eq_append_iff.mp split with ⟨more, rfl, same⟩ | ⟨more, rfl, same⟩
  · rcases more with _ | ⟨first, more⟩
    · obtain ⟨rfl, rfl⟩ := List.cons.inj same
      exact .inl ⟨(List.append_nil _).symm, rfl, rfl⟩
    · obtain ⟨rfl, rfl⟩ := List.cons.inj same
      have other := skips data (List.mem_append_right _ List.mem_cons_self)
      rw [frame] at other
      exact absurd other.symm Bool.false_ne_true
  · rcases more with _ | ⟨first, more⟩
    · obtain ⟨rfl, rfl⟩ := List.cons.inj same
      exact .inl ⟨List.append_nil _, rfl, rfl⟩
    · obtain ⟨rfl, rfl⟩ := List.cons.inj same
      exact .inr ⟨more, rfl, rfl⟩

/-- The key frame that is too much has not come yet, and the audio file is the sample or has ended. -/
structure Awaits (n : Nat) (s : Mux δ) : Prop where
  units : ∃ before data after, Units s.video (before ++ data :: after) ∧ keyUnit data ∧
    before.countP keyUnit + s.filepositions.length = n ∧ ∀ unit ∈ before ++ [data], UnitFits unit
  audio : s.audio.rest = sampleAudio ∨ s.audio.rest = []
  going : s.decodeVideoDone = false

theorem Awaits.audioTurn {n : Nat} (awaits : Awaits n s) :
    Ends (fun stop => stop = .fuel ∨ stop = .overrun) (Awaits n) (s.audioTurn d left settings) := by
  obtain ⟨units, audio, going⟩ := awaits
  unfold Mux.audioTurn Mux.writeAudioTag writeStructAacTag
  rcases audio with sample | ended
  · rw [sample]
    exact ⟨units, .inr rfl, going⟩
  · rw [ended]
    exact ⟨units, .inr rfl, going⟩

theorem Awaits.videoTurn {n : Nat} (awaits : Awaits n s) (count : settings.filepositionsTimesLength = n) (fuel : Nat) :
    Ends (fun stop => stop = .fuel ∨ stop = .overrun) (Awaits n) (s.videoTurn d fuel settings) := by
  obtain ⟨⟨before, data, after, units, key, full, fits⟩, audio, going⟩ := awaits
  have frame := frameUnit_of_keyUnit key
  have step := @videoTurn_step _ δ d settings s units fuel
  rw [count] at step
  generalize s.videoTurn d fuel settings = result at step
  generalize found : before ++ data :: after = all at step
  cases step with
  | starved => exact .inl rfl
  | ended none rest' audio' filepositions =>
    have other := none data (found ▸ List.mem_append_right _ List.mem_cons_self)
    rw [frame] at other
    exact absurd other.symm Bool.false_ne_true
  | tooLong skips long =>
    rcases first_frame found skips frame with ⟨rfl, rfl, rfl⟩ | ⟨more, rfl, rfl⟩
    · exact absurd (fits data (List.mem_append_right _ (List.mem_singleton_self _))) long
    · exact absurd (fits _ (List.mem_append_left _ (List.mem_append_right _ List.mem_cons_self))) long
  | full skips fit key' many => exact .inr rfl
  | wrote skips fit more rest' audio' done length' =>
    rcases first_frame found skips frame with ⟨rfl, rfl, rfl⟩ | ⟨behind, rfl, rfl⟩
    · have room := more key
      rw [countP_keyUnit_eq_zero skips] at full
      omega
    · refine ⟨⟨behind, data, after, rest', key, ?_, fun unit member => fits unit ?_⟩, ?_, ?_⟩
      · rw [List.countP_append, countP_keyUnit_eq_zero skips, List.countP_cons] at full
        rw [length']
        cases is : keyUnit _ with
        | false =>
          rw [is] at full
          simpa using full
        | true =>
          rw [is] at full
          simp only [if_true, Bool.toNat_true] at full ⊢
          omega
      · rw [List.append_assoc]
        exact List.mem_append_right _ (List.mem_cons_of_mem _ member)
      · rw [audio']
        exact audio
      · rw [done]
        exact going

theorem Awaits.turn {n : Nat} (awaits : Awaits n s) (count : settings.filepositionsTimesLength = n) (fuel : Nat) :
    Ends (fun stop => stop = .fuel ∨ stop = .overrun) (Awaits n) (s.turn d left settings fuel) :=
  turn_either fuel s awaits.audioTurn (awaits.videoTurn count fuel)

/-- The loop comes to no end before the key frame that is too much. -/
theorem writeTags_awaits {video : List UInt8} (overfills : Overfills video) (fuel : Nat) (width height framerate : δ) :
    Ends (fun stop => stop = .fuel ∨ stop = .overrun) (fun _ => False)
      (writeTags d left fuel width height framerate sampleAudio video) := by
  obtain ⟨units, before, data, after, all, sets, split, key, full, fits⟩ := overfills
  have readable : detachHeadAac sampleAudio = .ok (some (adtsHeader 0x50 0x80 0x01 0x20), [0x21, 0x22]) := rfl
  refine ((writeHead_ready all readable fuel width height framerate).mono
    (fun stop early => .inl (early.resolve_right fun missing => missing sets)) fun _ ready => ready).bind ?_
  rintro ⟨settings, s⟩ ready
  have start : Awaits settings.filepositionsTimesLength s := by
    refine ⟨⟨before, data, after, split ▸ ready.units, key, ?_, fits⟩, .inl ready.audio, ready.going⟩
    rw [ready.filepositions, full, ready.count]
    rfl
  have ends : Ends (fun stop => stop = .fuel ∨ stop = .overrun)
      (fun s' => Awaits settings.filepositionsTimesLength s' ∧ s'.decodeVideoDone) (s.loop d left settings fuel) :=
    loop_rule (.inl rfl) (fun fuel s awaits => Awaits.turn awaits rfl fuel) fuel s start
  refine ends.bind fun s' both => ?_
  have done := both.2
  rw [both.1.going] at done
  exact absurd done Bool.false_ne_true

theorem overrun_of_overfills {video : List UInt8} (overfills : Overfills video) (width height framerate : δ) :
    writeTags d left (sampleAudio.length + video.length + 4) width height framerate sampleAudio video =
      .error .overrun := by
  have awaits := @writeTags_awaits δ d left video overfills (sampleAudio.length + video.length + 4) width height
    framerate
  have exhausts := @writeBuf2File_exhausts δ d left (sampleAudio.length + video.length + 4) width height framerate
    sampleAudio video (by omega)
  unfold writeBuf2File at exhausts
  cases result : writeTags d left (sampleAudio.length + video.length + 4) width height framerate sampleAudio video with
  | ok written =>
    rw [result] at awaits
    exact awaits.elim
  | error stop =>
    rw [result] at awaits exhausts
    rcases awaits with rfl | rfl
    · obtain ⟨⟨others, lacking, none⟩, -⟩ := exhausts rfl
      obtain ⟨units, _, _, _, all, ⟨sps, pps, -, -, found, -⟩, -⟩ := overfills
      obtain rfl := all.unique lacking
      have type := List.find?_some found
      exact absurd (of_decide_eq_true type) (none pps (List.mem_of_find?_eq_some found))
    · rfl

end

/-- No run of the muxer writes behind the arrays exactly if the file does not overfill them. -/
theorem never_overruns_iff {δ : Type} (d : Double δ) (video : List UInt8) :
    (∀ left fuel width height framerate audio,
      writeTags d left fuel width height framerate audio video ≠ .error .overrun) ↔ ¬ Overfills video := by
  constructor
  · intro within overfills
    exact within (fun _ => (0, 0)) _ (d.ofNat 0) (d.ofNat 0) (d.ofNat 0) sampleAudio
      (overrun_of_overfills overfills (d.ofNat 0) (d.ofNat 0) (d.ofNat 0))
  · intro room left fuel width height framerate audio overrun
    exact room (overfills_of_overrun overrun)

/-- Two parameter sets and a slice of type SI. -/
def switchingVideo : List UInt8 :=
  [0, 0, 0, 1, 0x67, 0x42, 0x00, 0x1E, 0, 0, 0, 1, 0x68, 0xCE, 0, 0, 0, 1, 0x65, 0x94, 0x80]

theorem switchingVideo_overfills : Overfills switchingVideo := by
  refine ⟨[[0x67, 0x42, 0x00, 0x1E], [0x68, 0xCE], [0x65, 0x94, 0x80]], [], [0x65, 0x94, 0x80], [],
    .found rfl (.found rfl (.found rfl (.ended rfl))), ⟨_, _, rfl, ?_, rfl, ?_⟩, rfl, ?_, ?_, ?_⟩
  · decide
  · decide
  · decide
  · decide
  · intro unit member frame
    rw [List.mem_singleton.mp member]
    decide

theorem overruns_refuted : ¬ ∀ left fuel width height framerate audio video,
    writeTags binary64 left fuel width height framerate audio video ≠ .error .overrun :=
  fun within => within (fun _ => (0, 0)) _ 720 468 30 sampleAudio switchingVideo
    (overrun_of_overfills switchingVideo_overfills 720 468 30)

end LiveStreaming.FlvMux
