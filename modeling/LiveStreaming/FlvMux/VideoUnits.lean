import LiveStreaming.FlvMux.VideoTag

/-!
# The units of the H264 file

The file is read twice: once to count its key frames and once to write them. Both times the same units are read,
but a slice of type SI is a key frame only the second time, and what stands before the parameter sets only the first.
-/

namespace LiveStreaming.FlvMux
open Library FlvFile EarlyExit

/-- What the calls of `GetAnnexbNALU` find from a position on. -/
inductive Units : VideoFile → List (List UInt8) → Prop where
  | ended {video : VideoFile} (read : readNalu video = .ok (.ended, .ended)) : Units video []
  | bad {video video' : VideoFile} {units : List (List UInt8)} (read : readNalu video = .ok (.bad, video'))
      (rest : Units video' units) : Units video units
  | found {video video' : VideoFile} {data : List UInt8} {next : Nat} {units : List (List UInt8)}
      (read : readNalu video = .ok (.found data next, video')) (rest : Units video' units) : Units video (data :: units)

def unitType (data : List UInt8) : UInt8 := data.getD 0 0 &&& 0x1f

def unitSliceType (data : List UInt8) : UInt32 := (bsReadUe (bsReadUe (bitsOf (data.drop 1))).2).1

def isSliceUnit (data : List UInt8) : Bool := unitType data = nalSlice ∨ unitType data = nalSliceIdr

/-- A slice of type I. -/
def countedUnit (data : List UInt8) : Bool := isSliceUnit data ∧ unitSliceType data ∈ [2, 7]

/-- A slice of type I or SI. -/
def keyUnit (data : List UInt8) : Bool := isSliceUnit data ∧ unitSliceType data ∈ [2, 7, 4, 9]

/-- The units behind the first of a type. -/
def behind (wanted : UInt8) (units : List (List UInt8)) : List (List UInt8) :=
  (units.dropWhile fun data => unitType data ≠ wanted).drop 1

variable {video video' : VideoFile} {units : List (List UInt8)} {data : List UInt8} {next : Nat} {n : Nalu}

theorem Units.of_ended (read : readNalu video = .ok (.ended, video')) (all : Units video units) : units = [] := by
  cases all with
  | ended _ => rfl
  | bad other _ => cases read.symm.trans other
  | found other _ => cases read.symm.trans other

theorem Units.of_bad (read : readNalu video = .ok (.bad, video')) (all : Units video units) : Units video' units := by
  cases all with
  | ended other => cases read.symm.trans other
  | bad other rest =>
    cases read.symm.trans other
    exact rest
  | found other _ => cases read.symm.trans other

theorem Units.of_found (read : readNalu video = .ok (.found data next, video')) (all : Units video units) :
    ∃ rest, units = data :: rest ∧ Units video' rest := by
  cases all with
  | ended other => cases read.symm.trans other
  | bad other _ => cases read.symm.trans other
  | found other rest =>
    cases read.symm.trans other
    exact ⟨_, rfl, rest⟩

theorem Units.unique {others : List (List UInt8)} (all : Units video units) (all' : Units video others) :
    units = others := by
  induction all generalizing others with
  | ended read => exact (all'.of_ended read).symm
  | bad read rest ih => exact ih (all'.of_bad read)
  | found read rest ih =>
    obtain ⟨others, rfl, behind⟩ := all'.of_found read
    rw [ih behind]

theorem readNalu_eof (eof : video.eof) : readNalu video = .ok (.ended, .ended) := by
  unfold readNalu
  rw [video.eof_rest eof]
  rfl

/-! ### One read -/

/-- Behind a unit the file ends, or another one starts. -/
def StartsUnit (video : VideoFile) : Prop :=
  video.eof ∨ video.rest.take 3 = [0, 0, 1] ∨ video.rest.take 4 = [0, 0, 0, 1]

theorem findNext_ends (buf rest : List UInt8) : Ends (· = .undefined)
    (fun found => (found.2.1 = 3 ∨ found.2.1 = 4) ∧ StartsUnit found.2.2) (findNext buf rest) := by
  induction rest generalizing buf with
  | nil =>
    unfold findNext
    split
    · exact ⟨.inl rfl, .inl rfl⟩
    · rfl
  | cons c rest ih =>
    unfold findNext
    split
    · dsimp only
      split
      · exact ⟨.inr rfl, .inr (.inr rfl)⟩
      · split
        · exact ⟨.inl rfl, .inr (.inl rfl)⟩
        · exact ih _
    · rfl

/-- What one call of `GetAnnexbNALU` gives. -/
inductive NaluStep (n : Nalu) (video : VideoFile) : Int × Nalu × VideoFile → Prop where
  | ended (read : readNalu video = .ok (.ended, .ended)) : NaluStep n video (0, n, .ended)
  | bad {video' : VideoFile} (read : readNalu video = .ok (.bad, video')) : NaluStep n video (-1, n, video')
  | found {data : List UInt8} {next : Nat} {video' : VideoFile} (read : readNalu video = .ok (.found data next, video'))
      (positive : 0 < next) (starts : StartsUnit video') : NaluStep n video (next, n.load data, video')

theorem readNalu_ends (video : VideoFile) : Ends (· = .undefined)
    (fun read => (read.1 = .ended ∧ read.2 = .ended ∨ read.1 = .bad) ∧ (StartsUnit video → video.eof) ∨
      ∃ data next, read.1 = .found data next ∧ 0 < next ∧ StartsUnit read.2) (readNalu video) := by
  have positive {next : Nat} (code : next = 3 ∨ next = 4) : 0 < next := by omega
  unfold readNalu
  split
  · exact (findNext_ends _ _).bind fun found starts => .inr ⟨_, _, rfl, positive starts.1, starts.2⟩
  · next noThree =>
    split
    · next short =>
      refine .inl ⟨.inl ⟨rfl, rfl⟩, fun starts => ?_⟩
      refine starts.resolve_right fun code => code.elim noThree fun four => ?_
      have long := congrArg List.length four
      rw [List.length_take] at long
      simp only [List.length_cons, List.length_nil] at long
      omega
    · split
      · exact (findNext_ends _ _).bind fun found starts => .inr ⟨_, _, rfl, positive starts.1, starts.2⟩
      · next noFour => exact .inl ⟨.inr rfl, fun starts => starts.resolve_right fun code => code.elim noThree noFour⟩

theorem getAnnexbNalu_ends (n : Nalu) (video : VideoFile) :
    Ends (· = .undefined) (NaluStep n video) (getAnnexbNalu n video) := by
  have ends := readNalu_ends video
  unfold getAnnexbNalu
  generalize result : readNalu video = read at ends
  cases read with
  | error stop => exact ends
  | ok read =>
    obtain ⟨read, video'⟩ := read
    rcases ends with ⟨⟨rfl, rfl⟩ | rfl, -⟩ | ⟨data, next, rfl, positive, starts⟩
    · exact .ended result
    · exact .bad result
    · exact .found result positive starts

theorem not_bad_of_starts (starts : StartsUnit video) (going : video.eof = false) {read : NaluRead}
    (result : readNalu video = .ok (read, video')) : ∃ data next, read = .found data next := by
  have ends := readNalu_ends video
  rw [result] at ends
  rcases ends with ⟨-, ended⟩ | ⟨data, next, found, -⟩
  · have eof := ended starts
    rw [going] at eof
    cases eof
  · exact ⟨data, next, found⟩

/-! ### One unit -/

theorem load_take (n : Nalu) (data : List UInt8) : (n.load data).buf.take (n.load data).len = data := List.take_left

theorem load_sliceType (n : Nalu) (data : List UInt8) : (n.load data).sliceType = unitSliceType data := by
  rw [Nalu.sliceType, load_take]
  rfl

theorem load_nalUnitType (n : Nalu) (some : data ≠ []) : (n.load data).nalUnitType = unitType data := by
  obtain ⟨b, rest, rfl⟩ := List.exists_cons_of_ne_nil some
  rfl

theorem getFrameType_eq (n : Nalu) : ∃ frametype, getFrameType n = { n with frametype } := by
  unfold getFrameType
  repeat' split
  all_goals exact ⟨_, rfl⟩

@[simp] theorem getFrameType_nalUnitType (n : Nalu) : (getFrameType n).nalUnitType = n.nalUnitType := by
  obtain ⟨frametype, same⟩ := getFrameType_eq n
  rw [same]
  rfl

@[simp] theorem getFrameType_counts (n : Nalu) : (getFrameType n).counts = n.counts := by
  obtain ⟨frametype, same⟩ := getFrameType_eq n
  rw [same]
  rfl

theorem getFrameType_frametype (other : n.frametype ≠ frameI) :
    (getFrameType n).frametype = frameI ↔ n.isSlice ∧ n.sliceType ∈ [2, 7, 4, 9] := by
  have apart {xs ys : List UInt32} (disjoint : ∀ x ∈ xs, x ∉ ys) (member : n.sliceType ∈ xs) (b : Bool) :
      ¬ (b = true ∧ n.sliceType ∈ ys) := fun both => disjoint _ member both.2
  unfold getFrameType
  split
  · next slice =>
    rw [slice]
    split
    · next p => exact iff_of_false (show frameP ≠ frameI by decide) (apart (by simp) p true)
    · split
      · next b => exact iff_of_false (show frameB ≠ frameI by decide) (apart (by simp) b true)
      · split
        · next i => exact iff_of_true rfl ⟨rfl, i⟩
        · next none => exact iff_of_false other fun both => none both.2
  · next noSlice =>
    refine iff_of_false ?_ fun both => noSlice both.1
    split
    · show nalSei ≠ frameI
      decide
    · split
      · show nalSps ≠ frameI
        decide
      · split
        · show nalPps ≠ frameI
          decide
        · exact other

theorem getFrameType_twice (other : (getFrameType n).frametype ≠ frameI) (before : n.frametype ≠ frameI) :
    (getFrameType (getFrameType n)).frametype ≠ frameI := by
  rw [Ne, getFrameType_frametype other]
  rw [Ne, getFrameType_frametype before] at other
  obtain ⟨frametype, same⟩ := getFrameType_eq n
  rw [same]
  exact other

theorem key_load (other : n.frametype ≠ frameI) (data : List UInt8) :
    (getFrameType (n.load data)).frametype = frameI ↔ keyUnit data := by
  rw [getFrameType_frametype (n := n.load data) other, load_sliceType]
  by_cases empty : data = []
  · subst empty
    exact iff_of_false (fun both => absurd both.2 (by decide)) (by decide)
  · rw [keyUnit, Nalu.isSlice, load_nalUnitType n empty, isSliceUnit]
    simp

theorem counts_load (n : Nalu) (data : List UInt8) : (n.load data).counts = countedUnit data := by
  rw [Nalu.counts, load_sliceType]
  by_cases empty : data = []
  · subst empty
    have zero : unitSliceType [] = 0 := by decide
    have unsliced : countedUnit [] = false := by decide
    rw [zero, unsliced]
    simp
  · rw [countedUnit, Nalu.isSlice, load_nalUnitType n empty, isSliceUnit]

/-! ### The loops -/

/-- The count of `TraverseH264File` is that of the units. -/
theorem traverseLoop_ends (fuel : Nat) (n : Nalu) (video : VideoFile) (iFrameNum : Nat)
    (fresh : n.counts = false ∨ StartsUnit video) : Ends (· ≠ .overrun)
    (fun total => ∃ units, Units video units ∧ total = iFrameNum + units.countP countedUnit)
    (traverseLoop fuel n video iFrameNum) := by
  induction fuel generalizing n video iFrameNum with
  | zero => exact Stop.noConfusion
  | succ fuel ih =>
    unfold traverseLoop
    split
    · next eof => exact ⟨[], .ended (readNalu_eof eof), rfl⟩
    · next going =>
      -- what has been counted is counted again only where no unit is read
      have uncounted {read : NaluRead} {video' : VideoFile} (result : readNalu video = .ok (read, video'))
          (missing : ∀ data next, read ≠ .found data next) : n.counts = false := by
        refine fresh.resolve_right fun starts => ?_
        obtain ⟨data, next, found⟩ := not_bad_of_starts starts (Bool.eq_false_iff.mpr going) result
        exact missing data next found
      refine ((getAnnexbNalu_ends n video).mono (fun stop same => by rw [same]; decide) fun _ step => step).bind ?_
      rintro _ (read | read | ⟨read, positive, starts⟩)
      · have stays := uncounted read nofun
        dsimp only
        rw [stays, if_neg Bool.false_ne_true]
        refine (ih (getFrameType n) .ended iFrameNum (.inl ((getFrameType_counts n).trans stays))).mono
          (fun _ left => left) ?_
        rintro total ⟨units, all, rfl⟩
        obtain rfl := all.of_ended (readNalu_eof rfl)
        exact ⟨[], .ended read, rfl⟩
      · have stays := uncounted read nofun
        dsimp only
        rw [stays, if_neg Bool.false_ne_true]
        refine (ih (getFrameType n) _ iFrameNum (.inl ((getFrameType_counts n).trans stays))).mono
          (fun _ left => left) ?_
        rintro total ⟨units, all, same⟩
        exact ⟨units, .bad read all, same⟩
      · dsimp only
        rw [counts_load]
        refine (ih (getFrameType (n.load _)) _ _ (.inr starts)).mono (fun _ left => left) ?_
        rintro total ⟨units, all, rfl⟩
        refine ⟨_ :: units, .found read all, ?_⟩
        rw [List.countP_cons]
        split <;> omega

theorem behind_cons (wanted : UInt8) (data : List UInt8) (units : List (List UInt8)) :
    behind wanted (data :: units) = if unitType data = wanted then units else behind wanted units := by
  unfold behind
  rw [List.dropWhile_cons]
  split
  · next other => rw [if_neg (by simpa using other)]
  · next same =>
    rw [if_pos (by simpa using same)]
    rfl

/-- An empty unit does not have the type that is wanted. -/
theorem load_wanted {wanted : UInt8} (some : wanted ≠ 0) (other : n.nalUnitType ≠ wanted) (data : List UInt8) :
    (n.load data).nalUnitType = wanted ↔ unitType data = wanted := by
  by_cases empty : data = []
  · subst empty
    exact iff_of_false other (show (0 : UInt8) &&& 0x1f ≠ wanted from Ne.symm some)
  · rw [load_nalUnitType n empty]

/-- The loops that look for a parameter set leave the units behind it. -/
theorem findUnit_ends {wanted : UInt8} (some : wanted ≠ 0) (fuel : Nat) (n : Nalu) (video : VideoFile)
    (other : n.nalUnitType ≠ wanted) : Ends (· ≠ .overrun)
    (fun found => ∀ units, Units video units → Units found.2 (behind wanted units)) (findUnit wanted fuel n video) := by
  induction fuel generalizing n video with
  | zero => exact Stop.noConfusion
  | succ fuel ih =>
    unfold findUnit
    refine ((getAnnexbNalu_ends n video).mono (fun stop same => by rw [same]; decide) fun _ step => step).bind ?_
    rintro _ (read | read | ⟨read, positive, starts⟩)
    · dsimp only
      rw [if_neg (by rwa [getFrameType_nalUnitType])]
      refine (ih (getFrameType n) _ (by rwa [getFrameType_nalUnitType])).mono (fun _ left => left) ?_
      intro found rest units all
      obtain rfl := all.of_ended read
      exact rest [] (.ended (readNalu_eof rfl))
    · dsimp only
      rw [if_neg (by rwa [getFrameType_nalUnitType])]
      refine (ih (getFrameType n) _ (by rwa [getFrameType_nalUnitType])).mono (fun _ left => left) ?_
      exact fun found rest units all => rest units (all.of_bad read)
    · next data next video' =>
      have same := load_wanted some other data
      dsimp only
      rw [getFrameType_nalUnitType]
      split
      · next here =>
        intro units all
        obtain ⟨rest, rfl, behind⟩ := all.of_found read
        rw [behind_cons, if_pos (same.mp here)]
        exact behind
      · next there =>
        refine (ih (getFrameType (n.load data)) _ (by rwa [getFrameType_nalUnitType])).mono (fun _ left => left) ?_
        intro found rest units all
        obtain ⟨units, rfl, behind⟩ := all.of_found read
        rw [behind_cons, if_neg fun here => there (same.mpr here)]
        exact rest units behind

/-- Between two positions there is a key unit where `key` says so, and behind the second none where it is `last`. -/
def Passes (video video' : VideoFile) (key last : Bool) : Prop :=
  ∀ units, Units video units → ∃ rest, Units video' rest ∧
    units.countP keyUnit = rest.countP keyUnit + key.toNat ∧ (last → rest = [])

theorem Passes.of_ended (read : readNalu video = .ok (.ended, .ended)) : Passes video .ended false true := by
  intro units all
  obtain rfl := all.of_ended read
  exact ⟨[], .ended (readNalu_eof rfl), rfl, fun _ => rfl⟩

theorem Passes.of_bad {last : VideoFile} {key done : Bool} (read : readNalu video = .ok (.bad, video'))
    (rest : Passes video' last key done) : Passes video last key done :=
  fun units all => rest units (all.of_bad read)

theorem Passes.of_other {last : VideoFile} {key done : Bool} (read : readNalu video = .ok (.found data next, video'))
    (other : ¬ keyUnit data) (rest : Passes video' last key done) : Passes video last key done := by
  intro units all
  obtain ⟨units, rfl, behind⟩ := all.of_found read
  rw [List.countP_cons_of_neg other]
  exact rest units behind

theorem Passes.of_found (read : readNalu video = .ok (.found data next, video')) :
    Passes video video' (keyUnit data) false := by
  intro units all
  obtain ⟨rest, rfl, behind⟩ := all.of_found read
  refine ⟨rest, behind, ?_, fun ended => absurd ended Bool.false_ne_true⟩
  rw [List.countP_cons]
  cases keyUnit data <;> rfl

/-- A frame is a key frame exactly where a key unit has been read. -/
theorem nextFrame_ends (fuel : Nat) (n : Nalu) (video : VideoFile) (before : n.frametype ≠ frameI)
    (idle : (getFrameType n).frametype ≠ frameI) : Ends (· ≠ .overrun)
    (fun found => Passes video found.2 (found.1.any fun n => n.frametype = frameI) found.1.isNone)
    (nextFrame fuel n video) := by
  induction fuel generalizing n video with
  | zero => exact Stop.noConfusion
  | succ fuel ih =>
    unfold nextFrame
    refine ((getAnnexbNalu_ends n video).mono (fun stop same => by rw [same]; decide) fun _ step => step).bind ?_
    rintro _ (read | read | ⟨read, positive, starts⟩)
    · exact .of_ended read
    · have skip := (ih (getFrameType n) _ idle (getFrameType_twice idle before)).mono (fun _ left => left)
        fun found rest => Passes.of_bad read rest
      dsimp only
      rw [if_neg (by decide)]
      split
      · exact skip
      · split
        · intro units all
          refine ⟨units, all.of_bad read, ?_, fun ended => absurd ended Bool.false_ne_true⟩
          rw [Option.any_some, decide_eq_false idle]
          rfl
        · exact skip
    · next data next video' =>
      have key := key_load (n := n) before data
      have skip (none : (getFrameType (n.load data)).frametype ≠ frameI) :=
        (ih (getFrameType (n.load data)) video' none (getFrameType_twice none before)).mono (fun _ left => left)
          fun found rest => Passes.of_other read (fun same => none (key.mpr same)) rest
      dsimp only
      rw [if_neg (by omega), getFrameType_nalUnitType]
      split
      · next sei =>
        refine skip fun same => ?_
        have slice := ((getFrameType_frametype (n := n.load data) before).mp same).1
        rw [Nalu.isSlice, sei] at slice
        exact absurd slice (by decide)
      · split
        · have kind : decide ((getFrameType (n.load data)).frametype = frameI) = keyUnit data :=
            Bool.eq_iff_iff.mpr (by rw [decide_eq_true_eq, key])
          have passes := Passes.of_found read
          rw [← kind] at passes
          exact passes
        · next none => exact skip fun same => none (.inl same)

/-! ### Tags -/

/-- A video tag with a unit of a key frame. -/
def isKeyFrameTag (tag : List UInt8) : Bool := tag[0]? = some 0x09 ∧ tag[11]? = some 0x17 ∧ tag[12]? = some 0x01

theorem isTag_videoTag {payload : List UInt8} (bound : payload.length + 5 < 2 ^ 24) (timestamp : UInt32)
    (frameType avcPacketType : UInt8) : IsTag (videoTag timestamp frameType avcPacketType payload) := by
  refine isTag_tagHeader (.inr (.inl rfl)) ?_ timestamp
  rw [List.length_append, Nat.add_comm]
  exact bound

theorem isKeyFrameTag_videoTag (timestamp : UInt32) (frameType avcPacketType : UInt8) (payload : List UInt8) :
    isKeyFrameTag (videoTag timestamp frameType avcPacketType payload) =
      decide (frameType <<< 4 ||| 0x07 = 0x17 ∧ avcPacketType = 0x01) := by
  unfold isKeyFrameTag videoTag tagHeader
  simp

theorem length_lengthPrefixed_le (n : Nalu) : (lengthPrefixed n).length ≤ n.len + 4 := by
  rw [lengthPrefixed, List.length_append, length_sizeField, List.length_take]
  omega

theorem writeConfigTag_ends (fuel : Nat) (video : VideoFile) (timestamp : UInt32) (videoFrameType : UInt8)
    (going : video.eof = false) : Ends (· ≠ .overrun)
    (fun written => (IsTag written.1 ∧ isKeyFrameTag written.1 = false) ∧ written.2.2.1 = false ∧
      ∀ units, Units video units → Units written.2.2.2 (behind nalPps (behind nalSps units)))
    (writeStructH264Tag fuel video timestamp 0x00 videoFrameType) := by
  unfold writeStructH264Tag
  rw [if_neg (by rw [going]; decide), if_pos rfl]
  refine (findUnit_ends (by decide) fuel allocNalu video (by decide)).bind ?_
  rintro ⟨sps, video₁⟩ first
  refine (findUnit_ends (by decide) fuel allocNalu video₁ (by decide)).bind ?_
  rintro ⟨pps, video₂⟩ second
  dsimp only
  unfold createAVCDecoderConfigurationRecord
  split
  · exact Stop.noConfusion
  · next small =>
    rw [not_or, Nat.not_lt, Nat.not_lt, maxParameterSetSize] at small
    refine ⟨⟨isTag_videoTag ?_ _ _ _, ?_⟩, rfl, fun units all => second _ (first _ all)⟩
    · simp only [List.length_append, List.length_cons, List.length_nil, List.length_take]
      omega
    · rw [isKeyFrameTag_videoTag]
      decide

theorem writeFrameTag_ends (fuel : Nat) (video : VideoFile) (timestamp : UInt32) (videoFrameType : UInt8) :
    Ends (· ≠ .overrun)
    (fun written => ∃ key, Passes video written.2.2.2 key written.2.2.1 ∧
      (written.1 = [] ∧ key = false ∨
        IsTag written.1 ∧ isKeyFrameTag written.1 = key ∧ (written.2.1 = frameI ↔ key = true)))
    (writeStructH264Tag fuel video timestamp 0x01 videoFrameType) := by
  unfold writeStructH264Tag
  split
  · next eof =>
    refine ⟨false, fun units all => ?_, .inl ⟨rfl, rfl⟩⟩
    obtain rfl := all.of_ended (readNalu_eof eof)
    exact ⟨[], all, rfl, fun _ => rfl⟩
  · rw [if_neg (by decide)]
    refine (nextFrame_ends fuel allocNalu video (by decide) (by decide)).bind ?_
    rintro ⟨_ | n, video'⟩ passes
    · exact ⟨false, passes, .inl ⟨rfl, rfl⟩⟩
    · dsimp only
      split
      · exact Stop.noConfusion
      · next fits =>
        have length := length_lengthPrefixed_le n
        rw [Nat.not_lt, maxVideoTagBufSize] at fits
        refine ⟨decide (n.frametype = frameI), passes, .inr ⟨isTag_videoTag (by omega) _ _ _, ?_, ?_⟩⟩
        · rw [isKeyFrameTag_videoTag]
          by_cases key : n.frametype = frameI
          · rw [if_pos key, decide_eq_true key]
            decide
          · rw [if_neg key, decide_eq_false key]
            decide
        · rw [decide_eq_true_eq]

end LiveStreaming.FlvMux
