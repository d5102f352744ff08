import LiveStreaming.PeonyMediaParser.Media
import LiveStreaming.PeonyMediaParser.MoovLoop

/-!
# What the parsers read

The first of the three boxes of a file is read within its buffer, the third if it is long enough for its header, and the
second if every box that the walk comes to is contained.
-/

namespace LiveStreaming.PeonyMediaParser
open Library ByteReader EarlyExit

variable {buffer : List UInt8}

/-- The walk over a moov box goes from one contained box to the next. -/
def MoovContained (buffer : List UInt8) : Prop :=
  buffer.length < 16 ∨ ∀ n c, walk buffer n = some c → c.Fits buffer → Sound buffer boxKinds c

/-- The walk is nowhere twice. -/
def MoovEnds (buffer : List UInt8) : Prop :=
  ∀ i j, i < j → walk buffer j ≠ none → walk buffer i ≠ walk buffer j

/-- The buffer has room for a size, and for a type if the size is its own. -/
def MdtaContained (buffer : List UInt8) : Prop :=
  buffer.length = 0 ∨ 4 ≤ buffer.length ∧ (takeAt buffer uint32 0 = .ok (bufferSize buffer) → 8 ≤ buffer.length)

theorem takeAt_wide {α : Type} {r : ByteReader α} {n : Nat} (wide : Wide r n) (pos : Nat)
    (inside : pos + n ≤ buffer.length) : ∃ a, takeAt buffer r pos = .ok a := by
  obtain ⟨a, read⟩ := wide.some (buffer.drop pos) (by rw [List.length_drop]; omega)
  exact ⟨a, by rw [takeAt, read]⟩

theorem takeAt_short {α : Type} {r : ByteReader α} {n pos : Nat} (wide : Wide r n) (some_ : 0 < n)
    (short : buffer.length < pos + n) : takeAt buffer r pos = .error .outside := by
  rw [takeAt, wide.none (by rw [List.length_drop]; omega)]

theorem bufferSize_eq_zero (small : buffer.length < 2 ^ 32) : bufferSize buffer = 0 ↔ buffer.length = 0 := by
  rw [← UInt32.toNat_inj, bufferSize_toNat small]
  rfl

theorem bufferSize_sub (small : buffer.length < 2 ^ 32) {n : Nat} (enough : n ≤ buffer.length) :
    (bufferSize buffer - UInt32.ofNat n).toNat = buffer.length - n := by
  have length := bufferSize_toNat small
  have size : (UInt32.ofNat n).toNat = n := UInt32.toNat_ofNat_of_lt' (by rw [UInt32.size]; omega)
  rw [UInt32.toNat_sub_of_le _ _ (UInt32.le_iff_toNat_le.mpr (by omega)), length, size]

/-! ### The three parsers -/

theorem wide_readFtyp : Wide readFtyp 12 :=
  (wide_field 4).bind fun _ => (wide_field 4).bind fun _ => (wide_field 4).bind fun _ => .pure _

/-- An ftyp box is parsed if it has room for its fields, and the field for the brands has room for them. -/
theorem onFtypBoxParse_ends (small : buffer.length < 2 ^ 32) (ftypBox : FtypBox) :
    Ends (fun stop => stop = .overflow ∧ 28 < buffer.length)
      (fun parsed => parsed.1 = true ↔ 16 ≤ buffer.length ∧ buffer.length ≤ 28)
      (onFtypBoxParse buffer ftypBox) := by
  unfold onFtypBoxParse
  by_cases short : buffer.length < 16
  · rw [if_pos ((bufferSize_lt small).mpr short), ite_self]
    show false = true ↔ _
    exact ⟨fun parsed => absurd parsed (by decide), fun long => by omega⟩
  · have enough : 16 ≤ buffer.length := Nat.le_of_not_lt short
    have brandsSize : (bufferSize buffer - 16).toNat = buffer.length - 16 := bufferSize_sub (n := 16) small enough
    obtain ⟨fields, read⟩ := takeAt_wide wide_readFtyp 4 (show 4 + 12 ≤ buffer.length by omega)
    obtain ⟨brands, behind⟩ := takeAt_wide (wide_bytes (bufferSize buffer - 16).toNat) 16
      (show 16 + (bufferSize buffer - 16).toNat ≤ buffer.length by omega)
    rw [if_neg (mt (bufferSize_eq_zero small).mp (by omega)), if_neg (mt (bufferSize_lt small).mp short), read]
    dsimp only [Except.mapError, bind, Except.bind]
    rw [behind]
    dsimp only [Except.mapError]
    by_cases room : (bufferSize buffer - 16).toNat ≤ 12
    · rw [if_pos room]
      exact ⟨fun _ => by omega, fun _ => rfl⟩
    · rw [if_neg room]
      exact ⟨rfl, by omega⟩

theorem onMdtaBoxParse_contained_iff (small : buffer.length < 2 ^ 32) (mdtaBox : DataBox) :
    (∀ fault, onMdtaBoxParse buffer mdtaBox ≠ .error fault) ↔ MdtaContained buffer := by
  unfold onMdtaBoxParse MdtaContained
  by_cases empty : buffer.length = 0
  · rw [if_pos ((bufferSize_eq_zero small).mpr empty)]
    exact ⟨fun _ => .inl empty, fun _ _ same => by cases same⟩
  · rw [if_neg (mt (bufferSize_eq_zero small).mp empty), or_iff_right empty]
    by_cases sized : 4 ≤ buffer.length
    · obtain ⟨size, read⟩ := takeAt_wide wide_uint32 0 (show 0 + 4 ≤ buffer.length by omega)
      rw [and_iff_right sized, read]
      dsimp only [bind, Except.bind]
      by_cases own : size = bufferSize buffer
      · rw [if_pos own, own, imp_iff_right rfl]
        by_cases long : 8 ≤ buffer.length
        · obtain ⟨type, readType⟩ := takeAt_wide (wide_field 4) 4 (show 4 + 4 ≤ buffer.length by omega)
          have dataSize : (bufferSize buffer - 8).toNat = buffer.length - 8 := bufferSize_sub (n := 8) small long
          obtain ⟨data, readData⟩ := takeAt_wide (wide_bytes (bufferSize buffer - 8).toNat) 8
            (show 8 + (bufferSize buffer - 8).toNat ≤ buffer.length by omega)
          rw [readType]
          dsimp only
          rw [readData]
          refine ⟨fun _ => long, fun _ fault same => ?_⟩
          split at same <;> cases same
        · rw [takeAt_short (wide_field 4) (by decide) (by omega)]
          exact ⟨fun contained => absurd rfl (contained .outside), fun long' => absurd long' long⟩
      · rw [if_neg own]
        exact ⟨fun _ same => absurd (Except.ok.inj same) own, fun _ _ same => by cases same⟩
    · rw [takeAt_short wide_uint32 (by decide) (by omega)]
      exact ⟨fun contained => absurd rfl (contained .outside), fun both => absurd both.1 sized⟩

theorem onMoovBoxParse_contained_iff (small : buffer.length < 2 ^ 32) (moovBox : MoovBox) :
    (∀ fuel fault, onMoovBoxParse buffer fuel moovBox ≠ some (.error fault)) ↔ MoovContained buffer := by
  unfold MoovContained
  by_cases short : buffer.length < 16
  · refine ⟨fun _ => .inl short, fun _ fuel fault ran => ?_⟩
    rw [onMoovBoxParse, if_pos ((bufferSize_lt small).mpr short)] at ran
    cases ran
  · obtain ⟨s, run, cursor, loaded⟩ := moovRun_loop (Nat.le_of_not_lt short) moovBox
    have start : walk buffer 0 = some s.cursor := congrArg some cursor.symm
    have parse (fuel : Nat) : onMoovBoxParse buffer fuel moovBox = (moovLoop buffer fuel s).map Leave.result := by
      rw [onMoovBoxParse_run small (Nat.le_of_not_lt short), run]
    rw [or_iff_right short]
    constructor
    · intro contained n c there fits
      by_contra unsound
      obtain ⟨fuel, fault, ran⟩ := moovLoop_fault_of_unsound small loaded start (k := n) (by rwa [Nat.zero_add]) fits
        unsound
      refine contained fuel fault ?_
      rw [parse, ran]
      rfl
    · intro sound fuel fault ran
      rw [parse] at ran
      obtain ⟨leave, left, result⟩ := Option.map_eq_some_iff.mp ran
      cases leave with
      | ended _ => cases result
      | fault fault' =>
        obtain ⟨m, c, there, fits, unsound⟩ := unsound_of_fault small loaded start left
        exact unsound (sound m c there fits)

/-! ### A file -/

section
variable (garbage : Nat → UInt8) (file : List UInt8)

/-- What the three parsers are given, as long as one after the other goes on. -/
def ftypBuffer : UInt32 × List UInt8 × MediaFile :=
  let (size, _) := freadSize 0 ⟨file, 0⟩
  (size, freadBuffer garbage size ⟨file, 0⟩)

def moovBuffer : UInt32 × List UInt8 × MediaFile :=
  freadBox garbage (ftypBuffer garbage file).1 (ftypBuffer garbage file).2.2

def mdtaBuffer : UInt32 × List UInt8 × MediaFile :=
  freadBox garbage (moovBuffer garbage file).1 (moovBuffer garbage file).2.2

/-- Every box is contained that is parsed: the second if the first could be, and the third if the second could be. -/
def MediaContained : Prop :=
  16 ≤ (ftypBuffer garbage file).2.1.length → (ftypBuffer garbage file).2.1.length ≤ 28 →
    MoovContained (moovBuffer garbage file).2.1 ∧
      (16 ≤ (moovBuffer garbage file).2.1.length → MoovEnds (moovBuffer garbage file).2.1 →
        MdtaContained (mdtaBuffer garbage file).2.1)

end

variable {garbage : Nat → UInt8} {file : List UInt8} {mp4Boxes : MP4Boxes}

theorem run_bind_error {α β : Type} {first : MediaRun α} {rest : α → MediaRun β} {stop : Stop} :
    (first >>= rest).run = some (.error stop) ↔
      first.run = some (.error stop) ∨ ∃ a, first.run = some (.ok a) ∧ (rest a).run = some (.error stop) := by
  rw [ExceptT.run_bind]
  rcases first.run with _ | stop' | a
  · simp
  · simp [pure]
  · simp

theorem length_freadBuffer (garbage : Nat → UInt8) (size : UInt32) (file : MediaFile) :
    (freadBuffer garbage size file).1.length < 2 ^ 32 := by
  have small := size.toNat_lt
  rw [freadBuffer, List.length_append, List.length_map, List.length_range', List.length_take]
  omega

theorem parseFtyp_run : (parseFtyp garbage file mp4Boxes).run =
    some ((onFtypBoxParse (ftypBuffer garbage file).2.1 mp4Boxes.ftypBox).map fun parsed =>
      { size := (ftypBuffer garbage file).1, file := (ftypBuffer garbage file).2.2, ok := parsed.1,
        parsed := [parsed.1], mp4Boxes := { mp4Boxes with ftypBox := parsed.2 }, released := 0 }) := by
  change ((ExceptT.mk (some (onFtypBoxParse (ftypBuffer garbage file).2.1 mp4Boxes.ftypBox)) : MediaRun _) >>=
    _).run = _
  rw [ExceptT.run_bind, ExceptT.run_mk]
  rcases onFtypBoxParse (ftypBuffer garbage file).2.1 mp4Boxes.ftypBox with stop | ⟨ok, ftypBox⟩
  · rfl
  · rfl

theorem parseMoov_run {s : MediaState} (ok : s.ok = true) (fuel : Nat) : (parseMoov garbage fuel s).run =
    (onMoovBoxParse (freadBox garbage s.size s.file).2.1 fuel s.mp4Boxes.moovBox).map fun result =>
      (result.mapError .fault).map fun parsed =>
        { s with size := (freadBox garbage s.size s.file).1, file := (freadBox garbage s.size s.file).2.2,
                 ok := parsed.1, parsed := s.parsed ++ [parsed.1],
                 mp4Boxes := { s.mp4Boxes with moovBox := parsed.2 } } := by
  rw [parseMoov, if_pos ok]
  show Option.bind ((onMoovBoxParse (freadBox garbage s.size s.file).2.1 fuel s.mp4Boxes.moovBox).map _) _ = _
  rcases onMoovBoxParse (freadBox garbage s.size s.file).2.1 fuel s.mp4Boxes.moovBox with _ | fault | ⟨ok', moovBox⟩
  · rfl
  · rfl
  · rfl

theorem parseMdta_run {s : MediaState} (ok : s.ok = true) : (parseMdta garbage s).run =
    some (((onMdtaBoxParse (freadBox garbage s.size s.file).2.1 s.mp4Boxes.mdtaBox).mapError Stop.fault).map
      fun parsed =>
        { s with size := (freadBox garbage s.size s.file).1, file := (freadBox garbage s.size s.file).2.2,
                 ok := parsed.1, parsed := s.parsed ++ [parsed.1],
                 mp4Boxes := { s.mp4Boxes with mdtaBox := parsed.2 } }) := by
  rw [parseMdta, if_pos ok]
  change ((ExceptT.mk (some ((onMdtaBoxParse (freadBox garbage s.size s.file).2.1 s.mp4Boxes.mdtaBox).mapError
    Stop.fault)) : MediaRun _) >>= _).run = _
  rw [ExceptT.run_bind, ExceptT.run_mk]
  rcases onMdtaBoxParse (freadBox garbage s.size s.file).2.1 s.mp4Boxes.mdtaBox with fault | ⟨ok', mdtaBox⟩
  · rfl
  · rfl

/-- What the first parser leaves behind, where it has been given room. -/
theorem parseFtyp_ok (fits : 16 ≤ (ftypBuffer garbage file).2.1.length ∧ (ftypBuffer garbage file).2.1.length ≤ 28) :
    ∃ s, (parseFtyp garbage file mp4Boxes).run = some (.ok s) ∧ s.ok = true ∧
      freadBox garbage s.size s.file = moovBuffer garbage file := by
  have small : (ftypBuffer garbage file).2.1.length < 2 ^ 32 := length_freadBuffer _ _ _
  have ends := onFtypBoxParse_ends small mp4Boxes.ftypBox
  rw [parseFtyp_run]
  rcases result : onFtypBoxParse (ftypBuffer garbage file).2.1 mp4Boxes.ftypBox with stop | ⟨ok, ftypBox⟩
  · rw [result] at ends
    have long : 28 < (ftypBuffer garbage file).2.1.length := ends.2
    omega
  · rw [result] at ends
    exact ⟨_, rfl, ends.mpr fits, rfl⟩

theorem parseFtyp_spec {s : MediaState} (ran : (parseFtyp garbage file mp4Boxes).run = some (.ok s))
    (ok : s.ok = true) :
    16 ≤ (ftypBuffer garbage file).2.1.length ∧ (ftypBuffer garbage file).2.1.length ≤ 28 ∧
      freadBox garbage s.size s.file = moovBuffer garbage file := by
  have small : (ftypBuffer garbage file).2.1.length < 2 ^ 32 := length_freadBuffer _ _ _
  have ends := onFtypBoxParse_ends small mp4Boxes.ftypBox
  rw [parseFtyp_run] at ran
  rcases result : onFtypBoxParse (ftypBuffer garbage file).2.1 mp4Boxes.ftypBox with stop | ⟨ok', ftypBox⟩
  · rw [result] at ran
    cases ran
  · rw [result] at ran ends
    obtain rfl := Except.ok.inj (Option.some.inj ran)
    have fits := ends.mp ok
    exact ⟨fits.1, fits.2, rfl⟩

theorem parseFtyp_no_fault {fault : Fault} : (parseFtyp garbage file mp4Boxes).run ≠ some (.error (.fault fault)) := by
  have small : (ftypBuffer garbage file).2.1.length < 2 ^ 32 := length_freadBuffer _ _ _
  have ends := onFtypBoxParse_ends small mp4Boxes.ftypBox
  rw [parseFtyp_run]
  intro ran
  rcases result : onFtypBoxParse (ftypBuffer garbage file).2.1 mp4Boxes.ftypBox with stop | ⟨ok', ftypBox⟩
  · rw [result] at ran ends
    obtain rfl := Except.error.inj (Option.some.inj ran)
    cases ends.1
  · rw [result] at ran
    cases ran

theorem length_freadBox (garbage : Nat → UInt8) (size : UInt32) (file : MediaFile) :
    (freadBox garbage size file).2.1.length < 2 ^ 32 := length_freadBuffer _ _ _

/-- A moov box that is contained and on which the walk ends is parsed. -/
theorem onMoovBoxParse_ok {buffer : List UInt8} (small : buffer.length < 2 ^ 32) (enough : 16 ≤ buffer.length)
    (contained : MoovContained buffer) (ends : MoovEnds buffer) (moovBox : MoovBox) :
    ∃ fuel moov, onMoovBoxParse buffer fuel moovBox = some (.ok (true, moov)) := by
  obtain ⟨fuel, some_⟩ : ∃ fuel, (onMoovBoxParse buffer fuel moovBox).isSome := by
    simp only [onMoovBoxParse_isSome small enough]
    exact Walk.ends_iff.mpr ends
  have free := (onMoovBoxParse_contained_iff small moovBox).mpr contained fuel
  rw [onMoovBoxParse_run small enough] at some_ free
  refine ⟨fuel, ?_⟩
  rw [onMoovBoxParse_run small enough]
  rcases run : moovRun buffer fuel moovBox with _ | s | fault
  · rw [run] at some_
    cases some_
  · exact ⟨_, rfl⟩
  · rw [run] at free
    exact absurd rfl (free fault)

/-- A parser that has returned has come to an end of its walk. -/
theorem moovEnds_of_ok {buffer : List UInt8} (small : buffer.length < 2 ^ 32) {fuel : Nat} {moovBox moov : MoovBox}
    (parsed : onMoovBoxParse buffer fuel moovBox = some (.ok (true, moov))) :
    16 ≤ buffer.length ∧ MoovEnds buffer := by
  by_cases short : buffer.length < 16
  · rw [onMoovBoxParse, if_pos ((bufferSize_lt small).mpr short)] at parsed
    cases parsed
  · have enough : 16 ≤ buffer.length := Nat.le_of_not_lt short
    refine ⟨enough, Walk.ends_iff.mp ⟨fuel, (onMoovBoxParse_isSome small enough moovBox fuel).mp ?_⟩⟩
    rw [parsed]
    rfl

theorem onMediaParse_contained_iff (garbage : Nat → UInt8) (file : List UInt8) (mp4Boxes : MP4Boxes) :
    (∀ fuel fault, (onMediaParse garbage fuel (some file) mp4Boxes).run ≠ some (.error (.fault fault))) ↔
      MediaContained garbage file := by
  have moovSmall : (moovBuffer garbage file).2.1.length < 2 ^ 32 := length_freadBox _ _ _
  have mdtaSmall : (mdtaBuffer garbage file).2.1.length < 2 ^ 32 := length_freadBox _ _ _
  constructor
  · intro free low high
    obtain ⟨s, first, ok, next⟩ := @parseFtyp_ok garbage file mp4Boxes ⟨low, high⟩
    have contained : MoovContained (moovBuffer garbage file).2.1 := by
      refine (onMoovBoxParse_contained_iff moovSmall s.mp4Boxes.moovBox).mp fun fuel fault ran => free fuel fault ?_
      refine run_bind_error.mpr (.inr ⟨s, first, run_bind_error.mpr (.inl ?_)⟩)
      rw [parseMoov_run ok, next, ran]
      rfl
    refine ⟨contained, fun enough ends => ?_⟩
    obtain ⟨fuel, moov, parsed⟩ := onMoovBoxParse_ok moovSmall enough contained ends s.mp4Boxes.moovBox
    have second := @parseMoov_run garbage s ok fuel
    rw [next, parsed] at second
    refine (onMdtaBoxParse_contained_iff mdtaSmall s.mp4Boxes.mdtaBox).mp fun fault ran => free fuel fault ?_
    refine run_bind_error.mpr (.inr ⟨s, first, run_bind_error.mpr (.inr ⟨_, second, run_bind_error.mpr (.inl ?_)⟩)⟩)
    rw [parseMdta_run rfl]
    exact congrArg (fun result => some ((Except.mapError Stop.fault result).map _)) ran
  · intro contained fuel fault ran
    rcases run_bind_error.mp ran with first | ⟨s, first, ran⟩
    · exact parseFtyp_no_fault first
    cases ok : s.ok with
    | false =>
      have skipped (fuel : Nat) : (parseMoov garbage fuel s).run = some (.ok (deallocatePackage s)) := by
        rw [parseMoov, if_neg (by rw [ok]; decide)]
        rfl
      have again : (parseMdta garbage (deallocatePackage s)).run =
          some (.ok (deallocatePackage (deallocatePackage s))) := by
        rw [parseMdta, if_neg (by rw [show (deallocatePackage s).ok = s.ok from rfl, ok]; decide)]
        rfl
      rcases run_bind_error.mp ran with second | ⟨s', second, ran⟩
      · rw [skipped] at second
        cases second
      · rw [skipped] at second
        obtain rfl := Except.ok.inj (Option.some.inj second)
        rcases run_bind_error.mp ran with third | ⟨s', third, ran⟩
        · rw [again] at third
          cases third
        · cases ran
    | true =>
      obtain ⟨low, high, next⟩ := parseFtyp_spec first ok
      obtain ⟨moovContained, mdtaContained⟩ := contained low high
      have moovFree := (onMoovBoxParse_contained_iff moovSmall s.mp4Boxes.moovBox).mpr moovContained fuel
      have moovRan := @parseMoov_run garbage s ok fuel
      rw [next] at moovRan
      rcases result : onMoovBoxParse (moovBuffer garbage file).2.1 fuel s.mp4Boxes.moovBox with _ | fault' | ⟨ok', moov⟩
      · rw [result] at moovRan
        rcases run_bind_error.mp ran with second | ⟨s', second, -⟩
        · rw [moovRan] at second
          cases second
        · rw [moovRan] at second
          cases second
      · exact moovFree fault' result
      · rw [result] at moovRan
        rcases run_bind_error.mp ran with second | ⟨s', second, ran⟩
        · rw [moovRan] at second
          cases second
        · rw [moovRan] at second
          obtain rfl := Except.ok.inj (Option.some.inj second)
          cases ok' with
          | false =>
            rcases run_bind_error.mp ran with third | ⟨_, third, ran⟩
            · cases third
            · cases ran
          | true =>
            obtain ⟨enough, ends⟩ := moovEnds_of_ok moovSmall result
            have mdtaFree := (onMdtaBoxParse_contained_iff mdtaSmall s.mp4Boxes.mdtaBox).mpr (mdtaContained enough ends)
            have mdtaRan := @parseMdta_run garbage { s with
              size := (moovBuffer garbage file).1, file := (moovBuffer garbage file).2.2, ok := true,
              parsed := s.parsed ++ [true], mp4Boxes := { s.mp4Boxes with moovBox := moov } } rfl
            rcases third : onMdtaBoxParse (mdtaBuffer garbage file).2.1 s.mp4Boxes.mdtaBox with fault' | parsed
            · exact mdtaFree fault' third
            · have last :=
                mdtaRan.trans (congrArg (fun result => some ((Except.mapError Stop.fault result).map _)) third)
              rcases run_bind_error.mp ran with third | ⟨_, _, ran⟩
              · rw [last] at third
                cases third
              · cases ran

/-- The first parser stays within its buffer whatever it holds, and the others where the boxes are contained. -/
theorem parse_contained_iff (small : buffer.length < 2 ^ 32) (garbage : Nat → UInt8) (file : Option (List UInt8))
    (mp4Boxes : MP4Boxes) :
    (∀ fault, onFtypBoxParse buffer mp4Boxes.ftypBox ≠ .error (.fault fault)) ∧
    ((∀ fault, onMdtaBoxParse buffer mp4Boxes.mdtaBox ≠ .error fault) ↔ MdtaContained buffer) ∧
    ((∀ fuel fault, onMoovBoxParse buffer fuel mp4Boxes.moovBox ≠ some (.error fault)) ↔ MoovContained buffer) ∧
    ((∀ fuel fault, (onMediaParse garbage fuel file mp4Boxes).run ≠ some (.error (.fault fault))) ↔
      ∀ bytes ∈ file, MediaContained garbage bytes) := by
  refine ⟨fun fault result => ?_, onMdtaBoxParse_contained_iff small _, onMoovBoxParse_contained_iff small _, ?_⟩
  · have ends := onFtypBoxParse_ends small mp4Boxes.ftypBox
    rw [result] at ends
    cases ends.1
  · cases file with
    | none =>
      constructor
      · intro _ bytes there
        cases there
      · intro _ fuel fault ran
        cases ran
    | some bytes =>
      rw [onMediaParse_contained_iff]
      exact ⟨fun contained _ same => Option.some.inj same ▸ contained, fun all => all bytes rfl⟩

theorem parse_contained_sample :
    (∀ fault, onFtypBoxParse emptyTrak allocateMP4Boxes.ftypBox ≠ .error (.fault fault)) ∧
    ((∀ fault, onMdtaBoxParse emptyTrak allocateMP4Boxes.mdtaBox ≠ .error fault) ↔ MdtaContained emptyTrak) ∧
    ((∀ fuel fault, onMoovBoxParse emptyTrak fuel allocateMP4Boxes.moovBox ≠ some (.error fault)) ↔
      MoovContained emptyTrak) ∧
    ((∀ fuel fault, (onMediaParse (fun _ => 0) fuel (some emptyTrak) allocateMP4Boxes).run ≠
        some (.error (.fault fault))) ↔ ∀ bytes ∈ some emptyTrak, MediaContained (fun _ => 0) bytes) :=
  parse_contained_iff (by decide) (fun _ => 0) (some emptyTrak) allocateMP4Boxes

/-- A moov box with a tkhd box that is in no trak. -/
def strayTkhd : List UInt8 := [0, 0, 0, 16, 0x6D, 0x6F, 0x6F, 0x76, 0, 0, 0, 8, 0x74, 0x6B, 0x68, 0x64]

theorem contained_refuted : ¬ ∀ (buffer : List UInt8) (garbage : Nat → UInt8) (file : Option (List UInt8))
    (mp4Boxes : MP4Boxes), buffer.length < 2 ^ 32 →
    (∀ fault, onFtypBoxParse buffer mp4Boxes.ftypBox ≠ .error (.fault fault)) ∧
    (∀ fault, onMdtaBoxParse buffer mp4Boxes.mdtaBox ≠ .error fault) ∧
    (∀ fuel fault, onMoovBoxParse buffer fuel mp4Boxes.moovBox ≠ some (.error fault)) ∧
    (∀ fuel fault, (onMediaParse garbage fuel file mp4Boxes).run ≠ some (.error (.fault fault))) := by
  intro contained
  have stray : onMoovBoxParse strayTkhd 1 allocateMP4Boxes.moovBox = some (.error .missing) := rfl
  exact (contained strayTkhd (fun _ => 0) none allocateMP4Boxes (by decide)).2.2.1 1 .missing stray

end LiveStreaming.PeonyMediaParser
