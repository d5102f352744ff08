import LiveStreaming.HappyHls.H264Splitting

/-!
# Splitting a stream in memory

`h264.cpp` has its splitter twice: over a file, and over a pointer and a size. The size is a `uint8_t`, so that of a
longer stream only what is left of its length modulo 256 is seen.
-/

namespace LiveStreaming.HappyHls
open Library FlvMux

def argumentError : Int := 98

/-- What a call of `read_h264_nal_unit` leaves: its error, or a unit with the length of its start code. -/
inductive NalRead where
  | failed (ret : Int)
  | found (startcodeprefixLen : Nat) (data : List UInt8)
  deriving DecidableEq

/-- `read_h264_nal_unit` of a file, and what the file still holds. -/
def readH264NalUnit (file : List UInt8) : Run (NalRead × List UInt8) :=
  if file.length < 3 then .ok (.failed 0, [])
  else if file.take 3 = [0, 0, 1] then do
    let (buf, _, video) ← findNext [0, 0, 1] (file.drop 3)
    .ok (.found 3 (buf.drop 3), video.rest)
  else if file.length < 4 then .ok (.failed 0, [])
  else if file.take 4 = [0, 0, 0, 1] then do
    let (buf, _, video) ← findNext [0, 0, 0, 1] (file.drop 4)
    .ok (.found 4 (buf.drop 4), video.rest)
  else .ok (.failed (-1), file.drop 4)

/-- The loop over the bytes of the stream up to `buffer_size`, and the position at which it ends. -/
def findNextInStream (buf : List UInt8) (streamPos : Nat) : List UInt8 → Run (List UInt8 × Nat)
  | [] => .ok (buf, streamPos)
  | c :: rest =>
    if buf.length < maxVideoTagBufSize then
      let buf := buf ++ [c]
      let streamPos := streamPos + 1
      if buf.drop (buf.length - 4) = [0, 0, 0, 1] then .ok (buf.take (buf.length - 4), streamPos - 4)
      else if buf.drop (buf.length - 3) = [0, 0, 1] then .ok (buf.take (buf.length - 3), streamPos - 3)
      else findNextInStream buf streamPos rest
    else .error .undefined

/-- `read_h264_nal_unit` of a stream that holds at least `bufferSize` bytes, and the position it returns. -/
def readH264NalUnitOfStream (streamBuffer : List UInt8) (bufferSize : UInt8) : Run (NalRead × Nat) :=
  let stream := streamBuffer.take bufferSize.toNat
  if bufferSize ≤ 3 then .ok (.failed argumentError, 0)
  else if stream.take 3 = [0, 0, 1] then do
    let (buf, streamPos) ← findNextInStream [0, 0, 1] 3 (stream.drop 3)
    .ok (.found 3 (buf.drop 3), streamPos)
  else if 3 + 1 ≥ bufferSize.toNat then .ok (.failed (-1), 0)
  else if stream.take 4 = [0, 0, 0, 1] then do
    let (buf, streamPos) ← findNextInStream [0, 0, 0, 1] 4 (stream.drop 4)
    .ok (.found 4 (buf.drop 4), streamPos)
  else .ok (.failed (-1), 0)

/-- A call on all that is left, whose length is passed as a `uint8_t`. -/
def readRestOfStream (rest : List UInt8) : Run (NalRead × List UInt8) := do
  let (read, streamPos) ← readH264NalUnitOfStream rest (UInt8.ofNat rest.length)
  .ok (read, rest.drop streamPos)

/-- The units that calls give, each from where the one before it ends, until one gives none. -/
def unitsFrom (read : List UInt8 → Run (NalRead × List UInt8)) : Nat → List UInt8 → Run (List (Nat × List UInt8))
  | 0, _ => .error .fuel
  | fuel + 1, bytes => do
    let (unit, rest) ← read bytes
    match unit with
    | .failed _ => .ok []
    | .found startcodeprefixLen data =>
      let units ← unitsFrom read fuel rest
      .ok ((startcodeprefixLen, data) :: units)

/-- Both splitters end, with the same units. -/
def SameUnits (bytes : List UInt8) : Prop :=
  ∃ units, ∀ fuel, bytes.length < fuel →
    unitsFrom readH264NalUnit fuel bytes = .ok units ∧ unitsFrom readRestOfStream fuel bytes = .ok units

/-- The frame of a unit. An error other than the end of the file is taken for an empty one. -/
def NalRead.frame : NalRead → Option (List UInt8)
  | .failed ret => if ret = 0 then none else some [0, 0, 1]
  | .found startcodeprefixLen data => some ((if startcodeprefixLen = 3 then [0, 0, 1] else [0, 0, 0, 1]) ++ data)

/-- A unit as a call leaves it. -/
def NalUnit.read (u : NalUnit) : Nat × List UInt8 := (u.code.length, u.data)

variable {bytes : List UInt8} {u : NalUnit} {units : List NalUnit}

/-! ### The file -/

theorem findNext_begins (u : NalUnit) (text : List UInt8) :
    (∃ data next video, findNext u.code text = .ok (u.code ++ data, next, video)) ∨
      findNext u.code text = .error .undefined := by
  obtain ⟨data, units, parts⟩ := exists_parts text
  obtain ⟨next, video, -, found⟩ := (NalUnit.mk u.long data parts.noCode).findNext_unit units (parts.apart _ rfl)
  rw [parts.bytes] at found
  split at found
  · exact .inl ⟨data, next, video, found⟩
  · exact .inr found

/-- `read_h264_frame` is a call of `read_h264_nal_unit`. -/
theorem readH264Frame_eq (file : List UInt8) :
    readH264Frame file = (do
      let (read, rest) ← readH264NalUnit file
      .ok (read.frame, rest)) := by
  unfold readH264Frame readH264NalUnit
  split
  · rfl
  · split
    · obtain ⟨data, next, video, found⟩ | none := findNext_begins ⟨false, [], by decide⟩ (file.drop 3)
      · change findNext [0, 0, 1] _ = _ at found
        rw [found]
        rfl
      · change findNext [0, 0, 1] _ = _ at none
        rw [none]
        rfl
    · split
      · rfl
      · split
        · obtain ⟨data, next, video, found⟩ | none := findNext_begins ⟨true, [], by decide⟩ (file.drop 4)
          · change findNext [0, 0, 0, 1] _ = _ at found
            rw [found]
            rfl
          · change findNext [0, 0, 0, 1] _ = _ at none
            rw [none]
            rfl
        · rfl

theorem readH264NalUnit_unit (u : NalUnit) (units : List NalUnit) (apart : (u :: units).IsChain NalUnit.Apart) :
    readH264NalUnit (nalBytes (u :: units)) =
      if u.frame.length + nalLookahead units ≤ maxVideoTagBufSize then
        .ok (.found u.code.length u.data, nalBytes units)
      else .error .undefined := by
  obtain ⟨next, video, rest, found⟩ := u.findNext_unit units apart
  have bytes : nalBytes (u :: units) = u.code ++ (u.data ++ nalBytes units) := by
    rw [nalBytes_cons, NalUnit.frame, List.append_assoc]
  have result : (do
      let (buf, _, video) ← findNext u.code (u.data ++ nalBytes units)
      .ok (.found u.code.length (buf.drop u.code.length), video.rest) : Run (NalRead × List UInt8)) =
      if u.frame.length + nalLookahead units ≤ maxVideoTagBufSize then
        .ok (.found u.code.length u.data, nalBytes units)
      else .error .undefined := by
    rw [found]
    split
    · change Except.ok (NalRead.found _ (u.frame.drop u.code.length), video.rest) = _
      rw [NalUnit.frame, List.drop_left, rest]
    · rfl
  rw [← result, bytes, readH264NalUnit]
  rcases u.code_cases with code | code <;> rw [code, shortCode]
  · rw [if_neg (by simp), if_pos (by rfl)]
    rfl
  · rw [if_neg (by simp), if_neg (by simp), if_neg (by simp), if_pos (by rfl)]
    rfl

theorem units_of_file (apart : units.IsChain NalUnit.Apart) {fuel : Nat} (enough : units.length < fuel) :
    NalUnitsFit units ∧ unitsFrom readH264NalUnit fuel (nalBytes units) = .ok (units.map NalUnit.read) ∨
      ¬ NalUnitsFit units ∧ unitsFrom readH264NalUnit fuel (nalBytes units) = .error .undefined := by
  obtain ⟨fuel, rfl⟩ := Nat.exists_eq_succ_of_ne_zero (Nat.ne_zero_of_lt enough)
  induction units generalizing fuel with
  | nil => exact .inl ⟨trivial, rfl⟩
  | cons u units ih =>
    rw [List.length_cons, Nat.succ_lt_succ_iff] at enough
    obtain ⟨fuel, rfl⟩ := Nat.exists_eq_succ_of_ne_zero (Nat.ne_zero_of_lt enough)
    rw [unitsFrom, readH264NalUnit_unit u units apart]
    split
    · next fit =>
      rcases ih apart.tail fuel enough with ⟨behind, rest⟩ | ⟨none, rest⟩
      · refine .inl ⟨⟨fit, behind⟩, ?_⟩
        change (do let units ← unitsFrom _ (fuel + 1) (nalBytes units); Except.ok (u.read :: units)) = _
        rw [rest]
        rfl
      · refine .inr ⟨fun all => none all.2, ?_⟩
        change (do let units ← unitsFrom _ (fuel + 1) (nalBytes units); Except.ok (u.read :: units)) = _
        rw [rest]
        rfl
    · next none => exact .inr ⟨fun all => none all.1, rfl⟩

theorem nalUnitsFit_of_short (short : (nalBytes units).length < 256) : NalUnitsFit units := by
  induction units with
  | nil => trivial
  | cons u units ih =>
    rw [nalBytes_cons, List.length_append] at short
    refine ⟨Nat.le_trans (?_ : _ ≤ 257) (by decide), ih (by omega)⟩
    cases units with
    | nil =>
      rw [nalLookahead]
      omega
    | cons v units =>
      have code : v.code.length ≤ v.frame.length := (List.prefix_append v.code v.data).length_le
      rw [nalBytes_cons, List.length_append] at short
      rw [nalLookahead]
      omega

/-! ### The stream -/

/-- The bytes of units with their start codes. -/
def unitsLength (units : List (Nat × List UInt8)) : Nat := (units.map fun u => u.1 + u.2.length).sum

theorem unitsLength_read (units : List NalUnit) :
    unitsLength (units.map NalUnit.read) = (nalBytes units).length := by
  induction units with
  | nil => rfl
  | cons u units ih =>
    rw [nalBytes_cons, List.length_append, ← ih, NalUnit.frame, List.length_append]
    rfl

/-- With room for all bytes up to the end of the buffer both loops find the same start code. -/
theorem findNextInStream_eq {buf text : List UInt8} {streamPos : Nat}
    (room : buf.length + text.length < maxVideoTagBufSize) (same : streamPos = buf.length) :
    ∃ unit next video, findNext buf text = .ok (unit, next, video) ∧
      findNextInStream buf streamPos text = .ok (unit, unit.length) ∧ unit.length ≤ buf.length + text.length := by
  induction text generalizing buf streamPos with
  | nil => exact ⟨buf, 3, .ended, if_pos room, by rw [same]; rfl, Nat.le_refl _⟩
  | cons c text ih =>
    have free : buf.length < maxVideoTagBufSize := by omega
    have length : (buf ++ [c]).length = buf.length + 1 := List.length_append
    rw [findNext, findNextInStream, if_pos free, if_pos free]
    dsimp only
    split
    · refine ⟨_, _, _, rfl, ?_, ?_⟩
      · rw [List.length_take, length, same, Nat.min_eq_left (Nat.sub_le _ _)]
      · rw [List.length_take, length, List.length_cons]
        omega
    · split
      · refine ⟨_, _, _, rfl, ?_, ?_⟩
        · rw [List.length_take, length, same, Nat.min_eq_left (Nat.sub_le _ _)]
        · rw [List.length_take, length, List.length_cons]
          omega
      · have fits : (buf ++ [c]).length + text.length < maxVideoTagBufSize := by
          rw [List.length_cons] at room
          omega
        obtain ⟨unit, next, video, file, stream, bound⟩ := ih fits (show streamPos + 1 = (buf ++ [c]).length by omega)
        refine ⟨unit, next, video, file, stream, ?_⟩
        rw [List.length_cons]
        omega

/-- The loop behind a start code, on fewer than 256 bytes. -/
theorem findNextInStream_code (u : NalUnit) {text : List UInt8} (short : text.length < 256) :
    ∃ data next video, findNext u.code text = .ok (u.code ++ data, next, video) ∧
      findNextInStream u.code u.code.length text = .ok (u.code ++ data, u.code.length + data.length) ∧
      data.length ≤ text.length := by
  have code : u.code.length ≤ 4 := by
    rcases u.code_cases with code | code <;> rw [code] <;> decide
  have room : u.code.length + text.length < maxVideoTagBufSize :=
    Nat.lt_trans (by omega : u.code.length + text.length < 260) (by decide)
  obtain ⟨unit, next, video, file, stream, bound⟩ := findNextInStream_eq room rfl
  rcases findNext_begins u text with ⟨data, next, video, begins⟩ | none
  · obtain ⟨rfl, -⟩ := Prod.mk.inj (Except.ok.inj (file.symm.trans begins))
    rw [List.length_append] at stream bound
    exact ⟨data, next, video, begins, stream, by omega⟩
  · cases file.symm.trans none

/-- A call ends within what the `uint8_t` leaves of the length. -/
theorem readRestOfStream_cases (rest : List UInt8) :
    (∃ ret, readRestOfStream rest = .ok (.failed ret, rest)) ∨
      ∃ n data, readRestOfStream rest = .ok (.found n data, rest.drop (n + data.length)) ∧
        n + data.length ≤ rest.length % 256 := by
  have size : (UInt8.ofNat rest.length).toNat = rest.length % 256 := UInt8.toNat_ofNat'
  have window : (rest.take (rest.length % 256)).length = rest.length % 256 := by
    rw [List.length_take, Nat.min_eq_left (Nat.mod_le _ _)]
  have small : rest.length % 256 < 256 := Nat.mod_lt _ (by decide)
  have long {n : Nat} {code : List UInt8} (same : (rest.take (rest.length % 256)).take n = code)
      (full : code.length = n) : n ≤ rest.length % 256 := by
    rw [← full, ← same, List.length_take, window]
    omega
  unfold readRestOfStream readH264NalUnitOfStream
  dsimp only
  rw [size]
  split
  · exact .inl ⟨_, rfl⟩
  · split
    · next code =>
      have least := long code rfl
      obtain ⟨data, next, video, -, stream, bound⟩ := findNextInStream_code ⟨false, [], by decide⟩
        (show ((rest.take (rest.length % 256)).drop 3).length < 256 by
          rw [List.length_drop, window]
          omega)
      change findNextInStream [0, 0, 1] 3 _ = _ at stream
      rw [stream]
      refine .inr ⟨3, data, rfl, ?_⟩
      rw [List.length_drop, window] at bound
      omega
    · split
      · exact .inl ⟨_, rfl⟩
      · split
        · next code =>
          have least := long code rfl
          obtain ⟨data, next, video, -, stream, bound⟩ := findNextInStream_code ⟨true, [], by decide⟩
            (show ((rest.take (rest.length % 256)).drop 4).length < 256 by
              rw [List.length_drop, window]
              omega)
          change findNextInStream [0, 0, 0, 1] 4 _ = _ at stream
          rw [stream]
          refine .inr ⟨4, data, rfl, ?_⟩
          rw [List.length_drop, window] at bound
          omega
        · exact .inl ⟨_, rfl⟩

theorem unitsLength_stream {fuel : Nat} {found : List (Nat × List UInt8)}
    (ran : unitsFrom readRestOfStream fuel bytes = .ok found) : unitsLength found ≤ bytes.length % 256 := by
  induction fuel generalizing bytes found with
  | zero => cases ran
  | succ fuel ih =>
    rw [unitsFrom] at ran
    rcases readRestOfStream_cases bytes with ⟨ret, read⟩ | ⟨n, data, read, bound⟩ <;> rw [read] at ran
    · cases ran
      exact Nat.zero_le _
    · change (do
        let units ← unitsFrom readRestOfStream fuel (bytes.drop (n + data.length))
        Except.ok ((n, data) :: units)) = _ at ran
      obtain ⟨units, rest, ends⟩ := EarlyExit.bind_ok ran
      cases ends
      have behind := ih rest
      rw [List.length_drop] at behind
      have whole : unitsLength ((n, data) :: units) = n + data.length + unitsLength units := rfl
      omega

/-- A unit in the stream, unless only its start code is left. -/
theorem readRestOfStream_unit (u : NalUnit) (units : List NalUnit) (apart : (u :: units).IsChain NalUnit.Apart)
    (short : (nalBytes (u :: units)).length < 256) (some_ : u.data ++ nalBytes units ≠ []) :
    readRestOfStream (nalBytes (u :: units)) = .ok (.found u.code.length u.data, nalBytes units) := by
  have bytes : nalBytes (u :: units) = u.code ++ (u.data ++ nalBytes units) := by
    rw [nalBytes_cons, NalUnit.frame, List.append_assoc]
  have length := congrArg List.length bytes
  rw [List.length_append] at length
  have pos := List.length_pos_of_ne_nil some_
  obtain ⟨data, _, _, file, stream, -⟩ := findNextInStream_code u
    (show (u.data ++ nalBytes units).length < 256 by omega)
  obtain ⟨next, video, -, found⟩ := u.findNext_unit units apart
  have same : data = u.data := by
    rw [file] at found
    split at found
    · exact List.append_cancel_left (Prod.mk.inj (Except.ok.inj found)).1
    · cases found
  rw [same] at stream
  have size : (UInt8.ofNat (u.code ++ (u.data ++ nalBytes units)).length).toNat =
      (u.code ++ (u.data ++ nalBytes units)).length := by
    rw [UInt8.toNat_ofNat', ← bytes]
    exact Nat.mod_eq_of_lt short
  have behind : (u.code ++ (u.data ++ nalBytes units)).drop (u.code.length + u.data.length) = nalBytes units := by
    rw [← List.append_assoc, ← List.length_append, List.drop_left]
  have least : 3 ≤ u.code.length := by
    rcases u.code_cases with code | code <;> rw [code] <;> decide
  have more : ¬ UInt8.ofNat (u.code ++ (u.data ++ nalBytes units)).length ≤ 3 := by
    rw [UInt8.le_iff_toNat_le, size, List.length_append]
    change ¬ _ ≤ 3
    omega
  rw [bytes, readRestOfStream, readH264NalUnitOfStream]
  dsimp only
  rw [if_neg more, size, List.take_length]
  rcases u.code_cases with code | code <;> rw [code, shortCode] at stream behind ⊢
  · rw [if_pos (by rfl)]
    change findNextInStream [0, 0, 1] 3 (List.drop 3 ([0, 0, 1] ++ (u.data ++ nalBytes units))) = _ at stream
    rw [stream]
    exact congrArg (fun rest => Except.ok (NalRead.found 3 u.data, rest)) behind
  · have long : ¬ 3 + 1 ≥ ([0, 0, 0, 1] ++ (u.data ++ nalBytes units)).length := by
      rw [List.length_append]
      change ¬ 4 ≥ 4 + _
      omega
    rw [if_neg (by simp), if_neg long, if_pos (by rfl)]
    change findNextInStream [0, 0, 0, 1] 4 (List.drop 4 ([0, 0, 0, 1] ++ (u.data ++ nalBytes units))) = _ at stream
    rw [stream]
    exact congrArg (fun rest => Except.ok (NalRead.found 4 u.data, rest)) behind

theorem readRestOfStream_code (u : NalUnit) : ∃ ret, readRestOfStream u.code = .ok (.failed ret, u.code) := by
  rw [NalUnit.code]
  cases u.long with
  | true => exact ⟨-1, rfl⟩
  | false => exact ⟨98, rfl⟩

/-- The units that the calls on a stream of fewer than 256 bytes give: a start code at the end is an error to them. -/
def streamUnits : List NalUnit → List NalUnit
  | [] => []
  | u :: units => if u.data ++ nalBytes units = [] then [] else u :: streamUnits units

theorem streamUnits_starts (units : List NalUnit) : streamUnits units <+: units := by
  induction units with
  | nil => exact List.prefix_rfl
  | cons u units ih =>
    rw [streamUnits]
    split
    · exact List.nil_prefix
    · exact List.cons_prefix_cons.mpr ⟨rfl, ih⟩

theorem units_of_stream (apart : units.IsChain NalUnit.Apart) (short : (nalBytes units).length < 256) {fuel : Nat}
    (enough : units.length < fuel) :
    unitsFrom readRestOfStream fuel (nalBytes units) = .ok ((streamUnits units).map NalUnit.read) := by
  obtain ⟨fuel, rfl⟩ := Nat.exists_eq_succ_of_ne_zero (Nat.ne_zero_of_lt enough)
  induction units generalizing fuel with
  | nil => rfl
  | cons u units ih =>
    rw [List.length_cons, Nat.succ_lt_succ_iff] at enough
    obtain ⟨fuel, rfl⟩ := Nat.exists_eq_succ_of_ne_zero (Nat.ne_zero_of_lt enough)
    rw [streamUnits, unitsFrom]
    split
    · next none =>
      have bytes : nalBytes (u :: units) = u.code := by
        rw [nalBytes_cons, NalUnit.frame, List.append_assoc, none, List.append_nil]
      obtain ⟨ret, read⟩ := readRestOfStream_code u
      rw [bytes, read]
      rfl
    · next some_ =>
      rw [readRestOfStream_unit u units apart short some_]
      rw [nalBytes_cons, List.length_append] at short
      change (do
        let units ← unitsFrom readRestOfStream (fuel + 1) (nalBytes units)
        Except.ok (u.read :: units)) = _
      rw [ih apart.tail (by omega) fuel enough]
      rfl

/-- The calls on the stream leave nothing out unless it ends with a start code. -/
theorem streamUnits_eq (units : List NalUnit) : streamUnits units = units ↔ ¬ shortCode <:+ nalBytes units := by
  induction units with
  | nil => exact iff_of_true rfl (by decide)
  | cons u units ih =>
    have bytes : nalBytes (u :: units) = u.code ++ (u.data ++ nalBytes units) := by
      rw [nalBytes_cons, NalUnit.frame, List.append_assoc]
    rw [streamUnits]
    split
    · next none =>
      refine iff_of_false (List.cons_ne_nil u units).symm (not_not.mpr ?_)
      rw [bytes, none, List.append_nil]
      rcases u.code_cases with code | code
      · exact code ▸ List.suffix_rfl
      · exact code ▸ List.suffix_cons 0 shortCode
    · next some_ =>
      rw [List.cons_inj_right, ih, not_iff_not]
      constructor
      · exact fun ends => ends.trans ⟨u.frame, rfl⟩
      · intro ends
        cases units with
        | nil =>
          rw [bytes] at ends
          have alone : u.data ++ nalBytes [] <+: u.data := ⟨[], List.append_nil _ |>.trans (List.append_nil _)⟩
          exact absurd ends (u.no_code some_ alone)
        | cons v units =>
          refine shortCode_suffix ends ?_
          rw [nalBytes_cons, NalUnit.frame, List.length_append, List.length_append]
          rcases v.code_cases with code | code <;> rw [code]
          · exact Nat.le_add_right_of_le (Nat.le_add_right 3 _)
          · exact Nat.le_add_right_of_le (Nat.le_add_right_of_le (by decide))

/-! ### Agreement -/

theorem SameUnits.short (same : SameUnits bytes) (begins : BeginsWithCode bytes) : bytes.length < 256 := by
  obtain ⟨units, rfl, apart⟩ := exists_units begins
  obtain ⟨found, ran⟩ := same
  obtain ⟨file, stream⟩ := ran _ (Nat.lt_succ_self _)
  rcases units_of_file apart (Nat.lt_succ_of_le (length_le_nalBytes units)) with ⟨-, all⟩ | ⟨-, none⟩
  · cases file.symm.trans all
    have bound := unitsLength_stream stream
    rw [unitsLength_read] at bound
    exact Nat.lt_of_le_of_lt bound (Nat.mod_lt _ (by decide))
  · cases file.symm.trans none

/-- Both splitters give the same units exactly if there are fewer than 256 bytes and no start code ends them. -/
theorem sameUnits_iff (begins : BeginsWithCode bytes) :
    SameUnits bytes ↔ bytes.length < 256 ∧ ¬ shortCode <:+ bytes := by
  obtain ⟨units, rfl, apart⟩ := exists_units begins
  have enough := Nat.lt_succ_of_le (length_le_nalBytes units)
  constructor
  · intro same
    have short := same.short begins
    refine ⟨short, (streamUnits_eq units).mp ?_⟩
    obtain ⟨found, ran⟩ := same
    obtain ⟨file, stream⟩ := ran _ (Nat.lt_succ_self _)
    rcases units_of_file apart enough with ⟨-, all⟩ | ⟨-, none⟩
    · cases file.symm.trans all
      have maps := Except.ok.inj (stream.symm.trans (units_of_stream apart short enough))
      have lengths := congrArg List.length maps
      rw [List.length_map, List.length_map] at lengths
      exact (streamUnits_starts units).eq_of_length lengths.symm
    · cases file.symm.trans none
  · rintro ⟨short, noCode⟩
    refine ⟨units.map NalUnit.read, fun fuel long => ?_⟩
    have enough := Nat.lt_of_le_of_lt (length_le_nalBytes units) long
    have stream := units_of_stream apart short enough
    rw [(streamUnits_eq units).mpr noCode] at stream
    rcases units_of_file apart enough with ⟨-, all⟩ | ⟨none, -⟩
    · exact ⟨all, stream⟩
    · exact absurd (nalUnitsFit_of_short short) none

theorem sameUnits_iff_sample :
    BeginsWithCode [0, 0, 1, 9, 0, 0, 0, 1, 5] ∧ SameUnits [0, 0, 1, 9, 0, 0, 0, 1, 5] := by
  have begins : BeginsWithCode [0, 0, 1, 9, 0, 0, 0, 1, 5] := .inl (by decide)
  exact ⟨begins, (sameUnits_iff begins).mpr ⟨by decide, by decide⟩⟩

/-- 256 bytes, whose number is zero as a `uint8_t`. -/
theorem sameUnits_refuted : ¬ ∀ bytes : List UInt8, BeginsWithCode bytes → bytes.length ≤ maxVideoTagBufSize →
    SameUnits bytes := by
  intro all
  have begins : BeginsWithCode ([0, 0, 1, 0x65] ++ List.replicate 252 0x88) := .inl ⟨_, rfl⟩
  have length : ([0, 0, 1, 0x65] ++ List.replicate 252 (0x88 : UInt8)).length = 256 := by
    rw [List.length_append, List.length_replicate]
    rfl
  have same := all _ begins (by rw [length]; decide)
  have short := same.short begins
  rw [length] at short
  exact absurd short (by decide)

end LiveStreaming.HappyHls
