import LiveStreaming.HappyHls.H264File

/-!
# Splitting a file

Any bytes behind a start code are NAL units behind their start codes, and the calls of `read_h264_frame` until the end
of the file give these one after another.
-/

namespace LiveStreaming.HappyHls
open Library FlvMux

/-- The calls of `read_h264_frame` until the end of the file. -/
def readH264Frames : Nat → List UInt8 → Run (List (List UInt8))
  | 0, _ => .error .fuel
  | fuel + 1, file => do
    let (frame, rest) ← readH264Frame file
    match frame with
    | none => .ok []
    | some frame =>
      let frames ← readH264Frames fuel rest
      .ok (frame :: frames)

/-- `nal_unit_buffer` has room for each unit with its start code and what the code looks at behind it. -/
def NalUnitsFit : List NalUnit → Prop
  | [] => True
  | u :: units => u.frame.length + nalLookahead units ≤ maxVideoTagBufSize ∧ NalUnitsFit units

/-- The bytes are NAL units with room in the buffer. -/
def FitsNalBuffer (bytes : List UInt8) : Prop :=
  ∃ units : List NalUnit, nalBytes units = bytes ∧ units.IsChain NalUnit.Apart ∧ NalUnitsFit units

def BeginsWithCode (bytes : List UInt8) : Prop := shortCode <+: bytes ∨ 0 :: shortCode <+: bytes

/-- A start code and a unit that contains none. -/
def IsFrame (frame : List UInt8) : Prop :=
  ∃ code data, (code = shortCode ∨ code = 0 :: shortCode) ∧ frame = code ++ data ∧ ¬ shortCode <:+: data

variable {bytes data text : List UInt8} {u v : NalUnit} {units : List NalUnit}

/-! ### The units of any bytes -/

namespace NalUnit

theorem isChain_of_last (last : v.data.getLast? = some 0 → u.data.getLast? = some 0)
    (apart : (u :: units).IsChain Apart) : (v :: units).IsChain Apart := by
  cases units with
  | nil => exact .singleton v
  | cons w units =>
    obtain ⟨first, rest⟩ := List.isChain_cons_cons.mp apart
    exact List.isChain_cons_cons.mpr ⟨first.imp_right fun noZero => noZero ∘ last, rest⟩

theorem code_cases (u : NalUnit) : u.code = shortCode ∨ u.code = 0 :: shortCode := by
  rw [NalUnit.code]
  cases u.long with
  | true => exact .inr rfl
  | false => exact .inl rfl

theorem isFrame (u : NalUnit) : IsFrame u.frame := ⟨u.code, u.data, u.code_cases, rfl, u.noCode⟩

theorem frame_pos (u : NalUnit) : 0 < u.frame.length := by
  rw [frame, List.length_append]
  rcases u.code_cases with code | code <;> rw [code] <;> exact Nat.lt_add_right _ (by decide)

end NalUnit

theorem infix_cons {c : UInt8} (code : shortCode <:+: c :: data) :
    (c = 0 ∧ [0, 1] <+: data) ∨ shortCode <:+: data := by
  rcases List.infix_cons_iff.mp code with start | inside
  · obtain ⟨zero, rest⟩ := List.cons_prefix_cons.mp start
    exact .inl ⟨zero.symm, rest⟩
  · exact .inr inside

/-- Bytes with units behind them, of which the first may take the last zero of the bytes. -/
structure Parts (text : List UInt8) (data : List UInt8) (units : List NalUnit) : Prop where
  bytes : data ++ nalBytes units = text
  noCode : ¬ shortCode <:+: data
  apart : ∀ u : NalUnit, u.data = data → (u :: units).IsChain NalUnit.Apart

namespace Parts

/-- A zero before `00 01` makes a start code of three bytes. -/
theorem short (parts : Parts text ([0, 1] ++ data) units) (noCode : ¬ shortCode <:+: data) :
    Parts (0 :: text) [] (⟨false, data, noCode⟩ :: units) := by
  have apart := parts.apart ⟨false, [0, 1] ++ data, parts.noCode⟩ rfl
  refine ⟨?_, by decide, fun u none => List.isChain_cons_cons.mpr ⟨.inr ?_, NalUnit.isChain_of_last ?_ apart⟩⟩
  · rw [← parts.bytes]
    rfl
  · rw [none]
    decide
  · intro last
    rw [List.getLast?_append, last]
    rfl

/-- A zero before a start code of three bytes makes one of four. -/
theorem long {noCode : ¬ shortCode <:+: data} (parts : Parts text [] (⟨false, data, noCode⟩ :: units)) :
    Parts (0 :: text) [] (⟨true, data, noCode⟩ :: units) := by
  have apart := (List.isChain_cons_cons.mp (parts.apart ⟨false, [], parts.noCode⟩ rfl)).2
  refine ⟨?_, by decide, fun u none => List.isChain_cons_cons.mpr ⟨.inl rfl, ?_⟩⟩
  · rw [← parts.bytes]
    rfl
  · exact NalUnit.isChain_of_last (show data.getLast? = some 0 → data.getLast? = some 0 from id) apart

/-- Any other byte stands in the unit. -/
theorem byte {c : UInt8} (parts : Parts text data units) (short : ¬ (c = 0 ∧ [0, 1] <+: data))
    (long : ∀ v ∈ units.head?, data = [] → c = 0 → v.long) : Parts (c :: text) (c :: data) units := by
  refine ⟨?_, fun code => (infix_cons code).elim short parts.noCode, fun u same => ?_⟩
  · rw [List.cons_append, parts.bytes]
  · cases units with
    | nil => exact .singleton u
    | cons v units =>
      obtain ⟨apart, rest⟩ := List.isChain_cons_cons.mp (parts.apart ⟨true, data, parts.noCode⟩ rfl)
      refine List.isChain_cons_cons.mpr ⟨?_, rest⟩
      rw [NalUnit.Apart, same]
      cases data with
      | nil =>
        by_cases zero : c = 0
        · exact .inl (long v rfl rfl zero)
        · exact .inr fun last => zero (Option.some.inj last)
      | cons d data => exact apart

end Parts

theorem exists_parts (text : List UInt8) : ∃ data units, Parts text data units := by
  induction text with
  | nil => exact ⟨[], [], rfl, by decide, fun u _ => .singleton u⟩
  | cons c text ih =>
    obtain ⟨data, units, parts⟩ := ih
    by_cases short : c = 0 ∧ [0, 1] <+: data
    · obtain ⟨rfl, data, rfl⟩ := short
      have noCode : ¬ shortCode <:+: data := fun code => parts.noCode (code.trans (List.suffix_append _ _).isInfix)
      exact ⟨_, _, parts.short noCode⟩
    · by_cases joins : ∀ v ∈ units.head?, data = [] → c = 0 → v.long
      · exact ⟨_, _, parts.byte short joins⟩
      · push Not at joins
        obtain ⟨v, head, rfl, rfl, noLong⟩ := joins
        obtain ⟨rest, rfl⟩ := List.head?_eq_some_iff.mp head
        obtain ⟨long, data, noCode⟩ := v
        cases long with
        | true => exact absurd rfl noLong
        | false => exact ⟨_, _, parts.long⟩

/-- What begins with a start code is units behind their start codes. -/
theorem exists_units (begins : BeginsWithCode bytes) :
    ∃ units : List NalUnit, nalBytes units = bytes ∧ units.IsChain NalUnit.Apart := by
  rcases begins with ⟨text, rfl⟩ | ⟨text, rfl⟩ <;> obtain ⟨data, units, parts⟩ := exists_parts text
  · exact ⟨⟨false, data, parts.noCode⟩ :: units, congrArg (shortCode ++ ·) parts.bytes, parts.apart _ rfl⟩
  · exact ⟨⟨true, data, parts.noCode⟩ :: units, congrArg (0 :: shortCode ++ ·) parts.bytes, parts.apart _ rfl⟩

/-! ### The calls -/

theorem length_le_nalBytes (units : List NalUnit) : units.length ≤ (nalBytes units).length := by
  induction units with
  | nil => exact Nat.le_refl 0
  | cons u units ih =>
    have pos := u.frame_pos
    rw [nalBytes_cons, List.length_append, List.length_cons]
    omega

theorem readH264Frames_units (apart : units.IsChain NalUnit.Apart) (fit : NalUnitsFit units) {fuel : Nat}
    (enough : units.length < fuel) : readH264Frames fuel (nalBytes units) = .ok (units.map NalUnit.frame) := by
  obtain ⟨fuel, rfl⟩ := Nat.exists_eq_succ_of_ne_zero (Nat.ne_zero_of_lt enough)
  induction units generalizing fuel with
  | nil => rfl
  | cons u units ih =>
    rw [List.length_cons, Nat.succ_lt_succ_iff] at enough
    obtain ⟨fuel, rfl⟩ := Nat.exists_eq_succ_of_ne_zero (Nat.ne_zero_of_lt enough)
    have rest := ih apart.tail fit.2 fuel enough
    rw [readH264Frames, u.readH264Frame_unit units apart, if_pos fit.1]
    change (do let frames ← readH264Frames (fuel + 1) (nalBytes units); Except.ok (u.frame :: frames)) = _
    rw [rest]
    rfl

theorem readH264Frames_overflow (apart : units.IsChain NalUnit.Apart) (none : ¬ NalUnitsFit units) {fuel : Nat}
    (enough : units.length < fuel) : readH264Frames fuel (nalBytes units) = .error .undefined := by
  obtain ⟨fuel, rfl⟩ := Nat.exists_eq_succ_of_ne_zero (Nat.ne_zero_of_lt enough)
  induction units generalizing fuel with
  | nil => exact absurd trivial none
  | cons u units ih =>
    rw [List.length_cons, Nat.succ_lt_succ_iff] at enough
    obtain ⟨fuel, rfl⟩ := Nat.exists_eq_succ_of_ne_zero (Nat.ne_zero_of_lt enough)
    rw [readH264Frames, u.readH264Frame_unit units apart]
    by_cases fit : u.frame.length + nalLookahead units ≤ maxVideoTagBufSize
    · have rest := ih apart.tail (fun behind => none ⟨fit, behind⟩) fuel enough
      rw [if_pos fit]
      change (do let frames ← readH264Frames (fuel + 1) (nalBytes units); Except.ok (u.frame :: frames)) = _
      rw [rest]
      rfl
    · rw [if_neg fit]
      rfl

/-- The calls end with all bytes in frames exactly if the units have room in the buffer. -/
theorem readH264Frames_conserve (begins : BeginsWithCode bytes) :
    FitsNalBuffer bytes ↔ ∃ frames, (∀ fuel, bytes.length < fuel → readH264Frames fuel bytes = .ok frames) ∧
      frames.flatten = bytes ∧ ∀ frame ∈ frames, IsFrame frame := by
  constructor
  · rintro ⟨units, rfl, apart, fit⟩
    refine ⟨units.map NalUnit.frame, ?_, rfl, ?_⟩
    · intro fuel enough
      exact readH264Frames_units apart fit (Nat.lt_of_le_of_lt (length_le_nalBytes units) enough)
    · intro frame of
      obtain ⟨u, _, rfl⟩ := List.mem_map.mp of
      exact u.isFrame
  · rintro ⟨frames, read, -, -⟩
    obtain ⟨units, rfl, apart⟩ := exists_units begins
    refine ⟨units, rfl, apart, by_contra fun none => ?_⟩
    have overflow := readH264Frames_overflow apart none (Nat.lt_succ_of_le (length_le_nalBytes units))
    rw [read _ (Nat.lt_succ_self _)] at overflow
    cases overflow

/-- A unit that ends with a zero before a long start code, an empty one, and a start code at the end. -/
theorem readH264Frames_conserve_sample :
    BeginsWithCode [0, 0, 1, 9, 0, 0, 0, 0, 1, 0, 0, 1] ∧ ∃ frames : List (List UInt8),
      (∀ fuel, 12 < fuel → readH264Frames fuel [0, 0, 1, 9, 0, 0, 0, 0, 1, 0, 0, 1] = .ok frames) ∧
      frames.flatten = [0, 0, 1, 9, 0, 0, 0, 0, 1, 0, 0, 1] ∧ ∀ frame ∈ frames, IsFrame frame := by
  have begins : BeginsWithCode [0, 0, 1, 9, 0, 0, 0, 0, 1, 0, 0, 1] := .inl (by decide)
  refine ⟨begins, (readH264Frames_conserve begins).mp ?_⟩
  exact ⟨[⟨false, [9, 0], by decide⟩, ⟨true, [], by decide⟩, ⟨false, [], by decide⟩], rfl,
    List.isChain_cons_cons.mpr ⟨.inl rfl, List.isChain_cons_cons.mpr ⟨.inr (by decide), .singleton _⟩⟩,
    by decide, by decide, by decide, trivial⟩

end LiveStreaming.HappyHls
