import LiveStreaming.FlvMux.VideoTag
import Mathlib.Data.List.Chain

/-!
# H.264 files

`h264.cpp` cuts a file at its start codes. Its loop over the bytes of a unit is the one of the FLV muxer. `FILE` is
what the file still holds.
-/

namespace LiveStreaming.HappyHls
open Library FlvMux

/-- `read_h264_frame`: a frame is a start code and the unit behind it, and there is none at the end of the file. Where
no start code stands the code takes four bytes for one with nothing behind it. -/
def readH264Frame (file : List UInt8) : Run (Option (List UInt8) × List UInt8) :=
  if file.length < 3 then .ok (none, [])
  else if file.take 3 = [0, 0, 1] then do
    let (frame, _, video) ← findNext [0, 0, 1] (file.drop 3)
    .ok (some frame, video.rest)
  else if file.length < 4 then .ok (none, [])
  else if file.take 4 = [0, 0, 0, 1] then do
    let (frame, _, video) ← findNext [0, 0, 0, 1] (file.drop 4)
    .ok (some frame, video.rest)
  else .ok (some [0, 0, 1], file.drop 4)

def shortCode : List UInt8 := [0, 0, 1]

/-- A NAL unit behind a start code of four bytes or three. No start code lies in it. -/
structure NalUnit where
  long : Bool
  data : List UInt8
  noCode : ¬ shortCode <:+: data

namespace NalUnit

def code (u : NalUnit) : List UInt8 := if u.long then 0 :: shortCode else shortCode

def frame (u : NalUnit) : List UInt8 := u.code ++ u.data

/-- A zero before a start code of three bytes would be a part of it. -/
def Apart (u v : NalUnit) : Prop := v.long ∨ u.data.getLast? ≠ some 0

end NalUnit

def nalBytes (units : List NalUnit) : List UInt8 := units.flatMap NalUnit.frame

theorem nalBytes_cons (u : NalUnit) (units : List NalUnit) : nalBytes (u :: units) = u.frame ++ nalBytes units := rfl

/-- What the code looks at behind a unit: the next start code, or the end of the file. -/
def nalLookahead : List NalUnit → Nat
  | [] => 1
  | u :: _ => u.code.length

/-- A NAL unit behind a start code of four bytes or three. No start code lies in it, and its end does not make the
next one longer. -/
structure H264Unit where
  long : Bool
  data : List UInt8
  noCode : ¬ shortCode <:+: data
  noZero : data.getLast? ≠ some 0

namespace H264Unit

def code (u : H264Unit) : List UInt8 := if u.long then 0 :: shortCode else shortCode

def frame (u : H264Unit) : List UInt8 := u.code ++ u.data

end H264Unit

def h264Bytes (units : List H264Unit) : List UInt8 := units.flatMap H264Unit.frame

/-- What the code looks at behind a unit: the next start code, or the end of the file. -/
def lookahead : List H264Unit → Nat
  | [] => 1
  | u :: _ => u.code.length

/-- The buffer of a unit has room for it, with its start code and what the code looks at behind it. -/
def UnitsFit : List H264Unit → Prop
  | [] => True
  | u :: units => u.frame.length + lookahead units ≤ maxVideoTagBufSize ∧ UnitsFit units

variable {buf text rest : List UInt8} {units : List H264Unit}

/-! ### The bytes of a unit -/

theorem code_of_drop {n : Nat} {long : List UInt8} (ends : shortCode <:+ long) (same : buf.drop n = long) :
    shortCode <:+ buf := by
  rw [← same] at ends
  exact ends.trans (List.drop_suffix n buf)

/-- A byte behind which no start code ends. -/
theorem findNext_byte {c : UInt8} (none : ¬ shortCode <:+ buf ++ [c]) :
    findNext buf (c :: rest) =
      if buf.length < maxVideoTagBufSize then findNext (buf ++ [c]) rest else .error .undefined := by
  have four : ∀ n, (buf ++ [c]).drop n ≠ [0, 0, 0, 1] := fun n same => none (code_of_drop ⟨[0], rfl⟩ same)
  have three : ∀ n, (buf ++ [c]).drop n ≠ [0, 0, 1] := fun n same => none (code_of_drop ⟨[], rfl⟩ same)
  rw [findNext]
  dsimp only
  rw [if_neg (four _), if_neg (three _)]

/-- Bytes at whose ends no start code ends are passed if there is room for them. -/
theorem findNext_pass (none : ∀ p, p ≠ [] → p <+: text → ¬ shortCode <:+ buf ++ p) :
    findNext buf (text ++ rest) =
      if text = [] ∨ buf.length + text.length ≤ maxVideoTagBufSize then findNext (buf ++ text) rest
      else .error .undefined := by
  induction text generalizing buf with
  | nil => simp
  | cons c text ih =>
    have first : ¬ shortCode <:+ buf ++ [c] := none [c] (by simp) ⟨text, rfl⟩
    have behind : ∀ p, p ≠ [] → p <+: text → ¬ shortCode <:+ (buf ++ [c]) ++ p := by
      intro p _ start
      rw [List.append_assoc]
      exact none (c :: p) (by simp) (List.cons_prefix_cons.mpr ⟨rfl, start⟩)
    rw [List.cons_append, findNext_byte first]
    by_cases room : buf.length < maxVideoTagBufSize
    · have same : (text = [] ∨ (buf ++ [c]).length + text.length ≤ maxVideoTagBufSize) ↔
          (c :: text = [] ∨ buf.length + (c :: text).length ≤ maxVideoTagBufSize) := by
        rw [or_iff_right (List.cons_ne_nil c text), List.length_append, List.length_singleton, List.length_cons]
        cases text with
        | nil => exact iff_of_true (.inl rfl) room
        | cons d text =>
          rw [or_iff_right (List.cons_ne_nil d text)]
          omega
      rw [if_pos room, ih behind, List.append_assoc, List.singleton_append]
      simp only [same]
    · rw [if_neg room, if_neg]
      rintro (same | fits)
      · cases same
      · rw [List.length_cons] at fits
        omega

theorem shortCode_suffix {front back : List UInt8} (ends : shortCode <:+ front ++ back) (long : 3 ≤ back.length) :
    shortCode <:+ back := List.suffix_of_suffix_length_le ends (List.suffix_append front back) long

theorem shortCode_eq {a b c : UInt8} (ends : shortCode <:+ [a, b, c]) : a = 0 ∧ b = 0 ∧ c = 1 := by
  have same := ends.eq_of_length rfl
  simp only [shortCode, List.cons.injEq, and_true] at same
  exact ⟨same.1.symm, same.2.1.symm, same.2.2.symm⟩

namespace NalUnit

/-- No start code ends within a unit. -/
theorem no_code (u : NalUnit) {p : List UInt8} (some_ : p ≠ []) (start : p <+: u.data) :
    ¬ shortCode <:+ u.code ++ p := by
  intro ends
  obtain ⟨front, code⟩ : ∃ front, u.code = front ++ [0, 1] := by
    rw [NalUnit.code]
    cases u.long with
    | true => exact ⟨[0, 0], rfl⟩
    | false => exact ⟨[0], rfl⟩
  rcases p with _ | ⟨a, _ | ⟨b, _ | ⟨c, p⟩⟩⟩
  · exact some_ rfl
  · rw [code, List.append_assoc] at ends
    obtain ⟨_, one, _⟩ := shortCode_eq (shortCode_suffix ends (Nat.le_refl 3))
    cases one
  · rw [code, List.append_assoc] at ends
    have four := shortCode_suffix ends (by decide : 3 ≤ 4)
    obtain ⟨one, _, _⟩ := shortCode_eq (@shortCode_suffix [0] [1, a, b] four (Nat.le_refl 3))
    cases one
  · have inside := shortCode_suffix ends (by simp)
    exact u.noCode (inside.isInfix.trans start.isInfix)

/-- Nor where only the zeros of the next one stand behind it. -/
theorem no_code_zeros (u : NalUnit) (zeros : Nat) {p : List UInt8} (some_ : p ≠ [])
    (start : p <+: u.data ++ List.replicate zeros 0) : ¬ shortCode <:+ u.code ++ p := by
  by_cases short : p.length ≤ u.data.length
  · exact u.no_code some_ (List.prefix_of_prefix_length_le start (List.prefix_append _ _) short)
  · rintro ⟨front, same⟩
    obtain ⟨k, rfl⟩ : ∃ k, p = u.data ++ List.replicate (k + 1) 0 := by
      have whole := List.prefix_iff_eq_take.mp start
      rw [List.take_append, List.take_of_length_le (by omega), List.take_replicate] at whole
      have length := congrArg List.length whole
      rw [List.length_append, List.length_replicate] at length
      exact ⟨min (p.length - u.data.length) zeros - 1, by rw [Nat.sub_add_cancel (by omega)]; exact whole⟩
    have last := congrArg List.getLast? same
    rw [List.replicate_succ', ← List.append_assoc, ← List.append_assoc, List.getLast?_concat,
      List.getLast?_append] at last
    cases last

theorem frame_last (u : NalUnit) (noZero : u.data.getLast? ≠ some 0) : u.frame.getLast? ≠ some 0 := by
  rw [frame, List.getLast?_append]
  cases last : u.data.getLast? with
  | none =>
    rw [NalUnit.code]
    cases u.long <;> decide
  | some b =>
    rw [last] at noZero
    simpa using noZero

theorem code_zeros (u : NalUnit) :
    ∃ zeros, u.code.length = zeros + 1 ∧ u.code = List.replicate zeros 0 ++ [1] := by
  rw [NalUnit.code]
  cases u.long with
  | true => exact ⟨3, rfl, rfl⟩
  | false => exact ⟨2, rfl, rfl⟩

/-- The last byte of the next start code ends the unit. -/
theorem findNext_code (u v : NalUnit) (apart : u.Apart v) (front rest : List UInt8)
    (before : front ++ [1] = u.frame ++ v.code) :
    findNext front (1 :: rest) = if u.frame.length + v.code.length ≤ maxVideoTagBufSize then
      .ok (u.frame, v.code.length, .unread (v.code ++ rest)) else .error .undefined := by
  have length := congrArg List.length before
  rw [List.length_append, List.length_append, List.length_singleton] at length
  by_cases room : u.frame.length + v.code.length ≤ maxVideoTagBufSize
  · rw [if_pos room, findNext, if_pos (by omega)]
    dsimp only
    rw [before, List.length_append]
    cases long : v.long with
    | true =>
      have code : v.code = [0, 0, 0, 1] := by
        rw [NalUnit.code, long]
        rfl
      rw [code, List.length_cons, List.length_cons, List.length_cons, List.length_singleton, Nat.add_sub_cancel,
        List.drop_left, if_pos rfl, List.take_left]
    | false =>
      have code : v.code = [0, 0, 1] := by
        rw [NalUnit.code, long]
        rfl
      have four : ∀ n, (u.frame ++ v.code).drop n ≠ [0, 0, 0, 1] := by
        intro n same
        obtain ⟨front', whole⟩ : [0, 0, 0, 1] <:+ u.frame ++ v.code := same ▸ List.drop_suffix n _
        rw [code, show ([0, 0, 0, 1] : List UInt8) = [0] ++ [0, 0, 1] from rfl, ← List.append_assoc] at whole
        have frame := List.append_cancel_right whole
        exact u.frame_last (apart.resolve_left (by simp [long])) (by rw [← frame, List.getLast?_concat])
      rw [if_neg (four _), code, List.length_cons, List.length_cons, List.length_singleton, Nat.add_sub_cancel,
        List.drop_left, if_pos rfl, List.take_left]
  · rw [if_neg room, findNext, if_neg (by omega)]

/-- What the loop does with a unit and those behind it. -/
theorem findNext_unit (u : NalUnit) (units : List NalUnit) (apart : (u :: units).IsChain Apart) :
    ∃ next video, video.rest = nalBytes units ∧ findNext u.code (u.data ++ nalBytes units) =
      if u.frame.length + nalLookahead units ≤ maxVideoTagBufSize then .ok (u.frame, next, video)
      else .error .undefined := by
  cases units with
  | nil =>
    refine ⟨3, .ended, rfl, ?_⟩
    have pass := @findNext_pass u.code u.data [] fun p some_ start => u.no_code some_ start
    rw [nalBytes, List.flatMap_nil, pass, ← List.length_append, ← frame, findNext, nalLookahead]
    by_cases room : u.frame.length + 1 ≤ maxVideoTagBufSize
    · rw [if_pos (.inr (by omega)), if_pos (by omega), if_pos room]
    · rw [if_neg room, if_neg (show ¬ u.frame.length < maxVideoTagBufSize by omega), ite_self]
  | cons v units =>
    obtain ⟨zeros, size, code⟩ := v.code_zeros
    refine ⟨v.code.length, .unread (v.code ++ (v.data ++ nalBytes units)), ?_, ?_⟩
    · rw [nalBytes_cons, frame, List.append_assoc]
      rfl
    · have bytes : u.data ++ nalBytes (v :: units) =
          (u.data ++ List.replicate zeros 0) ++ (1 :: (v.data ++ nalBytes units)) := by
        rw [nalBytes_cons, frame, code]
        simp only [List.append_assoc, List.cons_append, List.nil_append]
      have pass := @findNext_pass u.code (u.data ++ List.replicate zeros 0) (1 :: (v.data ++ nalBytes units))
        fun p some_ start => u.no_code_zeros zeros some_ start
      have before : (u.code ++ (u.data ++ List.replicate zeros 0)) ++ [1] = u.frame ++ v.code := by
        rw [frame, code]
        simp only [List.append_assoc]
      have length : u.code.length + (u.data ++ List.replicate zeros 0).length = u.frame.length + zeros := by
        rw [frame, List.length_append, List.length_append, List.length_replicate, Nat.add_assoc]
      rw [bytes, pass, u.findNext_code v (List.isChain_cons_cons.mp apart).1 _ _ before, length, nalLookahead]
      by_cases room : u.frame.length + v.code.length ≤ maxVideoTagBufSize
      · rw [if_pos (.inr (by omega)), if_pos room]
      · rw [if_neg room, ite_self]

/-- The code reads the units one after another. -/
theorem readH264Frame_unit (u : NalUnit) (units : List NalUnit) (apart : (u :: units).IsChain Apart) :
    readH264Frame (nalBytes (u :: units)) =
      if u.frame.length + nalLookahead units ≤ maxVideoTagBufSize then .ok (some u.frame, nalBytes units)
      else .error .undefined := by
  obtain ⟨next, video, rest, found⟩ := u.findNext_unit units apart
  have bytes : nalBytes (u :: units) = u.code ++ (u.data ++ nalBytes units) := by
    rw [nalBytes_cons, frame, List.append_assoc]
  have result : (do
      let (frame, _, video) ← findNext u.code (u.data ++ nalBytes units)
      .ok (some frame, video.rest) : Run (Option (List UInt8) × List UInt8)) =
      if u.frame.length + nalLookahead units ≤ maxVideoTagBufSize then .ok (some u.frame, nalBytes units)
      else .error .undefined := by
    rw [found]
    split
    · rw [← rest]
      rfl
    · rfl
  rw [← result, bytes, readH264Frame]
  cases long : u.long with
  | true =>
    have code : u.code = [0, 0, 0, 1] := by
      rw [NalUnit.code, long]
      rfl
    rw [code, if_neg (by simp), if_neg (by simp), if_neg (by simp), if_pos (by rfl)]
    rfl
  | false =>
    have code : u.code = [0, 0, 1] := by
      rw [NalUnit.code, long]
      rfl
    rw [code, if_neg (by simp), if_pos (by rfl)]
    rfl

end NalUnit

namespace H264Unit

def toNalUnit (u : H264Unit) : NalUnit := ⟨u.long, u.data, u.noCode⟩

theorem nalBytes_map (units : List H264Unit) : nalBytes (units.map toNalUnit) = h264Bytes units :=
  List.flatMap_map toNalUnit NalUnit.frame units

theorem isChain_map (units : List H264Unit) : (units.map toNalUnit).IsChain NalUnit.Apart := by
  rw [List.isChain_map]
  induction units with
  | nil => exact .nil
  | cons u units ih =>
    cases units with
    | nil => exact .singleton u
    | cons v units => exact List.isChain_cons_cons.mpr ⟨.inr u.noZero, ih⟩

theorem nalLookahead_map (units : List H264Unit) : nalLookahead (units.map toNalUnit) = lookahead units := by
  cases units with
  | nil => rfl
  | cons u units => rfl

/-- The code reads the units one after another. -/
theorem readH264Frame_unit (u : H264Unit) (units : List H264Unit) :
    readH264Frame (h264Bytes (u :: units)) =
      if u.frame.length + lookahead units ≤ maxVideoTagBufSize then .ok (some u.frame, h264Bytes units)
      else .error .undefined := by
  have read := u.toNalUnit.readH264Frame_unit (units.map toNalUnit) (isChain_map (u :: units))
  rw [← List.map_cons, nalBytes_map, nalBytes_map, nalLookahead_map] at read
  exact read

end H264Unit

theorem readH264Frame_end : readH264Frame (h264Bytes []) = .ok (none, []) := rfl

end LiveStreaming.HappyHls
