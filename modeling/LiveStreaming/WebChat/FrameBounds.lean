import LiveStreaming.WebChat.Broadcast

/-!
# What is read of a frame

`analyData` believes the length in a frame: it asks `malloc` for so much memory and copies so much behind the mask,
whatever has been received. What it returns is just the payload, which its caller measures with `strlen`.
-/

namespace LiveStreaming.WebChat
open Library

/-- The offsets in `buf` that `analyData` reads, in order. `malloc` says whether it gives so many bytes. -/
def analyDataReads (malloc : Nat → Bool) (buf : List UInt8) (bufLen : Nat) : List Nat :=
  if bufLen < 2 then []
  else if buf.getD 0 0 &&& 0x80 ≠ 0x80 then [0]
  else if buf.getD 1 0 &&& 0x80 ≠ 0x80 then [0, 1]
  else
    let (offset, n) := payloadFields buf
    [0, 1] ++ List.range' offset 4 ++ List.range' 2 (offset - 2) ++
      if malloc n then List.range' (offset + 4) n else []

/-- `none` for `NULL`, or where the payload is stored through it. -/
def analyDataWith (malloc : Nat → Bool) (buf : List UInt8) (bufLen : Nat) : Option (List UInt8) :=
  if malloc (payloadFields buf).2 then analyData buf bufLen else none

/-- Nothing is read but what has been received, and what is returned ends inside its own memory. -/
structure AnalysedSafely (malloc : Nat → Bool) (buf : List UInt8) (bufLen : Nat) : Prop where
  reads : ∀ i ∈ analyDataReads malloc buf bufLen, i < bufLen
  terminated : ∃ payloadData, analyDataWith malloc buf bufLen = some payloadData ∧ 0 ∈ payloadData

/-- A final and masked frame that has been received to its end, the memory for its payload, and a byte of the payload
that is the byte of the mask it is joined with. -/
structure FrameReceived (malloc : Nat → Bool) (buf : List UInt8) (bufLen : Nat) : Prop where
  header : 2 ≤ bufLen
  fin : 128 ≤ (buf.getD 0 0).toNat
  masked : 128 ≤ (buf.getD 1 0).toNat
  whole : (payloadFields buf).1 + 4 + (payloadFields buf).2 ≤ bufLen
  room : malloc (payloadFields buf).2
  zero : ∃ i < (payloadFields buf).2,
    buf.getD ((payloadFields buf).1 + 4 + i) 0 = buf.getD ((payloadFields buf).1 + i % 4) 0

theorem payloadFields_offset (buf : List UInt8) : 2 ≤ (payloadFields buf).1 := by
  unfold payloadFields
  dsimp only
  split
  · exact Nat.le_add_left 2 2
  · split
    · exact Nat.le_add_left 2 8
    · exact le_refl 2

variable {malloc : Nat → Bool} {buf : List UInt8} {bufLen : Nat}

theorem analyDataReads_masked (header : 2 ≤ bufLen) (fin : 128 ≤ (buf.getD 0 0).toNat)
    (masked : 128 ≤ (buf.getD 1 0).toNat) (room : malloc (payloadFields buf).2) :
    (∀ i ∈ analyDataReads malloc buf bufLen, i < bufLen) ↔
      (payloadFields buf).1 + 4 + (payloadFields buf).2 ≤ bufLen := by
  have above := payloadFields_offset buf
  rw [analyDataReads, if_neg (by omega), if_neg (by simpa using (and_high _).mpr fin),
    if_neg (by simpa using (and_high _).mpr masked)]
  dsimp only
  rw [if_pos room]
  generalize (payloadFields buf).1 = offset at *
  generalize (payloadFields buf).2 = n at *
  constructor
  · intro within
    have mask := within (offset + 3) (by simp)
    cases n with
    | zero => omega
    | succ n =>
      have last := within (offset + 4 + n) (by simp)
      omega
  · intro whole i member
    simp only [List.mem_append, List.mem_cons, List.not_mem_nil, or_false, List.mem_range'_1] at member
    omega

theorem analyData_masked (header : 2 ≤ bufLen) (fin : 128 ≤ (buf.getD 0 0).toNat)
    (masked : 128 ≤ (buf.getD 1 0).toNat) :
    analyData buf bufLen = some (((buf.drop ((payloadFields buf).1 + 4)).take (payloadFields buf).2).mapIdx fun i b =>
      b ^^^ ((buf.drop (payloadFields buf).1).take 4).getD (i % 4) 0) := by
  rw [analyData, if_neg (by omega), if_neg (by simpa using (and_high _).mpr fin),
    if_neg (by simpa using (and_high _).mpr masked)]

theorem zero_mem_unmasked {offset n : Nat} (whole : offset + 4 + n ≤ buf.length) :
    0 ∈ ((buf.drop (offset + 4)).take n).mapIdx (fun i b => b ^^^ ((buf.drop offset).take 4).getD (i % 4) 0) ↔
      ∃ i < n, buf.getD (offset + 4 + i) 0 = buf.getD (offset + i % 4) 0 := by
  have mask (i : Nat) : ((buf.drop offset).take 4).getD (i % 4) 0 = buf.getD (offset + i % 4) 0 := by
    have short : i % 4 < 4 := Nat.mod_lt i (by decide)
    rw [List.getD_eq_getElem?_getD, List.getElem?_take_of_lt short, List.getElem?_drop, List.getD_eq_getElem?_getD]
  rw [List.mem_mapIdx]
  simp only [List.length_take, List.length_drop, List.getElem_take, List.getElem_drop, mask, UInt8.xor_eq_zero_iff]
  constructor
  · rintro ⟨i, inside, equal⟩
    refine ⟨i, by omega, ?_⟩
    rwa [List.getD_eq_getElem?_getD, List.getElem?_eq_getElem (by omega)]
  · rintro ⟨i, inside, equal⟩
    refine ⟨i, by omega, ?_⟩
    rwa [List.getD_eq_getElem?_getD, List.getElem?_eq_getElem (by omega)] at equal

theorem analysed_header (payload : (analyData buf bufLen).isSome) :
    2 ≤ bufLen ∧ 128 ≤ (buf.getD 0 0).toNat ∧ 128 ≤ (buf.getD 1 0).toNat := by
  rw [analyData] at payload
  split at payload
  · cases payload
  · next header =>
    split at payload
    · cases payload
    · next fin =>
      split at payload
      · cases payload
      · next masked =>
        rw [not_not, and_high] at fin masked
        exact ⟨by omega, fin, masked⟩

/-- `received` is what has been read into the array, and `behind` is what the memory holds from there on. -/
theorem analysedSafely_iff (malloc : Nat → Bool) (received behind : List UInt8) :
    AnalysedSafely malloc (received ++ behind) received.length ↔
      FrameReceived malloc (received ++ behind) received.length := by
  have within : received.length ≤ (received ++ behind).length := by
    rw [List.length_append]
    exact Nat.le_add_right _ _
  generalize received ++ behind = buf at within
  generalize received.length = bufLen at within
  constructor
  · intro safely
    obtain ⟨payloadData, returned, zero⟩ := safely.terminated
    rw [analyDataWith] at returned
    split at returned
    · next room =>
      obtain ⟨header, fin, masked⟩ := analysed_header (Option.isSome_of_eq_some returned)
      have whole := (analyDataReads_masked header fin masked room).mp safely.reads
      refine ⟨header, fin, masked, whole, room, ?_⟩
      rw [analyData_masked header fin masked] at returned
      rw [← Option.some.inj returned] at zero
      exact (zero_mem_unmasked (whole.trans within)).mp zero
    · cases returned
  · intro frame
    constructor
    · exact (analyDataReads_masked frame.header frame.fin frame.masked frame.room).mpr frame.whole
    · rw [analyDataWith, if_pos frame.room, analyData_masked frame.header frame.fin frame.masked]
      exact ⟨_, rfl, (zero_mem_unmasked (frame.whole.trans within)).mpr frame.zero⟩

/-- A frame of two bytes that announces five. -/
theorem analysedSafely_refuted :
    ¬ AnalysedSafely (fun _ => true) ([0x81, 0x85] ++ List.replicate 2046 0) [(0x81 : UInt8), 0x85].length := by
  intro safely
  exact absurd (safely.reads 2 (by decide)) (by decide)

end LiveStreaming.WebChat
