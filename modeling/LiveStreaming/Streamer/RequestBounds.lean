import LiveStreaming.Streamer.RoseHttp

/-!
# The bounds of a request

A call of `read_rosehttp_header` leaves its buffer exactly where a look-ahead ends with the buffer and
ends the header or is followed by another byte.
-/

namespace LiveStreaming.Streamer
open Library

namespace HeaderRead

variable {n : Nat} {memory : Nat → UInt8} {s : HeaderRead}

/-- The two cursors agree, everything below them has been stored once, nothing above them has been
touched, and they leave room for the bytes that are about to be asked for. -/
structure Bounded (n : Nat) (memory : Nat → UInt8) (s : HeaderRead) : Prop where
  stored : s.stored = List.range s.readBytes
  above : ∀ i, s.readBytes ≤ i → s.memory i = memory i
  room : match s.control with
    | .outer => s.forward = s.readBytes ∧ s.readBytes ≤ n
    | .inner left => s.forward = s.readBytes ∧ 0 < left ∧ s.readBytes + left ≤ n
    | .returned ret => s.readBytes ≤ n ∧ ret < n

/-- The rest of the stream takes the call out of its buffer. -/
def Doomed (n : Nat) (memory : Nat → UInt8) (s : HeaderRead) : Prop :=
  match s.control with
  | .outer => (s.readBytes = n ∧ ByteNext (Socket.items s.socket)) ∨
      ∃ ahead ∈ lookAheads memory 0 s.readBytes (Socket.items s.socket), ahead.Overruns n
  | .inner left => ∃ ahead ∈ lookAheads memory left s.readBytes (Socket.items s.socket), ahead.Overruns n
  | .returned _ => False

theorem Bounded.stays (bounded : s.Bounded n memory) : s.Stays n := by
  have within : s.readBytes ≤ n := by
    have := bounded.room
    split at this <;> omega
  refine ⟨fun i member => ?_, ?_, fun ret returned => ?_⟩
  · rw [bounded.stored, List.mem_range] at member
    omega
  · rwa [bounded.stored, List.length_range]
  · have := bounded.room
    rw [returned] at this
    refine ⟨this.2, fun i terminator => ?_⟩
    rw [terminatorIndex] at terminator
    split at terminator
    · simp at terminator
    · obtain rfl := Option.some.inj terminator
      omega

theorem range_append_range' (a b : Nat) : List.range a ++ List.range' a b = List.range (a + b) := by
  rw [List.range_eq_range', List.range_eq_range', ← List.range'_append_1, Nat.zero_add]

theorem receive_last (s : HeaderRead) (bs : List UInt8) (last : UInt8) (rest : List (Socket.ReadEvent UInt8)) :
    (s.receive (bs ++ [last]) rest).memory (s.forward + bs.length) = last := by
  simp [receive]

theorem Bounded.receive (bounded : s.Bounded n memory) (forward : s.forward = s.readBytes) (bs : List UInt8)
    (rest : List (Socket.ReadEvent UInt8)) :
    (s.receive bs rest).stored = List.range (s.readBytes + bs.length) ∧
      ∀ i, s.readBytes + bs.length ≤ i → (s.receive bs rest).memory i = memory i := by
  refine ⟨?_, fun i above => ?_⟩
  · rw [HeaderRead.receive, bounded.stored, forward, range_append_range']
  · have past : bs.length ≤ i - s.readBytes := by omega
    simp only [HeaderRead.receive, forward, List.getElem?_eq_none past]
    rw [bounded.above i (by omega)]
    split <;> rfl

theorem afterByte_socket (s : HeaderRead) (receivedBytes : Nat) :
    (s.afterByte n receivedBytes).socket = s.socket := by
  unfold afterByte; dsimp only; repeat' split
  all_goals rfl

theorem afterByte_stored (s : HeaderRead) (receivedBytes : Nat) :
    (s.afterByte n receivedBytes).stored = s.stored := by
  unfold afterByte; dsimp only; repeat' split
  all_goals rfl

theorem afterAhead_socket (s : HeaderRead) (left receivedBytes : Nat) :
    (s.afterAhead left receivedBytes).socket = s.socket := by
  unfold afterAhead; dsimp only; repeat' split
  all_goals rfl

/-- Some look-ahead of the stream overruns the buffer. -/
def OverrunAhead (n : Nat) (memory : Nat → UInt8) (left offset : Nat) (items : List (Socket.Item UInt8)) : Prop :=
  ∃ ahead ∈ lookAheads memory left offset items, ahead.Overruns n

theorem not_overrunAhead {left offset : Nat} {items : List (Socket.Item UInt8)}
    (past : n < offset + left ∨ n ≤ offset) : ¬ OverrunAhead n memory left offset items := by
  rintro ⟨ahead, member, rfl, _⟩
  have := lookAheads_stop member
  omega

/-- After a single byte, or none, within the buffer: the bound tests keep the call within it, and
where they end the call no look-ahead to come could have ended at the end of the buffer. -/
theorem afterByte_bounded {receivedBytes : Nat} (forward : s.forward + receivedBytes = s.readBytes)
    (stored : s.stored = List.range s.readBytes) (above : ∀ i, s.readBytes ≤ i → s.memory i = memory i)
    (within : s.readBytes ≤ n) :
    (s.afterByte n receivedBytes).Bounded n memory ∧
      ((s.afterByte n receivedBytes).Doomed n memory ↔
        OverrunAhead n memory (if s.memory s.forward = 13 then 3 else 0) s.readBytes (Socket.items s.socket)) := by
  unfold afterByte
  split
  · next full =>
    exact ⟨⟨stored, above, within, by rw [lengthOverflow]; omega⟩,
      iff_of_false id (not_overrunAhead (.inr (Nat.le_of_eq full.symm)))⟩
  · next room =>
    dsimp only
    split
    · split
      · next far =>
        exact ⟨⟨stored, above, within, by rw [lengthOverflow]; omega⟩, iff_of_false id (not_overrunAhead (.inl far))⟩
      · next near => exact ⟨⟨stored, above, forward, by decide, by simpa using near⟩, Iff.rfl⟩
    · exact ⟨⟨stored, above, forward, within⟩, or_iff_right fun full => room full.1⟩

/-- After some bytes of a look-ahead, or none, with which it is not complete. -/
theorem afterAhead_bounded {left receivedBytes : Nat} (forward : s.forward + receivedBytes = s.readBytes)
    (stored : s.stored = List.range s.readBytes) (above : ∀ i, s.readBytes ≤ i → s.memory i = memory i)
    (short : receivedBytes < left) (within : s.readBytes + (left - receivedBytes) ≤ n) :
    (s.afterAhead left receivedBytes).Bounded n memory ∧
      ((s.afterAhead left receivedBytes).Doomed n memory ↔
        OverrunAhead n memory (left - receivedBytes) s.readBytes (Socket.items s.socket)) := by
  unfold afterAhead
  rw [if_neg (by omega)]
  exact ⟨⟨stored, above, forward, Nat.sub_pos_of_lt short, within⟩, Iff.rfl⟩

/-- After the last byte of a look-ahead: it is here that the call leaves its buffer, or will with the
next byte. -/
theorem afterAhead_complete {left : Nat} {last : UInt8} (forward : s.forward + left = s.readBytes)
    (stored : s.stored = List.range s.readBytes) (above : ∀ i, s.readBytes ≤ i → s.memory i = memory i)
    (read : s.memory (s.readBytes - 1) = last) (within : s.readBytes ≤ n) (int : n < 2147483648) :
    let ahead : LookAhead := ⟨s.readBytes, last, Socket.items s.socket⟩
    let doomed := ahead.Overruns n ∨
      OverrunAhead n memory 0 s.readBytes (Socket.items s.socket) ∧ last ≠ 10
    (doomed ∧ ¬ (s.afterAhead left left).Stays n) ∨
      ((s.afterAhead left left).Bounded n memory ∧ ((s.afterAhead left left).Doomed n memory ↔ doomed)) := by
  intro ahead doomed
  unfold afterAhead
  dsimp only
  rw [if_pos (Nat.sub_self left), forward, read]
  split
  · next newline =>
    by_cases full : s.readBytes = n
    · refine .inl ⟨.inl ⟨full, .inl newline⟩, fun stays => ?_⟩
      have := (stays.2.2 _ rfl).1
      rw [full, toInt_of_lt int] at this
      omega
    · refine .inr ⟨⟨stored, above, within, ?_⟩, iff_of_false id ?_⟩
      · rw [toInt_of_lt (by omega)]
        omega
      · rintro (⟨full', _⟩ | ⟨_, other⟩)
        · exact full full'
        · exact other newline
  · next other =>
    refine .inr ⟨⟨stored, above, rfl, within⟩, ?_⟩
    exact or_congr (and_congr_right fun _ => (or_iff_right other).symm) (and_iff_left other).symm

/-- One `read` either takes a doomed call out of its buffer, or leaves it within and decides nothing
about the rest of the stream. -/
def Follows (n : Nat) (memory : Nat → UInt8) (s s' : HeaderRead) : Prop :=
  (s.Doomed n memory ∧ ¬ s'.Stays n) ∨
    (s'.Bounded n memory ∧ (s'.Doomed n memory ↔ s.Doomed n memory) ∧
      (s.Doomed n memory → (Socket.items s'.socket).length < (Socket.items s.socket).length))

theorem step_returned {ret : Int} (bounded : s.Bounded n memory) (at_end : s.control = .returned ret) :
    Follows n memory s (step n s) := by
  have undoomed : ¬ s.Doomed n memory := by rw [Doomed, at_end]; exact id
  have same : step n s = s := by rw [step, at_end]
  rw [same]
  exact .inr ⟨bounded, Iff.rfl, fun doomed => (undoomed doomed).elim⟩

theorem step_stopped {rest : List (Socket.ReadEvent UInt8)} (some_room : 0 < n) (bounded : s.Bounded n memory)
    (stopped : Socket.items s.socket = .stop :: Socket.items rest) :
    Follows n memory s { s with socket := rest, control := .returned 0 } := by
  have within : s.readBytes ≤ n := by
    have := bounded.room
    split at this <;> omega
  have undoomed : ¬ s.Doomed n memory := by
    rw [Doomed, stopped]
    split <;> simp [lookAheads, ByteNext]
  exact .inr ⟨⟨bounded.stored, bounded.above, within, by omega⟩, iff_of_false id undoomed,
    fun doomed => (undoomed doomed).elim⟩

theorem overrunAhead_complete (offset : Nat) (bs : List UInt8) (last : UInt8) (items : List (Socket.Item UInt8)) :
    OverrunAhead n memory (bs.length + 1) offset ((bs ++ [last]).map .byte ++ items) ↔
      LookAhead.Overruns n ⟨offset + bs.length + 1, last, items⟩ ∨
        OverrunAhead n memory 0 (offset + bs.length + 1) items ∧ last ≠ 10 := by
  rw [OverrunAhead, OverrunAhead, lookAheads_complete]
  by_cases newline : last = 10
  · simp [newline]
  · simp [newline]

/-- No byte was ready: the event is used up, or there was none. -/
def Quiet (items items' : List (Socket.Item UInt8)) : Prop :=
  items = .quiet :: items' ∨ (items = [] ∧ items' = [])

theorem afterByte_quiet {rest : List (Socket.ReadEvent UInt8)} (bounded : s.Bounded n memory)
    (looping : s.control = .outer) (quiet : Quiet (Socket.items s.socket) (Socket.items rest)) :
    Follows n memory s (afterByte n { s with socket := rest } 0) := by
  obtain ⟨forward, within⟩ : s.forward = s.readBytes ∧ s.readBytes ≤ n := by
    simpa only [looping] using bounded.room
  have dooms : s.Doomed n memory ↔ OverrunAhead n memory 0 s.readBytes (Socket.items s.socket) := by
    rw [Doomed, looping]
    refine or_iff_right fun ready => ?_
    rcases quiet with quiet | ⟨empty, _⟩
    · simp [quiet, ByteNext] at ready
    · simp [empty, ByteNext] at ready
  obtain ⟨bounded', dooms'⟩ := @afterByte_bounded n memory { s with socket := rest } 0 forward bounded.stored
    bounded.above within
  have held : s.memory s.forward = memory s.readBytes := by rw [forward, bounded.above _ (Nat.le_refl _)]
  simp only [held] at dooms'
  refine .inr ⟨bounded', ?_, ?_⟩
  · rw [dooms, dooms']
    rcases quiet with quiet | ⟨empty, empty'⟩
    · rw [quiet, OverrunAhead, OverrunAhead, lookAheads]
    · simp [empty, empty', OverrunAhead, lookAheads]
  · rw [dooms, afterByte_socket]
    rcases quiet with quiet | ⟨empty, _⟩
    · simp [quiet]
    · simp [empty, OverrunAhead, lookAheads]

theorem afterByte_byte {b : UInt8} {rest : List (Socket.ReadEvent UInt8)} (bounded : s.Bounded n memory)
    (looping : s.control = .outer) (taken : Socket.items s.socket = .byte b :: Socket.items rest) :
    Follows n memory s ((s.receive [b] rest).afterByte n 1) := by
  obtain ⟨forward, within⟩ : s.forward = s.readBytes ∧ s.readBytes ≤ n := by
    simpa only [looping] using bounded.room
  obtain ⟨stored, above⟩ := bounded.receive forward [b] rest
  by_cases full : s.readBytes = n
  · -- the byte after a look-ahead that filled the buffer is stored behind it
    have behind : n ∈ ((s.receive [b] rest).afterByte n 1).stored := by
      rw [afterByte_stored, stored, full, List.mem_range]
      exact Nat.lt_succ_self n
    refine .inl ⟨?_, fun stays => Nat.lt_irrefl n (stays.1 n behind)⟩
    rw [Doomed, looping]
    exact .inl ⟨full, b, _, taken⟩
  · have arrived : (s.receive [b] rest).memory (s.receive [b] rest).forward = b := receive_last s [] b rest
    obtain ⟨bounded', dooms'⟩ := @afterByte_bounded n memory (s.receive [b] rest) 1
      (show s.forward + 1 = s.readBytes + 1 by rw [forward]) stored above (show s.readBytes + 1 ≤ n by omega)
    rw [arrived] at dooms'
    refine .inr ⟨bounded', dooms'.trans ?_, fun _ => ?_⟩
    · rw [Doomed, looping, taken]
      exact (or_iff_right fun full' => full full'.1).symm
    · rw [afterByte_socket, taken]
      exact Nat.lt_succ_self _

theorem step_outer (some_room : 0 < n) (bounded : s.Bounded n memory) (looping : s.control = .outer) :
    Follows n memory s (step n s) := by
  rw [step, looping]
  dsimp only
  split
  · next bs rest read =>
    obtain ⟨_, pos, single, _⟩ := Socket.read_bytes read Nat.one_pos
    obtain ⟨b, rfl⟩ : ∃ b, bs = [b] := List.length_eq_one_iff.mp (by omega)
    exact afterByte_byte bounded looping (Socket.items_read_bytes read)
  · next rest read => exact afterByte_quiet bounded looping (Socket.items_read_quiet read (.inl rfl))
  · next rest read => exact afterByte_quiet bounded looping (Socket.items_read_quiet read (.inr rfl))
  · next rest read => exact step_stopped some_room bounded (Socket.items_read_stop read (.inl rfl))
  · next rest read => exact step_stopped some_room bounded (Socket.items_read_stop read (.inr rfl))

theorem afterAhead_quiet {left : Nat} {rest : List (Socket.ReadEvent UInt8)} (bounded : s.Bounded n memory)
    (looping : s.control = .inner left) (quiet : Quiet (Socket.items s.socket) (Socket.items rest)) :
    Follows n memory s (afterAhead left { s with socket := rest } 0) := by
  obtain ⟨forward, asked, within⟩ : s.forward = s.readBytes ∧ 0 < left ∧ s.readBytes + left ≤ n := by
    simpa only [looping] using bounded.room
  have dooms : s.Doomed n memory ↔ OverrunAhead n memory left s.readBytes (Socket.items s.socket) := by
    rw [Doomed, looping]; rfl
  obtain ⟨bounded', dooms'⟩ := @afterAhead_bounded n memory { s with socket := rest } left 0 forward
    bounded.stored bounded.above asked within
  refine .inr ⟨bounded', ?_, ?_⟩
  · rw [dooms, dooms']
    rcases quiet with quiet | ⟨empty, empty'⟩
    · obtain ⟨left, rfl⟩ : ∃ k, left = k + 1 := ⟨left - 1, by omega⟩
      rw [quiet, OverrunAhead, OverrunAhead, lookAheads, Nat.sub_zero]
    · simp [empty, empty', OverrunAhead, lookAheads]
  · rw [dooms, afterAhead_socket]
    rcases quiet with quiet | ⟨empty, _⟩
    · simp [quiet]
    · simp [empty, OverrunAhead, lookAheads]

theorem afterAhead_bytes {left : Nat} {bs : List UInt8} {rest : List (Socket.ReadEvent UInt8)}
    (int : n < 2147483648) (bounded : s.Bounded n memory) (looping : s.control = .inner left)
    (pos : 0 < bs.length) (fits : bs.length ≤ left)
    (taken : Socket.items s.socket = bs.map .byte ++ Socket.items rest) :
    Follows n memory s ((s.receive bs rest).afterAhead left bs.length) := by
  obtain ⟨forward, asked, within⟩ : s.forward = s.readBytes ∧ 0 < left ∧ s.readBytes + left ≤ n := by
    simpa only [looping] using bounded.room
  have dooms : s.Doomed n memory ↔ OverrunAhead n memory left s.readBytes (Socket.items s.socket) := by
    rw [Doomed, looping]; rfl
  obtain ⟨stored, above⟩ := bounded.receive forward bs rest
  have shorter : (Socket.items rest).length < (Socket.items s.socket).length := by
    rw [taken, List.length_append, List.length_map]
    omega
  rcases Nat.lt_or_eq_of_le fits with short | rfl
  · obtain ⟨bounded', dooms'⟩ := @afterAhead_bounded n memory (s.receive bs rest) left bs.length
      (show s.forward + bs.length = s.readBytes + bs.length by rw [forward]) stored above short
      (show s.readBytes + bs.length + (left - bs.length) ≤ n by omega)
    refine .inr ⟨bounded', ?_, fun _ => by rwa [afterAhead_socket]⟩
    rw [dooms, dooms', OverrunAhead, OverrunAhead, taken, lookAheads_bytes short]
    rfl
  · obtain rfl | ⟨bs, last, rfl⟩ := List.eq_nil_or_concat bs
    · simp at pos
    rw [List.concat_eq_append] at *
    have length : (bs ++ [last]).length = bs.length + 1 := by simp
    have newest : (s.receive (bs ++ [last]) rest).memory (s.readBytes + (bs ++ [last]).length - 1) = last := by
      rw [length, ← forward]
      exact receive_last s bs last rest
    have complete := @afterAhead_complete n memory (s.receive (bs ++ [last]) rest) (bs ++ [last]).length last
      (show s.forward + (bs ++ [last]).length = s.readBytes + (bs ++ [last]).length by rw [forward]) stored above
      newest within int
    have read : (s.receive (bs ++ [last]) rest).readBytes = s.readBytes + bs.length + 1 :=
      congrArg (s.readBytes + ·) length
    rw [taken, length, overrunAhead_complete, ← read] at dooms
    rcases complete with ⟨doomed, out⟩ | ⟨bounded', doomed⟩
    · exact .inl ⟨dooms.mpr doomed, out⟩
    · exact .inr ⟨bounded', doomed.trans dooms.symm, fun _ => by rwa [afterAhead_socket]⟩

theorem step_inner {left : Nat} (some_room : 0 < n) (int : n < 2147483648) (bounded : s.Bounded n memory)
    (looping : s.control = .inner left) : Follows n memory s (step n s) := by
  have asked : 0 < left := by
    have := bounded.room
    rw [looping] at this
    exact this.2.1
  rw [step, looping]
  dsimp only
  split
  · next bs rest read =>
    obtain ⟨_, pos, fits, _⟩ := Socket.read_bytes read asked
    exact afterAhead_bytes int bounded looping pos fits (Socket.items_read_bytes read)
  · next rest read => exact afterAhead_quiet bounded looping (Socket.items_read_quiet read (.inl rfl))
  · next rest read => exact afterAhead_quiet bounded looping (Socket.items_read_quiet read (.inr rfl))
  · next rest read => exact step_stopped some_room bounded (Socket.items_read_stop read (.inl rfl))
  · next rest read => exact step_stopped some_room bounded (Socket.items_read_stop read (.inr rfl))

theorem step_follows (some_room : 0 < n) (int : n < 2147483648) (bounded : s.Bounded n memory) :
    Follows n memory s (step n s) := by
  cases at_ : s.control with
  | outer => exact step_outer some_room bounded at_
  | inner left => exact step_inner some_room int bounded at_
  | returned ret => exact step_returned bounded at_

theorem run_stays (some_room : 0 < n) (int : n < 2147483648) (bounded : s.Bounded n memory)
    (safe : ¬ s.Doomed n memory) (reads : Nat) : ((step n)^[reads] s).Stays n := by
  induction reads generalizing s with
  | zero => exact bounded.stays
  | succ reads ih =>
    rcases step_follows some_room int bounded with ⟨doomed, _⟩ | ⟨bounded', dooms, _⟩
    · exact (safe doomed).elim
    · exact ih bounded' (safe ∘ dooms.mp)

/-- Induction on the rest of the stream, of which every step of a doomed call takes something. -/
theorem run_leaves (some_room : 0 < n) (int : n < 2147483648) (bounded : s.Bounded n memory)
    (doomed : s.Doomed n memory) : ∃ reads, ¬ ((step n)^[reads] s).Stays n := by
  induction left : (Socket.items s.socket).length using Nat.strongRecOn generalizing s with
  | _ left ih =>
    rcases step_follows some_room int bounded with ⟨_, out⟩ | ⟨bounded', dooms, shorter⟩
    · exact ⟨1, out⟩
    · obtain ⟨reads, out⟩ := ih _ (left ▸ shorter doomed) bounded' (dooms.mpr doomed) rfl
      exact ⟨reads + 1, out⟩

end HeaderRead

/-- A call stays within its buffer exactly when no look-ahead ends at the buffer's end and completes
the header or is followed by a byte. -/
theorem readRosehttpHeader_stays {n : Nat} (some_room : 0 < n) (int : n < 2147483648) (memory : Nat → UInt8)
    (socket : List (Socket.ReadEvent UInt8)) :
    (∀ reads, (readRosehttpHeader n memory socket reads).Stays n) ↔
      ∀ ahead ∈ lookAheads memory 0 0 (Socket.items socket), ¬ ahead.Overruns n := by
  let start : HeaderRead := ⟨.outer, memory, 0, 0, [], socket⟩
  have bounded : start.Bounded n memory := ⟨rfl, fun _ _ => rfl, rfl, Nat.zero_le n⟩
  have dooms : start.Doomed n memory ↔ ∃ ahead ∈ lookAheads memory 0 0 (Socket.items socket), ahead.Overruns n :=
    or_iff_right fun full => Nat.ne_of_lt some_room full.1
  have undoomed : (∀ ahead ∈ lookAheads memory 0 0 (Socket.items socket), ¬ ahead.Overruns n) ↔
      ¬ start.Doomed n memory := by
    rw [dooms]
    exact ⟨fun none ⟨ahead, member, overruns⟩ => none ahead member overruns,
      fun none ahead member overruns => none ⟨ahead, member, overruns⟩⟩
  rw [undoomed]
  constructor
  · intro stays doomed
    obtain ⟨reads, out⟩ := HeaderRead.run_leaves some_room int bounded doomed
    exact out (stays reads)
  · exact HeaderRead.run_stays some_room int bounded

def sampleRequest (length : Nat) : List (Socket.ReadEvent UInt8) :=
  [.data 71 (List.replicate (length - 1) 97), .data 13 [10], .eagain, .data 13 [10]]

theorem readRosehttpHeader_stays_sample :
    (∀ reads, (readRosehttpHeader 1024 (fun _ => 0) (sampleRequest 40) reads).Stays 1024) ↔
      ∀ ahead ∈ lookAheads (fun _ => 0) 0 0 (Socket.items (sampleRequest 40)), ¬ ahead.Overruns 1024 :=
  readRosehttpHeader_stays (by decide) (by decide) _ _

/-- A header that ends with the last byte of the buffer is returned with the size of the buffer, and
the terminating zero goes behind it. -/
theorem header_fills_buffer :
    ¬ ∀ (n : Nat) (memory : Nat → UInt8) (socket : List (Socket.ReadEvent UInt8)) (reads : Nat), 0 < n →
      n < 2147483648 → (readRosehttpHeader n memory socket reads).Stays n := by
  intro stays
  have returned : (readRosehttpHeader 1024 (fun _ => 0) (sampleRequest 1020) 1024).control = .returned 1024 := by
    decide +kernel
  exact absurd ((stays 1024 _ _ _ (by decide) (by decide)).2.2 _ returned).1 (by decide)

end LiveStreaming.Streamer
