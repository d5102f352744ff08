import LiveStreaming.Streamer.RequestBounds

/-!
# Where a header ends

A header ends with its first empty line. `read_rosehttp_header` takes any three bytes behind a carriage
return for the rest of that line if the third is a newline, and steps over them otherwise.
-/

namespace LiveStreaming.Streamer
open Library

/-- The first `k` bytes end in CR LF CR LF. -/
def HeaderEnd (bytes : List UInt8) (k : Nat) : Prop := k ≤ bytes.length ∧ [13, 10, 13, 10] <:+ bytes.take k

instance decidableHeaderEnd (bytes : List UInt8) (k : Nat) : Decidable (HeaderEnd bytes k) :=
  inferInstanceAs (Decidable (_ ∧ _))

def ShortestHeader (bytes : List UInt8) (k : Nat) : Prop := HeaderEnd bytes k ∧ ∀ j < k, ¬ HeaderEnd bytes j

/-- The call returns `k`, after some number of reads. -/
def Returns (n : Nat) (memory : Nat → UInt8) (socket : List (Socket.ReadEvent UInt8)) (k : Nat) : Prop :=
  ∃ reads, (readRosehttpHeader n memory socket reads).control = .returned k

/-- A look-ahead within the buffer that ends in a newline ends a CR LF CR LF, and the first CR LF CR LF
that fits the buffer ends with a look-ahead. -/
structure Aligned (n : Nat) (memory : Nat → UInt8) (socket : List (Socket.ReadEvent UInt8)) : Prop where
  accepted : ∀ ahead ∈ lookAheads memory 0 0 (Socket.items socket), ahead.last = 10 → ahead.stop ≤ n →
    HeaderEnd (Socket.arriving socket) ahead.stop
  completed : ∀ k ≤ n, ShortestHeader (Socket.arriving socket) k →
    ∃ ahead ∈ lookAheads memory 0 0 (Socket.items socket), ahead.last = 10 ∧ ahead.stop = k

theorem ShortestHeader.pos {bytes : List UInt8} {k : Nat} (header : ShortestHeader bytes k) : 0 < k := by
  obtain ⟨⟨_, suffix⟩, _⟩ := header
  have length := suffix.length_le
  rw [List.length_take] at length
  simp only [List.length_cons, List.length_nil] at length
  omega

theorem ShortestHeader.unique {bytes : List UInt8} {j k : Nat} (first : ShortestHeader bytes j)
    (second : ShortestHeader bytes k) : j = k := by
  rcases Nat.lt_trichotomy j k with less | equal | greater
  · exact absurd first.1 (second.2 j less)
  · exact equal
  · exact absurd second.1 (first.2 k greater)

/-- A CR LF CR LF has a first one at or before it. -/
theorem HeaderEnd.shortest {bytes : List UInt8} {k : Nat} (header : HeaderEnd bytes k) :
    ∃ j ≤ k, ShortestHeader bytes j := by
  induction k using Nat.strongRecOn with
  | _ k ih =>
    by_cases earlier : ∃ j < k, HeaderEnd bytes j
    · obtain ⟨j, less, ends⟩ := earlier
      obtain ⟨i, most, first⟩ := ih j less ends
      exact ⟨i, by omega, first⟩
    · exact ⟨k, Nat.le_refl k, header, fun j less ends => earlier ⟨j, less, ends⟩⟩

/-- Nothing is read ahead after a look-ahead that ends in a newline. -/
theorem lookAheads_final {memory : Nat → UInt8} {left offset : Nat} {items : List (Socket.Item UInt8)}
    {ahead other : LookAhead} (member : ahead ∈ lookAheads memory left offset items) (newline : ahead.last = 10)
    (also : other ∈ lookAheads memory left offset items) : other.stop ≤ ahead.stop := by
  induction left, offset, items using lookAheads.induct memory with
  | case1 | case2 => simp [lookAheads] at member
  | case3 offset b items ih | case4 offset items ih | case6 left offset b items ih | case7 left offset items ih =>
    rw [lookAheads] at member also
    exact ih member also
  | case5 offset b items ih =>
    rw [lookAheads] at member also
    rcases List.mem_cons.mp also with rfl | also
    · rcases List.mem_cons.mp member with rfl | member
      · exact Nat.le_refl _
      · split at member
        · cases member
        · exact Nat.le_of_lt (lookAheads_stop member).2
    · split at also
      · cases also
      · next other =>
        rcases List.mem_cons.mp member with rfl | member
        · exact absurd newline other
        · rw [if_neg other] at member
          exact ih member also

namespace HeaderRead

variable {n k : Nat} {memory : Nat → UInt8} {s : HeaderRead}

/-- What lies above the cursor has not been touched, and a look-ahead under way ends within the buffer. -/
structure Tracked (n : Nat) (memory : Nat → UInt8) (s : HeaderRead) : Prop where
  above : ∀ i, s.readBytes ≤ i → s.memory i = memory i
  cursor : match s.control with
    | .outer => s.forward = s.readBytes
    | .inner left => s.forward = s.readBytes ∧ 0 < left ∧ s.readBytes + left ≤ n
    | .returned _ => True

/-- The look-aheads to come hold one that ends the header, at `k`. -/
def Ending (n k : Nat) (memory : Nat → UInt8) (left offset : Nat) (items : List (Socket.Item UInt8)) : Prop :=
  ∃ ahead ∈ lookAheads memory left offset items, ahead.last = 10 ∧ ahead.stop = k ∧ k ≤ n

/-- The call has returned `k`, or the rest of the stream makes it do so. -/
def Completes (n k : Nat) (memory : Nat → UInt8) (s : HeaderRead) : Prop :=
  match s.control with
  | .outer => Ending n k memory 0 s.readBytes (Socket.items s.socket)
  | .inner left => Ending n k memory left s.readBytes (Socket.items s.socket)
  | .returned ret => ret = k

theorem not_ending {left offset : Nat} {items : List (Socket.Item UInt8)} (past : n < offset + left ∨ n ≤ offset) :
    ¬ Ending n k memory left offset items := by
  rintro ⟨ahead, member, _, rfl, within⟩
  have := lookAheads_stop member
  omega

theorem not_ending_stopped {left offset : Nat} {items : List (Socket.Item UInt8)} :
    ¬ Ending n k memory left offset (.stop :: items) := by
  rintro ⟨ahead, member, _⟩
  simp [lookAheads] at member

theorem ending_complete (offset : Nat) (bs : List UInt8) (last : UInt8) (items : List (Socket.Item UInt8)) :
    Ending n k memory (bs.length + 1) offset ((bs ++ [last]).map .byte ++ items) ↔
      (last = 10 ∧ offset + bs.length + 1 = k ∧ k ≤ n) ∨
        (last ≠ 10 ∧ Ending n k memory 0 (offset + bs.length + 1) items) := by
  rw [Ending, Ending, lookAheads_complete]
  by_cases newline : last = 10
  · simp [newline]
  · simp [newline]

/-- One read keeps what the call will return, and takes something from the stream while it can. -/
structure Keeps (n k : Nat) (memory : Nat → UInt8) (s s' : HeaderRead) : Prop where
  tracked : s'.Tracked n memory
  completes : s'.Completes n k memory ↔ s.Completes n k memory

/-- After a single byte, or none. The three ends by the bound tests lie before any look-ahead that fits. -/
theorem afterByte_keeps {receivedBytes : Nat} (forward : s.forward + receivedBytes = s.readBytes)
    (above : ∀ i, s.readBytes ≤ i → s.memory i = memory i) :
    (s.afterByte n receivedBytes).Tracked n memory ∧
      ((s.afterByte n receivedBytes).Completes n k memory ↔
        Ending n k memory (if s.memory s.forward = 13 then 3 else 0) s.readBytes (Socket.items s.socket)) := by
  have overflowed : ¬ lengthOverflow = (k : Int) := by
    rw [lengthOverflow]
    omega
  unfold afterByte
  split
  · next full =>
    exact ⟨⟨above, trivial⟩, iff_of_false overflowed (not_ending (.inr (Nat.le_of_eq full.symm)))⟩
  · dsimp only
    split
    · split
      · next far => exact ⟨⟨above, trivial⟩, iff_of_false overflowed (not_ending (.inl far))⟩
      · next near => exact ⟨⟨above, forward, by decide, by simpa using near⟩, Iff.rfl⟩
    · exact ⟨⟨above, forward⟩, Iff.rfl⟩

theorem receive_above (above : ∀ i, s.readBytes ≤ i → s.memory i = memory i) (forward : s.forward = s.readBytes)
    (bs : List UInt8) (rest : List (Socket.ReadEvent UInt8)) :
    ∀ i, (s.receive bs rest).readBytes ≤ i → (s.receive bs rest).memory i = memory i := by
  intro i past
  have beyond : s.readBytes + bs.length ≤ i := past
  have outside : bs.length ≤ i - s.readBytes := by omega
  simp only [HeaderRead.receive, forward, List.getElem?_eq_none outside]
  rw [above i (by omega)]
  split <;> rfl

theorem keeps_stopped {rest : List (Socket.ReadEvent UInt8)} (positive : 0 < k) (tracked : s.Tracked n memory)
    (running : ∀ ret, s.control ≠ .returned ret) (stopped : Socket.items s.socket = .stop :: Socket.items rest) :
    Keeps n k memory s { s with socket := rest, control := .returned 0 } := by
  refine ⟨⟨tracked.above, trivial⟩, iff_of_false ?_ ?_⟩
  · exact fun zero : (0 : Int) = k => by omega
  · unfold Completes
    rw [stopped]
    split
    · exact not_ending_stopped
    · exact not_ending_stopped
    · next ret returned => exact absurd returned (running ret)

theorem ending_quiet {left offset : Nat} {items items' : List (Socket.Item UInt8)} (quiet : Quiet items items') :
    Ending n k memory left offset items ↔
      Ending n k memory (if left = 0 then if memory offset = 13 then 3 else 0 else left) offset items' := by
  rcases quiet with rfl | ⟨rfl, rfl⟩
  · cases left with
    | zero => rw [Ending, Ending, lookAheads, if_pos rfl]
    | succ left => rw [Ending, Ending, lookAheads, if_neg (Nat.succ_ne_zero left)]
  · simp [Ending, lookAheads]

theorem keeps_outer (positive : 0 < k) (tracked : s.Tracked n memory) (looping : s.control = .outer) :
    Keeps n k memory s (step n s) := by
  have forward : s.forward = s.readBytes := by simpa only [looping] using tracked.cursor
  have running : ∀ ret, s.control ≠ .returned ret := by simp [looping]
  have completes : s.Completes n k memory ↔ Ending n k memory 0 s.readBytes (Socket.items s.socket) := by
    rw [Completes, looping]
  have again (rest : List (Socket.ReadEvent UInt8)) (quiet : Quiet (Socket.items s.socket) (Socket.items rest)) :
      Keeps n k memory s (afterByte n { s with socket := rest } 0) := by
    obtain ⟨tracked', completes'⟩ := @afterByte_keeps n k memory { s with socket := rest } 0 forward tracked.above
    refine ⟨tracked', completes'.trans ?_⟩
    rw [completes, ending_quiet quiet, if_pos rfl, ← tracked.above _ (Nat.le_refl _), ← forward]
  rw [step, looping]
  dsimp only
  split
  · next bs rest read =>
    obtain ⟨_, pos, single, _⟩ := Socket.read_bytes read Nat.one_pos
    obtain ⟨b, rfl⟩ : ∃ b, bs = [b] := List.length_eq_one_iff.mp (by omega)
    have taken : Socket.items s.socket = .byte b :: Socket.items rest := Socket.items_read_bytes read
    have arrived : (s.receive [b] rest).memory (s.receive [b] rest).forward = b := receive_last s [] b rest
    obtain ⟨tracked', completes'⟩ := @afterByte_keeps n k memory (s.receive [b] rest) 1
      (show s.forward + 1 = s.readBytes + 1 by rw [forward]) (receive_above tracked.above forward [b] rest)
    refine ⟨tracked', completes'.trans ?_⟩
    rw [completes, arrived, taken, Ending, Ending, lookAheads]
    rfl
  · next rest read => exact again rest (Socket.items_read_quiet read (.inl rfl))
  · next rest read => exact again rest (Socket.items_read_quiet read (.inr rfl))
  · next rest read => exact keeps_stopped positive tracked running (Socket.items_read_stop read (.inl rfl))
  · next rest read => exact keeps_stopped positive tracked running (Socket.items_read_stop read (.inr rfl))

/-- After some bytes of a look-ahead, or none, with which it is not complete. -/
theorem afterAhead_keeps {left receivedBytes : Nat} (forward : s.forward + receivedBytes = s.readBytes)
    (above : ∀ i, s.readBytes ≤ i → s.memory i = memory i) (short : receivedBytes < left)
    (within : s.readBytes + (left - receivedBytes) ≤ n) :
    (s.afterAhead left receivedBytes).Tracked n memory ∧
      ((s.afterAhead left receivedBytes).Completes n k memory ↔
        Ending n k memory (left - receivedBytes) s.readBytes (Socket.items s.socket)) := by
  unfold afterAhead
  rw [if_neg (by omega)]
  exact ⟨⟨above, forward, Nat.sub_pos_of_lt short, within⟩, Iff.rfl⟩

/-- After the last byte of a look-ahead. -/
theorem afterAhead_ends {left : Nat} {last : UInt8} (forward : s.forward + left = s.readBytes)
    (above : ∀ i, s.readBytes ≤ i → s.memory i = memory i) (read : s.memory (s.readBytes - 1) = last)
    (within : s.readBytes ≤ n) (int : n < 2147483648) :
    (s.afterAhead left left).Tracked n memory ∧
      ((s.afterAhead left left).Completes n k memory ↔
        (last = 10 ∧ s.readBytes = k ∧ k ≤ n) ∨
          (last ≠ 10 ∧ Ending n k memory 0 s.readBytes (Socket.items s.socket))) := by
  unfold afterAhead
  dsimp only
  rw [if_pos (Nat.sub_self left), forward, read]
  split
  · next newline =>
    refine ⟨⟨above, trivial⟩, ?_⟩
    have returned : Completes n k memory { s with
        forward := s.readBytes - 1, control := .returned (toInt s.readBytes) } ↔ toInt s.readBytes = k := Iff.rfl
    rw [returned, toInt_of_lt (by omega), Int.natCast_inj]
    constructor
    · exact fun equal => .inl ⟨newline, equal, by omega⟩
    · rintro (⟨_, equal, _⟩ | ⟨other, _⟩)
      · exact equal
      · exact absurd newline other
  · next other =>
    refine ⟨⟨above, rfl⟩, ?_⟩
    exact ⟨fun ending => .inr ⟨other, ending⟩, fun either =>
      either.elim (fun newline => absurd newline.1 other) And.right⟩

theorem keeps_inner {left : Nat} (positive : 0 < k) (int : n < 2147483648) (tracked : s.Tracked n memory)
    (looping : s.control = .inner left) : Keeps n k memory s (step n s) := by
  obtain ⟨forward, asked, within⟩ : s.forward = s.readBytes ∧ 0 < left ∧ s.readBytes + left ≤ n := by
    simpa only [looping] using tracked.cursor
  have running : ∀ ret, s.control ≠ .returned ret := by simp [looping]
  have completes : s.Completes n k memory ↔ Ending n k memory left s.readBytes (Socket.items s.socket) := by
    rw [Completes, looping]
  have again (rest : List (Socket.ReadEvent UInt8)) (quiet : Quiet (Socket.items s.socket) (Socket.items rest)) :
      Keeps n k memory s (afterAhead left { s with socket := rest } 0) := by
    obtain ⟨tracked', completes'⟩ := @afterAhead_keeps n k memory { s with socket := rest } left 0 forward
      tracked.above asked within
    refine ⟨tracked', completes'.trans ?_⟩
    rw [completes, ending_quiet quiet, if_neg (by omega), Nat.sub_zero]
  rw [step, looping]
  dsimp only
  split
  · next bs rest read =>
    obtain ⟨_, pos, fits, _⟩ := Socket.read_bytes read asked
    have taken := Socket.items_read_bytes read
    have above := receive_above tracked.above forward bs rest
    rcases Nat.lt_or_eq_of_le fits with short | rfl
    · obtain ⟨tracked', completes'⟩ := @afterAhead_keeps n k memory (s.receive bs rest) left bs.length
        (show s.forward + bs.length = s.readBytes + bs.length by rw [forward]) above short
        (show s.readBytes + bs.length + (left - bs.length) ≤ n by omega)
      refine ⟨tracked', completes'.trans ?_⟩
      rw [completes, Ending, Ending, taken, lookAheads_bytes short]
      rfl
    · obtain rfl | ⟨bs, last, rfl⟩ := List.eq_nil_or_concat bs
      · simp at pos
      rw [List.concat_eq_append] at *
      have length : (bs ++ [last]).length = bs.length + 1 := by simp
      have newest : (s.receive (bs ++ [last]) rest).memory (s.readBytes + (bs ++ [last]).length - 1) = last := by
        rw [length, ← forward]
        exact receive_last s bs last rest
      obtain ⟨tracked', completes'⟩ := @afterAhead_ends n k memory (s.receive (bs ++ [last]) rest)
        (bs ++ [last]).length last
        (show s.forward + (bs ++ [last]).length = s.readBytes + (bs ++ [last]).length by rw [forward]) above newest
        within int
      have read : (s.receive (bs ++ [last]) rest).readBytes = s.readBytes + bs.length + 1 :=
        congrArg (s.readBytes + ·) length
      refine ⟨tracked', completes'.trans ?_⟩
      rw [completes, taken, length, ending_complete, ← read]
      rfl
  · next rest read => exact again rest (Socket.items_read_quiet read (.inl rfl))
  · next rest read => exact again rest (Socket.items_read_quiet read (.inr rfl))
  · next rest read => exact keeps_stopped positive tracked running (Socket.items_read_stop read (.inl rfl))
  · next rest read => exact keeps_stopped positive tracked running (Socket.items_read_stop read (.inr rfl))

theorem step_keeps (positive : 0 < k) (int : n < 2147483648) (tracked : s.Tracked n memory) :
    Keeps n k memory s (step n s) := by
  cases at_ : s.control with
  | outer => exact keeps_outer positive tracked at_
  | inner left => exact keeps_inner positive int tracked at_
  | returned ret =>
    have same : step n s = s := by rw [step, at_]
    rw [same]
    exact ⟨tracked, Iff.rfl⟩

theorem run_keeps (positive : 0 < k) (int : n < 2147483648) (tracked : s.Tracked n memory) (reads : Nat) :
    Keeps n k memory s ((step n)^[reads] s) := by
  induction reads generalizing s with
  | zero => exact ⟨tracked, Iff.rfl⟩
  | succ reads ih =>
    have kept := @step_keeps n k memory s positive int tracked
    have run := ih kept.tracked
    exact ⟨run.tracked, run.completes.trans kept.completes⟩

theorem quiet_shorter {items items' : List (Socket.Item UInt8)} (quiet : Quiet items items') (more : items ≠ []) :
    items'.length < items.length := by
  rcases quiet with rfl | ⟨empty, _⟩
  · exact Nat.lt_succ_self _
  · exact absurd empty more

/-- A call that has not returned takes something from a stream that is not used up. -/
theorem step_shorter (tracked : s.Tracked n memory) (running : ∀ ret, s.control ≠ .returned ret)
    (more : Socket.items s.socket ≠ []) :
    (Socket.items (step n s).socket).length < (Socket.items s.socket).length := by
  have stopped (rest : List (Socket.ReadEvent UInt8)) (taken : Socket.items s.socket = .stop :: Socket.items rest) :
      (Socket.items rest).length < (Socket.items s.socket).length := by
    rw [taken]
    exact Nat.lt_succ_self _
  have filled (bs : List UInt8) (rest : List (Socket.ReadEvent UInt8)) (pos : 0 < bs.length)
      (taken : Socket.items s.socket = bs.map .byte ++ Socket.items rest) :
      (Socket.items rest).length < (Socket.items s.socket).length := by
    rw [taken, List.length_append, List.length_map]
    omega
  cases at_ : s.control with
  | outer =>
    rw [step, at_]
    dsimp only
    split
    · next bs rest read =>
      rw [afterByte_socket]
      exact filled bs rest (Socket.read_bytes read Nat.one_pos).2.1 (Socket.items_read_bytes read)
    · next rest read =>
      rw [afterByte_socket]
      exact quiet_shorter (Socket.items_read_quiet read (.inl rfl)) more
    · next rest read =>
      rw [afterByte_socket]
      exact quiet_shorter (Socket.items_read_quiet read (.inr rfl)) more
    · next rest read => exact stopped rest (Socket.items_read_stop read (.inl rfl))
    · next rest read => exact stopped rest (Socket.items_read_stop read (.inr rfl))
  | inner left =>
    have asked : 0 < left := by
      have cursor := tracked.cursor
      rw [at_] at cursor
      exact cursor.2.1
    rw [step, at_]
    dsimp only
    split
    · next bs rest read =>
      rw [afterAhead_socket]
      exact filled bs rest (Socket.read_bytes read asked).2.1 (Socket.items_read_bytes read)
    · next rest read =>
      rw [afterAhead_socket]
      exact quiet_shorter (Socket.items_read_quiet read (.inl rfl)) more
    · next rest read =>
      rw [afterAhead_socket]
      exact quiet_shorter (Socket.items_read_quiet read (.inr rfl)) more
    · next rest read => exact stopped rest (Socket.items_read_stop read (.inl rfl))
    · next rest read => exact stopped rest (Socket.items_read_stop read (.inr rfl))
  | returned ret => exact absurd at_ (running ret)

theorem Ending.more {left offset : Nat} {items : List (Socket.Item UInt8)}
    (ending : Ending n k memory left offset items) :
    items ≠ [] := by
  obtain ⟨ahead, member, _⟩ := ending
  rintro rfl
  simp [lookAheads] at member

/-- Induction on the rest of the stream, as long as the call has not returned. -/
theorem run_returns (positive : 0 < k) (int : n < 2147483648) (tracked : s.Tracked n memory)
    (completes : s.Completes n k memory) : ∃ reads, ((step n)^[reads] s).control = .returned k := by
  induction left : (Socket.items s.socket).length using Nat.strongRecOn generalizing s with
  | _ left ih =>
    have next (running : ∀ ret, s.control ≠ .returned ret) (more : Socket.items s.socket ≠ []) :
        ∃ reads, ((step n)^[reads] s).control = .returned k := by
      have kept := @step_keeps n k memory s positive int tracked
      obtain ⟨reads, returned⟩ := ih _ (left ▸ step_shorter tracked running more) kept.tracked
        (kept.completes.mpr completes) rfl
      exact ⟨reads + 1, returned⟩
    have unfolded := completes
    unfold Completes at unfolded
    split at unfolded
    · next looping => exact next (by simp [looping]) unfolded.more
    · next looping => exact next (by simp [looping]) unfolded.more
    · next ret returned => exact ⟨0, unfolded ▸ returned⟩

end HeaderRead

/-- What the call returns is where a look-ahead ends in a newline, within the buffer. -/
theorem returns_iff {n k : Nat} (positive : 0 < k) (int : n < 2147483648) (memory : Nat → UInt8)
    (socket : List (Socket.ReadEvent UInt8)) :
    Returns n memory socket k ↔
      ∃ ahead ∈ lookAheads memory 0 0 (Socket.items socket), ahead.last = 10 ∧ ahead.stop = k ∧ k ≤ n := by
  let start : HeaderRead := ⟨.outer, memory, 0, 0, [], socket⟩
  have tracked : start.Tracked n memory := ⟨fun _ _ => rfl, rfl⟩
  constructor
  · rintro ⟨reads, returned⟩
    have kept := @HeaderRead.run_keeps n k memory start positive int tracked reads
    apply kept.completes.mp
    rw [HeaderRead.Completes]
    rw [readRosehttpHeader] at returned
    rw [returned]
  · exact fun ending => HeaderRead.run_returns positive int tracked ending

/-- Which streams the call reads exactly, up to their first empty line. -/
theorem readRosehttpHeader_exact {n : Nat} (int : n < 2147483648) (memory : Nat → UInt8)
    (socket : List (Socket.ReadEvent UInt8)) :
    (∀ k, 0 < k → (Returns n memory socket k ↔ ShortestHeader (Socket.arriving socket) k ∧ k ≤ n)) ↔
      Aligned n memory socket := by
  constructor
  · intro precise
    refine ⟨fun ahead member newline within => ?_, fun k within header => ?_⟩
    · have positive : 0 < ahead.stop := Nat.zero_lt_of_lt (lookAheads_stop member).2
      have returned := (returns_iff positive int memory socket).mpr ⟨ahead, member, newline, rfl, within⟩
      exact ((precise _ positive).mp returned).1.1
    · have returned := (precise k header.pos).mpr ⟨header, within⟩
      obtain ⟨ahead, member, newline, stop, _⟩ := (returns_iff header.pos int memory socket).mp returned
      exact ⟨ahead, member, newline, stop⟩
  · intro aligned k positive
    rw [returns_iff positive int]
    constructor
    · rintro ⟨ahead, member, newline, rfl, within⟩
      obtain ⟨j, most, header⟩ := (aligned.accepted ahead member newline within).shortest
      obtain ⟨other, also, ended, rfl⟩ := aligned.completed j (by omega) header
      have final := lookAheads_final also ended member
      have same : other.stop = ahead.stop := by omega
      exact ⟨same ▸ header, within⟩
    · rintro ⟨header, within⟩
      obtain ⟨ahead, member, newline, stop⟩ := aligned.completed k within header
      exact ⟨ahead, member, newline, stop, within⟩

theorem readRosehttpHeader_exact_sample :
    (∀ k, 0 < k → (Returns 1024 (fun _ => 0) (sampleRequest 40) k ↔
        ShortestHeader (Socket.arriving (sampleRequest 40)) k ∧ k ≤ 1024)) ↔
      Aligned 1024 (fun _ => 0) (sampleRequest 40) :=
  readRosehttpHeader_exact (by decide) _ _

/-- Three bytes behind a carriage return of which the last is a newline pass for the end of a header, and
the end that begins with the second of two carriage returns is stepped over. -/
theorem header_end_missed :
    Returns 1024 (fun _ => 0) [.data 13 [97, 98, 10]] 4 ∧
      ¬ HeaderEnd (Socket.arriving [.data 13 [97, 98, 10]]) 4 ∧
      ShortestHeader (Socket.arriving [.data 13 [13, 10, 13, 10]]) 5 ∧
      ¬ Returns 1024 (fun _ => 0) [.data 13 [13, 10, 13, 10]] 5 ∧
      ¬ ∀ (n : Nat) (memory : Nat → UInt8) (socket : List (Socket.ReadEvent UInt8)), n < 2147483648 →
        ∀ k, 0 < k → (Returns n memory socket k ↔ ShortestHeader (Socket.arriving socket) k ∧ k ≤ n) := by
  have accepted : Returns 1024 (fun _ => 0) [.data 13 [97, 98, 10]] 4 := ⟨2, by decide⟩
  have wrong : ¬ HeaderEnd (Socket.arriving [.data 13 [97, 98, 10]]) 4 := by decide
  have header : ShortestHeader (Socket.arriving [.data 13 [13, 10, 13, 10]]) 5 := ⟨by decide, by decide⟩
  refine ⟨accepted, wrong, header, ?_, fun precise => ?_⟩
  · rw [returns_iff (by decide) (by decide)]
    decide
  · exact wrong ((precise 1024 _ _ (by decide) 4 (by decide)).mp accepted).1.1

end LiveStreaming.Streamer
