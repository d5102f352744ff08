import LiveStreaming.Library.Buffer
import LiveStreaming.Streamer.NetUtility

/-!
# The RTMP server's transfers

`NetUtil::readSpecifySize` is the streamer's `read_specify_size` under another name. The writing call
differs in that a `write` that takes nothing ends it.
-/

namespace LiveStreaming.XtraRtmp
open Library Streamer

def readSpecifySize (totalBytes : Nat) (socket : List (Socket.ReadEvent UInt8)) : Option Received :=
  Streamer.readSpecifySize totalBytes socket

/-- A call stores bytes that have arrived, in order. It leaves the rest, unless it meets the end. -/
theorem readSpecifySizeLoop_arriving {totalBytes fuel : Nat} {stored : List UInt8}
    {socket : List (Socket.ReadEvent UInt8)} {r : Received} (asked : stored.length < totalBytes)
    (h : Streamer.readSpecifySizeLoop totalBytes fuel stored socket = some r) :
    r.stored <+: stored ++ Socket.arriving socket ∧
      (0 < r.ret → stored ++ Socket.arriving socket = r.stored ++ Socket.arriving r.socket) := by
  induction fuel generalizing stored socket with
  | zero => cases h
  | succ fuel ih =>
    rw [readSpecifySizeLoop] at h
    have again := @Socket.arriving_read_again UInt8 (totalBytes - stored.length) socket
    split at h
    · next bs rest read =>
      obtain ⟨_, pos, fits, _⟩ := Socket.read_bytes read (by omega)
      rw [Socket.arriving_read_bytes read, ← List.append_assoc]
      split at h
      · obtain rfl := Option.some.inj h
        exact ⟨List.prefix_append _ _, fun _ => rfl⟩
      · exact ih (by rw [List.length_append]; omega) h
    · next rest read =>
      rw [again read (.inl rfl)]
      exact ih asked h
    · next rest read =>
      rw [again read (.inr rfl)]
      split at h
      · exact ih asked h
      · obtain rfl := Option.some.inj h
        exact ⟨List.prefix_append _ _, fun _ => rfl⟩
    · obtain rfl := Option.some.inj h
      exact ⟨List.prefix_append _ _, fun positive => (Nat.lt_irrefl _ positive).elim⟩
    · obtain rfl := Option.some.inj h
      exact ⟨List.prefix_append _ _, fun positive => (Nat.lt_irrefl _ positive).elim⟩

theorem readSpecifySize_arriving {totalBytes : Nat} {socket : List (Socket.ReadEvent UInt8)} {r : Received}
    (asked : 0 < totalBytes) (h : readSpecifySize totalBytes socket = some r) :
    r.stored <+: Socket.arriving socket ∧
      (0 < r.ret → Socket.arriving socket = r.stored ++ Socket.arriving r.socket) :=
  @readSpecifySizeLoop_arriving totalBytes _ [] socket r asked h

/-- A call that asks for no more than what is to come does not meet the end. It stops short at a gap only. -/
theorem readSpecifySizeLoop_coming {totalBytes fuel : Nat} {stored : List UInt8}
    {socket : List (Socket.ReadEvent UInt8)} {r : Received} (asked : stored.length < totalBytes)
    (enough : totalBytes ≤ (stored ++ Socket.arriving socket).length)
    (h : Streamer.readSpecifySizeLoop totalBytes fuel stored socket = some r) :
    stored ++ Socket.arriving socket = r.stored ++ Socket.arriving r.socket ∧
      (r.ret = r.stored.length ∧ stored.length ≤ r.ret ∧ 0 < r.ret ∧ r.ret ≤ totalBytes) ∧
      (r.ret < totalBytes → r.ret - stored.length ∈ Socket.gaps socket) ∧
      ∀ gap ∈ Socket.gaps r.socket, gap + (r.ret - stored.length) ∈ Socket.gaps socket := by
  induction fuel generalizing stored socket with
  | zero => cases h
  | succ fuel ih =>
    rw [readSpecifySizeLoop] at h
    have again := @Socket.arriving_read_again UInt8 (totalBytes - stored.length) socket
    have stop := @Socket.arriving_read_stop UInt8 (totalBytes - stored.length) socket
    split at h
    · next bs rest read =>
      obtain ⟨_, pos, fits, _⟩ := Socket.read_bytes read (by omega)
      have length : (stored ++ bs).length = stored.length + bs.length := List.length_append
      rw [Socket.arriving_read_bytes read, ← List.append_assoc] at enough ⊢
      split at h
      · obtain rfl := Option.some.inj h
        refine ⟨rfl, ⟨by dsimp only; omega, by dsimp only; omega, by dsimp only; omega, Nat.le_refl _⟩,
          fun short => absurd short (Nat.lt_irrefl _), fun gap later => ?_⟩
        rw [show totalBytes - stored.length = bs.length by omega]
        exact Socket.gaps_read_bytes read later
      · obtain ⟨stream, bounds, short, later⟩ := ih (by omega) enough h
        have back : ∀ gap, gap + (r.ret - (stored ++ bs).length) + bs.length = gap + (r.ret - stored.length) := by
          intro gap
          omega
        refine ⟨stream, ⟨bounds.1, by omega, bounds.2.2⟩, fun less => ?_, fun gap member => ?_⟩
        · have found := Socket.gaps_read_bytes read (short less)
          rwa [← Nat.zero_add (r.ret - (stored ++ bs).length), back, Nat.zero_add] at found
        · rw [← back]
          exact Socket.gaps_read_bytes read (later gap member)
    · next rest read =>
      rw [again read (.inl rfl)] at enough ⊢
      obtain ⟨stream, bounds, short, later⟩ := ih asked enough h
      exact ⟨stream, bounds, fun less => Socket.gaps_read_again read (.inl rfl) (short less),
        fun gap member => Socket.gaps_read_again read (.inl rfl) (later gap member)⟩
    · next rest read =>
      rw [again read (.inr rfl)] at enough ⊢
      split at h
      · obtain ⟨stream, bounds, short, later⟩ := ih asked enough h
        exact ⟨stream, bounds, fun less => Socket.gaps_read_again read (.inr rfl) (short less),
          fun gap member => Socket.gaps_read_again read (.inr rfl) (later gap member)⟩
      · next some_ =>
        obtain rfl := Option.some.inj h
        have got : totalBytes - (totalBytes - stored.length) = stored.length := by omega
        dsimp only
        rw [got, Nat.sub_self]
        refine ⟨rfl, ⟨rfl, Nat.le_refl _, by omega, Nat.le_of_lt asked⟩,
          fun _ => Socket.gaps_read_eagain read, fun gap member => ?_⟩
        exact Socket.gaps_read_again read (.inr rfl) member
    · next rest read =>
      rw [stop read (.inl rfl), List.append_nil] at enough
      omega
    · next rest read =>
      rw [stop read (.inr rfl), List.append_nil] at enough
      omega

theorem readSpecifySize_coming {totalBytes : Nat} {socket : List (Socket.ReadEvent UInt8)} {r : Received}
    (asked : 0 < totalBytes) (enough : totalBytes ≤ (Socket.arriving socket).length)
    (h : readSpecifySize totalBytes socket = some r) :
    Socket.arriving socket = r.stored ++ Socket.arriving r.socket ∧
      (r.ret = r.stored.length ∧ 0 < r.ret ∧ r.ret ≤ totalBytes) ∧
      (r.ret < totalBytes → r.ret ∈ Socket.gaps socket) ∧
      ∀ gap ∈ Socket.gaps r.socket, gap + r.ret ∈ Socket.gaps socket := by
  obtain ⟨stream, bounds, short, later⟩ := @readSpecifySizeLoop_coming totalBytes _ [] socket r asked enough h
  exact ⟨stream, ⟨bounds.1, bounds.2.2⟩, short, later⟩

def readSpecifySize2Loop (totalBytes : Nat) : Nat → List UInt8 → List (Socket.ReadEvent UInt8) → Option Received
  | 0, _, _ => none
  | fuel + 1, stored, socket =>
    let leftBytes := totalBytes - stored.length
    match Socket.read leftBytes socket with
    | (.bytes bs, socket) =>
      if leftBytes - bs.length = 0 then some ⟨totalBytes, stored ++ bs, socket⟩
      else readSpecifySize2Loop totalBytes fuel (stored ++ bs) socket
    | (.eintr, socket) | (.eagain, socket) => readSpecifySize2Loop totalBytes fuel stored socket
    | (.eof, socket) | (.error, socket) => some ⟨0, stored, socket⟩

/-- `NetUtil::readSpecifySize2` waits for all its bytes; `none` when they do not come. -/
def readSpecifySize2 (totalBytes : Nat) (socket : List (Socket.ReadEvent UInt8)) : Option Received :=
  readSpecifySize2Loop totalBytes (socket.length + 1) [] socket

theorem readSpecifySize2Loop_coming {totalBytes fuel : Nat} {stored : List UInt8}
    {socket : List (Socket.ReadEvent UInt8)} {r : Received} (asked : stored.length < totalBytes)
    (enough : totalBytes ≤ (stored ++ Socket.arriving socket).length)
    (h : readSpecifySize2Loop totalBytes fuel stored socket = some r) :
    stored ++ Socket.arriving socket = r.stored ++ Socket.arriving r.socket ∧
      r.ret = totalBytes ∧ r.stored.length = totalBytes ∧
      ∀ gap ∈ Socket.gaps r.socket, gap + (totalBytes - stored.length) ∈ Socket.gaps socket := by
  induction fuel generalizing stored socket with
  | zero => cases h
  | succ fuel ih =>
    rw [readSpecifySize2Loop] at h
    have again := @Socket.arriving_read_again UInt8 (totalBytes - stored.length) socket
    have stop := @Socket.arriving_read_stop UInt8 (totalBytes - stored.length) socket
    split at h
    · next bs rest read =>
      obtain ⟨_, pos, fits, _⟩ := Socket.read_bytes read (by omega)
      have length : (stored ++ bs).length = stored.length + bs.length := List.length_append
      rw [Socket.arriving_read_bytes read, ← List.append_assoc] at enough ⊢
      split at h
      · obtain rfl := Option.some.inj h
        refine ⟨rfl, rfl, by dsimp only; omega, fun gap later => ?_⟩
        rw [show totalBytes - stored.length = bs.length by omega]
        exact Socket.gaps_read_bytes read later
      · obtain ⟨stream, ret, full, later⟩ := ih (by omega) enough h
        refine ⟨stream, ret, full, fun gap member => ?_⟩
        have found := Socket.gaps_read_bytes read (later gap member)
        rwa [show gap + (totalBytes - (stored ++ bs).length) + bs.length = gap + (totalBytes - stored.length) by omega]
          at found
    · next rest read =>
      rw [again read (.inl rfl)] at enough ⊢
      obtain ⟨stream, ret, full, later⟩ := ih asked enough h
      exact ⟨stream, ret, full, fun gap member => Socket.gaps_read_again read (.inl rfl) (later gap member)⟩
    · next rest read =>
      rw [again read (.inr rfl)] at enough ⊢
      obtain ⟨stream, ret, full, later⟩ := ih asked enough h
      exact ⟨stream, ret, full, fun gap member => Socket.gaps_read_again read (.inr rfl) (later gap member)⟩
    · next rest read =>
      rw [stop read (.inl rfl), List.append_nil] at enough
      omega
    · next rest read =>
      rw [stop read (.inr rfl), List.append_nil] at enough
      omega

theorem readSpecifySize2Loop_one {fuel : Nat} {socket : List (Socket.ReadEvent UInt8)} {r : Received}
    (h : readSpecifySize2Loop 1 fuel [] socket = some r) :
    (r.ret = 0 ∧ r.stored = [] ∧ Socket.arriving socket = []) ∨
      ∃ b, r.ret = 1 ∧ r.stored = [b] ∧ Socket.arriving socket = b :: Socket.arriving r.socket := by
  induction fuel generalizing socket with
  | zero => cases h
  | succ fuel ih =>
    rw [readSpecifySize2Loop] at h
    have again := @Socket.arriving_read_again UInt8 1 socket
    split at h
    · next bs rest read =>
      obtain ⟨_, pos, fits, _⟩ := Socket.read_bytes read (by decide)
      obtain ⟨b, rfl⟩ := List.length_eq_one_iff.mp (show bs.length = 1 by simp at fits; omega)
      obtain rfl := Option.some.inj h
      exact .inr ⟨b, rfl, rfl, Socket.arriving_read_bytes read⟩
    · next rest read =>
      rw [again read (.inl rfl)]
      exact ih h
    · next rest read =>
      rw [again read (.inr rfl)]
      exact ih h
    · next rest read =>
      obtain rfl := Option.some.inj h
      exact .inl ⟨rfl, rfl, Socket.arriving_read_stop read (.inl rfl)⟩
    · next rest read =>
      obtain rfl := Option.some.inj h
      exact .inl ⟨rfl, rfl, Socket.arriving_read_stop read (.inr rfl)⟩

def writeSpecifySize2Loop (buffer taken : List UInt8) : List Socket.WriteEvent → Option Sent
  | [] => none
  | event :: socket =>
    match (Socket.write buffer.length (event :: socket)).1 with
    | .sent 0 | .error => some ⟨none, taken, socket⟩
    | .eintr | .eagain => writeSpecifySize2Loop buffer taken socket
    | .sent n =>
      if buffer.length - n = 0 then some ⟨some (taken ++ buffer.take n).length, taken ++ buffer.take n, socket⟩
      else writeSpecifySize2Loop (buffer.drop n) (taken ++ buffer.take n) socket

/-- `NetUtil::writeSpecifySize2`; `none` when the socket asks for another try for ever. -/
def writeSpecifySize2 (buffer : List UInt8) (socket : List Socket.WriteEvent) : Option Sent :=
  writeSpecifySize2Loop buffer [] socket

theorem writeSpecifySize2Loop_spec {buffer taken : List UInt8} {socket : List Socket.WriteEvent} {r : Sent}
    (h : writeSpecifySize2Loop buffer taken socket = some r) :
    r.taken <+: taken ++ buffer ∧ (r.ret = none ∨ r.taken = taken ++ buffer) := by
  induction socket generalizing buffer taken with
  | nil => cases h
  | cons event socket ih =>
    simp only [writeSpecifySize2Loop] at h
    split at h
    · obtain rfl := Option.some.inj h
      exact ⟨List.prefix_append _ _, .inl rfl⟩
    · obtain rfl := Option.some.inj h
      exact ⟨List.prefix_append _ _, .inl rfl⟩
    · exact ih h
    · exact ih h
    · next n _ _ =>
      split at h
      · next all =>
        obtain rfl := Option.some.inj h
        rw [List.take_of_length_le (by omega)]
        exact ⟨List.prefix_rfl, .inr rfl⟩
      · have rest := ih h
        rwa [List.append_assoc, List.take_append_drop] at rest

theorem writeSpecifySize2_spec {buffer : List UInt8} {socket : List Socket.WriteEvent} {r : Sent}
    (h : writeSpecifySize2 buffer socket = some r) : r.taken <+: buffer ∧ (r.ret = none ∨ r.taken = buffer) :=
  writeSpecifySize2Loop_spec h

/-- A static buffer and the static count of the bytes that calls have read into it so far. -/
structure StaticBuffer where
  buffer : List UInt8
  readBytes : Nat

/-- A call that reads behind the bytes counted stores what comes and counts what it returns. -/
def StaticBuffer.receive (s : StaticBuffer) (r : Received) : StaticBuffer :=
  ⟨Buffer.overwrite s.buffer s.readBytes r.stored, s.readBytes + r.ret⟩

/-- The buffer has `size` bytes, and those counted are `bytes`. -/
structure StaticBuffer.Contains (s : StaticBuffer) (size : Nat) (bytes : List UInt8) : Prop where
  length : s.buffer.length = size
  counted : s.readBytes = bytes.length
  filled : Buffer.Filled s.buffer bytes

theorem StaticBuffer.Contains.nil {s : StaticBuffer} {size : Nat} (length : s.buffer.length = size)
    (counted : s.readBytes = 0) : s.Contains size [] :=
  ⟨length, counted, Buffer.filled_nil _⟩

theorem StaticBuffer.Contains.room {s : StaticBuffer} {size : Nat} {bytes : List UInt8}
    (holds : s.Contains size bytes) :
    bytes.length ≤ size := holds.length ▸ holds.filled.length_le

theorem StaticBuffer.Contains.full {s : StaticBuffer} {size : Nat} {bytes : List UInt8} (holds : s.Contains size bytes)
    (all : s.readBytes = size) : s.buffer = bytes :=
  holds.filled.eq (by rw [← holds.counted, all, holds.length])

/-- A call that returns has moved bytes of the stream into the buffer. Where it returns 0 they are not counted. -/
theorem StaticBuffer.Contains.receive {s : StaticBuffer} {size : Nat} {bytes : List UInt8}
    {socket : List (Socket.ReadEvent UInt8)} {r : Received} (holds : s.Contains size bytes) (room : s.readBytes < size)
    (read : readSpecifySize (size - s.readBytes) socket = some r) :
    (r.ret = 0 ∧ (s.receive r).Contains size bytes) ∨
      (0 < r.ret ∧ r.ret = r.stored.length ∧ (s.receive r).Contains size (bytes ++ r.stored)) := by
  obtain ⟨_, result⟩ := readSpecifySize_spec (by omega) read
  have fits : s.readBytes + r.stored.length ≤ s.buffer.length := by
    rw [holds.length]
    omega
  have length := (Buffer.length_overwrite fits).trans holds.length
  have filled := holds.filled.overwrite r.stored
  rw [← holds.counted] at filled
  rcases result with ⟨zero, _⟩ | ⟨ret, positive, _⟩
  · exact .inl ⟨zero, length, by rw [StaticBuffer.receive, zero, Nat.add_zero, holds.counted], filled.of_append⟩
  · refine .inr ⟨positive, ret, length, ?_, filled⟩
    rw [StaticBuffer.receive, holds.counted, List.length_append, ret]

end LiveStreaming.XtraRtmp
