import LiveStreaming.Library.Socket

/-!
# Bounded transfers

`read_specify_size` and its two writing counterparts, over a socket whose every system call may do
less than it was asked to.
-/

namespace LiveStreaming.Streamer
open Library

/-- What a call of `read_specify_size` returns, what it stored in the buffer and what is left. -/
structure Received where
  ret : Nat
  stored : List UInt8
  socket : List (Socket.ReadEvent UInt8)

/-- The loop of `read_specify_size`. It gives `none` when the socket answers `EAGAIN` for ever before
a first byte, where the C loop spins; every other round uses up an event or is the last. -/
def readSpecifySizeLoop (totalBytes : Nat) :
    Nat → List UInt8 → List (Socket.ReadEvent UInt8) → Option Received
  | 0, _, _ => none
  | fuel + 1, stored, socket =>
    let leftBytes := totalBytes - stored.length
    match Socket.read leftBytes socket with
    | (.bytes bs, socket) =>
      if leftBytes - bs.length = 0 then some ⟨totalBytes, stored ++ bs, socket⟩
      else readSpecifySizeLoop totalBytes fuel (stored ++ bs) socket
    | (.eintr, socket) => readSpecifySizeLoop totalBytes fuel stored socket
    | (.eagain, socket) =>
      if totalBytes - leftBytes = 0 then readSpecifySizeLoop totalBytes fuel stored socket
      else some ⟨totalBytes - leftBytes, stored, socket⟩
    | (.eof, socket) | (.error, socket) => some ⟨0, stored, socket⟩

def readSpecifySize (totalBytes : Nat) (socket : List (Socket.ReadEvent UInt8)) : Option Received :=
  readSpecifySizeLoop totalBytes (socket.length + 1) [] socket

theorem readSpecifySizeLoop_spec {totalBytes fuel : Nat} {stored : List UInt8}
    {socket : List (Socket.ReadEvent UInt8)} {r : Received} (short : stored.length < totalBytes)
    (h : readSpecifySizeLoop totalBytes fuel stored socket = some r) :
    stored ++ Socket.incoming socket = r.stored ++ Socket.incoming r.socket ∧
      ((r.ret = 0 ∧ r.stored.length < totalBytes) ∨
        (r.ret = r.stored.length ∧ 0 < r.ret ∧ r.ret ≤ totalBytes)) := by
  induction fuel generalizing stored socket with
  | zero => simp [readSpecifySizeLoop] at h
  | succ fuel ih =>
    rw [readSpecifySizeLoop] at h
    have quiet := @Socket.read_quiet UInt8 (totalBytes - stored.length) socket
    split at h
    · next bs rest read =>
      obtain ⟨stream, pos, fits, _⟩ := Socket.read_bytes read (by omega)
      rw [stream, ← List.append_assoc]
      split at h
      · obtain rfl := Option.some.inj h
        have : (stored ++ bs).length = stored.length + bs.length := List.length_append
        exact ⟨rfl, .inr ⟨show totalBytes = (stored ++ bs).length by omega, show 0 < totalBytes by omega,
          Nat.le_refl _⟩⟩
      · exact ih (by rw [List.length_append]; omega) h
    · next rest read =>
      rw [(quiet read (by simp)).1]
      exact ih short h
    · next rest read =>
      rw [(quiet read (by simp)).1]
      split at h
      · exact ih short h
      · obtain rfl := Option.some.inj h
        exact ⟨rfl, .inr ⟨by simp only; omega, by simp only; omega, by simp only; omega⟩⟩
    all_goals
      next rest read =>
        rw [(quiet read (by simp)).1]
        obtain rfl := Option.some.inj h
        exact ⟨rfl, .inl ⟨rfl, short⟩⟩

/-- A call that returns has stored the next bytes of the stream. It returns how many they are, or 0
when the stream ended or failed before the request was filled. -/
theorem readSpecifySize_spec {totalBytes : Nat} {socket : List (Socket.ReadEvent UInt8)} {r : Received}
    (asked : 0 < totalBytes) (h : readSpecifySize totalBytes socket = some r) :
    Socket.incoming socket = r.stored ++ Socket.incoming r.socket ∧
      ((r.ret = 0 ∧ r.stored.length < totalBytes) ∨
        (r.ret = r.stored.length ∧ 0 < r.ret ∧ r.ret ≤ totalBytes)) :=
  @readSpecifySizeLoop_spec totalBytes _ [] socket r asked h

theorem readSpecifySizeLoop_stops {totalBytes fuel : Nat} {stored : List UInt8}
    {socket : List (Socket.ReadEvent UInt8)} {r : Received} (short : stored.length < totalBytes)
    (h : readSpecifySizeLoop totalBytes fuel stored socket = some r) :
    Socket.stops r.socket ≤ Socket.stops socket ∧ (r.ret = 0 → Socket.stops r.socket < Socket.stops socket) := by
  induction fuel generalizing stored socket with
  | zero => simp [readSpecifySizeLoop] at h
  | succ fuel ih =>
    rw [readSpecifySizeLoop] at h
    split at h
    · next bs rest read =>
      rw [Socket.stops_read_bytes read]
      split at h
      · obtain rfl := Option.some.inj h
        exact ⟨Nat.le_refl _, fun none_ => absurd none_ (by simp only; omega)⟩
      · exact ih (by rw [List.length_append]; omega) h
    · next rest read =>
      rw [Socket.stops_read_again read (.inl rfl)]
      exact ih short h
    · next rest read =>
      rw [Socket.stops_read_again read (.inr rfl)]
      split at h
      · exact ih short h
      · obtain rfl := Option.some.inj h
        exact ⟨Nat.le_refl _, fun none_ => absurd none_ (by simp only; omega)⟩
    all_goals
      next rest read =>
        rw [Socket.stops_read_stop read (by simp)]
        obtain rfl := Option.some.inj h
        exact ⟨Nat.le_succ _, fun _ => Nat.lt_succ_self _⟩

theorem readSpecifySize_stops {totalBytes : Nat} {socket : List (Socket.ReadEvent UInt8)} {r : Received}
    (asked : 0 < totalBytes) (h : readSpecifySize totalBytes socket = some r) :
    Socket.stops r.socket ≤ Socket.stops socket ∧ (r.ret = 0 → Socket.stops r.socket < Socket.stops socket) :=
  @readSpecifySizeLoop_stops totalBytes _ [] socket r asked h

/-- What a writing call returns (`none` is -1), what the kernel took and what is left. -/
structure Sent where
  ret : Option Nat
  taken : List UInt8
  socket : List Socket.WriteEvent

/-- The loop of `write_specify_size`, which gives up as soon as the kernel takes nothing. -/
def writeSpecifySizeLoop (buffer taken : List UInt8) : List Socket.WriteEvent → Sent
  | [] => ⟨some taken.length, taken, []⟩
  | event :: socket =>
    match (Socket.write buffer.length (event :: socket)).1 with
    | .sent 0 | .eintr | .eagain => ⟨some taken.length, taken, socket⟩
    | .error => ⟨none, taken, socket⟩
    | .sent n =>
      if buffer.length - n = 0 then ⟨some (taken ++ buffer.take n).length, taken ++ buffer.take n, socket⟩
      else writeSpecifySizeLoop (buffer.drop n) (taken ++ buffer.take n) socket

def writeSpecifySize (buffer : List UInt8) (socket : List Socket.WriteEvent) : Sent :=
  writeSpecifySizeLoop buffer [] socket

theorem writeSpecifySizeLoop_spec (buffer taken : List UInt8) (socket : List Socket.WriteEvent) :
    let r := writeSpecifySizeLoop buffer taken socket
    r.taken <+: taken ++ buffer ∧ (r.ret = none ∨ r.ret = some r.taken.length) := by
  induction socket generalizing buffer taken with
  | nil => exact ⟨List.prefix_append _ _, .inr rfl⟩
  | cons event socket ih =>
    have cut : ∀ n, taken ++ buffer.take n <+: taken ++ buffer := fun n =>
      (List.prefix_append_right_inj _).mpr (List.take_prefix n buffer)
    simp only [writeSpecifySizeLoop]
    split
    · exact ⟨List.prefix_append _ _, .inr rfl⟩
    · exact ⟨List.prefix_append _ _, .inr rfl⟩
    · exact ⟨List.prefix_append _ _, .inr rfl⟩
    · exact ⟨List.prefix_append _ _, .inl rfl⟩
    · next n _ _ =>
      split
      · exact ⟨cut n, .inr rfl⟩
      · have rest := ih (buffer.drop n) (taken ++ buffer.take n)
        rwa [List.append_assoc, List.take_append_drop] at rest

/-- The kernel takes a prefix of the buffer, and unless the call fails it returns its length. -/
theorem writeSpecifySize_spec (buffer : List UInt8) (socket : List Socket.WriteEvent) :
    (writeSpecifySize buffer socket).taken <+: buffer ∧
      ((writeSpecifySize buffer socket).ret = none ∨
        (writeSpecifySize buffer socket).ret = some (writeSpecifySize buffer socket).taken.length) :=
  writeSpecifySizeLoop_spec buffer [] socket

/-- `write_specify_size2` retries until all is written; `none` when it never is. -/
def writeSpecifySize2Loop (buffer taken : List UInt8) : List Socket.WriteEvent → Option Sent
  | [] => none
  | event :: socket =>
    match (Socket.write buffer.length (event :: socket)).1 with
    | .error => some ⟨none, taken, socket⟩
    | .eintr | .eagain => writeSpecifySize2Loop buffer taken socket
    | .sent n =>
      if buffer.length - n = 0 then some ⟨some (taken ++ buffer.take n).length, taken ++ buffer.take n, socket⟩
      else writeSpecifySize2Loop (buffer.drop n) (taken ++ buffer.take n) socket

def writeSpecifySize2 (buffer : List UInt8) (socket : List Socket.WriteEvent) : Option Sent :=
  writeSpecifySize2Loop buffer [] socket

theorem writeSpecifySize2Loop_spec {buffer taken : List UInt8} {socket : List Socket.WriteEvent} {r : Sent}
    (h : writeSpecifySize2Loop buffer taken socket = some r) :
    r.taken <+: taken ++ buffer ∧
      (r.ret = none ∨ (r.ret = some r.taken.length ∧ r.taken = taken ++ buffer)) := by
  induction socket generalizing buffer taken with
  | nil => simp [writeSpecifySize2Loop] at h
  | cons event socket ih =>
    simp only [writeSpecifySize2Loop] at h
    split at h
    · obtain rfl := Option.some.inj h
      exact ⟨List.prefix_append _ _, .inl rfl⟩
    · exact ih h
    · exact ih h
    · next n _ =>
      split at h
      · next all =>
        obtain rfl := Option.some.inj h
        rw [List.take_of_length_le (by omega)]
        exact ⟨List.prefix_rfl, .inr ⟨rfl, rfl⟩⟩
      · have rest := ih h
        rwa [List.append_assoc, List.take_append_drop] at rest

/-- A call that returns has failed or has written the whole buffer. -/
theorem writeSpecifySize2_spec {buffer : List UInt8} {socket : List Socket.WriteEvent} {r : Sent}
    (h : writeSpecifySize2 buffer socket = some r) :
    r.taken <+: buffer ∧ (r.ret = none ∨ (r.ret = some buffer.length ∧ r.taken = buffer)) := by
  obtain ⟨start, result⟩ := writeSpecifySize2Loop_spec h
  refine ⟨start, result.imp_right fun ⟨ret, all⟩ => ?_⟩
  rw [List.nil_append] at all
  exact ⟨by rw [ret, all], all⟩

end LiveStreaming.Streamer
