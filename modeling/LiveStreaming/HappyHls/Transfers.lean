import LiveStreaming.Library.Buffer
import LiveStreaming.Library.Transition
import LiveStreaming.Streamer.NetUtility

/-!
# Transfers in the machine's numbers

`read_specify_size` takes a `size_t` and returns an `int`, `write_specify_size` returns a `ssize_t`. Both go on behind
what one system call has moved, and their callers go on behind what they return.
-/

namespace LiveStreaming.HappyHls.Transfers
open Library Buffer Transition

/-- The most that one call of `read` or `write` moves. -/
def maxRwCount : Nat := 0x7ffff000

/-- `read(fd, buffer_forward, left_bytes)` -/
def sysRead (leftBytes : UInt64) (socket : List (Socket.ReadEvent UInt8)) :
    Socket.ReadResult UInt8 × List (Socket.ReadEvent UInt8) :=
  Socket.read (min leftBytes.toNat maxRwCount) socket

structure Received where
  ret : Int32
  buffer : List UInt8
  socket : List (Socket.ReadEvent UInt8)

/-- `while ( true )`, for some turns: the loop goes round for ever where there is no first byte. -/
def readSpecifySizeLoop (totalBytes : UInt64) :
    Nat → List UInt8 → Nat → UInt64 → List (Socket.ReadEvent UInt8) → Option Received
  | 0, _, _, _, _ => none
  | turns + 1, buffer, bufferForward, leftBytes, socket =>
    match sysRead leftBytes socket with
    | (.bytes [], socket) | (.eof, socket) | (.error, socket) => some ⟨0, buffer, socket⟩
    | (.bytes receivedBytes, socket) =>
      let buffer := overwrite buffer bufferForward receivedBytes
      let leftBytes := leftBytes - UInt64.ofNat receivedBytes.length
      if leftBytes = 0 then some ⟨Int32.ofNat (totalBytes - leftBytes).toNat, buffer, socket⟩
      else readSpecifySizeLoop totalBytes turns buffer (bufferForward + receivedBytes.length) leftBytes socket
    | (.eintr, socket) =>
      if leftBytes = 0 then some ⟨Int32.ofNat (totalBytes - leftBytes).toNat, buffer, socket⟩
      else readSpecifySizeLoop totalBytes turns buffer bufferForward leftBytes socket
    | (.eagain, socket) =>
      if totalBytes - leftBytes = 0 then readSpecifySizeLoop totalBytes turns buffer bufferForward leftBytes socket
      else some ⟨Int32.ofNat (totalBytes - leftBytes).toNat, buffer, socket⟩

/-- The bytes go to `buffer` from `offset` on. -/
def readSpecifySize (turns : Nat) (buffer : List UInt8) (offset : Nat) (totalBytes : UInt64)
    (socket : List (Socket.ReadEvent UInt8)) : Option Received :=
  readSpecifySizeLoop totalBytes turns buffer offset totalBytes socket

/-- The streamer's `read_specify_size` differs in what it logs. -/
def streamerReadSpecifySize := readSpecifySize

def sysWrite (leftBytes : UInt64) (socket : List Socket.WriteEvent) : Socket.WriteResult × List Socket.WriteEvent :=
  Socket.write (min leftBytes.toNat maxRwCount) socket

structure Sent where
  ret : Int64
  accepted : List UInt8
  socket : List Socket.WriteEvent

def writeSpecifySizeLoop (totalBytes : UInt64) (buffer : List UInt8) (bufferForward : Nat) (leftBytes : UInt64)
    (accepted : List UInt8) : List Socket.WriteEvent → Sent
  | [] => ⟨Int64.ofNat (totalBytes - leftBytes).toNat, accepted, []⟩
  | event :: socket =>
    match (sysWrite leftBytes (event :: socket)).1 with
    | .sent 0 | .error => ⟨-1, accepted, socket⟩
    | .eintr =>
      if leftBytes = 0 then ⟨Int64.ofNat totalBytes.toNat, accepted, socket⟩
      else writeSpecifySizeLoop totalBytes buffer bufferForward leftBytes accepted socket
    | .eagain => ⟨Int64.ofNat (totalBytes - leftBytes).toNat, accepted, socket⟩
    | .sent sentBytes =>
      let accepted := accepted ++ (buffer.drop bufferForward).take sentBytes
      let leftBytes := leftBytes - UInt64.ofNat sentBytes
      if leftBytes = 0 then ⟨Int64.ofNat totalBytes.toNat, accepted, socket⟩
      else writeSpecifySizeLoop totalBytes buffer (bufferForward + sentBytes) leftBytes accepted socket

/-- The bytes come from `buffer` from `offset` on. -/
def writeSpecifySize (buffer : List UInt8) (offset : Nat) (totalBytes : UInt64) (socket : List Socket.WriteEvent) :
    Sent :=
  writeSpecifySizeLoop totalBytes buffer offset totalBytes [] socket

/-! ### One call -/

variable {totalBytes leftBytes : UInt64} {turns offset bufferForward : Nat} {buffer : List UInt8}
  {socket rest : List (Socket.ReadEvent UInt8)} {bytes : List UInt8} {r : Received}

theorem sysRead_bytes (read : sysRead leftBytes socket = (.bytes bytes, rest)) :
    Socket.incoming socket = bytes ++ Socket.incoming rest ∧ bytes.length ≤ leftBytes.toNat := by
  rcases Nat.eq_zero_or_pos (min leftBytes.toNat maxRwCount) with none_ | asked
  · rw [sysRead, none_] at read
    cases socket with
    | nil => cases read
    | cons event socket =>
      cases event with
      | data b bs =>
        cases read
        exact ⟨rfl, Nat.zero_le _⟩
      | _ => cases read
  · obtain ⟨stream, _, fits, _⟩ := Socket.read_bytes read asked
    exact ⟨stream, Nat.le_trans fits (Nat.min_le_left _ _)⟩

theorem toNat_sub_ofNat {n : Nat} (fits : n ≤ leftBytes.toNat) :
    (leftBytes - UInt64.ofNat n).toNat = leftBytes.toNat - n := by
  have small : (UInt64.ofNat n).toNat = n :=
    UInt64.toNat_ofNat_of_lt' (Nat.lt_of_le_of_lt fits leftBytes.toNat_lt)
  rw [UInt64.toNat_sub_of_le _ _ (UInt64.le_iff_toNat_le.mpr (by rw [small]; exact fits)), small]

/-- A call has stored the front of the stream behind `offset`, at most `most` bytes, and counts them or returns 0. -/
def Stored (offset most length : Nat) (stream : List UInt8) (r : Received) : Prop :=
  ∃ got ≤ most, r.buffer.length = length ∧ stream = r.buffer.take (offset + got) ++ Socket.incoming r.socket ∧
    (r.ret = 0 ∨ r.ret = Int32.ofNat got)

theorem stored_here {ret : Int32} (little : leftBytes ≤ totalBytes)
    (place : bufferForward = offset + (totalBytes.toNat - leftBytes.toNat))
    (count : ret = 0 ∨ ret = Int32.ofNat (totalBytes - leftBytes).toNat)
    (returned : some ⟨ret, buffer, rest⟩ = some r) :
    Stored offset totalBytes.toNat buffer.length (buffer.take bufferForward ++ Socket.incoming rest) r := by
  obtain rfl := Option.some.inj returned
  rw [UInt64.toNat_sub_of_le _ _ little] at count
  exact ⟨totalBytes.toNat - leftBytes.toNat, Nat.sub_le _ _, rfl, by rw [place], count⟩

/-- By induction on the turns: what is stored ends at `bufferForward`. -/
theorem readSpecifySizeLoop_spec (little : leftBytes ≤ totalBytes)
    (place : bufferForward = offset + (totalBytes.toNat - leftBytes.toNat))
    (room : offset + totalBytes.toNat ≤ buffer.length)
    (returned : readSpecifySizeLoop totalBytes turns buffer bufferForward leftBytes socket = some r) :
    Stored offset totalBytes.toNat buffer.length (buffer.take bufferForward ++ Socket.incoming socket) r := by
  induction turns generalizing leftBytes buffer bufferForward socket with
  | zero => cases returned
  | succ turns ih =>
    have little' := UInt64.le_iff_toNat_le.mp little
    have quiet := @Socket.read_quiet UInt8 (min leftBytes.toNat maxRwCount) socket
    rw [readSpecifySizeLoop] at returned
    rcases read : sysRead leftBytes socket with ⟨result, rest⟩
    rw [read] at returned
    cases result with
    | bytes bs =>
      obtain ⟨stream, fits⟩ := sysRead_bytes read
      cases bs with
      | nil =>
        rw [stream]
        exact stored_here little place (.inl rfl) returned
      | cons b bs =>
        have less := toNat_sub_ofNat fits
        have length : (overwrite buffer bufferForward (b :: bs)).length = buffer.length :=
          length_overwrite (by omega)
        have stored := take_overwrite (b :: bs) (show bufferForward ≤ buffer.length by omega)
        have little'' : leftBytes - UInt64.ofNat (b :: bs).length ≤ totalBytes :=
          UInt64.le_iff_toNat_le.mpr (by omega)
        rw [stream, ← List.append_assoc, ← stored, ← length]
        by_cases done : leftBytes - UInt64.ofNat (b :: bs).length = 0
        · exact stored_here little'' (by omega) (.inr rfl) ((if_pos done).symm.trans returned)
        · exact ih little'' (by omega) (by omega) ((if_neg done).symm.trans returned)
    | eintr =>
      rw [(quiet read (by simp)).1]
      by_cases done : leftBytes = 0
      · exact stored_here little place (.inr rfl) ((if_pos done).symm.trans returned)
      · exact ih little place room ((if_neg done).symm.trans returned)
    | eagain =>
      rw [(quiet read (by simp)).1]
      by_cases none_ : totalBytes - leftBytes = 0
      · exact ih little place room ((if_pos none_).symm.trans returned)
      · exact stored_here little place (.inr rfl) ((if_neg none_).symm.trans returned)
    | eof | error =>
      rw [(quiet read (by simp)).1]
      exact stored_here little place (.inl rfl) returned

theorem ofNat_positive {n : Nat} (small : n ≤ 4294967296) (positive : 0 < Int32.ofNat n) : n < 2147483648 := by
  rw [Int32.lt_iff_toInt_lt, Int32.toInt_ofNat', Int.bmod_def] at positive
  have zero : (0 : Int32).toInt = 0 := rfl
  have size : Int32.size = 4294967296 := rfl
  rw [zero, size] at positive
  split at positive
  · omega
  · omega

theorem ofNat_nonneg {n : Nat} (small : n < 18446744073709551616) (positive : 0 ≤ Int64.ofNat n) :
    n < 9223372036854775808 := by
  rw [Int64.le_iff_toInt_le, Int64.toInt_ofNat', Int.bmod_def] at positive
  have zero : (0 : Int64).toInt = 0 := rfl
  have size : Int64.size = 18446744073709551616 := rfl
  rw [zero, size] at positive
  split at positive
  · omega
  · omega

/-- What a call that returns a count has read, where the count is no more than an `int` can wrap to. -/
theorem readSpecifySize_spec (room : offset + totalBytes.toNat ≤ buffer.length)
    (small : totalBytes.toNat ≤ 4294967296)
    (returned : readSpecifySize turns buffer offset totalBytes socket = some r) (positive : 0 < r.ret) :
    r.ret.toNatClampNeg ≤ totalBytes.toNat ∧ r.buffer.length = buffer.length ∧
      buffer.take offset ++ Socket.incoming socket =
        r.buffer.take (offset + r.ret.toNatClampNeg) ++ Socket.incoming r.socket := by
  obtain ⟨got, most, length, stream, none_ | count⟩ := readSpecifySizeLoop_spec (UInt64.le_refl totalBytes)
    (show offset = offset + (totalBytes.toNat - totalBytes.toNat) by omega) room returned
  · rw [none_] at positive
    exact absurd positive (by decide)
  · rw [count] at positive ⊢
    have exact_ := Int32.toNatClampNeg_ofNat_of_lt (ofNat_positive (by omega) positive)
    rw [exact_]
    exact ⟨most, length, stream⟩

/-- One byte is read after another, and the last one completes the request. -/
theorem readSpecifySizeLoop_bytes {k : Nat} {b : UInt8} (some_ : 0 < k) (little : k < 18446744073709551616) :
    ∃ buffer', readSpecifySizeLoop totalBytes k buffer bufferForward (UInt64.ofNat k)
      (List.replicate k (.data b [])) = some ⟨Int32.ofNat totalBytes.toNat, buffer', []⟩ := by
  induction k generalizing buffer bufferForward with
  | zero => exact absurd some_ (Nat.lt_irrefl 0)
  | succ k ih =>
    have count : (UInt64.ofNat (k + 1)).toNat = k + 1 := UInt64.toNat_ofNat_of_lt' little
    have read : sysRead (UInt64.ofNat (k + 1)) (.data b [] :: List.replicate k (.data b [])) =
        (.bytes [b], List.replicate k (.data b [])) := by
      obtain ⟨size, asked⟩ : ∃ size, min (UInt64.ofNat (k + 1)).toNat maxRwCount = size + 1 :=
        ⟨min (UInt64.ofNat (k + 1)).toNat maxRwCount - 1, by rw [count, maxRwCount]; omega⟩
      rw [sysRead, asked, Socket.read, List.drop_succ_cons, List.drop_nil]
    have less : UInt64.ofNat (k + 1) - UInt64.ofNat [b].length = UInt64.ofNat k := by
      apply UInt64.toNat_inj.mp
      rw [toNat_sub_ofNat (by rw [count]; exact Nat.succ_pos k), count]
      exact (UInt64.toNat_ofNat_of_lt' (Nat.lt_of_succ_lt little)).symm
    rw [List.replicate_succ, readSpecifySizeLoop, read]
    simp only [less]
    rcases Nat.eq_zero_or_pos k with rfl | more
    · have none_ : UInt64.ofNat 0 = 0 := rfl
      refine ⟨overwrite buffer bufferForward [b], ?_⟩
      rw [if_pos none_, none_, UInt64.sub_zero, List.replicate_zero]
    · have left : UInt64.ofNat k ≠ 0 := by
        intro none_
        have zero := congrArg UInt64.toNat none_
        rw [UInt64.toNat_ofNat_of_lt' (Nat.lt_of_succ_lt little), UInt64.toNat_zero] at zero
        omega
      rw [if_neg left]
      exact ih more (Nat.lt_of_succ_lt little)

/-! ### Successive calls -/

structure Reading where
  buffer : List UInt8
  offset : Nat
  socket : List (Socket.ReadEvent UInt8)

/-- A caller goes on behind what it was told that it has. -/
def Reading.call (readCall : Nat → List UInt8 → Nat → UInt64 → List (Socket.ReadEvent UInt8) → Option Received)
    (s : Reading) (request : Nat × UInt64) : Option Reading :=
  (readCall request.1 s.buffer s.offset request.2 s.socket).bind fun r =>
    if 0 < r.ret then some ⟨r.buffer, s.offset + r.ret.toNatClampNeg, r.socket⟩ else none

/-- The bytes fit into the buffer, and are no more than `limit`. -/
def Reading.Asks (limit : Nat) (s : Reading) (request : Nat × UInt64) : Prop :=
  s.offset + request.2.toNat ≤ s.buffer.length ∧ request.2.toNat ≤ limit

/-- After any calls the buffer has the stream up to the offset, and so it is within each call. -/
def ReadsExact (readCall : Nat → List UInt8 → Nat → UInt64 → List (Socket.ReadEvent UInt8) → Option Received)
    (limit : Nat) : Prop :=
  ∀ buffer socket s, Reach (Reading.call readCall) (Reading.Asks limit) ⟨buffer, 0, socket⟩ s →
    Socket.incoming socket = s.buffer.take s.offset ++ Socket.incoming s.socket ∧
      ∀ request r, Reading.Asks limit s request →
        readCall request.1 s.buffer s.offset request.2 s.socket = some r → 0 < r.ret →
        r.ret.toNatClampNeg ≤ request.2.toNat ∧
          Socket.incoming s.socket =
            (r.buffer.drop s.offset).take r.ret.toNatClampNeg ++ Socket.incoming r.socket

structure Writing where
  offset : Nat
  accepted : List UInt8
  socket : List Socket.WriteEvent

def Writing.call (buffer : List UInt8) (s : Writing) (totalBytes : UInt64) : Option Writing :=
  let r := writeSpecifySize buffer s.offset totalBytes s.socket
  if 0 ≤ r.ret then some ⟨s.offset + r.ret.toNatClampNeg, s.accepted ++ r.accepted, r.socket⟩ else none

def Writing.Asks (buffer : List UInt8) (s : Writing) (totalBytes : UInt64) : Prop :=
  s.offset + totalBytes.toNat ≤ buffer.length

def WritesExact : Prop :=
  ∀ buffer socket s, Reach (Writing.call buffer) (Writing.Asks buffer) ⟨0, [], socket⟩ s →
    s.accepted = buffer.take s.offset ∧
      ∀ totalBytes, Writing.Asks buffer s totalBytes →
        0 ≤ (writeSpecifySize buffer s.offset totalBytes s.socket).ret →
        (writeSpecifySize buffer s.offset totalBytes s.socket).ret.toNatClampNeg ≤ totalBytes.toNat ∧
          (writeSpecifySize buffer s.offset totalBytes s.socket).accepted =
            (buffer.drop s.offset).take (writeSpecifySize buffer s.offset totalBytes s.socket).ret.toNatClampNeg

def TransfersExact (limit : Nat) : Prop :=
  ReadsExact readSpecifySize limit ∧ ReadsExact streamerReadSpecifySize limit ∧ WritesExact

/-! ### Small requests -/

theorem overwrite_behind {stored bytes : List UInt8} (room : offset + stored.length ≤ buffer.length) :
    overwrite (overwrite buffer offset stored) (offset + stored.length) bytes =
      overwrite buffer offset (stored ++ bytes) := by
  have inside : offset ≤ buffer.length := by omega
  rw [overwrite, take_overwrite stored inside, drop_overwrite inside (Nat.le_add_right _ _), overwrite,
    List.length_append, Nat.add_assoc, List.append_assoc, List.append_assoc, List.append_assoc, List.append_assoc]

theorem readSpecifySizeLoop_eq {stored : List UInt8} (few : totalBytes.toNat ≤ maxRwCount)
    (room : offset + totalBytes.toNat ≤ buffer.length) (short : stored.length < totalBytes.toNat)
    (left : leftBytes.toNat = totalBytes.toNat - stored.length) :
    readSpecifySizeLoop totalBytes turns (overwrite buffer offset stored) (offset + stored.length) leftBytes socket =
      (Streamer.readSpecifySizeLoop totalBytes.toNat turns stored socket).map fun r =>
        ⟨Int32.ofNat r.ret, overwrite buffer offset r.stored, r.socket⟩ := by
  induction turns generalizing leftBytes stored socket with
  | zero => rfl
  | succ turns ih =>
    have little : leftBytes ≤ totalBytes := UInt64.le_iff_toNat_le.mpr (by omega)
    have got : (totalBytes - leftBytes).toNat = totalBytes.toNat - leftBytes.toNat :=
      UInt64.toNat_sub_of_le _ _ little
    have some_ : leftBytes ≠ 0 := by
      intro none_
      rw [none_, UInt64.toNat_zero] at left
      omega
    have asked : min leftBytes.toNat maxRwCount = totalBytes.toNat - stored.length := by omega
    rw [readSpecifySizeLoop, Streamer.readSpecifySizeLoop, sysRead, asked]
    rcases read : Socket.read (totalBytes.toNat - stored.length) socket with ⟨result, rest⟩
    cases result with
    | bytes bs =>
      obtain ⟨_, positive, fits, _⟩ := Socket.read_bytes read (by omega)
      have less := toNat_sub_ofNat (show bs.length ≤ leftBytes.toNat by omega)
      cases bs with
      | nil => exact absurd positive (Nat.lt_irrefl 0)
      | cons b bs =>
        have next := @overwrite_behind offset buffer stored (b :: bs) (by omega)
        have length : (stored ++ b :: bs).length = stored.length + (b :: bs).length := List.length_append
        simp only [next]
        by_cases done : leftBytes - UInt64.ofNat (b :: bs).length = 0
        · have last := congrArg UInt64.toNat done
          rw [less, UInt64.toNat_zero] at last
          rw [if_pos done, if_pos (by omega), done, UInt64.sub_zero]
          rfl
        · have more : ¬ totalBytes.toNat - stored.length - (b :: bs).length = 0 := by
            intro last
            exact done (UInt64.toNat_inj.mp (by rw [less, UInt64.toNat_zero]; omega))
          rw [if_neg done, if_neg more, Nat.add_assoc, ← length]
          exact ih (by omega) (by omega)
    | eintr => exact (if_neg some_).trans (ih short left)
    | eagain =>
      by_cases none_ : totalBytes - leftBytes = 0
      · have zero := congrArg UInt64.toNat none_
        rw [got, UInt64.toNat_zero] at zero
        exact (if_pos none_).trans ((ih short left).trans (congrArg _ (if_pos (by omega)).symm))
      · have more : ¬ totalBytes.toNat - (totalBytes.toNat - stored.length) = 0 := by
          intro zero
          exact none_ (UInt64.toNat_inj.mp (by rw [got, UInt64.toNat_zero]; omega))
        simp only [if_neg none_, if_neg more, got, left]
        rfl
    | eof => rfl
    | error => rfl

/-- A request that one `read` can fill is what the streamer's model without widths makes of it. -/
theorem readSpecifySize_eq (few : totalBytes.toNat ≤ maxRwCount) (some_ : 0 < totalBytes.toNat)
    (room : offset + totalBytes.toNat ≤ buffer.length) :
    readSpecifySize turns buffer offset totalBytes socket =
      (Streamer.readSpecifySizeLoop totalBytes.toNat turns [] socket).map fun r =>
        ⟨Int32.ofNat r.ret, overwrite buffer offset r.stored, r.socket⟩ := by
  have start := @readSpecifySizeLoop_eq totalBytes totalBytes turns offset buffer socket [] few room some_ rfl
  rwa [overwrite_nil] at start

/-! ### Reading -/

variable {limit : Nat}

theorem Reading.call_some {s s' : Reading} {request : Nat × UInt64}
    (next : Reading.call readSpecifySize s request = some s') :
    ∃ r, readSpecifySize request.1 s.buffer s.offset request.2 s.socket = some r ∧ 0 < r.ret ∧
      s' = ⟨r.buffer, s.offset + r.ret.toNatClampNeg, r.socket⟩ := by
  obtain ⟨r, returned, next⟩ := Option.bind_eq_some_iff.mp next
  by_cases positive : 0 < r.ret
  · rw [if_pos positive] at next
    exact ⟨r, returned, positive, (Option.some.inj next).symm⟩
  · rw [if_neg positive] at next
    cases next

/-- What every call keeps. -/
structure Follows (stream : List UInt8) (s : Reading) : Prop where
  room : s.offset ≤ s.buffer.length
  whole : stream = s.buffer.take s.offset ++ Socket.incoming s.socket

theorem Follows.call {stream : List UInt8} {s s' : Reading} {request : Nat × UInt64} (few : limit ≤ 4294967296)
    (follows : Follows stream s) (asks : Reading.Asks limit s request)
    (next : Reading.call readSpecifySize s request = some s') : Follows stream s' := by
  obtain ⟨r, returned, positive, rfl⟩ := Reading.call_some next
  obtain ⟨most, length, stream⟩ := readSpecifySize_spec asks.1 (Nat.le_trans asks.2 few) returned positive
  constructor
  · show s.offset + r.ret.toNatClampNeg ≤ r.buffer.length
    have room := asks.1
    omega
  · rw [follows.whole, stream]

theorem readsExact (few : limit ≤ 4294967296) : ReadsExact readSpecifySize limit := by
  intro buffer socket s run
  have follows : Follows (Socket.incoming socket) s :=
    run.invariant ⟨Nat.zero_le _, rfl⟩ fun _ _ _ follows asks next => follows.call few asks next
  refine ⟨follows.whole, fun request r asks returned positive => ?_⟩
  obtain ⟨most, length, stream⟩ := readSpecifySize_spec asks.1 (Nat.le_trans asks.2 few) returned positive
  have room := asks.1
  rw [List.take_add, List.append_assoc] at stream
  exact ⟨most, (List.append_inj stream (by rw [List.length_take, List.length_take, length])).2⟩

theorem length_incoming (k : Nat) (b : UInt8) :
    (Socket.incoming (List.replicate k (Socket.ReadEvent.data b []))).length = k := by
  induction k with
  | zero => rfl
  | succ k ih =>
    rw [List.replicate_succ, Socket.incoming, List.length_append, ih]
    exact Nat.add_comm 1 k

/-- 4294967297 bytes are read, and the caller is told of one. -/
theorem not_readsExact (many : 4294967296 < limit) : ¬ ReadsExact readSpecifySize limit := by
  intro exact_
  obtain ⟨k, most⟩ : ∃ k, k = 4294967297 := ⟨_, rfl⟩
  have count : (UInt64.ofNat k).toNat = k := UInt64.toNat_ofNat_of_lt' (show k < 18446744073709551616 by omega)
  obtain ⟨buffer', ran⟩ := @readSpecifySizeLoop_bytes (UInt64.ofNat k) 0 (List.replicate k 0) k 1 (by omega) (by omega)
  have one : Int32.ofNat (UInt64.ofNat k).toNat = 1 := by
    rw [count, most]
    decide
  rw [one] at ran
  have asks : Reading.Asks limit ⟨List.replicate k 0, 0, List.replicate k (.data 1 [])⟩ (k, UInt64.ofNat k) := by
    constructor
    · refine Nat.le_of_eq ?_
      rw [count, List.length_replicate, Nat.zero_add]
    · rw [count]
      omega
  have next : Reading.call readSpecifySize ⟨List.replicate k 0, 0, List.replicate k (.data 1 [])⟩ (k, UInt64.ofNat k) =
      some ⟨buffer', 1, []⟩ := by
    rw [Reading.call, readSpecifySize, ran]
    rfl
  have stream : k = (buffer'.take 1 ++ []).length :=
    (length_incoming k 1).symm.trans (congrArg List.length (exact_ _ _ _ (.tail .refl asks next)).1)
  rw [List.append_nil, List.length_take] at stream
  omega

/-! ### Writing -/

theorem sysWrite_sent {events rest : List Socket.WriteEvent} {n : Nat}
    (write : sysWrite leftBytes events = (.sent n, rest)) : n ≤ leftBytes.toNat := by
  cases events with
  | nil => cases write
  | cons event events =>
    cases event with
    | accept m =>
      cases write
      exact Nat.le_trans (Nat.min_le_right _ _) (Nat.min_le_left _ _)
    | zero =>
      cases write
      exact Nat.zero_le _
    | _ => cases write

/-- By induction on the socket: what was accepted is the front of the request, up to `bufferForward`. -/
theorem writeSpecifySizeLoop_spec {accepted : List UInt8} {socket : List Socket.WriteEvent} {r : Sent}
    (little : leftBytes ≤ totalBytes) (place : bufferForward = offset + (totalBytes.toNat - leftBytes.toNat))
    (taken : accepted = (buffer.drop offset).take (totalBytes.toNat - leftBytes.toNat))
    (returned : writeSpecifySizeLoop totalBytes buffer bufferForward leftBytes accepted socket = r) :
    ∃ sent ≤ totalBytes.toNat, r.accepted = (buffer.drop offset).take sent ∧
      (r.ret = -1 ∨ r.ret = Int64.ofNat sent) := by
  have count : ∀ {leftBytes : UInt64}, leftBytes ≤ totalBytes →
      (totalBytes - leftBytes).toNat = totalBytes.toNat - leftBytes.toNat := fun little =>
    UInt64.toNat_sub_of_le _ _ little
  induction socket generalizing leftBytes bufferForward accepted with
  | nil =>
    obtain rfl := returned
    exact ⟨_, Nat.sub_le _ _, taken, .inr (by rw [writeSpecifySizeLoop, count little])⟩
  | cons event socket ih =>
    rcases write : sysWrite leftBytes (event :: socket) with ⟨result, rest⟩
    rw [writeSpecifySizeLoop, write] at returned
    cases result with
    | sent n =>
      cases n with
      | zero =>
        obtain rfl := returned
        exact ⟨_, Nat.sub_le _ _, taken, .inl rfl⟩
      | succ n =>
        have little' := UInt64.le_iff_toNat_le.mp little
        have fits := sysWrite_sent write
        have less := toNat_sub_ofNat fits
        have more : accepted ++ (buffer.drop bufferForward).take (n + 1) =
            (buffer.drop offset).take (totalBytes.toNat - (leftBytes - UInt64.ofNat (n + 1)).toNat) := by
          rw [taken, place, ← List.drop_drop, ← List.take_add, less,
            show totalBytes.toNat - (leftBytes.toNat - (n + 1)) = totalBytes.toNat - leftBytes.toNat + (n + 1) by omega]
        by_cases done : leftBytes - UInt64.ofNat (n + 1) = 0
        · obtain rfl := (if_pos done).symm.trans returned
          rw [done] at more
          exact ⟨_, Nat.le_refl _, more, .inr rfl⟩
        · exact ih (UInt64.le_iff_toNat_le.mpr (by omega)) (by omega) more ((if_neg done).symm.trans returned)
    | eintr =>
      by_cases done : leftBytes = 0
      · obtain rfl := (if_pos done).symm.trans returned
        rw [done] at taken
        exact ⟨_, Nat.le_refl _, taken, .inr rfl⟩
      · exact ih little place taken ((if_neg done).symm.trans returned)
    | eagain =>
      obtain rfl := returned
      exact ⟨_, Nat.sub_le _ _, taken, .inr (by rw [count little])⟩
    | error =>
      obtain rfl := returned
      exact ⟨_, Nat.sub_le _ _, taken, .inl rfl⟩

theorem writeSpecifySize_spec {socket : List Socket.WriteEvent} {r : Sent}
    (returned : writeSpecifySize buffer offset totalBytes socket = r) (positive : 0 ≤ r.ret) :
    r.ret.toNatClampNeg ≤ totalBytes.toNat ∧ r.accepted = (buffer.drop offset).take r.ret.toNatClampNeg := by
  obtain ⟨sent, most, accepted, failed | count⟩ := writeSpecifySizeLoop_spec (UInt64.le_refl totalBytes)
    (show offset = offset + (totalBytes.toNat - totalBytes.toNat) by omega)
    (show [] = (buffer.drop offset).take (totalBytes.toNat - totalBytes.toNat) by rw [Nat.sub_self, List.take_zero])
    returned
  · rw [failed] at positive
    exact absurd positive (by decide)
  · rw [count] at positive ⊢
    rw [Int64.toNatClampNeg_ofNat_of_lt (ofNat_nonneg (Nat.lt_of_le_of_lt most totalBytes.toNat_lt) positive)]
    exact ⟨most, accepted⟩

theorem writesExact : WritesExact := by
  intro buffer socket s run
  have front : s.accepted = buffer.take s.offset := by
    refine run.invariant (I := fun s => s.accepted = buffer.take s.offset) rfl fun s totalBytes s' front _ next => ?_
    rw [Writing.call] at next
    by_cases positive : 0 ≤ (writeSpecifySize buffer s.offset totalBytes s.socket).ret
    · obtain rfl := Option.some.inj ((if_pos positive).symm.trans next)
      rw [front, (writeSpecifySize_spec rfl positive).2, List.take_add]
    · cases (if_neg positive).symm.trans next
  exact ⟨front, fun _ _ positive => writeSpecifySize_spec rfl positive⟩

/-- Both ways are exact in every run where no call asks for more than the numbers of an `int`. -/
theorem transfersExact_iff (limit : Nat) : TransfersExact limit ↔ limit ≤ 4294967296 := by
  constructor
  · intro exact_
    by_contra many
    exact not_readsExact (Nat.lt_of_not_le many) exact_.1
  · intro few
    exact ⟨readsExact few, readsExact few, writesExact⟩

/-- A request for 4294967297 bytes. -/
theorem transfers_lost : ¬ ∀ limit, TransfersExact limit := by
  intro exact_
  exact not_readsExact (by decide) (exact_ 4294967297).1

end LiveStreaming.HappyHls.Transfers
