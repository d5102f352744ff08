import LiveStreaming.Library.Socket
import Mathlib.Logic.Function.Iterate

/-!
# Reading the header of an HTTP request

`read_rosehttp_header` reads single bytes until it meets a carriage return, then the three bytes that
would complete an empty line, and so on. The two kinds of read have bound tests of their own.
-/

namespace LiveStreaming.Streamer
open Library

def lengthOverflow : Int := -94

/-- The 32-bit `int` that a `size_t` is returned as. -/
def toInt (n : Nat) : Int :=
  if n % 4294967296 < 2147483648 then n % 4294967296 else n % 4294967296 - 4294967296

theorem toInt_of_lt {n : Nat} (small : n < 2147483648) : toInt n = n := by
  rw [toInt, if_pos (by omega)]
  omega

/-- Where `read_rosehttp_header` stands before its next `read`: in its outer loop, in the loop that
reads ahead, or at an end. -/
inductive Control where
  | outer
  | inner (leftBytes : Nat)
  | returned (ret : Int)
  deriving DecidableEq

/-- `memory` is what lies at and after `buffer`, `forward` is `buffer_forward - buffer`, and `stored`
records the index of every byte that was stored. -/
structure HeaderRead where
  control : Control
  memory : Nat → UInt8
  forward : Nat
  readBytes : Nat
  stored : List Nat
  socket : List (Socket.ReadEvent UInt8)

namespace HeaderRead

/-- A `read` has stored `bs` at `buffer_forward`. -/
def receive (s : HeaderRead) (bs : List UInt8) (rest : List (Socket.ReadEvent UInt8)) : HeaderRead :=
  { s with
    memory := fun i => if s.forward ≤ i then (bs[i - s.forward]?).getD (s.memory i) else s.memory i
    readBytes := s.readBytes + bs.length
    stored := s.stored ++ List.range' s.forward bs.length
    socket := rest }

/-- The outer loop after a `read` of `receivedBytes`, which is 0 when the call is to be tried again. -/
def afterByte (bufferSize : Nat) (s : HeaderRead) (receivedBytes : Nat) : HeaderRead :=
  if s.readBytes = bufferSize then { s with control := .returned lengthOverflow }
  else if s.memory s.forward = 13 then
    -- after a `read` that stored nothing this is a byte the buffer held before
    let s := { s with forward := s.forward + receivedBytes }
    if s.readBytes + 3 > bufferSize then { s with control := .returned lengthOverflow }
    else { s with control := .inner 3 }
  else { s with forward := s.forward + receivedBytes, control := .outer }

/-- The inner loop after a `read` of `receivedBytes`. -/
def afterAhead (leftBytes : Nat) (s : HeaderRead) (receivedBytes : Nat) : HeaderRead :=
  let s := { s with forward := s.forward + receivedBytes }
  if leftBytes - receivedBytes = 0 then
    if s.memory (s.forward - 1) = 10 then
      { s with forward := s.forward - 1, control := .returned (toInt s.readBytes) }
    else { s with control := .outer }
  else { s with control := .inner (leftBytes - receivedBytes) }

def step (bufferSize : Nat) (s : HeaderRead) : HeaderRead :=
  match s.control with
  | .returned _ => s
  | .outer =>
    match Socket.read 1 s.socket with
    | (.bytes bs, rest) => afterByte bufferSize (s.receive bs rest) bs.length
    | (.eintr, rest) | (.eagain, rest) => afterByte bufferSize { s with socket := rest } 0
    | (.eof, rest) | (.error, rest) => { s with socket := rest, control := .returned 0 }
  | .inner leftBytes =>
    match Socket.read leftBytes s.socket with
    | (.bytes bs, rest) => afterAhead leftBytes (s.receive bs rest) bs.length
    | (.eintr, rest) | (.eagain, rest) => afterAhead leftBytes { s with socket := rest } 0
    | (.eof, rest) | (.error, rest) => { s with socket := rest, control := .returned 0 }

end HeaderRead

/-- `read_rosehttp_header` after so many calls of `read`. -/
def readRosehttpHeader (bufferSize : Nat) (memory : Nat → UInt8) (socket : List (Socket.ReadEvent UInt8))
    (reads : Nat) : HeaderRead :=
  (HeaderRead.step bufferSize)^[reads] ⟨.outer, memory, 0, 0, [], socket⟩

/-- The index at which `receive_request_cb` and the state server's `receive_cb` store the terminating
zero. -/
def terminatorIndex (ret : Int) : Option Nat :=
  if ret ≤ 0 then none else some ret.toNat

/-- The call has stayed within the first `n` bytes, and so does its caller. -/
def HeaderRead.Stays (n : Nat) (s : HeaderRead) : Prop :=
  (∀ i ∈ s.stored, i < n) ∧ s.stored.length ≤ n ∧
    ∀ ret, s.control = .returned ret → ret < n ∧ ∀ i ∈ terminatorIndex ret, i < n

/-- A look-ahead: the offset after its last byte, that byte, and what the stream brings next. -/
structure LookAhead where
  stop : Nat
  last : UInt8
  next : List (Socket.Item UInt8)

/-- The look-aheads of a stream, from `offset` on with `left` bytes of one to come. A look-ahead is the
three bytes after a carriage return. It also starts where no byte is ready and the buffer happens to
hold a carriage return at the offset reached. The header ends with a look-ahead that ends in a newline. -/
def lookAheads (memory : Nat → UInt8) : Nat → Nat → List (Socket.Item UInt8) → List LookAhead
  | _, _, [] | _, _, .stop :: _ => []
  | 0, offset, .byte b :: items => lookAheads memory (if b = 13 then 3 else 0) (offset + 1) items
  | 0, offset, .quiet :: items => lookAheads memory (if memory offset = 13 then 3 else 0) offset items
  | 1, offset, .byte b :: items =>
    ⟨offset + 1, b, items⟩ :: if b = 10 then [] else lookAheads memory 0 (offset + 1) items
  | left + 2, offset, .byte _ :: items => lookAheads memory (left + 1) (offset + 1) items
  | left + 1, offset, .quiet :: items => lookAheads memory (left + 1) offset items

def ByteNext (items : List (Socket.Item UInt8)) : Prop := ∃ b more, items = .byte b :: more

/-- A look-ahead that fills the buffer to its last byte and ends the header or is followed by a byte. -/
def LookAhead.Overruns (n : Nat) (ahead : LookAhead) : Prop :=
  ahead.stop = n ∧ (ahead.last = 10 ∨ ByteNext ahead.next)

theorem lookAheads_stop {memory : Nat → UInt8} {left offset : Nat} {items : List (Socket.Item UInt8)}
    {ahead : LookAhead} (member : ahead ∈ lookAheads memory left offset items) :
    offset + left ≤ ahead.stop ∧ offset < ahead.stop := by
  induction left, offset, items using lookAheads.induct memory with
  | case1 | case2 => simp [lookAheads] at member
  | case3 offset b items ih =>
    rw [lookAheads] at member
    have := ih member
    omega
  | case4 offset items ih =>
    rw [lookAheads] at member
    exact ⟨Nat.le_of_lt (ih member).2, (ih member).2⟩
  | case5 offset b items ih =>
    rw [lookAheads] at member
    rcases List.mem_cons.mp member with rfl | member
    · exact ⟨Nat.le_refl _, Nat.lt_succ_self _⟩
    · split at member
      · simp at member
      · have := ih member
        omega
  | case6 left offset b items ih =>
    rw [lookAheads] at member
    have := ih member
    omega
  | case7 left offset items ih =>
    rw [lookAheads] at member
    exact ih member

theorem lookAheads_bytes {memory : Nat → UInt8} {left : Nat} {bs : List UInt8} (short : bs.length < left)
    (offset : Nat) (items : List (Socket.Item UInt8)) :
    lookAheads memory left offset (bs.map .byte ++ items) =
      lookAheads memory (left - bs.length) (offset + bs.length) items := by
  induction bs generalizing left offset with
  | nil => rfl
  | cons b bs ih =>
    obtain ⟨left, rfl⟩ : ∃ k, left = k + 2 := ⟨left - 2, by rw [List.length_cons] at short; omega⟩
    rw [List.map_cons, List.cons_append, lookAheads, ih (by rw [List.length_cons] at short; omega)]
    congr 1
    · rw [List.length_cons]; omega
    · rw [List.length_cons]; omega

theorem lookAheads_complete (memory : Nat → UInt8) (offset : Nat) (bs : List UInt8) (last : UInt8)
    (items : List (Socket.Item UInt8)) :
    lookAheads memory (bs.length + 1) offset ((bs ++ [last]).map .byte ++ items) =
      ⟨offset + bs.length + 1, last, items⟩ ::
        if last = 10 then [] else lookAheads memory 0 (offset + bs.length + 1) items := by
  rw [List.map_append, List.append_assoc, lookAheads_bytes (Nat.lt_succ_self _),
    Nat.succ_sub (Nat.le_refl _), Nat.sub_self]
  rfl

end LiveStreaming.Streamer
