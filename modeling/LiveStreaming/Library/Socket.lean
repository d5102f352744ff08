import Mathlib.Data.List.Basic

/-!
# Non-blocking sockets

A socket is the list of things its next system calls will meet. `read` hands out at most the bytes
asked for and leaves the rest of a chunk for the next call, so a list of events stands for any way
the kernel may cut a stream into reads. A list that is used up answers `EAGAIN` from then on.
-/

namespace LiveStreaming.Library.Socket

variable {α : Type*}

/-- What the receiving side of a socket meets. A chunk is never empty. -/
inductive ReadEvent (α : Type*) where
  | data (head : α) (tail : List α)
  | eintr
  | eagain
  | eof
  | error

inductive ReadResult (α : Type*) where
  | bytes (bs : List α)
  | eintr
  | eagain
  | eof
  | error

def read (size : Nat) : List (ReadEvent α) → ReadResult α × List (ReadEvent α)
  | [] => (.eagain, [])
  | .eintr :: rest => (.eintr, rest)
  | .eagain :: rest => (.eagain, rest)
  | .eof :: rest => (.eof, rest)
  | .error :: rest => (.error, rest)
  | .data b bs :: rest =>
    match (b :: bs).drop size with
    | [] => (.bytes (b :: bs), rest)
    | c :: cs => (.bytes ((b :: bs).take size), .data c cs :: rest)

/-- The bytes that have still to be read. -/
def incoming : List (ReadEvent α) → List α
  | [] => []
  | .data b bs :: rest => b :: bs ++ incoming rest
  | .eintr :: rest | .eagain :: rest | .eof :: rest | .error :: rest => incoming rest

/-- A read takes bytes off the front of the stream, at most as many as were asked for. It uses up
an event unless it filled the whole request. -/
theorem read_bytes {size : Nat} {events rest : List (ReadEvent α)} {bs : List α}
    (h : read size events = (.bytes bs, rest)) (asked : 0 < size) :
    incoming events = bs ++ incoming rest ∧ 0 < bs.length ∧ bs.length ≤ size ∧
      (bs.length < size → rest.length < events.length) := by
  match events with
  | [] | .eintr :: _ | .eagain :: _ | .eof :: _ | .error :: _ => simp [read] at h
  | .data b tail :: events =>
    rw [read] at h
    split at h
    · next whole =>
      obtain ⟨rfl, rfl⟩ : b :: tail = bs ∧ events = rest := by simpa using h
      exact ⟨rfl, by simp, by simpa using whole, by simp⟩
    · next c cs more =>
      obtain ⟨rfl, rfl⟩ : (b :: tail).take size = bs ∧ .data c cs :: events = rest := by simpa using h
      have length : (b :: tail).length - size = cs.length + 1 := by
        rw [← List.length_drop, more, List.length_cons]
      have split := List.take_append_drop size (b :: tail)
      rw [more] at split
      rw [List.length_take]
      refine ⟨?_, by simp only [List.length_cons] at *; omega, by omega,
        by simp only [List.length_cons] at *; omega⟩
      rw [incoming, incoming, ← List.append_assoc, split]

/-- A read that returns no bytes leaves the stream as it was and uses up an event, if any is left. -/
theorem read_quiet {size : Nat} {events rest : List (ReadEvent α)} {r : ReadResult α}
    (h : read size events = (r, rest)) (quiet : ∀ bs, r ≠ .bytes bs) :
    incoming events = incoming rest ∧ (rest.length < events.length ∨ (r = .eagain ∧ events = [] ∧ rest = [])) := by
  match events with
  | [] | .eintr :: _ | .eagain :: _ | .eof :: _ | .error :: _ =>
    obtain ⟨rfl, rfl⟩ : _ ∧ _ := by simpa [read] using h
    simp [incoming]
  | .data b tail :: events =>
    rw [read] at h
    split at h
    all_goals exact absurd (congrArg Prod.fst h).symm (quiet _)

/-- A stream in the order in which it is met, one byte at a time. -/
inductive Item (α : Type*) where
  | byte (b : α)
  | quiet
  | stop
  deriving DecidableEq

def items : List (ReadEvent α) → List (Item α)
  | [] => []
  | .data b bs :: rest => (b :: bs).map .byte ++ items rest
  | .eintr :: rest | .eagain :: rest => .quiet :: items rest
  | .eof :: rest | .error :: rest => .stop :: items rest

theorem items_read_bytes {size : Nat} {events rest : List (ReadEvent α)} {bs : List α}
    (h : read size events = (.bytes bs, rest)) : items events = bs.map .byte ++ items rest := by
  match events with
  | [] | .eintr :: _ | .eagain :: _ | .eof :: _ | .error :: _ => simp [read] at h
  | .data b tail :: events =>
    rw [read] at h
    split at h
    · obtain ⟨rfl, rfl⟩ : b :: tail = bs ∧ events = rest := by simpa using h
      rfl
    · next c cs more =>
      obtain ⟨rfl, rfl⟩ : (b :: tail).take size = bs ∧ .data c cs :: events = rest := by simpa using h
      have split := List.take_append_drop size (b :: tail)
      rw [more] at split
      rw [items, items, ← List.append_assoc, ← List.map_append, split]

theorem items_read_quiet {size : Nat} {events rest : List (ReadEvent α)} {r : ReadResult α}
    (h : read size events = (r, rest)) (again : r = .eintr ∨ r = .eagain) :
    items events = .quiet :: items rest ∨ (items events = [] ∧ items rest = []) := by
  match events with
  | [] | .eintr :: _ | .eagain :: _ | .eof :: _ | .error :: _ =>
    obtain ⟨rfl, rfl⟩ : _ ∧ _ := by simpa [read] using h
    simp [items] at again ⊢
  | .data b tail :: events =>
    rw [read] at h
    split at h
    all_goals
      obtain ⟨rfl, rfl⟩ : _ ∧ _ := by simpa using h
      simp at again

theorem items_read_stop {size : Nat} {events rest : List (ReadEvent α)} {r : ReadResult α}
    (h : read size events = (r, rest)) (ended : r = .eof ∨ r = .error) :
    items events = .stop :: items rest := by
  match events with
  | [] | .eintr :: _ | .eagain :: _ | .eof :: _ | .error :: _ =>
    obtain ⟨rfl, rfl⟩ : _ ∧ _ := by simpa [read] using h
    simp [items] at ended ⊢
  | .data b tail :: events =>
    rw [read] at h
    split at h
    all_goals
      obtain ⟨rfl, rfl⟩ : _ ∧ _ := by simpa using h
      simp at ended

/-- The bytes that can still be read: nothing comes after an end or an error. -/
def arriving : List (ReadEvent α) → List α
  | [] | .eof :: _ | .error :: _ => []
  | .data b bs :: rest => b :: bs ++ arriving rest
  | .eintr :: rest | .eagain :: rest => arriving rest

theorem arriving_read_bytes {size : Nat} {events rest : List (ReadEvent α)} {bs : List α}
    (h : read size events = (.bytes bs, rest)) : arriving events = bs ++ arriving rest := by
  match events with
  | [] | .eintr :: _ | .eagain :: _ | .eof :: _ | .error :: _ => simp [read] at h
  | .data b tail :: events =>
    rw [read] at h
    split at h
    · obtain ⟨rfl, rfl⟩ : b :: tail = bs ∧ events = rest := by simpa using h
      rfl
    · next c cs more =>
      obtain ⟨rfl, rfl⟩ : (b :: tail).take size = bs ∧ .data c cs :: events = rest := by simpa using h
      have split := List.take_append_drop size (b :: tail)
      rw [more] at split
      rw [arriving, arriving, ← List.append_assoc, split]

theorem arriving_read_again {size : Nat} {events rest : List (ReadEvent α)} {r : ReadResult α}
    (h : read size events = (r, rest)) (again : r = .eintr ∨ r = .eagain) : arriving events = arriving rest := by
  match events with
  | [] | .eintr :: _ | .eagain :: _ | .eof :: _ | .error :: _ =>
    obtain ⟨rfl, rfl⟩ : _ ∧ _ := by simpa [read] using h
    simp [arriving] at again ⊢
  | .data b tail :: events =>
    rw [read] at h
    split at h
    all_goals
      obtain ⟨rfl, rfl⟩ : _ ∧ _ := by simpa using h
      simp at again

theorem arriving_read_stop {size : Nat} {events rest : List (ReadEvent α)} {r : ReadResult α}
    (h : read size events = (r, rest)) (ended : r = .eof ∨ r = .error) : arriving events = [] := by
  match events with
  | [] | .eintr :: _ | .eagain :: _ | .eof :: _ | .error :: _ =>
    obtain ⟨rfl, rfl⟩ : _ ∧ _ := by simpa [read] using h
    simp [arriving] at ended ⊢
  | .data b tail :: events =>
    rw [read] at h
    split at h
    all_goals
      obtain ⟨rfl, rfl⟩ : _ ∧ _ := by simpa using h
      simp at ended

/-- After how many bytes a read is told that there are no more for now. -/
def gaps : List (ReadEvent α) → List Nat
  | [] => [0]
  | .data _ bs :: rest => (gaps rest).map (· + (bs.length + 1))
  | .eagain :: rest => 0 :: gaps rest
  | .eintr :: rest => gaps rest
  | .eof :: _ | .error :: _ => []

theorem gaps_read_bytes {size n : Nat} {events rest : List (ReadEvent α)} {bs : List α}
    (h : read size events = (.bytes bs, rest)) (gap : n ∈ gaps rest) : n + bs.length ∈ gaps events := by
  match events with
  | [] | .eintr :: _ | .eagain :: _ | .eof :: _ | .error :: _ => simp [read] at h
  | .data b tail :: events =>
    rw [read] at h
    split at h
    · obtain ⟨rfl, rfl⟩ : b :: tail = bs ∧ events = rest := by simpa using h
      exact List.mem_map.mpr ⟨n, gap, rfl⟩
    · next c cs more =>
      obtain ⟨rfl, rfl⟩ : (b :: tail).take size = bs ∧ .data c cs :: events = rest := by simpa using h
      obtain ⟨m, later, rfl⟩ := List.mem_map.mp gap
      have split := congrArg List.length (List.take_append_drop size (b :: tail))
      rw [more, List.length_append, List.length_cons, List.length_cons] at split
      exact List.mem_map.mpr ⟨m, later, by omega⟩

theorem gaps_read_eagain {size : Nat} {events rest : List (ReadEvent α)} (h : read size events = (.eagain, rest)) :
    0 ∈ gaps events := by
  match events with
  | [] | .eagain :: _ => exact List.mem_cons_self
  | .eintr :: _ | .eof :: _ | .error :: _ => simp [read] at h
  | .data b tail :: events =>
    rw [read] at h
    split at h
    all_goals simp at h

theorem gaps_read_again {size n : Nat} {events rest : List (ReadEvent α)} {r : ReadResult α}
    (h : read size events = (r, rest)) (again : r = .eintr ∨ r = .eagain) (gap : n ∈ gaps rest) : n ∈ gaps events := by
  match events with
  | [] | .eintr :: _ =>
    obtain ⟨rfl, rfl⟩ : _ ∧ _ := by simpa [read] using h
    exact gap
  | .eagain :: _ =>
    obtain ⟨rfl, rfl⟩ : _ ∧ _ := by simpa [read] using h
    exact List.mem_cons_of_mem _ gap
  | .eof :: _ | .error :: _ =>
    obtain ⟨rfl, rfl⟩ : _ ∧ _ := by simpa [read] using h
    simp at again
  | .data b tail :: events =>
    rw [read] at h
    split at h
    all_goals
      obtain ⟨rfl, rfl⟩ : _ ∧ _ := by simpa using h
      simp at again

/-- How often a read will be told that the stream is at its end. -/
def stops : List (ReadEvent α) → Nat
  | [] => 0
  | .eof :: rest | .error :: rest => stops rest + 1
  | .data _ _ :: rest | .eintr :: rest | .eagain :: rest => stops rest

theorem stops_read_bytes {size : Nat} {events rest : List (ReadEvent α)} {bs : List α}
    (h : read size events = (.bytes bs, rest)) : stops events = stops rest := by
  match events with
  | [] | .eintr :: _ | .eagain :: _ | .eof :: _ | .error :: _ => simp [read] at h
  | .data b tail :: events =>
    rw [read] at h
    split at h
    all_goals
      obtain ⟨_, rfl⟩ : _ ∧ _ := by simpa using h
      rfl

theorem stops_read_again {size : Nat} {events rest : List (ReadEvent α)} {r : ReadResult α}
    (h : read size events = (r, rest)) (again : r = .eintr ∨ r = .eagain) : stops events = stops rest := by
  match events with
  | [] | .eintr :: _ | .eagain :: _ | .eof :: _ | .error :: _ =>
    obtain ⟨rfl, rfl⟩ : _ ∧ _ := by simpa [read] using h
    simp [stops] at again ⊢
  | .data b tail :: events =>
    rw [read] at h
    split at h
    all_goals
      obtain ⟨rfl, rfl⟩ : _ ∧ _ := by simpa using h
      simp at again

theorem stops_read_stop {size : Nat} {events rest : List (ReadEvent α)} {r : ReadResult α}
    (h : read size events = (r, rest)) (ended : r = .eof ∨ r = .error) : stops events = stops rest + 1 := by
  match events with
  | [] | .eintr :: _ | .eagain :: _ | .eof :: _ | .error :: _ =>
    obtain ⟨rfl, rfl⟩ : _ ∧ _ := by simpa [read] using h
    simp [stops] at ended ⊢
  | .data b tail :: events =>
    rw [read] at h
    split at h
    all_goals
      obtain ⟨rfl, rfl⟩ : _ ∧ _ := by simpa using h
      simp at ended

/-- What the sending side of a socket meets; `accept n` takes at most `n + 1` bytes. -/
inductive WriteEvent where
  | accept (n : Nat)
  | zero
  | eintr
  | eagain
  | error

inductive WriteResult where
  | sent (n : Nat)
  | eintr
  | eagain
  | error
  deriving DecidableEq

def write (size : Nat) : List WriteEvent → WriteResult × List WriteEvent
  | [] => (.eagain, [])
  | .accept n :: rest => (.sent (min (n + 1) size), rest)
  | .zero :: rest => (.sent 0, rest)
  | .eintr :: rest => (.eintr, rest)
  | .eagain :: rest => (.eagain, rest)
  | .error :: rest => (.error, rest)

end LiveStreaming.Library.Socket
