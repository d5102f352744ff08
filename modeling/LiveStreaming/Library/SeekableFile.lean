import LiveStreaming.Library.Buffer

/-!
# Files with a position

What is written goes to the position, whether that is in the middle, at the end or behind it.
-/

namespace LiveStreaming.Library

structure SeekableFile where
  bytes : List UInt8
  pos : Nat

namespace SeekableFile

def empty : SeekableFile := ⟨[], 0⟩

/-- `fwrite`. Bytes that are skipped are zero. -/
def write (file : SeekableFile) (data : List UInt8) : SeekableFile where
  bytes :=
    if data.isEmpty then file.bytes
    else Buffer.overwrite (file.bytes ++ List.replicate (file.pos - file.bytes.length) 0) file.pos data
  pos := file.pos + data.length

/-- `fseek` from the front. -/
def seek (file : SeekableFile) (pos : Nat) : SeekableFile := { file with pos }

/-- `fseek` from the position on. -/
def seekForward (file : SeekableFile) (n : Nat) : SeekableFile := { file with pos := file.pos + n }

theorem seekForward_add (file : SeekableFile) (m n : Nat) :
    (file.seekForward m).seekForward n = file.seekForward (m + n) := by
  rw [seekForward, seekForward, seekForward, Nat.add_assoc]

/-- `fread`, which may give less than is asked for. -/
def read (file : SeekableFile) (n : Nat) : List UInt8 × SeekableFile :=
  let data := (file.bytes.drop file.pos).take n
  (data, file.seekForward data.length)

theorem read_of_drop {file : SeekableFile} {data rest : List UInt8} {n : Nat}
    (next : file.bytes.drop file.pos = data ++ rest) (size : data.length = n) :
    file.read n = (data, file.seekForward n) := by
  rw [read, next, List.take_left' size, size]

theorem drop_seekForward {file : SeekableFile} {data rest : List UInt8} {n : Nat}
    (next : file.bytes.drop file.pos = data ++ rest) (size : data.length = n) :
    (file.seekForward n).bytes.drop (file.seekForward n).pos = rest := by
  rw [seekForward, ← List.drop_drop, next, List.drop_left' size]

theorem write_end (bytes data : List UInt8) : (⟨bytes, bytes.length⟩ : SeekableFile).write data =
    ⟨bytes ++ data, (bytes ++ data).length⟩ := by
  unfold write
  rw [List.length_append, Nat.sub_self, List.replicate_zero, List.append_nil]
  cases data with
  | nil => simp
  | cons b data =>
    rw [Buffer.overwrite, List.take_length, List.drop_of_length_le (Nat.le_add_right _ _), List.append_nil]
    rfl

theorem write_behind (bytes : List UInt8) (n : Nat) {data : List UInt8} (some : data ≠ []) :
    ((⟨bytes, bytes.length⟩ : SeekableFile).seekForward n).write data =
      ⟨bytes ++ List.replicate n 0 ++ data, (bytes ++ List.replicate n 0 ++ data).length⟩ := by
  have length : (bytes ++ List.replicate n 0).length = bytes.length + n := by
    rw [List.length_append, List.length_replicate]
  unfold write seekForward
  dsimp only
  rw [if_neg (by simpa using some), Nat.add_sub_cancel_left, Buffer.overwrite, ← length, List.take_length,
    List.drop_of_length_le (Nat.le_add_right _ _), List.append_nil]
  congr 1
  simp only [List.length_append]

/-- Where as much is written as there was, the rest stays in its place. -/
theorem write_within {before hole behind data : List UInt8} (pos : Nat) (length : data.length = hole.length) :
    (((⟨before ++ hole ++ behind, pos⟩ : SeekableFile).seek before.length).write data).bytes =
      before ++ data ++ behind := by
  unfold write seek
  dsimp only
  split
  · next none =>
    obtain rfl := List.isEmpty_iff.mp none
    obtain rfl := List.eq_nil_of_length_eq_zero length.symm
    rfl
  · have inside : before.length - (before ++ hole ++ behind).length = 0 := by
      rw [List.length_append, List.length_append]
      omega
    have rest : (before ++ hole ++ behind).drop (before.length + data.length) = behind := by
      rw [length, ← List.length_append, List.drop_left]
    rw [inside, List.replicate_zero, List.append_nil, Buffer.overwrite, rest, List.append_assoc before hole,
      List.take_left]

end SeekableFile

end LiveStreaming.Library
