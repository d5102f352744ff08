import Mathlib.Data.List.Basic

/-!
# Writing into a fixed buffer

`overwrite` is `memcpy` into the middle of an array. A sequence of writes that starts at 0 and
leaves no gap determines the written part of the buffer, whatever it held before.
-/

namespace LiveStreaming.Library.Buffer

variable {α : Type*}

/-- `buf` with `bytes` stored from `pos` on. -/
def overwrite (buf : List α) (pos : Nat) (bytes : List α) : List α :=
  buf.take pos ++ bytes ++ buf.drop (pos + bytes.length)

@[simp] theorem overwrite_nil (buf : List α) (pos : Nat) : overwrite buf pos [] = buf := by
  simp [overwrite]

theorem length_overwrite {buf : List α} {pos : Nat} {bytes : List α}
    (room : pos + bytes.length ≤ buf.length) : (overwrite buf pos bytes).length = buf.length := by
  simp only [overwrite, List.length_append, List.length_take, List.length_drop]
  omega

theorem take_overwrite {buf : List α} {pos : Nat} (bytes : List α) (room : pos ≤ buf.length) :
    (overwrite buf pos bytes).take (pos + bytes.length) = buf.take pos ++ bytes := by
  have length : (buf.take pos ++ bytes).length = pos + bytes.length := by
    rw [List.length_append, List.length_take, Nat.min_eq_left room]
  rw [overwrite, ← length, List.take_left]

theorem drop_overwrite {buf : List α} {pos n : Nat} {bytes : List α} (room : pos ≤ buf.length)
    (behind : pos + bytes.length ≤ n) :
    (overwrite buf pos bytes).drop n = buf.drop n := by
  have length : (buf.take pos ++ bytes).length = pos + bytes.length := by
    rw [List.length_append, List.length_take, Nat.min_eq_left room]
  rw [overwrite, List.drop_append, List.drop_of_length_le (by omega), length, List.nil_append, List.drop_drop]
  congr 1
  omega

theorem read_overwrite {buf bytes : List α} {pos k n : Nat} (room : pos ≤ buf.length) (within : k + n ≤ bytes.length) :
    ((overwrite buf pos bytes).drop (pos + k)).take n = (bytes.drop k).take n := by
  have start : (buf.take pos).length = pos := by rw [List.length_take, Nat.min_eq_left room]
  rw [overwrite, List.append_assoc, ← List.drop_drop, List.drop_left' start, List.drop_append_of_le_length (by omega),
    List.take_append_of_le_length (by rw [List.length_drop]; omega)]

/-- A write that fills an array to its end. -/
theorem overwrite_to_end {front rest bytes : List α} (same : bytes.length = rest.length) :
    overwrite (front ++ rest) front.length bytes = front ++ bytes := by
  have whole : (front ++ rest).length = front.length + bytes.length := by rw [List.length_append, same]
  rw [overwrite, List.take_left, List.drop_of_length_le (Nat.le_of_eq whole), List.append_nil]

/-- Two writes side by side, the later one in front. -/
theorem overwrite_front {buf xs ys : List α} {pos : Nat} (room : pos + xs.length + ys.length ≤ buf.length) :
    overwrite (overwrite buf (pos + xs.length) ys) pos xs = overwrite buf pos (xs ++ ys) := by
  have split : buf.take (pos + xs.length) = buf.take pos ++ (buf.drop pos).take xs.length := List.take_add
  have front : (overwrite buf (pos + xs.length) ys).take pos = buf.take pos := by
    rw [overwrite, List.append_assoc, split, List.append_assoc, List.take_append_of_le_length,
      List.take_take, Nat.min_self]
    rw [List.length_take]
    omega
  have back : (overwrite buf (pos + xs.length) ys).drop (pos + xs.length) =
    ys ++ buf.drop (pos + xs.length + ys.length) := by
    rw [overwrite, List.append_assoc, List.drop_append, List.length_take, Nat.min_eq_left (by omega), Nat.sub_self,
      List.drop_zero, List.drop_of_length_le (by rw [List.length_take]; omega), List.nil_append]
  rw [overwrite, front, back, overwrite, List.length_append, List.append_assoc, List.append_assoc, List.append_assoc,
    Nat.add_assoc]

/-- A second write from the middle of the first one, up to its end at least. -/
theorem overwrite_again {buf xs ys zs : List α} {pos : Nat} (room : pos + xs.length + ys.length ≤ buf.length)
    (covers : zs.length ≤ ys.length) :
    overwrite (overwrite buf pos (xs ++ zs)) (pos + xs.length) ys = overwrite buf pos (xs ++ ys) := by
  have start : (buf.take pos ++ xs).length = pos + xs.length := by
    rw [List.length_append, List.length_take, Nat.min_eq_left (by omega)]
  have front : (overwrite buf pos (xs ++ zs)).take (pos + xs.length) = buf.take pos ++ xs := by
    rw [overwrite, ← List.append_assoc, List.append_assoc, List.take_left' start]
  have back : (overwrite buf pos (xs ++ zs)).drop (pos + xs.length + ys.length) =
      buf.drop (pos + xs.length + ys.length) :=
    drop_overwrite (by omega) (by rw [List.length_append]; omega)
  rw [overwrite, front, back, overwrite, List.length_append]
  simp only [List.append_assoc, Nat.add_assoc]

/-- `Filled buf done`: the front of the buffer has been written with `done`. -/
def Filled (buf done : List α) : Prop := buf.take done.length = done

theorem filled_nil (buf : List α) : Filled buf [] := rfl

theorem Filled.length_le {buf done : List α} (filled : Filled buf done) : done.length ≤ buf.length := by
  have := congrArg List.length filled
  rw [List.length_take] at this
  omega

theorem Filled.overwrite {buf done : List α} (filled : Filled buf done) (bytes : List α) :
    Filled (overwrite buf done.length bytes) (done ++ bytes) := by
  rw [Filled, List.length_append, take_overwrite bytes filled.length_le, filled]

theorem Filled.eq {buf done : List α} (filled : Filled buf done) (length : done.length = buf.length) :
    buf = done := by
  rw [Filled, length, List.take_length] at filled
  exact filled

theorem Filled.of_append {buf done more : List α} (filled : Filled buf (done ++ more)) : Filled buf done := by
  have front := congrArg (List.take done.length) filled
  rwa [List.take_take, List.length_append, Nat.min_eq_left (Nat.le_add_right _ _), List.take_left] at front

/-- A buffer of `size` cells that holds `done` and is blank behind it. -/
def padded (size : Nat) (blank : α) (done : List α) : List α :=
  done ++ List.replicate (size - done.length) blank

theorem overwrite_padded {size pos : Nat} {blank : α} {done : List α} (at_ : pos = done.length) (bytes : List α) :
    overwrite (padded size blank done) pos bytes = padded size blank (done ++ bytes) := by
  have start : (padded size blank done).take done.length = done := List.take_left
  have rest : (padded size blank done).drop (done.length + bytes.length) =
      List.replicate (size - (done ++ bytes).length) blank := by
    rw [padded, List.drop_append, List.drop_replicate, List.length_append,
      List.drop_of_length_le (Nat.le_add_right _ _), List.nil_append]
    congr 1
    omega
  rw [at_, overwrite, start, rest]
  rfl

theorem padded_eq {size : Nat} {blank : α} {done : List α} (full : done.length = size) :
    padded size blank done = done := by
  rw [padded, full, Nat.sub_self, List.replicate_zero, List.append_nil]

end LiveStreaming.Library.Buffer

/-!
## Writing an array front to back

A writer is given an array and how much of it has been written, and gives both back. It writes on from there, and has
no result where it would leave the array.
-/

namespace LiveStreaming.Library

abbrev Writer (α : Type*) := List α → Nat → Option (List α × Nat)

namespace Writer

variable {α : Type*}

/-- A store into the middle of an array; `none` where it leaves it. -/
def store (array : List α) (pos : Nat) (items : List α) : Option (List α) :=
  if pos + items.length ≤ array.length then some (Buffer.overwrite array pos items) else none

/-- Behind whatever has been written, the writer puts `items`, and it counts them. -/
def Appends (w : Writer α) (items : List α) : Prop :=
  ∀ array done : List α, done.length ≤ array.length →
    w (Buffer.overwrite array 0 done) done.length =
      if done.length + items.length ≤ array.length then
        some (Buffer.overwrite array 0 (done ++ items), done.length + items.length)
      else none

theorem store_behind {array done : List α} (room : done.length ≤ array.length) (items : List α) :
    store (Buffer.overwrite array 0 done) done.length items =
      if done.length + items.length ≤ array.length then some (Buffer.overwrite array 0 (done ++ items)) else none := by
  have length : (Buffer.overwrite array 0 done).length = array.length := Buffer.length_overwrite (by omega)
  rw [store, length]
  split
  · congr 1
    simp only [Buffer.overwrite, List.take_zero, List.nil_append, Nat.zero_add, List.length_append]
    rw [List.take_left, List.drop_append, List.drop_of_length_le (Nat.le_add_right _ _), List.nil_append,
      List.drop_drop, Nat.add_sub_cancel_left, List.append_assoc]
  · rfl

theorem Appends.of_eq {w w' : Writer α} {items : List α} (appends : Appends w items)
    (same : ∀ array n, w' array n = w array n) : Appends w' items := by
  intro array done room
  rw [same, appends array done room]

theorem appends_nil : Appends (fun array n => some (array, n)) ([] : List α) := by
  intro array done room
  rw [List.length_nil, Nat.add_zero, List.append_nil, if_pos room]

/-- One store, counted afterwards. -/
theorem appends_store (items : List α) :
    Appends (fun array n => do return (← store array n items, n + items.length)) items := by
  intro array done room
  dsimp only
  rw [store_behind room]
  split <;> rfl

/-- Two writers, one behind the other. -/
theorem Appends.bind {w w' : Writer α} {items items' : List α} (first : Appends w items) (second : Appends w' items') :
    Appends (fun array n => w array n >>= fun written => w' written.1 written.2) (items ++ items') := by
  intro array done room
  dsimp only
  rw [first array done room, List.length_append, ← List.append_assoc, ← Nat.add_assoc]
  by_cases fits : done.length + items.length ≤ array.length
  · rw [if_pos fits, ← List.length_append]
    refine Eq.trans (second array (done ++ items) (by rwa [List.length_append])) ?_
    rw [List.length_append]
  · rw [if_neg fits, if_neg (by omega)]
    rfl

/-- From the front of an array that has room, exactly `items` are written. -/
theorem Appends.fits {w : Writer α} {items array : List α} (appends : Appends w items)
    (room : items.length ≤ array.length) : w array 0 = some (Buffer.overwrite array 0 items, items.length) := by
  have whole := appends array [] (Nat.zero_le _)
  rwa [Buffer.overwrite_nil, List.length_nil, Nat.zero_add, if_pos room] at whole

theorem Appends.leaves {w : Writer α} {items array : List α} (appends : Appends w items)
    (room : array.length < items.length) : w array 0 = none := by
  have whole := appends array [] (Nat.zero_le _)
  rwa [Buffer.overwrite_nil, List.length_nil, Nat.zero_add, if_neg (by omega)] at whole

/-! ### Printing

A print puts a terminator behind its items, and the next print begins over it. -/

def print (terminator : α) (items : List α) : Writer α := fun array n => do
  return (← store array n (items ++ [terminator]), n + items.length)

/-- Wherever there is room, the writer puts `items` and the terminator behind them. -/
def Prints (terminator : α) (w : Writer α) (items : List α) : Prop :=
  ∀ (array : List α) (n : Nat), n + items.length < array.length →
    w array n = some (Buffer.overwrite array n (items ++ [terminator]), n + items.length)

theorem prints_print (terminator : α) (items : List α) : Prints terminator (print terminator items) items := by
  intro array n room
  have fits : n + (items ++ [terminator]).length ≤ array.length := by
    rw [List.length_append, List.length_singleton]
    omega
  rw [print, store, if_pos fits]
  rfl

theorem Prints.of_eq {terminator : α} {w w' : Writer α} {items items' : List α} (prints : Prints terminator w items)
    (same : ∀ array n, w' array n = w array n) (text : items' = items) : Prints terminator w' items' := by
  intro array n room
  rw [text] at room
  rw [same, text, prints array n room]

/-- Two prints, one behind the other. -/
theorem Prints.bind {terminator : α} {w w' : Writer α} {items items' : List α} (first : Prints terminator w items)
    (second : Prints terminator w' items') :
    Prints terminator (fun array n => w array n >>= fun written => w' written.1 written.2) (items ++ items') := by
  intro array n room
  rw [List.length_append] at room
  have length : (Buffer.overwrite array n (items ++ [terminator])).length = array.length := by
    apply Buffer.length_overwrite
    rw [List.length_append, List.length_singleton]
    omega
  have behind : Buffer.overwrite (Buffer.overwrite array n (items ++ [terminator])) (n + items.length)
      (items' ++ [terminator]) = Buffer.overwrite array n (items ++ (items' ++ [terminator])) := by
    apply Buffer.overwrite_again
    · rw [List.length_append, List.length_singleton]
      omega
    · rw [List.length_append]
      exact Nat.le_add_left _ _
  dsimp only
  rw [first array n (by omega), Option.bind_eq_bind, Option.bind_some, second _ _ (by rw [length]; omega), behind,
    List.append_assoc, List.length_append, Nat.add_assoc]

end Writer

end LiveStreaming.Library
