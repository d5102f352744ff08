import Mathlib.Data.List.Basic
import Mathlib.Data.List.TakeWhile

/-!
# C strings

A C string is the list of its bytes before the terminating zero. `strchr` and `strstr` give the offset
of what they find.
-/

namespace LiveStreaming.Library.CString

def ascii (text : String) : List UInt8 := text.toList.map fun c => c.toNat.toUInt8

/-- The string that starts with the first of `bytes`. -/
def cString (bytes : List UInt8) : List UInt8 := bytes.takeWhile (· != 0)

def strchr (c : UInt8) (s : List UInt8) : Option Nat := s.findIdx? (· == c)

def strstr (needle : List UInt8) : List UInt8 → Option Nat
  | [] => if needle.isEmpty then some 0 else none
  | c :: s => if needle.isPrefixOf (c :: s) then some 0 else (strstr needle s).map (· + 1)

theorem zero_notMem_cString (bytes : List UInt8) : 0 ∉ cString bytes := by
  intro member
  simpa using List.mem_takeWhile_imp member

theorem cString_eq {s : List UInt8} (unterminated : 0 ∉ s) : cString s = s := by
  rw [cString, List.takeWhile_eq_self_iff]
  intro b member
  simp only [bne_iff_ne, ne_eq]
  rintro rfl
  exact unterminated member

theorem strchr_none {c : UInt8} {s : List UInt8} (absent : c ∉ s) : strchr c s = none := by
  rw [strchr, List.findIdx?_eq_none_iff]
  intro b member
  simp only [beq_eq_false_iff_ne]
  rintro rfl
  exact absent member

theorem strchr_append {c : UInt8} {s : List UInt8} (absent : c ∉ s) (rest : List UInt8) :
    strchr c (s ++ c :: rest) = some s.length := by
  have none := strchr_none absent
  rw [strchr] at none
  rw [strchr, List.findIdx?_append, none]
  simp [List.findIdx?_cons]

theorem strchr_lt {c : UInt8} {s : List UInt8} {i : Nat} (found : strchr c s = some i) : i < s.length := by
  obtain ⟨inside, _⟩ := List.findIdx?_eq_some_iff_getElem.mp found
  exact inside

theorem strstr_skip {c : UInt8} {s : List UInt8} (absent : c ∉ s) (needle rest : List UInt8) :
    strstr (c :: needle) (s ++ rest) = (strstr (c :: needle) rest).map (· + s.length) := by
  induction s with
  | nil => simp
  | cons b s ih =>
    rw [List.mem_cons, not_or] at absent
    obtain ⟨other, absent⟩ := absent
    have elsewhere : ¬ (c :: needle).isPrefixOf (b :: (s ++ rest)) := by simp [other]
    rw [List.cons_append, strstr, if_neg elsewhere, ih absent, Option.map_map]
    rfl

theorem strstr_append {c : UInt8} {s : List UInt8} (absent : c ∉ s) (needle rest : List UInt8) :
    strstr (c :: needle) (s ++ (c :: needle ++ rest)) = some s.length := by
  have here : (c :: needle).isPrefixOf (c :: (needle ++ rest)) := by simp
  rw [strstr_skip absent, List.cons_append, strstr, if_pos here]
  simp

/-- Nothing is found across a byte that the needle does not have. -/
theorem strstr_before {needle s : List UInt8} {b : UInt8} (absent : ¬ needle <:+: s) (foreign : b ∉ needle)
    (rest : List UInt8) : strstr needle (s ++ b :: rest) = (strstr needle (b :: rest)).map (· + s.length) := by
  induction s with
  | nil => simp
  | cons c s ih =>
    have elsewhere : ¬ needle.isPrefixOf (c :: (s ++ b :: rest)) := by
      rw [List.isPrefixOf_iff_prefix]
      intro start
      rcases List.prefix_or_prefix_of_prefix start (List.prefix_append (c :: s) (b :: rest)) with inside | ⟨more, equal⟩
      · exact absent inside.isInfix
      · subst equal
        cases more with
        | nil => exact absent ⟨[], [], by simp⟩
        | cons d more =>
          rw [← List.cons_append, List.prefix_append_right_inj, List.cons_prefix_cons] at start
          exact foreign (start.1 ▸ List.mem_append_right _ List.mem_cons_self)
    rw [List.cons_append, strstr, if_neg elsewhere, ih fun found => absent (List.infix_cons found), Option.map_map]
    rfl

/-- What is printed of two numbers is the same only where they are. -/
theorem ascii_toString_inj {n m : Nat} (same : ascii (toString n) = ascii (toString m)) : n = m := by
  have read (k : Nat) : (ascii (toString k)).foldl (fun sofar b => 10 * sofar + (b.toNat - 48)) 0 = k := by
    rw [ascii, show (toString k).toList = Nat.toDigits 10 k from Nat.toList_repr, List.foldl_map]
    refine Eq.trans ?_ (Nat.ofDigitChars_ten_toDigits (n := k))
    refine List.foldl_ext _ _ 0 fun sofar c member => ?_
    have digit := Nat.isDigit_of_mem_toDigits (by decide) (by decide) member
    simp only [Char.isDigit, Bool.and_eq_true, decide_eq_true_eq, ge_iff_le] at digit
    have small : c.toNat < 2 ^ 8 := Nat.lt_of_le_of_lt (show c.toNat ≤ 57 from digit.2) (by decide)
    rw [show c.toNat.toUInt8.toNat = c.toNat from UInt8.toNat_ofNat_of_lt' small]
    rfl
  rw [← read n, same, read m]

/-- `snprintf` into a buffer of `size` bytes keeps room for the zero. -/
def truncate (size : Nat) (s : List UInt8) : List UInt8 := s.take (size - 1)

theorem truncate_eq {size : Nat} {s : List UInt8} (fits : s.length < size) : truncate size s = s :=
  List.take_of_length_le (by omega)

end LiveStreaming.Library.CString

/-!
## The lines of a text file

What calls of `fgets` with a buffer of one size return, up to the end of the file. A line that does not fit the
buffer comes in parts. `getline` has no such limit, and leaves the line feeds out.
-/

namespace LiveStreaming.Library.TextLines

/-- `line` has been read already, and `left` more bytes fit. -/
def linesFrom (room : Nat) : Nat → List UInt8 → List UInt8 → List (List UInt8)
  | _, line, [] => if line = [] then [] else [line]
  | left, line, b :: bs =>
    if b = 10 ∨ left ≤ 1 then (line ++ [b]) :: linesFrom room room [] bs
    else linesFrom room (left - 1) (line ++ [b]) bs

/-- The C strings that `fgets(line, size, fp)` leaves in `line`. -/
def fgetsLines (size : Nat) (content : List UInt8) : List (List UInt8) :=
  (linesFrom (size - 1) (size - 1) [] content).map CString.cString

/-- The lines that `getline( file, line )` leaves in `line`. -/
def getlines : List UInt8 → List (List UInt8)
  | [] => []
  | b :: bs =>
    if b = 10 then [] :: getlines bs
    else
      match getlines bs with
      | [] => [[b]]
      | line :: lines => (b :: line) :: lines

theorem getlines_append {line : List UInt8} (unbroken : 10 ∉ line) (rest : List UInt8) :
    getlines (line ++ 10 :: rest) = line :: getlines rest := by
  induction line with
  | nil => rw [List.nil_append, getlines, if_pos rfl]
  | cons b line ih =>
    rw [List.mem_cons, not_or] at unbroken
    rw [List.cons_append, getlines, if_neg (Ne.symm unbroken.1), ih unbroken.2]

theorem getlines_flatMap {lines : List (List UInt8)} (unbroken : ∀ line ∈ lines, 10 ∉ line) :
    getlines (lines.flatMap fun line => line ++ [10]) = lines := by
  induction lines with
  | nil => rfl
  | cons line lines ih =>
    rw [List.flatMap_cons, List.append_assoc, List.singleton_append, getlines_append (unbroken line List.mem_cons_self),
      ih fun other member => unbroken other (List.mem_cons_of_mem line member)]

end LiveStreaming.Library.TextLines
