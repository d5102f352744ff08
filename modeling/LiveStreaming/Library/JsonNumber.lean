import LiveStreaming.Library.CString
import Mathlib.Data.Nat.Digits.Lemmas
import Mathlib.Tactic.Ring

/-!
# Numbers of JSON

A number is a whole part without a needless zero, which a fraction and a power of ten may follow. What is printed
for a floating-point number is a number as well, unless the floating-point number is none.
-/

namespace LiveStreaming.Library.JsonNumber
open CString

def isDigit (b : UInt8) : Bool := decide (48 ≤ b ∧ b ≤ 57)

def ofDigits (digits : List UInt8) : Nat := digits.foldl (fun n b => 10 * n + (b.toNat - 48)) 0

def fraction (s : List UInt8) : Option (ℚ × List UInt8) :=
  if s.head? = some 46 then
    let digits := s.tail.takeWhile isDigit
    if digits = [] then none else some (ofDigits digits / 10 ^ digits.length, s.tail.dropWhile isDigit)
  else some (0, s)

def digits (s : List UInt8) : Option Nat := if s = [] ∨ ¬ s.all isDigit then none else some (ofDigits s)

def exponent : List UInt8 → Option ℚ
  | [] => some 1
  | e :: s =>
    if e ≠ 101 ∧ e ≠ 69 then none
    else if s.head? = some 45 then (digits s.tail).map (1 / 10 ^ ·)
    else if s.head? = some 43 then (digits s.tail).map (10 ^ ·)
    else (digits s).map (10 ^ ·)

def unsigned (s : List UInt8) : Option ℚ :=
  let whole := s.takeWhile isDigit
  if whole = [] ∨ (whole.head? = some 48 ∧ whole ≠ [48]) then none
  else (fraction (s.dropWhile isDigit)).bind fun part => (exponent part.2).map ((ofDigits whole + part.1) * ·)

def evaluate (s : List UInt8) : Option ℚ :=
  if s.head? = some 45 then (unsigned s.tail).map (-·) else unsigned s

/-- What numbers are made of. -/
def isNumberByte (b : UInt8) : Bool := isDigit b || b == 43 || b == 45 || b == 46 || b == 69 || b == 101

/-- What is printed where a number belongs. -/
structure Numeral where
  text : List UInt8
  printed : (evaluate text).isSome ∨ text ∈ [ascii "inf", ascii "-inf", ascii "nan", ascii "-nan"]

def Numeral.value (n : Numeral) : Option ℚ := evaluate n.text

def decimal (n : Nat) : List UInt8 :=
  if n = 0 then [48] else ((Nat.digits 10 n).map fun d => (48 + d).toUInt8).reverse

/-- The last digits of a number, as many as asked for. -/
def padded : Nat → Nat → List UInt8
  | 0, _ => []
  | k + 1, n => (48 + n / 10 ^ k % 10).toUInt8 :: padded k n

theorem digit_toNat {d : Nat} (single : d < 10) : (48 + d).toUInt8.toNat = 48 + d := by
  rw [Nat.toUInt8, UInt8.toNat_ofNat', Nat.mod_eq_of_lt (by omega)]

theorem isDigit_digit {d : Nat} (single : d < 10) : isDigit (48 + d).toUInt8 = true := by
  have nat := digit_toNat single
  have low : (48 : UInt8).toNat = 48 := rfl
  have high : (57 : UInt8).toNat = 57 := rfl
  rw [isDigit, decide_eq_true_iff, UInt8.le_iff_toNat_le, UInt8.le_iff_toNat_le]
  omega

theorem ofDigits_append (s : List UInt8) (b : UInt8) : ofDigits (s ++ [b]) = 10 * ofDigits s + (b.toNat - 48) := by
  rw [ofDigits, List.foldl_append]
  rfl

theorem ofDigits_reverse {digits : List Nat} (single : ∀ d ∈ digits, d < 10) :
    ofDigits ((digits.map fun d => (48 + d).toUInt8).reverse) = Nat.ofDigits 10 digits := by
  induction digits with
  | nil => rfl
  | cons d digits ih =>
    rw [List.forall_mem_cons] at single
    rw [List.map_cons, List.reverse_cons, ofDigits_append, ih single.2, digit_toNat single.1, Nat.ofDigits_cons]
    omega

theorem ofDigits_decimal (n : Nat) : ofDigits (decimal n) = n := by
  unfold decimal
  split
  · next zero => exact zero.symm
  · rw [ofDigits_reverse fun d member => Nat.digits_lt_base (by norm_num) member, Nat.ofDigits_digits]

theorem isDigit_decimal {n : Nat} {b : UInt8} (member : b ∈ decimal n) : isDigit b = true := by
  unfold decimal at member
  split at member
  · obtain rfl := List.mem_singleton.mp member
    rfl
  · rw [List.mem_reverse, List.mem_map] at member
    obtain ⟨d, digit, rfl⟩ := member
    exact isDigit_digit (Nat.digits_lt_base (by norm_num) digit)

theorem decimal_ne_nil (n : Nat) : decimal n ≠ [] := by
  unfold decimal
  split
  · simp
  · next positive => simpa [Nat.digits_eq_nil_iff_eq_zero] using positive

/-- A number other than zero does not begin with a zero. -/
theorem decimal_head {n : Nat} (zero : (decimal n).head? = some 48) : decimal n = [48] := by
  unfold decimal at zero ⊢
  split
  · rfl
  · next positive =>
    have digits : Nat.digits 10 n ≠ [] := by simpa [Nat.digits_eq_nil_iff_eq_zero] using positive
    rw [if_neg positive, List.head?_reverse, List.getLast?_map, List.getLast?_eq_some_getLast digits, Option.map_some,
      Option.some.injEq] at zero
    have single := Nat.digits_lt_base (b := 10) (by norm_num) (List.getLast_mem digits)
    have nat := congrArg UInt8.toNat zero
    rw [digit_toNat single] at nat
    have last : (Nat.digits 10 n).getLast digits = 0 := by
      have : (48 : UInt8).toNat = 48 := rfl
      omega
    exact absurd last (Nat.getLast_digit_ne_zero 10 positive)

theorem decimal_proper (n : Nat) : ¬ (decimal n = [] ∨ ((decimal n).head? = some 48 ∧ decimal n ≠ [48])) := by
  rintro (none | ⟨zero, more⟩)
  · exact decimal_ne_nil n none
  · exact more (decimal_head zero)

theorem padded_foldl (k n a : Nat) :
    (padded k n).foldl (fun m b => 10 * m + (b.toNat - 48)) a = a * 10 ^ k + n % 10 ^ k := by
  induction k generalizing a with
  | zero => simp [padded, Nat.mod_one]
  | succ k ih =>
    have split : n % 10 ^ (k + 1) = n % 10 ^ k + 10 ^ k * (n / 10 ^ k % 10) := by rw [pow_succ, Nat.mod_mul]
    rw [padded, List.foldl_cons, ih, digit_toNat (Nat.mod_lt _ (by norm_num)), split, pow_succ, Nat.add_sub_cancel_left]
    ring

theorem ofDigits_padded (k n : Nat) : ofDigits (padded k n) = n % 10 ^ k := by
  rw [ofDigits, padded_foldl]
  simp

theorem length_padded (k n : Nat) : (padded k n).length = k := by
  induction k with
  | zero => rfl
  | succ k ih => rw [padded, List.length_cons, ih]

theorem isDigit_padded {k n : Nat} {b : UInt8} (member : b ∈ padded k n) : isDigit b = true := by
  induction k with
  | zero => simp [padded] at member
  | succ k ih =>
    rw [padded, List.mem_cons] at member
    rcases member with rfl | member
    · exact isDigit_digit (Nat.mod_lt _ (by norm_num))
    · exact ih member

theorem takeWhile_digits {digits rest : List UInt8} (all : ∀ b ∈ digits, isDigit b = true)
    (stop : ∀ b ∈ rest.head?, isDigit b = false) :
    (digits ++ rest).takeWhile isDigit = digits ∧ (digits ++ rest).dropWhile isDigit = rest := by
  induction digits with
  | nil =>
    cases rest with
    | nil => simp
    | cons b rest =>
      have no_digit := stop b rfl
      simp [no_digit]
  | cons b digits ih =>
    rw [List.forall_mem_cons] at all
    obtain ⟨taken, dropped⟩ := ih all.2
    simp [all.1, taken, dropped]

theorem unsigned_decimal (n : Nat) : unsigned (decimal n) = some (n : ℚ) := by
  obtain ⟨taken, dropped⟩ := @takeWhile_digits (decimal n) [] (fun _ => isDigit_decimal) (by simp)
  rw [List.append_nil] at taken dropped
  rw [unsigned, taken, dropped, if_neg (decimal_proper n), ofDigits_decimal]
  simp [fraction, exponent]

theorem unsigned_fixed (n m : Nat) {k : Nat} (places : 0 < k) :
    unsigned (decimal n ++ 46 :: padded k m) = some (n + (m % 10 ^ k : ℕ) / 10 ^ k : ℚ) := by
  obtain ⟨taken, dropped⟩ := @takeWhile_digits (decimal n) (46 :: padded k m) (fun _ => isDigit_decimal)
    (by simp [isDigit])
  obtain ⟨taken', dropped'⟩ := @takeWhile_digits (padded k m) [] (fun _ => isDigit_padded) (by simp)
  rw [List.append_nil] at taken' dropped'
  have some : padded k m ≠ [] := by
    intro none
    have length := length_padded k m
    rw [none, List.length_nil] at length
    omega
  rw [unsigned, taken, dropped, if_neg (decimal_proper n), ofDigits_decimal, fraction, List.head?_cons, if_pos rfl,
    List.tail_cons, taken',
    dropped', if_neg some, length_padded, ofDigits_padded]
  simp [exponent]

theorem decimal_append_head (n : Nat) (rest : List UInt8) : (decimal n ++ rest).head? ≠ some 45 := by
  cases text : decimal n with
  | nil => exact absurd text (decimal_ne_nil n)
  | cons b digits =>
    rw [List.cons_append, List.head?_cons, ne_eq, Option.some.injEq]
    rintro rfl
    have digit : isDigit 45 = true := isDigit_decimal (n := n) (text ▸ List.mem_cons_self)
    exact absurd digit (by decide)

theorem evaluate_minus (s : List UInt8) : evaluate (45 :: s) = (unsigned s).map (-·) := by
  rw [evaluate, List.head?_cons, if_pos rfl, List.tail_cons]

/-! ### What a number is made of -/

theorem isNumberByte_digit {b : UInt8} (digit : isDigit b = true) : isNumberByte b = true := by
  simp [isNumberByte, digit]

theorem digits_bytes {s : List UInt8} {n : Nat} (read : digits s = some n) {b : UInt8} (member : b ∈ s) :
    isNumberByte b = true := by
  unfold digits at read
  split at read
  · simp at read
  · next proper =>
    rw [not_or, not_not, List.all_eq_true] at proper
    exact isNumberByte_digit (proper.2 b member)

theorem exponent_bytes {s : List UInt8} {power : ℚ} (read : exponent s = some power) {b : UInt8} (member : b ∈ s) :
    isNumberByte b = true := by
  cases s with
  | nil => simp at member
  | cons e s =>
    have signed : ∀ sign, isNumberByte sign = true → s.head? = some sign → ∀ n, digits s.tail = some n → b ∈ s →
        isNumberByte b = true := by
      intro sign byte head n read member
      cases s with
      | nil => simp at head
      | cons c s =>
        obtain rfl := Option.some.inj head
        rw [List.mem_cons] at member
        rcases member with rfl | member
        · exact byte
        · exact digits_bytes read member
    rw [exponent] at read
    split at read
    · simp at read
    · next letter =>
      rw [List.mem_cons] at member
      rcases member with rfl | member
      · have either : b = 101 ∨ b = 69 := by
          by_contra neither
          exact letter (not_or.mp neither)
        rcases either with rfl | rfl <;> decide
      · split at read
        · next minus =>
          obtain ⟨n, read, _⟩ := Option.map_eq_some_iff.mp read
          exact signed 45 (by decide) minus n read member
        · split at read
          · next plus =>
            obtain ⟨n, read, _⟩ := Option.map_eq_some_iff.mp read
            exact signed 43 (by decide) plus n read member
          · obtain ⟨n, read, _⟩ := Option.map_eq_some_iff.mp read
            exact digits_bytes read member

theorem fraction_bytes {s : List UInt8} {part : ℚ × List UInt8} (read : fraction s = some part) {b : UInt8}
    (member : b ∈ s) : isNumberByte b = true ∨ b ∈ part.2 := by
  unfold fraction at read
  split at read
  · next point =>
    dsimp only at read
    split at read
    · simp at read
    · obtain rfl := Option.some.inj read
      cases s with
      | nil => simp at member
      | cons c s =>
        obtain rfl := Option.some.inj point
        rw [List.tail_cons]
        rw [List.mem_cons] at member
        rcases member with rfl | member
        · exact .inl (by decide)
        · rw [← List.takeWhile_append_dropWhile (p := isDigit) (l := s), List.mem_append] at member
          exact member.imp_left fun digit => isNumberByte_digit (List.mem_takeWhile_imp digit)
  · obtain rfl := Option.some.inj read
    exact .inr member

theorem unsigned_bytes {s : List UInt8} {value : ℚ} (read : unsigned s = some value) :
    (∃ b t, s = b :: t ∧ isDigit b = true) ∧ ∀ b ∈ s, isNumberByte b = true := by
  have parts := List.takeWhile_append_dropWhile (p := isDigit) (l := s)
  unfold unsigned at read
  dsimp only at read
  split at read
  · simp at read
  · next proper =>
    rw [not_or] at proper
    obtain ⟨part, after, read⟩ := Option.bind_eq_some_iff.mp read
    obtain ⟨power, ended, _⟩ := Option.map_eq_some_iff.mp read
    constructor
    · cases whole : s.takeWhile isDigit with
      | nil => exact absurd whole proper.1
      | cons b t =>
        refine ⟨b, t ++ s.dropWhile isDigit, ?_, ?_⟩
        · rw [← List.cons_append, ← whole, parts]
        · exact List.mem_takeWhile_imp (whole ▸ List.mem_cons_self)
    · intro b member
      rw [← parts, List.mem_append] at member
      rcases member with digit | member
      · exact isNumberByte_digit (List.mem_takeWhile_imp digit)
      · rcases fraction_bytes after member with byte | member
        · exact byte
        · exact exponent_bytes ended member

theorem evaluate_bytes {s : List UInt8} (read : (evaluate s).isSome) :
    (∃ b t, s = b :: t ∧ (b = 45 ∨ isDigit b = true)) ∧ ∀ b ∈ s, isNumberByte b = true := by
  obtain ⟨value, read⟩ := Option.isSome_iff_exists.mp read
  unfold evaluate at read
  split at read
  · next minus =>
    obtain ⟨value, read, _⟩ := Option.map_eq_some_iff.mp read
    obtain ⟨_, bytes⟩ := unsigned_bytes read
    cases s with
    | nil => simp at minus
    | cons b s =>
      obtain rfl := Option.some.inj minus
      refine ⟨⟨45, s, rfl, .inl rfl⟩, ?_⟩
      rw [List.forall_mem_cons]
      exact ⟨by decide, bytes⟩
  · obtain ⟨⟨b, t, text, digit⟩, bytes⟩ := unsigned_bytes read
    exact ⟨⟨b, t, text, .inr digit⟩, bytes⟩

end LiveStreaming.Library.JsonNumber
