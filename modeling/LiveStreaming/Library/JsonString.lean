import Mathlib.Data.List.Basic
import Mathlib.Data.List.Infix

/-!
# Strings of JSON

What stands between the two quotes of a string, and the bytes that it stands for. An escape of a character
outside the basic plane is a pair of surrogates; one surrogate alone stands for nothing.
-/

namespace LiveStreaming.Library.JsonString

/-- What stands before the first quote that is not escaped, and what stands behind it. -/
def untilQuote : List UInt8 → Option (List UInt8 × List UInt8)
  | [] => none
  | [b] => if b = 34 then some ([], []) else none
  | b :: c :: s =>
    if b = 34 then some ([], c :: s)
    else if b = 92 then (untilQuote s).map fun t => (b :: c :: t.1, t.2)
    else (untilQuote (c :: s)).map fun t => (b :: t.1, t.2)

def hexDigit (b : UInt8) : Option Nat :=
  if 48 ≤ b ∧ b ≤ 57 then some (b.toNat - 48)
  else if 97 ≤ b ∧ b ≤ 102 then some (b.toNat - 87)
  else if 65 ≤ b ∧ b ≤ 70 then some (b.toNat - 55)
  else none

def hexNumber (s : List UInt8) : Option Nat :=
  (s.mapM hexDigit).map fun digits => digits.foldl (fun n d => 16 * n + d) 0

/-- The character of `\uXXXX`, and how many bytes of it stand behind the `u`. -/
def unicode (s : List UInt8) : Option (Nat × Nat) :=
  if s.length < 4 then none
  else
    (hexNumber (s.take 4)).bind fun lead =>
      if lead < 0xD800 ∨ 0xDFFF < lead then some (lead, 4)
      else if 0xDBFF < lead ∨ s.length < 10 ∨ (s.drop 4).take 2 ≠ [92, 117] then none
      else
        (hexNumber ((s.drop 6).take 4)).bind fun trail =>
          if trail < 0xDC00 ∨ 0xDFFF < trail then none
          else some (0x10000 + (lead - 0xD800) * 1024 + (trail - 0xDC00), 10)

def encode (c : Nat) : List UInt8 :=
  if c < 0x80 then [c.toUInt8]
  else if c < 0x800 then [(192 + c / 64 % 32).toUInt8, (128 + c % 64).toUInt8]
  else if c < 0x10000 then [(224 + c / 4096 % 16).toUInt8, (128 + c / 64 % 64).toUInt8, (128 + c % 64).toUInt8]
  else
    [(240 + c / 262144 % 8).toUInt8, (128 + c / 4096 % 64).toUInt8, (128 + c / 64 % 64).toUInt8,
      (128 + c % 64).toUInt8]

/-- What the letter behind a backslash stands for. -/
def escaped (letter : UInt8) : Option UInt8 :=
  if letter = 34 ∨ letter = 92 ∨ letter = 47 then some letter
  else if letter = 98 then some 8
  else if letter = 102 then some 12
  else if letter = 110 then some 10
  else if letter = 114 then some 13
  else if letter = 116 then some 9
  else none

def unescapeFrom : Nat → List UInt8 → Option (List UInt8)
  | 0, [] => some []
  | 0, _ :: _ => none
  | _ + 1, [] => some []
  | n + 1, b :: s =>
    if b = 92 then
      if s.head? = some 117 then
        (unicode s.tail).bind fun u => (unescapeFrom n (s.tail.drop u.2)).map (encode u.1 ++ ·)
      else
        (s.head?.bind escaped).bind fun c => (unescapeFrom n s.tail).map (c :: ·)
    else if b < 32 then none
    else (unescapeFrom n s).map (b :: ·)

/-- The bytes that stand between two quotes, with what is escaped in them resolved. Every round takes a byte at
least. -/
def unescape (s : List UInt8) : Option (List UInt8) := unescapeFrom s.length s

/-- Within which bounds the bytes behind the first byte of a character lie. -/
def following (b : UInt8) : Option (List (UInt8 × UInt8)) :=
  if b < 0x80 then some []
  else if b < 0xC2 then none
  else if b < 0xE0 then some [(0x80, 0xBF)]
  else if b = 0xE0 then some [(0xA0, 0xBF), (0x80, 0xBF)]
  else if b = 0xED then some [(0x80, 0x9F), (0x80, 0xBF)]
  else if b < 0xF0 then some [(0x80, 0xBF), (0x80, 0xBF)]
  else if b = 0xF0 then some [(0x90, 0xBF), (0x80, 0xBF), (0x80, 0xBF)]
  else if b < 0xF4 then some [(0x80, 0xBF), (0x80, 0xBF), (0x80, 0xBF)]
  else if b = 0xF4 then some [(0x80, 0x8F), (0x80, 0xBF), (0x80, 0xBF)]
  else none

def utf8From : List (UInt8 × UInt8) → List UInt8 → Bool
  | bounds, [] => bounds.isEmpty
  | [], b :: s => (following b).elim false (utf8From · s)
  | (low, high) :: bounds, b :: s => decide (low ≤ b ∧ b ≤ high) && utf8From bounds s

def utf8 (s : List UInt8) : Bool := utf8From [] s

/-- The escapes that a writer may choose: a byte stands for itself or is written as a backslash and a letter. -/
def Escapes (write : UInt8 → List UInt8) : Prop :=
  ∀ c, (write c = [c] ∧ c ≠ 34 ∧ c ≠ 92) ∨ ∃ letter, write c = [92, letter] ∧ letter ≠ 117 ∧ escaped letter = some c

/-- What may stand between two quotes: no quote, and no backslash at the end, that is not escaped. -/
inductive Body : List UInt8 → Prop where
  | nil : Body []
  | escape (c : UInt8) {s : List UInt8} (body : Body s) : Body (92 :: c :: s)
  | plain {b : UInt8} {s : List UInt8} (no_quote : b ≠ 34) (no_backslash : b ≠ 92) (body : Body s) : Body (b :: s)

theorem untilQuote_escape (c : UInt8) (s : List UInt8) :
    untilQuote (92 :: c :: s) = (untilQuote s).map fun t => (92 :: c :: t.1, t.2) := by
  simp [untilQuote]

theorem untilQuote_plain {b : UInt8} {s : List UInt8} (no_quote : b ≠ 34) (no_backslash : b ≠ 92) :
    untilQuote (b :: s) = (untilQuote s).map fun t => (b :: t.1, t.2) := by
  cases s with
  | nil => simp [untilQuote, no_quote]
  | cons c s => simp [untilQuote, no_quote, no_backslash]

theorem untilQuote_eq_some {t s rest : List UInt8} :
    untilQuote t = some (s, rest) ↔ Body s ∧ t = s ++ 34 :: rest := by
  constructor
  · intro found
    fun_induction untilQuote t generalizing s with
    | case1 => simp at found
    | case2 =>
      obtain ⟨rfl, rfl⟩ : [] = s ∧ [] = rest := by simpa using found
      exact ⟨.nil, rfl⟩
    | case3 => simp at found
    | case4 c t =>
      obtain ⟨rfl, rfl⟩ : [] = s ∧ c :: t = rest := by simpa using found
      exact ⟨.nil, rfl⟩
    | case5 c t _ ih =>
      obtain ⟨⟨before, behind⟩, later, same⟩ := Option.map_eq_some_iff.mp found
      obtain ⟨rfl, rfl⟩ : 92 :: c :: before = s ∧ behind = rest := by simpa using same
      obtain ⟨body, rfl⟩ := ih later
      exact ⟨.escape c body, rfl⟩
    | case6 b c t no_quote no_backslash ih =>
      obtain ⟨⟨before, behind⟩, later, same⟩ := Option.map_eq_some_iff.mp found
      obtain ⟨rfl, rfl⟩ : b :: before = s ∧ behind = rest := by simpa using same
      obtain ⟨body, text⟩ := ih later
      exact ⟨.plain no_quote no_backslash body, by rw [text, List.cons_append]⟩
  · rintro ⟨body, rfl⟩
    induction body with
    | nil =>
      cases rest with
      | nil => rfl
      | cons c rest => rfl
    | escape c _ ih => rw [List.cons_append, List.cons_append, untilQuote_escape, ih, Option.map_some]
    | plain no_quote no_backslash _ ih =>
      rw [List.cons_append, untilQuote_plain no_quote no_backslash, ih, Option.map_some]

/-- A quote behind a byte that is no backslash is not escaped. -/
theorem Body.within {s rest w t : List UInt8} (body : Body s) (last : w.getLast? ≠ some 92)
    (text : s ++ 34 :: rest = w ++ 34 :: t) : s <+: w := by
  induction body generalizing w with
  | nil => exact List.nil_prefix
  | escape c _ ih =>
    rcases w with _ | ⟨b, _ | ⟨c', w⟩⟩
    · simp at text
    · obtain ⟨rfl, _⟩ : 92 = b ∧ _ := by simpa using text
      simp at last
    · obtain ⟨rfl, rfl, later⟩ : 92 = b ∧ c = c' ∧ _ := by simpa using text
      have within := @ih w (by cases w <;> simp_all) later
      simpa using within
  | plain no_quote _ _ ih =>
    rcases w with _ | ⟨b, w⟩
    · exact absurd (List.head_eq_of_cons_eq text) no_quote
    · obtain ⟨rfl, later⟩ := List.cons_eq_cons.mp text
      have within := @ih w (by cases w <;> simp_all) later
      simpa using within

theorem Body.quote_notMem {s : List UInt8} (body : Body s) (no_backslash : 92 ∉ s) : 34 ∉ s := by
  induction body with
  | nil => simp
  | escape c _ _ => simp at no_backslash
  | plain no_quote _ _ ih =>
    rw [List.mem_cons, not_or] at no_backslash ⊢
    exact ⟨no_quote.symm, ih no_backslash.2⟩

theorem Escapes.body {write : UInt8 → List UInt8} (escapes : Escapes write) (s : List UInt8) :
    Body (s.flatMap write) := by
  induction s with
  | nil => exact .nil
  | cons c s ih =>
    rw [List.flatMap_cons]
    rcases escapes c with ⟨written, no_quote, no_backslash⟩ | ⟨letter, written, _⟩
    · rw [written]
      exact .plain no_quote no_backslash ih
    · rw [written]
      exact .escape letter ih

/-! ### What the bytes stand for -/

theorem unescapeFrom_congr {n m : Nat} {s : List UInt8} (enough : s.length ≤ n) (enough' : s.length ≤ m) :
    unescapeFrom n s = unescapeFrom m s := by
  induction n generalizing m s with
  | zero =>
    obtain rfl := List.length_eq_zero_iff.mp (Nat.le_zero.mp enough)
    cases m with
    | zero => rfl
    | succ m => rfl
  | succ n ih =>
    cases s with
    | nil =>
      cases m with
      | zero => rfl
      | succ m => rfl
    | cons b s =>
      rw [List.length_cons] at enough enough'
      obtain ⟨m, rfl⟩ : ∃ k, m = k + 1 := ⟨m - 1, by omega⟩
      have shorter : ∀ k, unescapeFrom n (s.tail.drop k) = unescapeFrom m (s.tail.drop k) := by
        intro k
        apply ih <;> simp only [List.length_drop, List.length_tail] <;> omega
      have tail := shorter 0
      rw [List.drop_zero] at tail
      have rest : unescapeFrom n s = unescapeFrom m s := ih (by omega) (by omega)
      simp only [unescapeFrom, shorter, tail, rest]

theorem unescape_plain {b : UInt8} (no_backslash : b ≠ 92) (s : List UInt8) :
    unescape (b :: s) = if b < 32 then none else (unescape s).map (b :: ·) := by
  rw [unescape, List.length_cons, unescapeFrom, if_neg no_backslash]
  rfl

theorem unescape_letter {letter : UInt8} (no_unicode : letter ≠ 117) (s : List UInt8) :
    unescape (92 :: letter :: s) = (escaped letter).bind fun c => (unescape s).map (c :: ·) := by
  have rest : unescapeFrom (s.length + 1) s = unescapeFrom s.length s := unescapeFrom_congr (by omega) le_rfl
  simp [unescape, unescapeFrom, no_unicode, rest]

theorem unescape_unicode (s : List UInt8) : unescape (92 :: 117 :: s) =
    (unicode s).bind fun u => (unescape (s.drop u.2)).map (encode u.1 ++ ·) := by
  have rest : ∀ k, unescapeFrom (s.length + 1) (s.drop k) = unescapeFrom (s.length - k) (s.drop k) := by
    intro k
    apply unescapeFrom_congr <;> rw [List.length_drop]
    omega
  simp [unescape, unescapeFrom, rest]

/-- Without a backslash the bytes stand for themselves, and none of them is a control character. -/
theorem unescape_verbatim {s t : List UInt8} (no_backslash : 92 ∉ s) (read : unescape s = some t) :
    t = s ∧ ∀ b ∈ s, 32 ≤ b := by
  induction s generalizing t with
  | nil =>
    obtain rfl : [] = t := Option.some.inj read
    simp
  | cons b s ih =>
    rw [List.mem_cons, not_or] at no_backslash
    rw [unescape_plain (Ne.symm no_backslash.1)] at read
    split at read
    · simp at read
    · next printable =>
      obtain ⟨t, later, rfl⟩ := Option.map_eq_some_iff.mp read
      obtain ⟨rfl, above⟩ := ih no_backslash.2 later
      refine ⟨rfl, ?_⟩
      rw [List.forall_mem_cons]
      exact ⟨UInt8.not_lt.mp printable, above⟩

theorem Escapes.unescape {write : UInt8 → List UInt8} (escapes : Escapes write) {s t : List UInt8} :
    unescape (s.flatMap write) = some t ↔ t = s ∧ ∀ c ∈ s, write c = [c] → 32 ≤ c := by
  induction s generalizing t with
  | nil => simp [JsonString.unescape, unescapeFrom, eq_comm]
  | cons c s ih =>
    rw [List.flatMap_cons, List.forall_mem_cons]
    rcases escapes c with ⟨written, _, no_backslash⟩ | ⟨letter, written, no_unicode, stands⟩
    · rw [written, List.singleton_append, unescape_plain no_backslash]
      split
      · next control =>
        simp [UInt8.not_le.mpr control]
      · next printable =>
        simp only [Option.map_eq_some_iff, ih, forall_const]
        constructor
        · rintro ⟨t, ⟨rfl, above⟩, rfl⟩
          exact ⟨rfl, UInt8.not_lt.mp printable, above⟩
        · rintro ⟨rfl, _, above⟩
          exact ⟨s, ⟨rfl, above⟩, rfl⟩
    · have other : [92, letter] ≠ [c] := by simp
      rw [written, List.cons_append, List.singleton_append, unescape_letter no_unicode, stands, Option.bind_some]
      simp only [Option.map_eq_some_iff, ih, other, false_implies, true_and]
      constructor
      · rintro ⟨t, ⟨rfl, above⟩, rfl⟩
        exact ⟨rfl, above⟩
      · rintro ⟨rfl, above⟩
        exact ⟨s, ⟨rfl, above⟩, rfl⟩

/-- The length, where a backslash counts five. -/
def weight (s : List UInt8) : Nat := s.length + 4 * s.count 92

theorem weight_cons (b : UInt8) (s : List UInt8) : weight (b :: s) = weight s + if b = 92 then 5 else 1 := by
  unfold weight
  rw [List.length_cons, List.count_cons]
  split <;> simp_all <;> omega

theorem weight_append (s t : List UInt8) : weight (s ++ t) = weight s + weight t := by
  unfold weight
  rw [List.length_append, List.count_append]
  omega

theorem weight_of_notMem {s : List UInt8} (no_backslash : 92 ∉ s) : weight s + 5 * s.count 92 = s.length := by
  rw [weight, List.count_eq_zero.mpr no_backslash]
  rfl

theorem encode_weight (c : Nat) : weight (encode c) + 5 * (encode c).count 92 ≤ 10 := by
  have lead : ∀ k n : Nat, 128 ≤ k → n + k < 256 → (k + n).toUInt8 ≠ 92 := by
    intro k n high byte same
    have nat := congrArg UInt8.toNat same
    rw [Nat.toUInt8, UInt8.toNat_ofNat', Nat.mod_eq_of_lt (by omega)] at nat
    have : (92 : UInt8).toNat = 92 := rfl
    omega
  have two := lead 192 (c / 64 % 32) (by omega) (by omega)
  have three := lead 224 (c / 4096 % 16) (by omega) (by omega)
  have four := lead 240 (c / 262144 % 8) (by omega) (by omega)
  have last := lead 128 (c % 64) (by omega) (by omega)
  have middle := lead 128 (c / 64 % 64) (by omega) (by omega)
  have inner := lead 128 (c / 4096 % 64) (by omega) (by omega)
  unfold encode
  split
  · unfold weight
    rw [List.length_singleton, List.count_singleton]
    split <;> omega
  split
  · rw [weight_of_notMem (by simp only [List.mem_cons, List.not_mem_nil, two.symm, last.symm, or_self,
      not_false_eq_true])]
    simp
  split
  · rw [weight_of_notMem (by simp only [List.mem_cons, List.not_mem_nil, three.symm, middle.symm, last.symm, or_self,
      not_false_eq_true])]
    simp
  · rw [weight_of_notMem (by simp only [List.mem_cons, List.not_mem_nil, four.symm, inner.symm, middle.symm, last.symm,
      or_self, not_false_eq_true])]
    simp

theorem escaped_backslash {letter : UInt8} (stands : escaped letter = some 92) : letter = 92 := by
  unfold escaped at stands
  split at stands
  · exact Option.some.inj stands
  · repeat' split at stands
    all_goals simp at stands

theorem unicode_length {s : List UInt8} {u : Nat × Nat} (read : unicode s = some u) : 4 ≤ u.2 ∧ u.2 ≤ s.length := by
  unfold unicode at read
  split at read
  · simp at read
  · next long =>
    obtain ⟨lead, _, read⟩ := Option.bind_eq_some_iff.mp read
    split at read
    · obtain rfl := Option.some.inj read
      simp only
      omega
    · split at read
      · simp at read
      · next pair =>
        obtain ⟨trail, _, read⟩ := Option.bind_eq_some_iff.mp read
        split at read
        · simp at read
        · obtain rfl := Option.some.inj read
          simp only
          omega

/-- Reading resolves five for each backslash that comes out. -/
theorem unescape_weight {s t : List UInt8} (read : unescape s = some t) : weight t + 5 * t.count 92 ≤ weight s := by
  induction length : s.length using Nat.strong_induction_on generalizing s t with
  | _ n ih =>
    rcases s with _ | ⟨b, s⟩
    · obtain rfl : [] = t := Option.some.inj read
      simp
    · rw [List.length_cons] at length
      by_cases backslash : b = 92
      · subst backslash
        rcases s with _ | ⟨letter, s⟩
        · simp [unescape, unescapeFrom] at read
        · rw [List.length_cons] at length
          by_cases u : letter = 117
          · subst u
            rw [unescape_unicode] at read
            obtain ⟨c, found, read⟩ := Option.bind_eq_some_iff.mp read
            obtain ⟨t, later, rfl⟩ := Option.map_eq_some_iff.mp read
            obtain ⟨four, inside⟩ := unicode_length found
            have rest := ih (s.drop c.2).length (by rw [List.length_drop]; omega) later rfl
            have whole : weight s = weight (s.take c.2) + weight (s.drop c.2) := by
              rw [← weight_append, List.take_append_drop]
            have taken : 4 ≤ weight (s.take c.2) := by
              unfold weight
              rw [List.length_take]
              omega
            have encoded := encode_weight c.1
            rw [weight_append, List.count_append, weight_cons, weight_cons, if_pos rfl, if_neg (by decide), whole]
            omega
          · rw [unescape_letter u] at read
            obtain ⟨c, stands, read⟩ := Option.bind_eq_some_iff.mp read
            obtain ⟨t, later, rfl⟩ := Option.map_eq_some_iff.mp read
            have rest := ih s.length (by omega) later rfl
            rw [weight_cons, weight_cons, weight_cons, if_pos rfl, List.count_cons]
            by_cases out : c = 92
            · subst out
              rw [if_pos (escaped_backslash stands), if_pos rfl, if_pos (by rfl)]
              omega
            · rw [if_neg out, if_neg (by simpa using out)]
              split <;> omega
      · rw [unescape_plain backslash] at read
        split at read
        · simp at read
        · obtain ⟨t, later, rfl⟩ := Option.map_eq_some_iff.mp read
          have rest := ih s.length (by omega) later rfl
          rw [weight_cons, weight_cons, if_neg backslash, List.count_cons, if_neg (by simpa using backslash)]
          omega

/-! ### Whole characters -/

theorem utf8From_append {bounds : List (UInt8 × UInt8)} {s : List UInt8} (whole : utf8From bounds s = true)
    (t : List UInt8) : utf8From bounds (s ++ t) = utf8 t := by
  induction s generalizing bounds with
  | nil =>
    cases bounds with
    | nil => rfl
    | cons bound bounds => simp [utf8From] at whole
  | cons b s ih =>
    rcases bounds with _ | ⟨⟨low, high⟩, bounds⟩
    · rw [utf8From] at whole
      rw [List.cons_append, utf8From]
      cases next : following b with
      | none => simp [next] at whole
      | some bounds =>
        rw [next, Option.elim_some] at whole
        exact ih whole
    · rw [utf8From, Bool.and_eq_true] at whole
      rw [List.cons_append, utf8From, whole.1, Bool.true_and]
      exact ih whole.2

theorem utf8_append {s : List UInt8} (whole : utf8 s = true) (t : List UInt8) : utf8 (s ++ t) = utf8 t :=
  utf8From_append whole t

theorem utf8_ascii {s : List UInt8} (ascii : ∀ b ∈ s, b < 0x80) : utf8 s = true := by
  induction s with
  | nil => rfl
  | cons b s ih =>
    rw [List.forall_mem_cons] at ascii
    rw [utf8, utf8From, following, if_pos ascii.1, Option.elim_some]
    exact ih ascii.2

end LiveStreaming.Library.JsonString
