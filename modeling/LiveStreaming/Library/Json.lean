import LiveStreaming.Library.JsonNumber
import LiveStreaming.Library.JsonString

/-!
# Values of JSON

A reader of JSON, over a dialect that says what passes for white space, a string, a number, an array and an object;
`read` is the reader of well-formed texts. A writer puts no white space between what it writes.
-/

namespace LiveStreaming.Library
open CString JsonString JsonNumber

inductive Json where
  | null
  | bool (b : Bool)
  | number (n : Numeral)
  | string (s : List UInt8)
  | array (items : List Json)
  | object (members : List (List UInt8 × Json))

namespace Json

abbrev Members := List (List UInt8 × Json)

def find (name : List UInt8) (members : Members) : Option Json := members.lookup name

/-- The value at a path of names, through the objects in between. -/
def at? : List (List UInt8) → Json → Option Json
  | [], v => some v
  | name :: path, .object members => (find name members).bind (at? path)
  | _ :: _, _ => none

theorem find_cons (name : List UInt8) (m : List UInt8 × Json) (members : Members) :
    find name (m :: members) = if name = m.1 then some m.2 else find name members := by
  obtain ⟨name', v⟩ := m
  rw [find, List.lookup_cons]
  by_cases same : name = name'
  · subst same
    simp
  · rw [beq_false_of_ne same, if_neg same]
    rfl

theorem find_eq_none {name : List UInt8} {members : Members} :
    find name members = none ↔ name ∉ members.map Prod.fst := by
  induction members with
  | nil => simp [find]
  | cons m members ih =>
    rw [find_cons, List.map_cons, List.mem_cons, not_or]
    split
    · next same => simp [same]
    · next other => simp [other, ih]

theorem mem_of_find {name : List UInt8} {members : Members} {v : Json} (known : find name members = some v) :
    (name, v) ∈ members := by
  induction members with
  | nil => simp [find] at known
  | cons m members ih =>
    rw [find_cons] at known
    split at known
    · next same =>
      obtain rfl := Option.some.inj known
      rw [same]
      exact List.mem_cons_self
    · exact List.mem_cons_of_mem m (ih known)

def quoted (escape : UInt8 → List UInt8) (s : List UInt8) : List UInt8 := 34 :: (s.flatMap escape ++ [34])

mutual

def write (escape : UInt8 → List UInt8) : Json → List UInt8
  | .null => ascii "null"
  | .bool true => ascii "true"
  | .bool false => ascii "false"
  | .number n => n.text
  | .string s => quoted escape s
  | .array items => 91 :: ([44].intercalate (writeItems escape items) ++ [93])
  | .object members => 123 :: ([44].intercalate (writeMembers escape members) ++ [125])

def writeItems (escape : UInt8 → List UInt8) : List Json → List (List UInt8)
  | [] => []
  | v :: items => write escape v :: writeItems escape items

def writeMembers (escape : UInt8 → List UInt8) : List (List UInt8 × Json) → List (List UInt8)
  | [] => []
  | (name, v) :: members => (quoted escape name ++ 58 :: write escape v) :: writeMembers escape members

end

/-- `opens` says what may stand where the quote before a name belongs. -/
structure Dialect where
  space : UInt8 → Bool
  opens : UInt8 → Bool
  string : List UInt8 → Option (List UInt8)
  number : List UInt8 → Option (Numeral × List UInt8)
  array : List Json → Bool
  object : Members → Bool

section
variable {α : Type} (space : UInt8 → Bool) (item : List UInt8 → Option (α × List UInt8)) (close : UInt8)

/-- Items with commas between them, up to the closing byte. Every round takes a comma or ends. -/
def separated : Nat → List UInt8 → Option (List α × List UInt8)
  | 0, _ => none
  | n + 1, s =>
    (item s).bind fun x =>
      match x.2.dropWhile space with
      | [] => none
      | b :: rest =>
        if b = 44 then (separated n rest).map fun xs => (x.1 :: xs.1, xs.2)
        else if b = close then some ([x.1], rest)
        else none

def enclosed (s : List UInt8) : Option (List α × List UInt8) :=
  match s.dropWhile space with
  | [] => none
  | b :: rest => if b = close then some ([], rest) else separated space item close (rest.length + 1) (b :: rest)

end

def literal (text : List UInt8) (v : Json) (s : List UInt8) : Option (Json × List UInt8) :=
  if text.isPrefixOf s then some (v, s.drop text.length) else none

namespace Dialect
variable (d : Dialect)

/-- What stands behind a quote, up to the next one. -/
def readString (s : List UInt8) : Option (List UInt8 × List UInt8) :=
  (untilQuote s).bind fun t => (d.string t.1).map (·, t.2)

def readName (s : List UInt8) : Option (List UInt8 × List UInt8) :=
  match s.dropWhile d.space with
  | [] => none
  | b :: rest => if d.opens b then d.readString rest else none

def readMember (value : List UInt8 → Option (Json × List UInt8)) (s : List UInt8) :
    Option ((List UInt8 × Json) × List UInt8) :=
  (d.readName s).bind fun name =>
    match name.2.dropWhile d.space with
    | [] => none
    | b :: rest => if b = 58 then (value rest).map fun v => ((name.1, v.1), v.2) else none

/-- A value that begins with `b`, where `value` reads what is nested in it. -/
def valueFrom (value : List UInt8 → Option (Json × List UInt8)) (b : UInt8) (rest : List UInt8) :
    Option (Json × List UInt8) :=
  if b = 123 then
    (enclosed d.space (d.readMember value) 125 rest).bind fun members =>
      if d.object members.1 then some (.object members.1, members.2) else none
  else if b = 91 then
    (enclosed d.space value 93 rest).bind fun items =>
      if d.array items.1 then some (.array items.1, items.2) else none
  else if b = 34 then (d.readString rest).map fun s => (.string s.1, s.2)
  else if b = 110 then literal (ascii "null") .null (b :: rest)
  else if b = 116 then literal (ascii "true") (.bool true) (b :: rest)
  else if b = 102 then literal (ascii "false") (.bool false) (b :: rest)
  else (d.number (b :: rest)).map fun n => (.number n.1, n.2)

/-- The first value of a text that is not nested deeper than `depth`, and what follows it. -/
def readValue : Nat → List UInt8 → Option (Json × List UInt8)
  | 0, _ => none
  | depth + 1, s =>
    match s.dropWhile d.space with
    | [] => none
    | b :: rest => d.valueFrom (readValue depth) b rest

end Dialect

def wellFormed : Dialect where
  space b := b == 32 || b == 9 || b == 10 || b == 13
  opens b := b == 34
  string s := if utf8 s then unescape s else none
  number s :=
    if read : (evaluate (s.takeWhile isNumberByte)).isSome then
      some (⟨s.takeWhile isNumberByte, .inl read⟩, s.dropWhile isNumberByte)
    else none
  array _ := true
  object _ := true

/-- The value of a well-formed text. What is nested is shorter than what it is nested in. -/
def read (text : List UInt8) : Option Json :=
  (wellFormed.readValue (text.length + 1) text).bind fun v => if v.2.all wellFormed.space then some v.1 else none

/-- Where a value ends: at the end of the text, or before a comma or a closing bracket. -/
def Delimited (rest : List UInt8) : Prop := ∀ b ∈ rest.head?, b = 44 ∨ b = 93 ∨ b = 125

theorem delimited_cons {b : UInt8} (ends : b = 44 ∨ b = 93 ∨ b = 125) (rest : List UInt8) : Delimited (b :: rest) := by
  intro c head
  obtain rfl := Option.some.inj head
  exact ends

theorem writeItems_eq (escape : UInt8 → List UInt8) (items : List Json) :
    writeItems escape items = items.map (write escape) := by
  induction items with
  | nil => rfl
  | cons v items ih => rw [writeItems, ih, List.map_cons]

theorem writeMembers_eq (escape : UInt8 → List UInt8) (members : Members) :
    writeMembers escape members = members.map fun m => quoted escape m.1 ++ 58 :: write escape m.2 := by
  induction members with
  | nil => rfl
  | cons m members ih => rw [writeMembers, ih, List.map_cons]

section
variable {α : Type} {space : UInt8 → Bool} {item : List UInt8 → Option (α × List UInt8)} {close : UInt8}
  {text : α → List UInt8} {P : α → Prop}

/-- Where each item reads as itself or not at all, so do items with commas between them. -/
theorem separated_eq_some (comma : space 44 = false) (closing : space close = false) (ends : close = 93 ∨ close = 125)
    {xs : List α} (nonempty : xs ≠ [])
    (reads : ∀ x ∈ xs, ∀ rest r, Delimited rest → (item (text x ++ rest) = some r ↔ P x ∧ r = (x, rest)))
    {n : Nat} (enough : xs.length ≤ n) {rest : List UInt8} {r : List α × List UInt8} :
    separated space item close n ([44].intercalate (xs.map text) ++ close :: rest) = some r ↔
      (∀ x ∈ xs, P x) ∧ r = (xs, rest) := by
  induction xs generalizing n r with
  | nil => exact absurd rfl nonempty
  | cons x xs ih =>
    rw [List.length_cons] at enough
    obtain ⟨n, rfl⟩ : ∃ k, n = k + 1 := ⟨n - 1, by omega⟩
    rw [List.forall_mem_cons] at reads
    have other : close ≠ 44 := by rcases ends with rfl | rfl <;> decide
    cases xs with
    | nil =>
      have stop : Delimited (close :: rest) := delimited_cons (.inr ends) rest
      simp only [List.map_cons, List.map_nil, List.intercalate_singleton, separated, Option.bind_eq_some_iff,
        reads.1 _ _ stop, List.forall_mem_singleton]
      constructor
      · rintro ⟨_, ⟨holds, rfl⟩, read⟩
        rw [List.dropWhile_cons_of_neg (by simpa using closing)] at read
        simp only [if_neg other, if_true, Option.some.injEq] at read
        exact ⟨holds, read.symm⟩
      · rintro ⟨holds, rfl⟩
        refine ⟨_, ⟨holds, rfl⟩, ?_⟩
        rw [List.dropWhile_cons_of_neg (by simpa using closing)]
        simp only [if_neg other, if_true]
    | cons y ys =>
      have stop : Delimited (44 :: ([44].intercalate ((y :: ys).map text) ++ close :: rest)) :=
        delimited_cons (.inl rfl) _
      have later := @ih (List.cons_ne_nil y ys) reads.2 n (by omega)
      have split : [44].intercalate ((x :: y :: ys).map text) ++ close :: rest =
          text x ++ 44 :: ([44].intercalate ((y :: ys).map text) ++ close :: rest) := by
        rw [List.map_cons, List.intercalate_cons_of_ne_nil (by simp)]
        simp only [List.append_assoc, List.cons_append, List.nil_append]
      rw [split]
      simp only [separated, Option.bind_eq_some_iff, reads.1 _ _ stop]
      constructor
      · rintro ⟨_, ⟨holds, rfl⟩, read⟩
        rw [List.dropWhile_cons_of_neg (by simpa using comma)] at read
        simp only [if_true, Option.map_eq_some_iff] at read
        obtain ⟨tail, read, rfl⟩ := read
        obtain ⟨all, rfl⟩ := later.mp read
        exact ⟨List.forall_mem_cons.mpr ⟨holds, all⟩, rfl⟩
      · rintro ⟨all, rfl⟩
        rw [List.forall_mem_cons] at all
        refine ⟨_, ⟨all.1, rfl⟩, ?_⟩
        rw [List.dropWhile_cons_of_neg (by simpa using comma)]
        simp only [if_true, Option.map_eq_some_iff]
        exact ⟨_, later.mpr ⟨all.2, rfl⟩, rfl⟩

theorem le_length_items {xs : List α} (nonempty : ∀ x ∈ xs, text x ≠ []) :
    xs.length ≤ ([44].intercalate (xs.map text)).length := by
  induction xs with
  | nil => exact Nat.zero_le _
  | cons x xs ih =>
    rw [List.forall_mem_cons] at nonempty
    have first := List.length_pos_iff.mpr nonempty.1
    have rest := ih nonempty.2
    cases xs with
    | nil =>
      rw [List.map_singleton, List.intercalate_singleton, List.length_singleton]
      exact first
    | cons y xs =>
      rw [List.map_cons, List.intercalate_cons_of_ne_nil (by simp)]
      simp only [List.length_append, List.length_cons, List.length_nil] at rest ⊢
      omega

theorem length_item_le {xs : List α} {x : α} (member : x ∈ xs) :
    (text x).length ≤ ([44].intercalate (xs.map text)).length := by
  induction xs with
  | nil => simp at member
  | cons y xs ih =>
    have first : (text y).length ≤ ([44].intercalate ((y :: xs).map text)).length := by
      cases xs with
      | nil => simp
      | cons z xs =>
        rw [List.map_cons, List.intercalate_cons_of_ne_nil (by simp), List.append_assoc, List.length_append]
        exact Nat.le_add_right _ _
    rw [List.mem_cons] at member
    rcases member with rfl | member
    · exact first
    · have rest := ih member
      have nonempty : xs.map text ≠ [] := by
        rw [ne_eq, List.map_eq_nil_iff]
        exact List.ne_nil_of_mem member
      rw [List.map_cons, List.intercalate_cons_of_ne_nil nonempty, List.length_append]
      omega

theorem enclosed_eq_some (comma : space 44 = false) (closing : space close = false) (ends : close = 93 ∨ close = 125)
    {xs : List α}
    (reads : ∀ x ∈ xs, ∀ rest r, Delimited rest → (item (text x ++ rest) = some r ↔ P x ∧ r = (x, rest)))
    (heads : ∀ x ∈ xs, ∃ b t, text x = b :: t ∧ space b = false ∧ b ≠ close)
    {rest : List UInt8} {r : List α × List UInt8} :
    enclosed space item close ([44].intercalate (xs.map text) ++ close :: rest) = some r ↔
      (∀ x ∈ xs, P x) ∧ r = (xs, rest) := by
  cases xs with
  | nil =>
    simp [enclosed, closing, eq_comm]
  | cons x xs =>
    have long : (x :: xs).length ≤ ([44].intercalate ((x :: xs).map text)).length := by
      apply le_length_items
      intro y member none
      obtain ⟨b, t, head, _⟩ := heads y member
      simp [head] at none
    obtain ⟨b, t, first, solid, other⟩ := heads x List.mem_cons_self
    obtain ⟨t', whole⟩ : ∃ t', [44].intercalate ((x :: xs).map text) = b :: t' := by
      cases xs with
      | nil => exact ⟨t, by simp [first]⟩
      | cons y xs =>
        refine ⟨t ++ 44 :: [44].intercalate ((y :: xs).map text), ?_⟩
        rw [List.map_cons, List.intercalate_cons_of_ne_nil (by simp), first]
        simp
    have enough : (x :: xs).length ≤ (t' ++ close :: rest).length + 1 := by
      rw [whole] at long
      simp only [List.length_append, List.length_cons] at long ⊢
      omega
    have read := @separated_eq_some _ space item close text P comma closing ends (x :: xs) (List.cons_ne_nil x xs) reads
      ((t' ++ close :: rest).length + 1) enough rest r
    rw [whole, List.cons_append] at read ⊢
    rw [enclosed, List.dropWhile_cons_of_neg (by simpa using solid)]
    simp only [if_neg other]
    exact read

end

/-! ### Well-formed texts -/

/-- The strings that are written well: whole characters, and no control character that stays as it is. -/
def Writable (escape : UInt8 → List UInt8) (s : List UInt8) : Prop :=
  utf8 (s.flatMap escape) = true ∧ ∀ c ∈ s, escape c = [c] → 32 ≤ c

instance decidableWritable (escape : UInt8 → List UInt8) (s : List UInt8) : Decidable (Writable escape s) :=
  inferInstanceAs (Decidable (_ ∧ _))

/-- The values that are written well, nested less than `depth` times. -/
def Readable (escape : UInt8 → List UInt8) : Nat → Json → Prop
  | 0, _ => False
  | _ + 1, .null => True
  | _ + 1, .bool _ => True
  | _ + 1, .number n => n.value.isSome
  | _ + 1, .string s => Writable escape s
  | depth + 1, .array items => ∀ v ∈ items, Readable escape depth v
  | depth + 1, .object members => ∀ m ∈ members, Writable escape m.1 ∧ Readable escape depth m.2

variable {escape : UInt8 → List UInt8}

theorem Readable.mono {depth depth' : Nat} {v : Json} (readable : Readable escape depth v) (deeper : depth ≤ depth') :
    Readable escape depth' v := by
  induction depth generalizing depth' v with
  | zero => exact readable.elim
  | succ depth ih =>
    obtain ⟨depth', rfl⟩ : ∃ k, depth' = k + 1 := ⟨depth' - 1, by omega⟩
    cases v with
    | null => trivial
    | bool b => trivial
    | number n => exact readable
    | string s => exact readable
    | array items => exact fun v member => ih (readable v member) (by omega)
    | object members => exact fun m member => ⟨(readable m member).1, ih (readable m member).2 (by omega)⟩

/-- What is in a value that is written well is written well. -/
theorem Readable.at? {depth : Nat} {path : List (List UInt8)} {v w : Json} (readable : Readable escape depth v)
    (there : at? path v = some w) : ∃ depth', Readable escape depth' w := by
  induction path generalizing depth v with
  | nil =>
    obtain rfl := Option.some.inj there
    exact ⟨depth, readable⟩
  | cons name path ih =>
    cases depth with
    | zero => exact readable.elim
    | succ depth =>
      cases v with
      | object members =>
        obtain ⟨inner, found, there⟩ := Option.bind_eq_some_iff.mp there
        exact ih (readable _ (mem_of_find found)).2 there
      | null => simp [Json.at?] at there
      | bool b => simp [Json.at?] at there
      | number n => simp [Json.at?] at there
      | string s => simp [Json.at?] at there
      | array items => simp [Json.at?] at there

theorem head_text (n : Numeral) : ∃ b t, n.text = b :: t ∧ (b = 45 ∨ isDigit b = true ∨ b = 105 ∨ b = 110) := by
  rcases n.printed with read | none
  · obtain ⟨⟨b, t, text, first⟩, _⟩ := evaluate_bytes read
    exact ⟨b, t, text, first.imp_right .inl⟩
  · simp only [List.mem_cons, List.not_mem_nil, or_false] at none
    rcases none with text | text | text | text
    · exact ⟨105, ascii "nf", text, by decide⟩
    · exact ⟨45, ascii "inf", text, by decide⟩
    · exact ⟨110, ascii "an", text, by decide⟩
    · exact ⟨45, ascii "nan", text, by decide⟩

/-- The first byte of a value is no white space and closes nothing. -/
theorem write_head (escape : UInt8 → List UInt8) (v : Json) :
    ∃ b t, write escape v = b :: t ∧ wellFormed.space b = false ∧ b ≠ 93 ∧ b ≠ 125 := by
  cases v with
  | null => exact ⟨110, ascii "ull", by rw [write]; decide, by decide⟩
  | bool b =>
    cases b with
    | true => exact ⟨116, ascii "rue", by rw [write]; decide, by decide⟩
    | false => exact ⟨102, ascii "alse", by rw [write]; decide, by decide⟩
  | number n =>
    obtain ⟨b, t, text, first⟩ := head_text n
    refine ⟨b, t, by rw [write, text], ?_⟩
    rcases first with rfl | digit | rfl | rfl
    · decide
    · have other : ∀ c, isDigit c = false → b ≠ c := by
        rintro c no_digit rfl
        exact Bool.false_ne_true (no_digit.symm.trans digit)
      have space : wellFormed.space b = false := by
        simp [wellFormed, other 32 (by decide), other 9 (by decide), other 10 (by decide), other 13 (by decide)]
      exact ⟨space, other 93 (by decide), other 125 (by decide)⟩
    · decide
    · decide
  | string s => exact ⟨34, _, by rw [write, quoted], by decide⟩
  | array items => exact ⟨91, _, by rw [write], by decide⟩
  | object members => exact ⟨123, _, by rw [write], by decide⟩

theorem readString_eq_some (escapes : Escapes escape) {s rest : List UInt8} {r : List UInt8 × List UInt8} :
    wellFormed.readString (s.flatMap escape ++ 34 :: rest) = some r ↔ Writable escape s ∧ r = (s, rest) := by
  have split : untilQuote (s.flatMap escape ++ 34 :: rest) = some (s.flatMap escape, rest) :=
    untilQuote_eq_some.mpr ⟨escapes.body s, rfl⟩
  rw [Dialect.readString, split, Option.bind_some, Option.map_eq_some_iff]
  simp only [wellFormed, Option.ite_none_right_eq_some, escapes.unescape, Writable]
  constructor
  · rintro ⟨t, ⟨whole, rfl, printable⟩, rfl⟩
    exact ⟨⟨whole, printable⟩, rfl⟩
  · rintro ⟨⟨whole, printable⟩, rfl⟩
    exact ⟨s, ⟨whole, rfl, printable⟩, rfl⟩

theorem not_isNumberByte {rest : List UInt8} (stop : Delimited rest) : ∀ b ∈ rest.head?, isNumberByte b = false := by
  intro b head
  rcases stop b head with rfl | rfl | rfl <;> decide

theorem takeWhile_number {text rest : List UInt8} (bytes : ∀ b ∈ text, isNumberByte b = true) (stop : Delimited rest) :
    (text ++ rest).takeWhile isNumberByte = text ∧ (text ++ rest).dropWhile isNumberByte = rest := by
  have stopped : rest.takeWhile isNumberByte = [] ∧ rest.dropWhile isNumberByte = rest := by
    cases rest with
    | nil => simp
    | cons b rest => simp [not_isNumberByte stop b rfl]
  rw [List.takeWhile_append_of_pos bytes, List.dropWhile_append_of_pos bytes, stopped.1, stopped.2, List.append_nil]
  exact ⟨rfl, rfl⟩

theorem number_eq_some (n : Numeral) {rest : List UInt8} (stop : Delimited rest) {r : Numeral × List UInt8} :
    wellFormed.number (n.text ++ rest) = some r ↔ n.value.isSome ∧ r = (n, rest) := by
  by_cases value : (evaluate n.text).isSome
  · obtain ⟨taken, dropped⟩ := takeWhile_number (evaluate_bytes value).2 stop
    have whole : wellFormed.number (n.text ++ rest) = some (n, rest) := by
      simp only [wellFormed, taken, dropped]
      rw [dif_pos value]
    rw [whole, Numeral.value]
    simp [value, eq_comm]
  · have unread : ∀ text : List UInt8, (evaluate (text.takeWhile isNumberByte)).isSome = false →
        wellFormed.number text = none := by
      intro text none
      simp [wellFormed, none]
    have none : wellFormed.number (n.text ++ rest) = none := by
      apply unread
      have printed := n.printed.resolve_left value
      simp only [List.mem_cons, List.not_mem_nil, or_false] at printed
      rcases printed with text | text | text | text <;> rw [text] <;> rfl
    rw [none, Numeral.value]
    simp [value]

theorem literal_eq_some {text rest : List UInt8} {v : Json} {r : Json × List UInt8} :
    literal text v (text ++ rest) = some r ↔ r = (v, rest) := by
  rw [literal, if_pos (by simp), List.drop_left, Option.some.injEq]
  exact eq_comm

theorem readValue_cons {b : UInt8} (solid : wellFormed.space b = false) (depth : Nat) (rest : List UInt8) :
    wellFormed.readValue (depth + 1) (b :: rest) = wellFormed.valueFrom (wellFormed.readValue depth) b rest := by
  rw [Dialect.readValue, List.dropWhile_cons_of_neg (by simpa using solid)]

theorem readMember_eq_some (escapes : Escapes escape) {value : List UInt8 → Option (Json × List UInt8)}
    {P : Json → Prop}
    {m : List UInt8 × Json} {rest : List UInt8}
    (reads : ∀ r, value (write escape m.2 ++ rest) = some r ↔ P m.2 ∧ r = (m.2, rest))
    {r : (List UInt8 × Json) × List UInt8} :
    wellFormed.readMember value (quoted escape m.1 ++ 58 :: write escape m.2 ++ rest) = some r ↔
      (Writable escape m.1 ∧ P m.2) ∧ r = (m, rest) := by
  have text : quoted escape m.1 ++ 58 :: write escape m.2 ++ rest =
      34 :: (m.1.flatMap escape ++ 34 :: 58 :: (write escape m.2 ++ rest)) := by simp [quoted]
  have quote : (34 :: (m.1.flatMap escape ++ 34 :: 58 :: (write escape m.2 ++ rest))).dropWhile wellFormed.space =
      34 :: (m.1.flatMap escape ++ 34 :: 58 :: (write escape m.2 ++ rest)) := List.dropWhile_cons_of_neg (by decide)
  have opens : wellFormed.opens 34 = true := rfl
  have colon : (58 :: (write escape m.2 ++ rest)).dropWhile wellFormed.space = 58 :: (write escape m.2 ++ rest) :=
    List.dropWhile_cons_of_neg (by decide)
  rw [text, Dialect.readMember, Dialect.readName, quote]
  simp only [opens, if_true, Option.bind_eq_some_iff, readString_eq_some escapes]
  constructor
  · rintro ⟨_, ⟨writable, rfl⟩, read⟩
    rw [colon] at read
    simp only [if_true, Option.map_eq_some_iff, reads] at read
    obtain ⟨_, ⟨holds, rfl⟩, rfl⟩ := read
    exact ⟨⟨writable, holds⟩, rfl⟩
  · rintro ⟨⟨writable, holds⟩, rfl⟩
    refine ⟨_, ⟨writable, rfl⟩, ?_⟩
    rw [colon]
    simp only [if_true, Option.map_eq_some_iff, reads]
    exact ⟨_, ⟨holds, rfl⟩, rfl⟩

/-- A number is told from the literals by its first byte, but that `nan` begins like `null`. -/
theorem valueFrom_number {value : List UInt8 → Option (Json × List UInt8)} {n : Numeral} {b : UInt8}
    {t rest : List UInt8} (text : n.text = b :: t) (stop : Delimited rest) {r : Json × List UInt8} :
    wellFormed.valueFrom value b (t ++ rest) = some r ↔ n.value.isSome ∧ r = (.number n, rest) := by
  rw [Dialect.valueFrom]
  have whole : b :: (t ++ rest) = n.text ++ rest := by
    rw [← List.cons_append, ← text]
  have read : ((wellFormed.number (b :: (t ++ rest))).map fun n => (Json.number n.1, n.2)) = some r ↔
      n.value.isSome ∧ r = (.number n, rest) := by
    simp only [whole, Option.map_eq_some_iff, number_eq_some n stop]
    constructor
    · rintro ⟨_, ⟨value, rfl⟩, rfl⟩
      exact ⟨value, rfl⟩
    · rintro ⟨value, rfl⟩
      exact ⟨_, ⟨value, rfl⟩, rfl⟩
  obtain ⟨b', t', text', first⟩ := head_text n
  obtain ⟨rfl, rfl⟩ : b = b' ∧ t = t' := by
    rw [text'] at text
    exact (List.cons_eq_cons.mp text).imp Eq.symm Eq.symm
  by_cases letter : b = 110
  · subst letter
    have unread : ¬ n.value.isSome := by
      intro value
      obtain ⟨⟨c, u, same, digit⟩, _⟩ := evaluate_bytes value
      obtain ⟨rfl, _⟩ := List.cons_eq_cons.mp (text'.symm.trans same)
      exact absurd digit (by decide)
    have nan : n.text = ascii "nan" := by
      have printed := n.printed.resolve_left unread
      simp only [List.mem_cons, List.not_mem_nil, or_false] at printed
      rcases printed with same | same | same | same
      · exact absurd (text'.symm.trans same) (by simp [ascii])
      · exact absurd (text'.symm.trans same) (by simp [ascii])
      · exact same
      · exact absurd (text'.symm.trans same) (by simp [ascii])
    have none : literal (ascii "null") .null (ascii "nan" ++ rest) = none := by
      rw [literal, if_neg (by simp [ascii])]
    rw [if_neg (by decide), if_neg (by decide), if_neg (by decide), if_pos rfl, whole, nan, none]
    simp [unread]
  · have other : b ≠ 123 ∧ b ≠ 91 ∧ b ≠ 34 ∧ b ≠ 116 ∧ b ≠ 102 := by
      rcases first with rfl | digit | rfl | rfl
      · decide
      · refine ⟨?_, ?_, ?_, ?_, ?_⟩ <;> rintro rfl <;> exact absurd digit (by decide)
      · decide
      · exact absurd rfl letter
    obtain ⟨no_object, no_array, no_string, no_true, no_false⟩ := other
    rw [if_neg no_object, if_neg no_array, if_neg no_string, if_neg letter, if_neg no_true, if_neg no_false]
    exact read

/-- A value reads as itself, or not at all. -/
theorem readValue_write (escapes : Escapes escape) {depth : Nat} {v : Json} {rest : List UInt8} (stop : Delimited rest)
    {r : Json × List UInt8} :
    wellFormed.readValue depth (write escape v ++ rest) = some r ↔ Readable escape depth v ∧ r = (v, rest) := by
  induction depth generalizing v rest r with
  | zero => simp [Dialect.readValue, Readable]
  | succ depth ih =>
    obtain ⟨b, t, text, solid, -⟩ := write_head escape v
    rw [text, List.cons_append, readValue_cons solid]
    cases v with
    | null =>
      obtain ⟨rfl, rfl⟩ : 110 = b ∧ ascii "ull" = t := List.cons_eq_cons.mp text
      rw [Dialect.valueFrom, if_neg (by decide), if_neg (by decide), if_neg (by decide), if_pos rfl]
      exact (@literal_eq_some (ascii "null") rest .null r).trans (iff_of_eq (true_and _)).symm
    | bool value =>
      cases value with
      | true =>
        obtain ⟨rfl, rfl⟩ : 116 = b ∧ ascii "rue" = t := List.cons_eq_cons.mp text
        rw [Dialect.valueFrom, if_neg (by decide), if_neg (by decide), if_neg (by decide), if_neg (by decide),
          if_pos rfl]
        exact (@literal_eq_some (ascii "true") rest (.bool true) r).trans (iff_of_eq (true_and _)).symm
      | false =>
        obtain ⟨rfl, rfl⟩ : 102 = b ∧ ascii "alse" = t := List.cons_eq_cons.mp text
        rw [Dialect.valueFrom, if_neg (by decide), if_neg (by decide), if_neg (by decide), if_neg (by decide),
          if_neg (by decide), if_pos rfl]
        exact (@literal_eq_some (ascii "false") rest (.bool false) r).trans (iff_of_eq (true_and _)).symm
    | number n => exact valueFrom_number text stop
    | string s =>
      obtain ⟨rfl, rfl⟩ : 34 = b ∧ s.flatMap escape ++ [34] = t := List.cons_eq_cons.mp text
      rw [Dialect.valueFrom, if_neg (by decide), if_neg (by decide), if_pos rfl, List.append_assoc,
        List.singleton_append]
      simp only [Option.map_eq_some_iff, readString_eq_some escapes, Readable]
      constructor
      · rintro ⟨_, ⟨writable, rfl⟩, rfl⟩
        exact ⟨writable, rfl⟩
      · rintro ⟨writable, rfl⟩
        exact ⟨_, ⟨writable, rfl⟩, rfl⟩
    | array items =>
      obtain ⟨rfl, rfl⟩ : 91 = b ∧ [44].intercalate (writeItems escape items) ++ [93] = t := List.cons_eq_cons.mp text
      have heads : ∀ v ∈ items, ∃ b t, write escape v = b :: t ∧ wellFormed.space b = false ∧ b ≠ 93 := by
        intro v _
        obtain ⟨b, t, text, solid, no_end, _⟩ := write_head escape v
        exact ⟨b, t, text, solid, no_end⟩
      have reads := fun r => @enclosed_eq_some _ wellFormed.space (wellFormed.readValue depth) 93 (write escape)
        (Readable escape depth) rfl rfl (.inl rfl) items (fun v _ rest r stop => ih stop) heads rest r
      rw [Dialect.valueFrom, if_neg (by decide), if_pos rfl, writeItems_eq, List.append_assoc, List.singleton_append]
      simp only [Option.bind_eq_some_iff, reads, Readable]
      constructor
      · rintro ⟨_, ⟨readable, rfl⟩, same⟩
        exact ⟨readable, (Option.some.inj same).symm⟩
      · rintro ⟨readable, rfl⟩
        exact ⟨_, ⟨readable, rfl⟩, rfl⟩
    | object members =>
      obtain ⟨rfl, rfl⟩ : 123 = b ∧ [44].intercalate (writeMembers escape members) ++ [125] = t :=
        List.cons_eq_cons.mp text
      have reads := fun r => @enclosed_eq_some _ wellFormed.space
        (wellFormed.readMember (wellFormed.readValue depth)) 125
        (fun m => quoted escape m.1 ++ 58 :: write escape m.2)
        (fun m => Writable escape m.1 ∧ Readable escape depth m.2) rfl rfl (.inr rfl) members
        (fun m _ rest r stop => readMember_eq_some escapes fun r => ih stop)
        (fun m _ => ⟨34, _, rfl, by decide, by decide⟩) rest r
      rw [Dialect.valueFrom, if_pos rfl, writeMembers_eq, List.append_assoc, List.singleton_append]
      simp only [Option.bind_eq_some_iff, reads, Readable]
      constructor
      · rintro ⟨_, ⟨readable, rfl⟩, same⟩
        exact ⟨readable, (Option.some.inj same).symm⟩
      · rintro ⟨readable, rfl⟩
        exact ⟨_, ⟨readable, rfl⟩, rfl⟩

/-- What is nested deeper than a text is long is not in the text. -/
theorem Readable.within {depth : Nat} {v : Json} (readable : Readable escape depth v) :
    Readable escape ((write escape v).length + 1) v := by
  induction depth generalizing v with
  | zero => exact readable.elim
  | succ depth ih =>
    cases v with
    | null => trivial
    | bool b => trivial
    | number n => exact readable
    | string s => exact readable
    | array items =>
      intro v member
      have inside := @length_item_le _ (write escape) items v member
      apply (ih (readable v member)).mono
      rw [write, writeItems_eq, List.length_cons, List.length_append]
      omega
    | object members =>
      intro m member
      have inside := @length_item_le _ (fun m => quoted escape m.1 ++ 58 :: write escape m.2) members m member
      rw [List.length_append, List.length_cons] at inside
      refine ⟨(readable m member).1, (ih (readable m member).2).mono ?_⟩
      rw [write, writeMembers_eq, List.length_cons, List.length_append]
      omega

/-- A text is read as what was written, and it is well formed when that is written well. -/
theorem read_write (escapes : Escapes escape) {v w : Json} :
    read (write escape v) = some w ↔ (∃ depth, Readable escape depth v) ∧ w = v := by
  have whole := fun r => @readValue_write escape escapes ((write escape v).length + 1) v [] (by simp [Delimited]) r
  rw [List.append_nil] at whole
  simp only [read, Option.bind_eq_some_iff, whole]
  constructor
  · rintro ⟨_, ⟨readable, rfl⟩, same⟩
    exact ⟨⟨_, readable⟩, (Option.some.inj same).symm⟩
  · rintro ⟨⟨depth, readable⟩, rfl⟩
    exact ⟨_, ⟨readable.within, rfl⟩, rfl⟩

/-! ### What a reader leaves -/

section
variable {α : Type} {space : UInt8 → Bool} {item : List UInt8 → Option (α × List UInt8)} {close : UInt8}

/-- Each item is read somewhere in the text. -/
theorem separated_items (leaves : ∀ s x, item s = some x → x.2 <:+ s) {n : Nat} {s : List UInt8}
    {xs : List α × List UInt8} (read : separated space item close n s = some xs) :
    xs.2 <:+ s ∧ ∀ x ∈ xs.1, ∃ t rest, t <:+ s ∧ item t = some (x, rest) := by
  induction n generalizing s xs with
  | zero => simp [separated] at read
  | succ n ih =>
    rw [separated] at read
    obtain ⟨x, first, read⟩ := Option.bind_eq_some_iff.mp read
    have behind := leaves s x first
    cases text : x.2.dropWhile space with
    | nil => simp [text] at read
    | cons b rest =>
      have left : b :: rest <:+ s := text ▸ (List.dropWhile_suffix space).trans behind
      have left' : rest <:+ s := (List.suffix_cons b rest).trans left
      simp only [text] at read
      split at read
      · obtain ⟨tail, later, rfl⟩ := Option.map_eq_some_iff.mp read
        obtain ⟨after, items⟩ := ih later
        refine ⟨after.trans left', ?_⟩
        intro y member
        rw [List.mem_cons] at member
        rcases member with rfl | member
        · exact ⟨s, x.2, List.suffix_rfl, first⟩
        · obtain ⟨t, u, inside, found⟩ := items y member
          exact ⟨t, u, inside.trans left', found⟩
      · split at read
        · obtain rfl := Option.some.inj read
          refine ⟨left', ?_⟩
          intro y member
          obtain rfl := List.mem_singleton.mp member
          exact ⟨s, x.2, List.suffix_rfl, first⟩
        · simp at read

theorem enclosed_items (leaves : ∀ s x, item s = some x → x.2 <:+ s) {s : List UInt8} {xs : List α × List UInt8}
    (read : enclosed space item close s = some xs) :
    xs.2 <:+ s ∧ ∀ x ∈ xs.1, ∃ t rest, t <:+ s ∧ item t = some (x, rest) := by
  unfold enclosed at read
  cases text : s.dropWhile space with
  | nil => simp [text] at read
  | cons b rest =>
    have left : b :: rest <:+ s := text ▸ List.dropWhile_suffix space
    simp only [text] at read
    split at read
    · obtain rfl := Option.some.inj read
      exact ⟨(List.suffix_cons b rest).trans left, by simp⟩
    · obtain ⟨after, items⟩ := separated_items leaves read
      refine ⟨after.trans left, ?_⟩
      intro x member
      obtain ⟨t, u, inside, found⟩ := items x member
      exact ⟨t, u, inside.trans left, found⟩

end

namespace Dialect
variable {d : Dialect}

theorem readString_suffix {s : List UInt8} {r : List UInt8 × List UInt8} (read : d.readString s = some r) :
    r.2 <:+ s := by
  obtain ⟨⟨body, rest⟩, found, read⟩ := Option.bind_eq_some_iff.mp read
  obtain ⟨t, _, rfl⟩ := Option.map_eq_some_iff.mp read
  obtain ⟨_, rfl⟩ := untilQuote_eq_some.mp found
  exact (List.suffix_cons 34 rest).trans (List.suffix_append body _)

theorem readMember_suffix {value : List UInt8 → Option (Json × List UInt8)}
    (leaves : ∀ s x, value s = some x → x.2 <:+ s)
    {s : List UInt8} {r : (List UInt8 × Json) × List UInt8} (read : d.readMember value s = some r) : r.2 <:+ s := by
  obtain ⟨name, named, read⟩ := Option.bind_eq_some_iff.mp read
  have behind : name.2 <:+ s := by
    unfold readName at named
    cases text : s.dropWhile d.space with
    | nil => simp [text] at named
    | cons b rest =>
      simp only [text] at named
      split at named
      · exact (readString_suffix named).trans ((List.suffix_cons b rest).trans (text ▸ List.dropWhile_suffix d.space))
      · simp at named
  cases text : name.2.dropWhile d.space with
  | nil => simp [text] at read
  | cons b rest =>
    have left : b :: rest <:+ s := text ▸ (List.dropWhile_suffix d.space).trans behind
    simp only [text] at read
    split at read
    · obtain ⟨v, valued, rfl⟩ := Option.map_eq_some_iff.mp read
      exact (leaves _ _ valued).trans ((List.suffix_cons b rest).trans left)
    · simp at read

theorem literal_suffix {text s : List UInt8} {v : Json} {r : Json × List UInt8} (read : literal text v s = some r) :
    r.2 <:+ s ∧ r.1 = v := by
  unfold literal at read
  split at read
  · obtain rfl := Option.some.inj read
    exact ⟨List.drop_suffix _ _, rfl⟩
  · simp at read

theorem valueFrom_suffix (numbers : ∀ s n, d.number s = some n → n.2 <:+ s)
    {value : List UInt8 → Option (Json × List UInt8)} (leaves : ∀ s x, value s = some x → x.2 <:+ s) {b : UInt8}
    {rest : List UInt8} {r : Json × List UInt8} (read : d.valueFrom value b rest = some r) :
    r.2 <:+ b :: rest ∧ ∀ s, r.1 = .string s → b = 34 ∧ d.readString rest = some (s, r.2) := by
  unfold valueFrom at read
  have behind := List.suffix_cons b rest
  split at read
  · obtain ⟨members, found, read⟩ := Option.bind_eq_some_iff.mp read
    split at read
    · obtain rfl := Option.some.inj read
      exact ⟨(enclosed_items (fun _ _ => readMember_suffix leaves) found).1.trans behind, by simp⟩
    · simp at read
  split at read
  · obtain ⟨items, found, read⟩ := Option.bind_eq_some_iff.mp read
    split at read
    · obtain rfl := Option.some.inj read
      exact ⟨(enclosed_items leaves found).1.trans behind, by simp⟩
    · simp at read
  split at read
  · next quote =>
    obtain ⟨t, found, rfl⟩ := Option.map_eq_some_iff.mp read
    refine ⟨(readString_suffix found).trans behind, ?_⟩
    intro s same
    obtain rfl := Json.string.inj same
    exact ⟨quote, found⟩
  split at read
  · obtain ⟨left, value⟩ := literal_suffix read
    exact ⟨left, by simp [value]⟩
  split at read
  · obtain ⟨left, value⟩ := literal_suffix read
    exact ⟨left, by simp [value]⟩
  split at read
  · obtain ⟨left, value⟩ := literal_suffix read
    exact ⟨left, by simp [value]⟩
  · obtain ⟨n, found, rfl⟩ := Option.map_eq_some_iff.mp read
    exact ⟨numbers _ _ found, by simp⟩

theorem readValue_suffix (numbers : ∀ s n, d.number s = some n → n.2 <:+ s) {depth : Nat} {s : List UInt8}
    {r : Json × List UInt8} (read : d.readValue depth s = some r) :
    r.2 <:+ s ∧ ∀ text, r.1 = .string text → ∃ t, 34 :: t <:+ s ∧ d.readString t = some (text, r.2) := by
  induction depth generalizing s r with
  | zero => simp [readValue] at read
  | succ depth ih =>
    rw [readValue] at read
    cases text : s.dropWhile d.space with
    | nil => simp [text] at read
    | cons b rest =>
      have left : b :: rest <:+ s := text ▸ List.dropWhile_suffix d.space
      simp only [text] at read
      obtain ⟨after, strings⟩ := valueFrom_suffix numbers (fun _ _ found => (ih found).1) read
      refine ⟨after.trans left, ?_⟩
      intro text same
      obtain ⟨rfl, found⟩ := strings text same
      exact ⟨rest, left, found⟩

end Dialect

end Json
end LiveStreaming.Library
