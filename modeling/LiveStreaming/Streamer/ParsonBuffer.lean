import LiveStreaming.Library.Buffer
import LiveStreaming.Streamer.Parson

/-!
# The buffer of parson

`json_serialize_to_string` allocates what `json_serialization_size` counts and then prints into it, and nothing but the
count keeps the prints within the buffer. `jsonSerializeToBuffer_eq` shows that the two agree for every value parson
holds.
-/

namespace LiveStreaming.Streamer
open Library Library.CString Library.Json Library.JsonNumber Library.Writer

/-! ### Values -/

def Double.InRange : Double → Prop
  | .finite q => |q| < 2 ^ 1024
  | _ => True

/-- What a `JSON_Value` holds: strings without a zero, a double for each number, and each name once. -/
inductive Held : Json → Prop where
  | null : Held .null
  | bool (b : Bool) : Held (.bool b)
  | number {n : Numeral} (d : Double) (range : d.InRange) (text : n.text = serializeNumber d) : Held (.number n)
  | string {s : List UInt8} (ended : 0 ∉ s) : Held (.string s)
  | array {items : List Json} (each : ∀ v ∈ items, Held v) : Held (.array items)
  | object {members : Members} (differ : (members.map Prod.fst).Nodup) (ended : ∀ m ∈ members, 0 ∉ m.1)
      (each : ∀ m ∈ members, Held m.2) : Held (.object members)

theorem length_decimal_le {n k : Nat} (digits : 0 < k) (below : n < 10 ^ k) : (decimal n).length ≤ k := by
  rw [decimal]
  split
  · exact digits
  · rw [List.length_reverse, List.length_map]
    exact (Nat.digits_length_le_iff (by decide) n).mpr below

theorem length_signed_le (negative : Bool) (text : List UInt8) : (signed negative text).length ≤ text.length + 1 := by
  cases negative with
  | true => exact le_rfl
  | false => exact Nat.le_succ _

theorem roundEven_le {q : ℚ} {n : Nat} (positive : 0 < n) (below : q < n) : roundEven q ≤ n := by
  have floor : q.floor < n := Rat.floor_lt_iff.mpr (by exact_mod_cast below)
  rw [roundEven]
  split <;> omega

theorem fixed_whole_lt {q : ℚ} (range : |q| < 2 ^ 1024) : roundEven (|q| * 10 ^ 6) / 10 ^ 6 < 10 ^ 1024 := by
  have grows : ∀ k : Nat, k ≠ 0 → 2 ^ k < 10 ^ k := fun _ => Nat.pow_lt_pow_left (by decide)
  have unit : (0 : ℚ) < 10 ^ 6 := by norm_num
  have millionths : roundEven (|q| * 10 ^ 6) ≤ 2 ^ 1024 * 10 ^ 6 := by
    apply roundEven_le (by positivity)
    rw [Nat.cast_mul, Nat.cast_pow, Nat.cast_pow, Nat.cast_ofNat, Nat.cast_ofNat]
    exact mul_lt_mul_of_pos_right range unit
  refine lt_of_le_of_lt (Nat.div_le_div_right millionths) ?_
  rw [Nat.mul_div_cancel _ (by norm_num)]
  exact grows 1024 (by decide)

theorem length_fixed_le {q : ℚ} (range : |q| < 2 ^ 1024) : (fixed q).length ≤ 1032 := by
  have text := length_decimal_le (by decide) (fixed_whole_lt range)
  clear range
  refine (length_signed_le _ _).trans ?_
  rw [List.length_append, List.length_cons, length_padded]
  omega

/-- The scratch buffer of `json_serialization_size` takes the text of every double. -/
theorem length_serializeNumber_lt {d : Double} (range : d.InRange) : (serializeNumber d).length < 1100 := by
  cases d with
  | finite q =>
    rw [serializeNumber]
    split
    · next int =>
      have text := @length_decimal_le q.num.natAbs 10 (by decide) (by omega)
      have sign := length_signed_le (decide (q < 0)) (decimal q.num.natAbs)
      omega
    · have text := length_fixed_le range
      omega
  | infinite negative => cases negative <;> decide
  | nan negative => cases negative <;> decide

/-! ### Counting -/

def serializationStrlen (string : List UInt8) : Nat :=
  (cString string).foldl (fun result c => result + if c ∈ [34, 92, 8, 12, 10, 13, 9] then 2 else 1) 0

/-- `values` has what is counted for each member. Where `json_object_get_value` finds none, nothing is counted. -/
def sizeMembers (values : List (List UInt8 × Option Nat)) : List (List UInt8 × Option Nat) → Nat → Option Nat
  | [], result => some result
  | (key, _) :: rest, result =>
    ((values.lookup key).getD (some 0)).bind fun size =>
      sizeMembers values rest (result + (serializationStrlen key + 2) + size)

mutual

/-- The text of a number is printed into the scratch buffer; `none` where it does not fit. -/
def jsonSerializationSizeR : Json → Option Nat
  | .null => some 4
  | .bool true => some 4
  | .bool false => some 5
  | .number n => if n.text.length < 1100 then some n.text.length else none
  | .string s => some (serializationStrlen s + 2)
  | .array items => sizeItems items (2 + (items.length - 1))
  | .object members => sizeMembers (memberSizes members) (memberSizes members) (2 + (members.length * 2 - 1))

def sizeItems : List Json → Nat → Option Nat
  | [], result => some result
  | v :: items, result => (jsonSerializationSizeR v).bind fun size => sizeItems items (result + size)

def memberSizes : List (List UInt8 × Json) → List (List UInt8 × Option Nat)
  | [] => []
  | (key, v) :: members => (key, jsonSerializationSizeR v) :: memberSizes members

end

def jsonSerializationSize (v : Json) : Option Nat := (jsonSerializationSizeR v).map (· + 1)

/-! ### Printing -/

/-- `PRINT_AND_SKIP`. -/
def printAndSkip (text : List UInt8) : Writer UInt8 := Writer.print 0 text

def jsonSerializeString (string : List UInt8) : Writer UInt8 := fun buffer buf => do
  let out ← printAndSkip [34] buffer buf
  let out ← (cString string).foldlM (fun out c => printAndSkip (serializeChar c) out.1 out.2) out
  printAndSkip [34] out.1 out.2

/-- The comma behind each item but the last. -/
def printComma {α : Type} (rest : List α) : Writer UInt8 := fun buffer buf =>
  if rest.isEmpty then some (buffer, buf) else printAndSkip [44] buffer buf

/-- `values` has what is printed for each member. -/
def serializeMembers (values : List (List UInt8 × Writer UInt8)) : List (List UInt8 × Writer UInt8) → Writer UInt8
  | [], buffer, buf => some (buffer, buf)
  | (key, _) :: rest, buffer, buf => do
    let out ← jsonSerializeString key buffer buf
    let out ← printAndSkip [58] out.1 out.2
    let out ← ((values.lookup key).getD fun _ _ => none) out.1 out.2
    let out ← printComma rest out.1 out.2
    serializeMembers values rest out.1 out.2

mutual

def jsonSerializeToBufferR : Json → Writer UInt8
  | .null => printAndSkip (ascii "null")
  | .bool true => printAndSkip (ascii "true")
  | .bool false => printAndSkip (ascii "false")
  | .number n => printAndSkip n.text
  | .string s => jsonSerializeString s
  | .array items => fun buffer buf => do
    let out ← printAndSkip [91] buffer buf
    let out ← serializeItems items out.1 out.2
    printAndSkip [93] out.1 out.2
  | .object members => fun buffer buf => do
    let out ← printAndSkip [123] buffer buf
    let out ← serializeMembers (memberWriters members) (memberWriters members) out.1 out.2
    printAndSkip [125] out.1 out.2

def serializeItems : List Json → Writer UInt8
  | [], buffer, buf => some (buffer, buf)
  | v :: items, buffer, buf => do
    let out ← jsonSerializeToBufferR v buffer buf
    let out ← printComma items out.1 out.2
    serializeItems items out.1 out.2

def memberWriters : List (List UInt8 × Json) → List (List UInt8 × Writer UInt8)
  | [] => []
  | (key, v) :: members => (key, jsonSerializeToBufferR v) :: memberWriters members

end

/-- `none` where the buffer is too small, and where something is printed beyond it. -/
def jsonSerializeToBuffer (v : Json) (buffer : List UInt8) : Option (List UInt8) :=
  (jsonSerializationSize v).bind fun needed =>
    if buffer.length < needed then none else (jsonSerializeToBufferR v buffer 0).map Prod.fst

/-! ### What is counted -/

theorem length_serializeChar (c : UInt8) :
    (serializeChar c).length = if c ∈ [34, 92, 8, 12, 10, 13, 9] then 2 else 1 := by
  unfold serializeChar
  split
  · next same => rw [same]; rfl
  split
  · next same => rw [same]; rfl
  split
  · next same => rw [same]; rfl
  split
  · next same => rw [same]; rfl
  split
  · next same => rw [same]; rfl
  split
  · next same => rw [same]; rfl
  split
  · next same => rw [same]; rfl
  · next no_quote no_backslash no_b no_f no_n no_r no_t =>
    simp [no_quote, no_backslash, no_b, no_f, no_n, no_r, no_t]

theorem serializationStrlen_eq {s : List UInt8} (ended : 0 ∉ s) :
    serializationStrlen s = (s.flatMap serializeChar).length := by
  have counted : ∀ (s : List UInt8) (n : Nat),
      s.foldl (fun result c => result + if c ∈ [34, 92, 8, 12, 10, 13, 9] then 2 else 1) n =
        n + (s.flatMap serializeChar).length := by
    intro s
    induction s with
    | nil => exact fun n => rfl
    | cons c s ih =>
      intro n
      rw [List.foldl_cons, ih, List.flatMap_cons, List.length_append, length_serializeChar, Nat.add_assoc]
  rw [serializationStrlen, cString_eq ended, counted, Nat.zero_add]

theorem memberSizes_eq (members : Members) :
    memberSizes members = members.map fun m => (m.1, jsonSerializationSizeR m.2) := by
  induction members with
  | nil => rfl
  | cons m members ih => rw [memberSizes, ih, List.map_cons]

theorem memberWriters_eq (members : Members) :
    memberWriters members = members.map fun m => (m.1, jsonSerializeToBufferR m.2) := by
  induction members with
  | nil => rfl
  | cons m members ih => rw [memberWriters, ih, List.map_cons]

/-- Where no name stands twice, a member is found by its name. -/
theorem lookup_map {β : Type} (f : Json → β) {members : Members} (differ : (members.map Prod.fst).Nodup)
    {m : List UInt8 × Json} (member : m ∈ members) :
    (members.map fun m => (m.1, f m.2)).lookup m.1 = some (f m.2) := by
  induction members with
  | nil => exact absurd member (List.not_mem_nil)
  | cons m' members ih =>
    rw [List.map_cons, List.nodup_cons] at differ
    rw [List.map_cons, List.lookup_cons]
    rcases List.mem_cons.mp member with rfl | later
    · rw [beq_self_eq_true]
    · have other : m.1 ≠ m'.1 := fun same => differ.1 (same ▸ List.mem_map_of_mem later)
      rw [beq_false_of_ne other]
      exact ih differ.2 later

theorem length_intercalate (xs : List (List UInt8)) :
    ([44].intercalate xs).length = xs.flatten.length + (xs.length - 1) := by
  induction xs with
  | nil => rfl
  | cons x xs ih =>
    cases xs with
    | nil => simp
    | cons y ys =>
      rw [List.intercalate_cons_of_ne_nil (List.cons_ne_nil y ys), List.flatten_cons]
      simp only [List.length_append, List.length_cons, List.length_nil] at ih ⊢
      omega

theorem sizeItems_eq {items : List Json}
    (each : ∀ v ∈ items, jsonSerializationSizeR v = some (write serializeChar v).length) (result : Nat) :
    sizeItems items result = some (result + (items.map (write serializeChar)).flatten.length) := by
  induction items generalizing result with
  | nil => rfl
  | cons v items ih =>
    rw [List.forall_mem_cons] at each
    rw [sizeItems, each.1, Option.bind_some, ih each.2, List.map_cons, List.flatten_cons, List.length_append,
      Nat.add_assoc]

theorem sizeMembers_eq {values : List (List UInt8 × Option Nat)} {members : Members}
    (each : ∀ m ∈ members, 0 ∉ m.1 ∧ values.lookup m.1 = some (some (write serializeChar m.2).length)) (result : Nat) :
    sizeMembers values (members.map fun m => (m.1, jsonSerializationSizeR m.2)) result =
      some (result + (members.map fun m => quoted serializeChar m.1 ++ write serializeChar m.2).flatten.length) := by
  induction members generalizing result with
  | nil => rfl
  | cons m members ih =>
    rw [List.forall_mem_cons] at each
    obtain ⟨⟨ended, found⟩, each⟩ := each
    rw [List.map_cons, sizeMembers, found, Option.getD_some, Option.bind_some, ih each, serializationStrlen_eq ended,
      List.map_cons, List.flatten_cons, List.length_append, List.length_append, quoted, List.length_cons,
      List.length_append, List.length_singleton]
    congr 1
    omega

/-- Each member has a colon too. -/
theorem length_members (members : Members) :
    (members.map fun m => quoted serializeChar m.1 ++ 58 :: write serializeChar m.2).flatten.length =
      (members.map fun m => quoted serializeChar m.1 ++ write serializeChar m.2).flatten.length + members.length := by
  induction members with
  | nil => rfl
  | cons m members ih =>
    simp only [List.map_cons, List.flatten_cons, List.length_append, List.length_cons] at ih ⊢
    omega

theorem jsonSerializationSizeR_eq {v : Json} (held : Held v) :
    jsonSerializationSizeR v = some (write serializeChar v).length := by
  induction held with
  | null => rfl
  | bool b => cases b <;> rfl
  | number d range text =>
    rw [jsonSerializationSizeR, write, text, if_pos (length_serializeNumber_lt range)]
  | string ended =>
    rw [jsonSerializationSizeR, write, serializationStrlen_eq ended, quoted, List.length_cons, List.length_append,
      List.length_singleton]
  | @array items _ ih =>
    rw [jsonSerializationSizeR, sizeItems_eq ih, write, writeItems_eq, List.length_cons, List.length_append,
      length_intercalate, List.length_map, List.length_singleton]
    congr 1
    omega
  | @object members differ ended _ ih =>
    have each : ∀ m ∈ members, 0 ∉ m.1 ∧
        (members.map fun m => (m.1, jsonSerializationSizeR m.2)).lookup m.1 =
          some (some (write serializeChar m.2).length) := by
      intro m member
      rw [lookup_map jsonSerializationSizeR differ member, ih m member]
      exact ⟨ended m member, rfl⟩
    rw [jsonSerializationSizeR, memberSizes_eq, sizeMembers_eq each, write, writeMembers_eq, List.length_cons,
      List.length_append, length_intercalate, length_members, List.length_map, List.length_singleton]
    congr 1
    cases members with
    | nil => rfl
    | cons m members =>
      simp only [List.length_cons]
      omega

/-! ### What is printed -/

section
variable {w : Writer UInt8} {text : List UInt8}

theorem prints_text (text : List UInt8) : Prints 0 (printAndSkip text) text := prints_print 0 text

theorem prints_chars (last : Prints 0 w text) (s : List UInt8) :
    Prints 0 (fun buffer buf =>
      s.foldlM (fun out c => printAndSkip (serializeChar c) out.1 out.2) (buffer, buf) >>= fun out => w out.1 out.2)
      (s.flatMap serializeChar ++ text) := by
  induction s with
  | nil => exact last
  | cons c s ih =>
    apply ((prints_text (serializeChar c)).bind ih).of_eq
    · intro buffer buf
      rw [List.foldlM_cons, bind_assoc]
    · rw [List.flatMap_cons, List.append_assoc]

theorem prints_string {s : List UInt8} (ended : 0 ∉ s) :
    Prints 0 (jsonSerializeString s) (quoted serializeChar s) := by
  apply ((prints_text [34]).bind (prints_chars (prints_text [34]) s)).of_eq
  · intro buffer buf
    rw [jsonSerializeString, cString_eq ended]
  · rfl

/-- An item, a comma if more follow, and what comes behind. -/
theorem prints_item {α : Type} {w' : Writer UInt8} {first : List UInt8} {rest : List α} {text' : α → List UInt8}
    (item : Prints 0 w' first) (later : Prints 0 w ([44].intercalate (rest.map text') ++ text)) :
    Prints 0 (fun buffer buf => w' buffer buf >>= fun out => printComma rest out.1 out.2 >>= fun out => w out.1 out.2)
      ([44].intercalate (first :: rest.map text') ++ text) := by
  cases rest with
  | nil =>
    rw [List.map_nil, List.intercalate_singleton]
    exact item.bind later
  | cons x xs =>
    apply (item.bind ((prints_text [44]).bind later)).of_eq (fun _ _ => rfl)
    rw [List.intercalate_cons_of_ne_nil (by simp), List.append_assoc, List.append_assoc]

theorem prints_items (last : Prints 0 w text) {items : List Json}
    (each : ∀ v ∈ items, Prints 0 (jsonSerializeToBufferR v) (write serializeChar v)) :
    Prints 0 (fun buffer buf => serializeItems items buffer buf >>= fun out => w out.1 out.2)
      ([44].intercalate (items.map (write serializeChar)) ++ text) := by
  induction items with
  | nil => exact last
  | cons v items ih =>
    rw [List.forall_mem_cons] at each
    apply (prints_item each.1 (ih each.2)).of_eq
    · intro buffer buf
      simp only [serializeItems, bind_assoc]
    · rw [List.map_cons]

theorem prints_members (last : Prints 0 w text) {values : List (List UInt8 × Writer UInt8)} {members : Members}
    (each : ∀ m ∈ members, 0 ∉ m.1 ∧ values.lookup m.1 = some (jsonSerializeToBufferR m.2) ∧
      Prints 0 (jsonSerializeToBufferR m.2) (write serializeChar m.2)) :
    Prints 0 (fun buffer buf =>
      serializeMembers values (members.map fun m => (m.1, jsonSerializeToBufferR m.2)) buffer buf >>=
        fun out => w out.1 out.2)
      ([44].intercalate (members.map fun m => quoted serializeChar m.1 ++ 58 :: write serializeChar m.2) ++ text) := by
  induction members with
  | nil => exact last
  | cons m members ih =>
    rw [List.forall_mem_cons] at each
    obtain ⟨⟨ended, found, prints⟩, each⟩ := each
    have member := (prints_string ended).bind ((prints_text [58]).bind prints)
    apply (prints_item member (ih each)).of_eq
    · intro buffer buf
      have none_left : (members.map fun m => (m.1, jsonSerializeToBufferR m.2)).isEmpty = members.isEmpty :=
        List.isEmpty_map
      simp only [List.map_cons, serializeMembers, found, Option.getD_some, printComma, none_left, bind_assoc]
    · rw [List.map_cons]
      rfl

end

theorem prints_value {v : Json} (held : Held v) : Prints 0 (jsonSerializeToBufferR v) (write serializeChar v) := by
  induction held with
  | null => exact prints_text _
  | bool b => cases b <;> exact prints_text _
  | number => exact prints_text _
  | string ended => exact prints_string ended
  | @array items _ ih =>
    apply ((prints_text [91]).bind (prints_items (prints_text [93]) ih)).of_eq
    · intro buffer buf
      simp only [jsonSerializeToBufferR]
    · rw [write, writeItems_eq]
      rfl
  | @object members differ ended _ ih =>
    have each : ∀ m ∈ members, 0 ∉ m.1 ∧
        (members.map fun m => (m.1, jsonSerializeToBufferR m.2)).lookup m.1 = some (jsonSerializeToBufferR m.2) ∧
        Prints 0 (jsonSerializeToBufferR m.2) (write serializeChar m.2) := fun m member =>
      ⟨ended m member, lookup_map jsonSerializeToBufferR differ member, ih m member⟩
    apply ((prints_text [123]).bind (prints_members (prints_text [125]) each)).of_eq
    · intro buffer buf
      simp only [jsonSerializeToBufferR, memberWriters_eq]
    · rw [write, writeMembers_eq]
      rfl

theorem jsonSerializationSize_eq {v : Json} (held : Held v) :
    jsonSerializationSize v = some ((jsonSerializeToString v).length + 1) := by
  rw [jsonSerializationSize, jsonSerializationSizeR_eq held]
  rfl

/-- The text and the zero behind it are put into a buffer that has room, and what is behind them stays. -/
theorem jsonSerializeToBuffer_eq {v : Json} (held : Held v) (buffer : List UInt8) :
    jsonSerializeToBuffer v buffer =
      if buffer.length < (jsonSerializeToString v).length + 1 then none
      else some (jsonSerializeToString v ++ 0 :: buffer.drop ((jsonSerializeToString v).length + 1)) := by
  rw [jsonSerializeToBuffer, jsonSerializationSize_eq held, Option.bind_some]
  by_cases short : buffer.length < (jsonSerializeToString v).length + 1
  · rw [if_pos short, if_pos short]
  · have printed := prints_value held buffer 0 (by rw [Nat.zero_add]; exact Nat.lt_of_succ_le (Nat.le_of_not_lt short))
    rw [if_neg short, if_neg short, printed, Option.map_some, Buffer.overwrite, List.take_zero, List.nil_append,
      List.length_append, List.length_singleton, Nat.zero_add, List.append_assoc]
    rfl

end LiveStreaming.Streamer
