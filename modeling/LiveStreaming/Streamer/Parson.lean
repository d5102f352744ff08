import LiveStreaming.Library.Json
import Mathlib.Data.Rat.Floor

/-!
# The JSON of parson

What `parson.cpp` does with the values it holds: names are added to objects, values are set at dotted paths,
texts are parsed into values, and values are written.
-/

namespace LiveStreaming.Streamer
open Library Library.CString Library.Json Library.JsonString Library.JsonNumber

def arrayMaxCapacity : Nat := 122880
def objectMaxCapacity : Nat := 960
def maxNesting : Nat := 19

/-- What a `double` may be. -/
inductive Double where
  | finite (q : ℚ)
  | infinite (negative : Bool)
  | nan (negative : Bool)

/-! ### Writing -/

def signed (negative : Bool) (text : List UInt8) : List UInt8 := if negative then 45 :: text else text

/-- To the nearest, and of two to the even one. -/
def roundEven (q : ℚ) : Nat :=
  let rest := q - q.floor
  if rest < 1 / 2 ∨ (rest = 1 / 2 ∧ q.floor % 2 = 0) then q.floor.toNat else q.floor.toNat + 1

/-- `%f`: six digits behind the point. -/
def fixed (q : ℚ) : List UInt8 :=
  let millionths := roundEven (|q| * 10 ^ 6)
  signed (decide (q < 0)) (decimal (millionths / 10 ^ 6) ++ 46 :: padded 6 millionths)

/-- A number that is an `int` is written with `%d`, and every other with `%f`. -/
def serializeNumber : Double → List UInt8
  | .finite q =>
    if q.den = 1 ∧ -2 ^ 31 ≤ q.num ∧ q.num < 2 ^ 31 then signed (decide (q < 0)) (decimal q.num.natAbs) else fixed q
  | .infinite negative => signed negative (ascii "inf")
  | .nan negative => signed negative (ascii "nan")

/-- What `json_serialize_string` writes for one character. -/
def serializeChar (c : UInt8) : List UInt8 :=
  if c = 34 then [92, 34]
  else if c = 92 then [92, 92]
  else if c = 8 then [92, 98]
  else if c = 12 then [92, 102]
  else if c = 10 then [92, 110]
  else if c = 13 then [92, 114]
  else if c = 9 then [92, 116]
  else [c]

def jsonSerializeToString (v : Json) : List UInt8 := write serializeChar v

theorem evaluate_signed {text : List UInt8} {q : ℚ} (read : unsigned text = some q)
    (minus : text.head? ≠ some 45) (negative : Bool) :
    evaluate (signed negative text) = some (if negative then -q else q) := by
  cases negative with
  | true => rw [signed, if_pos rfl, evaluate_minus, read, Option.map_some, if_pos rfl]
  | false => rw [signed, if_neg Bool.false_ne_true, evaluate, if_neg minus, read, if_neg Bool.false_ne_true]

theorem evaluate_fixed (q : ℚ) : evaluate (fixed q) =
    some (if q < 0 then -((roundEven (|q| * 10 ^ 6) : ℚ) / 10 ^ 6) else (roundEven (|q| * 10 ^ 6) : ℚ) / 10 ^ 6) := by
  have whole : ∀ m : Nat, (m / 10 ^ 6 : ℕ) + (m % 10 ^ 6 : ℕ) / 10 ^ 6 = (m / 10 ^ 6 : ℚ) := by
    intro m
    have split : (m : ℚ) = (10 ^ 6 : ℕ) * (m / 10 ^ 6 : ℕ) + (m % 10 ^ 6 : ℕ) := by
      exact_mod_cast (Nat.div_add_mod m (10 ^ 6)).symm
    rw [split]
    push_cast
    ring
  rw [fixed, evaluate_signed (unsigned_fixed _ _ (by norm_num)) (decimal_append_head _ _), whole]
  simp only [decide_eq_true_eq]

theorem evaluate_finite (q : ℚ) : (evaluate (serializeNumber (.finite q))).isSome := by
  rw [serializeNumber]
  split
  · have head := decimal_append_head q.num.natAbs []
    rw [List.append_nil] at head
    rw [evaluate_signed (unsigned_decimal _) head]
    rfl
  · rw [evaluate_fixed]
    rfl

theorem roundEven_natCast (n : Nat) : roundEven n = n := by
  have floored : Rat.floor (n : ℚ) = n := Rat.floor_intCast n
  simp [roundEven, floored]

theorem evaluate_natCast (n : Nat) : evaluate (serializeNumber (.finite n)) = some (n : ℚ) := by
  have positive : ¬ (n : ℚ) < 0 := not_lt.mpr (Nat.cast_nonneg n)
  rw [serializeNumber]
  split
  · have head := decimal_append_head (n : ℚ).num.natAbs []
    rw [List.append_nil] at head
    rw [evaluate_signed (unsigned_decimal _) head]
    simp [positive]
  · have millionths : |(n : ℚ)| * 10 ^ 6 = (n * 10 ^ 6 : ℕ) := by
      rw [abs_of_nonneg (Nat.cast_nonneg n)]
      push_cast
      rfl
    have unit : (10 : ℚ) ^ 6 ≠ 0 := by norm_num
    rw [evaluate_fixed, if_neg positive, millionths, roundEven_natCast, Nat.cast_mul, Nat.cast_pow, Nat.cast_ofNat,
      mul_div_cancel_right₀ _ unit]

theorem serializeNumber_printed (d : Double) : (evaluate (serializeNumber d)).isSome ∨
    serializeNumber d ∈ [ascii "inf", ascii "-inf", ascii "nan", ascii "-nan"] := by
  cases d with
  | finite q => exact .inl (evaluate_finite q)
  | infinite negative =>
    cases negative with
    | true => exact .inr (by decide)
    | false => exact .inr (by decide)
  | nan negative =>
    cases negative with
    | true => exact .inr (by decide)
    | false => exact .inr (by decide)

def jsonValueInitNumber (d : Double) : Json := .number ⟨serializeNumber d, serializeNumber_printed d⟩

theorem escapes_serializeChar : Escapes serializeChar := by
  intro c
  unfold serializeChar
  split
  · next quote => exact .inr ⟨34, rfl, by decide, by rw [quote]; rfl⟩
  split
  · next backslash => exact .inr ⟨92, rfl, by decide, by rw [backslash]; rfl⟩
  split
  · next control => exact .inr ⟨98, rfl, by decide, by rw [control]; rfl⟩
  split
  · next control => exact .inr ⟨102, rfl, by decide, by rw [control]; rfl⟩
  split
  · next control => exact .inr ⟨110, rfl, by decide, by rw [control]; rfl⟩
  split
  · next control => exact .inr ⟨114, rfl, by decide, by rw [control]; rfl⟩
  split
  · next control => exact .inr ⟨116, rfl, by decide, by rw [control]; rfl⟩
  · next no_quote no_backslash _ _ _ _ _ => exact .inl ⟨rfl, no_quote, no_backslash⟩

/-! ### Objects -/

def jsonObjectAdd (members : Members) (name : List UInt8) (value : Json) : Option Members :=
  if objectMaxCapacity ≤ members.length ∨ (find name members).isSome then none else some (members ++ [(name, value)])

/-- The value of the first member of a name is overwritten. -/
def overwriteMember (name : List UInt8) (value : Json) : Members → Members
  | [] => []
  | m :: members => if m.1 = name then (name, value) :: members else m :: overwriteMember name value members

def jsonObjectSetValue (members : Members) (name : List UInt8) (value : Json) : Members :=
  if (find name members).isSome then overwriteMember name value members
  else (jsonObjectAdd members name value).getD members

def jsonObjectGetObject (members : Members) (name : List UInt8) : Option Members :=
  match find name members with
  | some (.object inner) => some inner
  | _ => none

/-- `json_object_dotset_value` along the names between the dots. An object that cannot take a name stays as it is. -/
def setAt : List (List UInt8) → Json → Members → Members
  | [], _, members => members
  | [name], value, members => jsonObjectSetValue members name value
  | name :: next :: path, value, members =>
    match jsonObjectGetObject members name with
    | some inner => overwriteMember name (.object (setAt (next :: path) value inner)) members
    | none =>
      ((jsonObjectAdd members name (.object [])).map
        (overwriteMember name (.object (setAt (next :: path) value [])))).getD members

/-- Without a value nothing is set. -/
def jsonObjectDotsetValue (members : Members) (name : List UInt8) (value : Option Json) : Members :=
  value.elim members fun value => setAt (name.splitOn 46) value members

section
variable {members before after inner : Members} {name : List UInt8} {value : Json}

theorem find_append_cons (absent : name ∉ before.map Prod.fst) :
    find name (before ++ (name, value) :: after) = some value := by
  induction before with
  | nil => rw [List.nil_append, find_cons, if_pos rfl]
  | cons m before ih =>
    rw [List.map_cons, List.mem_cons, not_or] at absent
    rw [List.cons_append, find_cons, if_neg absent.1, ih absent.2]

theorem find_append_other {name' : List UInt8} (other : name' ≠ name) :
    find name' (before ++ (name, value) :: after) = find name' (before ++ after) := by
  induction before with
  | nil => rw [List.nil_append, List.nil_append, find_cons, if_neg other]
  | cons m before ih => rw [List.cons_append, List.cons_append, find_cons, find_cons, ih]

theorem overwriteMember_append (absent : name ∉ before.map Prod.fst) (old : Json) :
    overwriteMember name value (before ++ (name, old) :: after) = before ++ (name, value) :: after := by
  induction before with
  | nil => rw [List.nil_append, List.nil_append, overwriteMember, if_pos rfl]
  | cons m before ih =>
    rw [List.map_cons, List.mem_cons, not_or] at absent
    rw [List.cons_append, overwriteMember, if_neg (Ne.symm absent.1), ih absent.2, List.cons_append]

theorem jsonObjectAdd_new (absent : name ∉ members.map Prod.fst) (room : members.length < objectMaxCapacity) :
    jsonObjectAdd members name value = some (members ++ [(name, value)]) := by
  rw [jsonObjectAdd, find_eq_none.mpr absent, if_neg]
  simpa using room

theorem jsonObjectSetValue_new (absent : name ∉ members.map Prod.fst) (room : members.length < objectMaxCapacity) :
    jsonObjectSetValue members name value = members ++ [(name, value)] := by
  rw [jsonObjectSetValue, find_eq_none.mpr absent, jsonObjectAdd_new absent room]
  rfl

theorem setAt_new {next : List UInt8} {path : List (List UInt8)} (absent : name ∉ members.map Prod.fst)
    (room : members.length < objectMaxCapacity) : setAt (name :: next :: path) value members =
      members ++ [(name, .object (setAt (next :: path) value []))] := by
  have unknown : jsonObjectGetObject members name = none := by rw [jsonObjectGetObject, find_eq_none.mpr absent]
  rw [setAt, unknown]
  simp only [jsonObjectAdd_new absent room, Option.map_some, Option.getD_some]
  exact overwriteMember_append absent _

theorem setAt_object {next : List UInt8} {path : List (List UInt8)} (absent : name ∉ before.map Prod.fst) :
    setAt (name :: next :: path) value (before ++ (name, .object inner) :: after) =
      before ++ (name, .object (setAt (next :: path) value inner)) :: after := by
  have known : jsonObjectGetObject (before ++ (name, .object inner) :: after) name = some inner := by
    rw [jsonObjectGetObject, find_append_cons absent]
  rw [setAt, known]
  exact overwriteMember_append absent _

theorem setAt_singleton_new (absent : name ∉ members.map Prod.fst) (room : members.length < objectMaxCapacity) :
    setAt [name] value members = members ++ [(name, value)] := by
  rw [setAt, jsonObjectSetValue_new absent room]

/-- Sets below one object are sets of that object. -/
theorem foldl_setAt_object {α : Type} {xs : List α} {path : α → List (List UInt8)} {v : α → Json}
    (nonempty : ∀ x ∈ xs, path x ≠ []) (absent : name ∉ before.map Prod.fst) :
    xs.foldl (fun members x => setAt (name :: path x) (v x) members) (before ++ (name, .object inner) :: after) =
      before ++ (name, .object (xs.foldl (fun members x => setAt (path x) (v x) members) inner)) :: after := by
  induction xs generalizing inner with
  | nil => rfl
  | cons x xs ih =>
    rw [List.forall_mem_cons] at nonempty
    obtain ⟨next, rest, split⟩ := List.exists_cons_of_ne_nil nonempty.1
    rw [List.foldl_cons, List.foldl_cons, split, setAt_object absent, ih nonempty.2]

theorem map_overwriteMember : (overwriteMember name value members).map Prod.fst = members.map Prod.fst := by
  induction members with
  | nil => rfl
  | cons m members ih =>
    rw [overwriteMember]
    split
    · next same => rw [List.map_cons, List.map_cons, same]
    · rw [List.map_cons, List.map_cons, ih]

/-- Setting adds at most the first name of the path, where there is room for it. -/
theorem setAt_names (name : List UInt8) (path : List (List UInt8)) (value : Json) (members : Members) :
    (setAt (name :: path) value members).map Prod.fst = members.map Prod.fst ∨
      name ∉ members.map Prod.fst ∧ members.length < objectMaxCapacity ∧
        (setAt (name :: path) value members).map Prod.fst = members.map Prod.fst ++ [name] := by
  have added : ∀ v members', jsonObjectAdd members name v = some members' →
      name ∉ members.map Prod.fst ∧ members.length < objectMaxCapacity ∧
        members'.map Prod.fst = members.map Prod.fst ++ [name] := by
    intro v members' add
    unfold jsonObjectAdd at add
    split at add
    · simp at add
    · next room =>
      obtain rfl := Option.some.inj add
      rw [not_or, not_le, Bool.not_eq_true, Option.isSome_eq_false_iff, Option.isNone_iff_eq_none] at room
      exact ⟨find_eq_none.mp room.2, room.1, by rw [List.map_append, List.map_singleton]⟩
  cases path with
  | nil =>
    rw [setAt, jsonObjectSetValue]
    split
    · exact .inl map_overwriteMember
    · cases add : jsonObjectAdd members name value with
      | none => exact .inl rfl
      | some members' => exact .inr (added _ _ add)
  | cons next path =>
    rw [setAt]
    split
    · exact .inl map_overwriteMember
    · cases add : jsonObjectAdd members name (.object []) with
      | none => exact .inl rfl
      | some members' =>
        obtain ⟨absent, room, names⟩ := added _ _ add
        refine .inr ⟨absent, room, ?_⟩
        rw [Option.map_some, Option.getD_some, map_overwriteMember, names]

theorem find_overwriteMember (known : (find name members).isSome) (name' : List UInt8) :
    find name' (overwriteMember name value members) = if name' = name then some value else find name' members := by
  induction members with
  | nil => simp [find] at known
  | cons m members ih =>
    rw [overwriteMember]
    by_cases here : m.1 = name
    · subst here
      rw [if_pos rfl, find_cons, find_cons]
      split <;> rfl
    · rw [find_cons, if_neg (Ne.symm here)] at known
      rw [if_neg here, find_cons, find_cons, ih known]
      by_cases same : name' = m.1
      · rw [if_pos same, if_pos same, if_neg (same ▸ here)]
      · rw [if_neg same, if_neg same]

theorem find_setAt_singleton (room : name ∈ members.map Prod.fst ∨ members.length < objectMaxCapacity)
    (name' : List UInt8) :
    find name' (setAt [name] value members) = if name' = name then some value else find name' members := by
  rw [setAt]
  by_cases known : (find name members).isSome
  · rw [jsonObjectSetValue, if_pos known, find_overwriteMember known]
  · have absent : name ∉ members.map Prod.fst := by
      rw [← find_eq_none]
      simpa using known
    rw [jsonObjectSetValue_new absent (room.resolve_left absent)]
    by_cases same : name' = name
    · subst same
      rw [find_append_cons absent, if_pos rfl]
    · rw [find_append_other same, List.append_nil, if_neg same]

end

/-! ### Parsing -/

def isspace (b : UInt8) : Bool := b == 32 || decide (9 ≤ b ∧ b ≤ 13)

def isDecimal (s : List UInt8) : Bool :=
  decide (¬ (1 < s.length ∧ s[0]? = some 48 ∧ s[1]? ≠ some 46) ∧
    ¬ (2 < s.length ∧ s.take 2 = ascii "-0" ∧ s[2]? ≠ some 46) ∧ 120 ∉ s ∧ 88 ∉ s)

/-- `strtod` gives a number and how many bytes it has read for it. -/
def parseNumberValue (strtod : List UInt8 → Double × Nat) (s : List UInt8) : Option (Numeral × List UInt8) :=
  if s.head? = some 45 ∨ ∃ b ∈ s.head?, isDigit b = true then
    let read := strtod s
    if isDecimal (s.take read.2) then
      some (⟨serializeNumber read.1, serializeNumber_printed read.1⟩, s.drop read.2)
    else none
  else none

/-- `json_object_add` and `json_array_add` fail in the end where the object or the array would have failed with its
last item, and `get_quoted_string` skips the byte before a name whatever it is. -/
def parson (strtod : List UInt8 → Double × Nat) : Dialect where
  space := isspace
  opens _ := true
  string s := (unescape s).map cString
  number := parseNumberValue strtod
  array items := decide (items.length ≤ arrayMaxCapacity)
  object members := decide (members.length ≤ objectMaxCapacity ∧ (members.map Prod.fst).Nodup)

/-- What follows the first value of the text is not looked at. -/
def jsonParseString (strtod : List UInt8 → Double × Nat) (text : List UInt8) : Option Json :=
  let s := (cString text).dropWhile isspace
  if s.head? = some 123 ∨ s.head? = some 91 then ((parson strtod).readValue (maxNesting + 1) s).map Prod.fst else none

end LiveStreaming.Streamer
