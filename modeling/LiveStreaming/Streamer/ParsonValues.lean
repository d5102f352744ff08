import LiveStreaming.Streamer.ChannelSet
import LiveStreaming.Streamer.ParsonBuffer

/-!
# The values that parson makes

A program parses texts, sets and removes members and items, and takes values out of others. `Made.held` shows that no
sequence of these leaves what `JSON_Value` holds, so that whatever was made is printed into the buffer counted for it.
-/

namespace LiveStreaming.Streamer
open Library Library.CString Library.Json Library.JsonString Library.JsonNumber

/-- The last member takes the place of the one that is removed. -/
def jsonObjectRemove (members : Members) (name : List UInt8) : Members :=
  match members.findIdx? (·.1 == name), members.getLast? with
  | some i, some last =>
    if i = members.length - 1 then members.dropLast else members.dropLast.set i last
  | _, _ => members

/-- `json_object_dotremove` along the names between the dots. -/
def removeAt : List (List UInt8) → Members → Members
  | [], members => members
  | [name], members => jsonObjectRemove members name
  | name :: next :: path, members =>
    match jsonObjectGetObject members name with
    | some inner => overwriteMember name (.object (removeAt (next :: path) inner)) members
    | none => members

def jsonObjectDotremove (members : Members) (name : List UInt8) : Members := removeAt (name.splitOn 46) members

/-- What a program can have parson make. -/
inductive Made (strtod : List UInt8 → Double × Nat) : Json → Prop where
  | parsed {text : List UInt8} {v : Json} (read : jsonParseString strtod text = some v) : Made strtod v
  | null : Made strtod .null
  | boolean (b : Bool) : Made strtod (.bool b)
  | number {d : Double} (range : d.InRange) : Made strtod (jsonValueInitNumber d)
  | string (s : List UInt8) : Made strtod (.string (cString s))
  | emptyObject : Made strtod (.object [])
  | emptyArray : Made strtod (.array [])
  | set {members : Members} {v : Json} (name : List UInt8) (object : Made strtod (.object members))
      (value : Made strtod v) : Made strtod (.object (jsonObjectSetValue members (cString name) v))
  | dotset {members : Members} {v : Json} (name : List UInt8) (object : Made strtod (.object members))
      (value : Made strtod v) : Made strtod (.object (jsonObjectDotsetValue members (cString name) (some v)))
  | remove {members : Members} (name : List UInt8) (object : Made strtod (.object members)) :
      Made strtod (.object (jsonObjectRemove members name))
  | dotremove {members : Members} (name : List UInt8) (object : Made strtod (.object members)) :
      Made strtod (.object (jsonObjectDotremove members name))
  | append {items : List Json} {v : Json} (array : Made strtod (.array items)) (value : Made strtod v) :
      Made strtod (.array (items ++ [v]))
  | replace {items : List Json} {v : Json} (i : Nat) (array : Made strtod (.array items)) (value : Made strtod v) :
      Made strtod (.array (items.set i v))
  | member {members : Members} {m : List UInt8 × Json} (object : Made strtod (.object members))
      (there : m ∈ members) : Made strtod m.2
  | item {items : List Json} {v : Json} (array : Made strtod (.array items)) (there : v ∈ items) : Made strtod v

/-! ### What is parsed -/

section
variable {strtod : List UInt8 → Double × Nat}

theorem parseNumberValue_held (numbers : ∀ s, (strtod s).1.InRange) {s : List UInt8} {n : Numeral × List UInt8}
    (read : parseNumberValue strtod s = some n) : Held (.number n.1) := by
  unfold parseNumberValue at read
  split at read
  · dsimp only at read
    split at read
    · obtain rfl := Option.some.inj read
      exact .number (strtod s).1 (numbers s) rfl
    · exact absurd read (by simp)
  · exact absurd read (by simp)

theorem readString_ended {s : List UInt8} {r : List UInt8 × List UInt8} (read : (parson strtod).readString s = some r) :
    0 ∉ r.1 := by
  obtain ⟨body, _, read⟩ := Option.bind_eq_some_iff.mp read
  obtain ⟨t, string, rfl⟩ := Option.map_eq_some_iff.mp read
  obtain ⟨u, _, rfl⟩ := Option.map_eq_some_iff.mp string
  exact zero_notMem_cString u

theorem readMember_held {value : List UInt8 → Option (Json × List UInt8)} (holds : ∀ s r, value s = some r → Held r.1)
    {s : List UInt8} {r : (List UInt8 × Json) × List UInt8} (read : (parson strtod).readMember value s = some r) :
    0 ∉ r.1.1 ∧ Held r.1.2 := by
  obtain ⟨name, named, read⟩ := Option.bind_eq_some_iff.mp read
  have ended : 0 ∉ name.1 := by
    rw [Dialect.readName] at named
    split at named
    · exact absurd named (by simp)
    · split at named
      · exact readString_ended named
      · exact absurd named (by simp)
  split at read
  · exact absurd read (by simp)
  · split at read
    · obtain ⟨v, found, rfl⟩ := Option.map_eq_some_iff.mp read
      exact ⟨ended, holds _ _ found⟩
    · exact absurd read (by simp)

theorem valueFrom_held (numbers : ∀ s, (strtod s).1.InRange) {value : List UInt8 → Option (Json × List UInt8)}
    (leaves : ∀ s r, value s = some r → r.2 <:+ s) (holds : ∀ s r, value s = some r → Held r.1) {b : UInt8}
    {rest : List UInt8} {r : Json × List UInt8} (read : (parson strtod).valueFrom value b rest = some r) :
    Held r.1 := by
  unfold Dialect.valueFrom at read
  split at read
  · obtain ⟨members, found, read⟩ := Option.bind_eq_some_iff.mp read
    obtain ⟨_, each⟩ := enclosed_items (fun _ _ => Dialect.readMember_suffix leaves) found
    split at read
    · next allowed =>
      obtain rfl := Option.some.inj read
      have member : ∀ m ∈ members.1, 0 ∉ m.1 ∧ Held m.2 := by
        intro m there
        obtain ⟨t, left, _, reads⟩ := each m there
        exact readMember_held holds reads
      exact .object (of_decide_eq_true allowed).2 (fun m there => (member m there).1) fun m there => (member m there).2
    · exact absurd read (by simp)
  split at read
  · obtain ⟨items, found, read⟩ := Option.bind_eq_some_iff.mp read
    obtain ⟨_, each⟩ := enclosed_items leaves found
    split at read
    · obtain rfl := Option.some.inj read
      apply Held.array
      intro v there
      obtain ⟨t, left, _, reads⟩ := each v there
      exact holds _ _ reads
    · exact absurd read (by simp)
  split at read
  · obtain ⟨t, found, rfl⟩ := Option.map_eq_some_iff.mp read
    exact .string (readString_ended found)
  split at read
  · rw [(Dialect.literal_suffix read).2]
    exact .null
  split at read
  · rw [(Dialect.literal_suffix read).2]
    exact .bool true
  split at read
  · rw [(Dialect.literal_suffix read).2]
    exact .bool false
  · obtain ⟨n, found, rfl⟩ := Option.map_eq_some_iff.mp read
    exact parseNumberValue_held numbers found

theorem readValue_held (numbers : ∀ s, (strtod s).1.InRange) {depth : Nat} {s : List UInt8} {r : Json × List UInt8}
    (read : (parson strtod).readValue depth s = some r) : Held r.1 := by
  induction depth generalizing s r with
  | zero => exact absurd read (by simp [Dialect.readValue])
  | succ depth ih =>
    rw [Dialect.readValue] at read
    split at read
    · exact absurd read (by simp)
    · have suffix_ : ∀ s n, (parson strtod).number s = some n → n.2 <:+ s := fun _ _ => parseNumberValue_suffix
      exact valueFrom_held numbers (fun _ _ found => (Dialect.readValue_suffix suffix_ found).1) (fun _ _ => ih) read

theorem jsonParseString_held (numbers : ∀ s, (strtod s).1.InRange) {text : List UInt8} {v : Json}
    (read : jsonParseString strtod text = some v) : Held v := by
  unfold jsonParseString at read
  dsimp only at read
  split at read
  · obtain ⟨r, found, rfl⟩ := Option.map_eq_some_iff.mp read
    exact readValue_held numbers found
  · exact absurd read (by simp)

end

/-! ### What is set and removed -/

section
variable {members : Members} {name : List UInt8} {value : Json}

theorem held_object : Held (.object members) ↔
    (members.map Prod.fst).Nodup ∧ (∀ m ∈ members, 0 ∉ m.1) ∧ ∀ m ∈ members, Held m.2 := by
  constructor
  · intro held
    cases held with
    | object differ ended each => exact ⟨differ, ended, each⟩
  · rintro ⟨differ, ended, each⟩
    exact .object differ ended each

theorem held_array {items : List Json} : Held (.array items) ↔ ∀ v ∈ items, Held v := by
  constructor
  · intro held
    cases held with
    | array each => exact each
  · exact .array

theorem of_mem_overwriteMember {m : List UInt8 × Json} (there : m ∈ overwriteMember name value members) :
    m ∈ members ∨ (m = (name, value) ∧ name ∈ members.map Prod.fst) := by
  induction members with
  | nil => exact absurd there (by simp [overwriteMember])
  | cons m' members ih =>
    rw [overwriteMember] at there
    split at there
    · next same =>
      rcases List.mem_cons.mp there with rfl | later
      · exact .inr ⟨rfl, by rw [List.map_cons, same]; exact List.mem_cons_self⟩
      · exact .inl (List.mem_cons_of_mem _ later)
    · rcases List.mem_cons.mp there with rfl | later
      · exact .inl List.mem_cons_self
      · rcases ih later with kept | ⟨new, known⟩
        · exact .inl (List.mem_cons_of_mem _ kept)
        · exact .inr ⟨new, List.mem_cons_of_mem _ known⟩

theorem overwriteMember_held (object : Held (.object members)) (held : Held value) :
    Held (.object (overwriteMember name value members)) := by
  obtain ⟨differ, ended, each⟩ := held_object.mp object
  rw [held_object, map_overwriteMember]
  refine ⟨differ, ?_, ?_⟩
  · intro m there
    rcases of_mem_overwriteMember there with kept | ⟨rfl, known⟩
    · exact ended m kept
    · obtain ⟨m', there', rfl⟩ := List.mem_map.mp known
      exact ended m' there'
  · intro m there
    rcases of_mem_overwriteMember there with kept | ⟨rfl, _⟩
    · exact each m kept
    · exact held

theorem jsonObjectAdd_held (object : Held (.object members)) (ended : 0 ∉ name) (held : Held value)
    {members' : Members} (add : jsonObjectAdd members name value = some members') : Held (.object members') := by
  obtain ⟨differ, endeds, each⟩ := held_object.mp object
  unfold jsonObjectAdd at add
  split at add
  · exact absurd add (by simp)
  · next room =>
    obtain rfl := Option.some.inj add
    rw [not_or, Bool.not_eq_true, Option.isSome_eq_false_iff, Option.isNone_iff_eq_none] at room
    have absent := find_eq_none.mp room.2
    rw [held_object, List.map_append, List.map_singleton, List.nodup_append]
    refine ⟨⟨differ, List.nodup_singleton name, ?_⟩, ?_, ?_⟩
    · intro name' there _ last same
      have same' : name' = name := by rw [same, List.mem_singleton.mp last]
      exact absent (same' ▸ there)
    · intro m there
      rcases List.mem_append.mp there with kept | new
      · exact endeds m kept
      · rw [List.mem_singleton.mp new]
        exact ended
    · intro m there
      rcases List.mem_append.mp there with kept | new
      · exact each m kept
      · rw [List.mem_singleton.mp new]
        exact held

theorem jsonObjectSetValue_held (object : Held (.object members)) (ended : 0 ∉ name) (held : Held value) :
    Held (.object (jsonObjectSetValue members name value)) := by
  unfold jsonObjectSetValue
  split
  · exact overwriteMember_held object held
  · cases add : jsonObjectAdd members name value with
    | none => exact object
    | some members' => exact jsonObjectAdd_held object ended held add

theorem jsonObjectGetObject_held (object : Held (.object members)) {inner : Members}
    (found : jsonObjectGetObject members name = some inner) : Held (.object inner) := by
  obtain ⟨_, _, each⟩ := held_object.mp object
  unfold jsonObjectGetObject at found
  split at found
  · next inner' known =>
    obtain rfl := Option.some.inj found
    exact each _ (mem_of_find known)
  · exact absurd found (by simp)

theorem held_empty : Held (.object []) := .object (by simp) (by simp) (by simp)

theorem setAt_held {path : List (List UInt8)} (ended : ∀ name ∈ path, 0 ∉ name) (object : Held (.object members))
    (held : Held value) : Held (.object (setAt path value members)) := by
  induction path generalizing members with
  | nil => exact object
  | cons name path ih =>
    rw [List.forall_mem_cons] at ended
    cases path with
    | nil => exact jsonObjectSetValue_held object ended.1 held
    | cons next path =>
      rw [setAt]
      split
      · next inner found =>
        exact overwriteMember_held object (ih ended.2 (jsonObjectGetObject_held object found))
      · cases add : jsonObjectAdd members name (.object []) with
        | none => exact object
        | some members' =>
          exact overwriteMember_held (jsonObjectAdd_held object ended.1 held_empty add) (ih ended.2 held_empty)

theorem infix_intercalate {part : List UInt8} {parts : List (List UInt8)} (there : part ∈ parts) :
    part <:+: [46].intercalate parts := by
  induction parts with
  | nil => exact absurd there List.not_mem_nil
  | cons first parts ih =>
    cases parts with
    | nil =>
      have whole : [46].intercalate [first] = part := by
        rw [List.mem_singleton.mp there, List.intercalate_singleton]
      exact whole.symm ▸ List.infix_rfl
    | cons second parts =>
      rw [List.intercalate_cons_of_ne_nil (List.cons_ne_nil second parts)]
      rcases List.mem_cons.mp there with rfl | later
      · rw [List.append_assoc]
        exact (List.prefix_append part _).isInfix
      · exact (ih later).trans (List.suffix_append _ _).isInfix

/-- A name between the dots is part of the whole. -/
theorem splitOn_ended {s : List UInt8} (ended : 0 ∉ s) : ∀ part ∈ s.splitOn 46, 0 ∉ part := by
  intro part there zero
  have within := infix_intercalate there
  rw [List.intercalate_splitOn 46] at within
  exact ended (within.subset zero)

/-- The member that goes is the first of its name. -/
theorem jsonObjectRemove_perm (members : Members) (name : List UInt8) :
    jsonObjectRemove members name = members ∨ ∃ m, members.Perm (m :: jsonObjectRemove members name) := by
  unfold jsonObjectRemove
  split
  · next i last found ends =>
    right
    obtain ⟨front, rfl⟩ := List.getLast?_eq_some_iff.mp ends
    obtain ⟨here, -, -⟩ := List.findIdx?_eq_some_iff_getElem.mp found
    rw [List.length_append, List.length_singleton] at here
    rw [List.dropLast_concat, List.length_append, List.length_singleton, Nat.add_sub_cancel]
    split
    · exact ⟨last, List.perm_append_singleton last front⟩
    · next inside =>
      have within : i < front.length := by omega
      refine ⟨front[i], ?_⟩
      have split : front.take i ++ front[i] :: front.drop (i + 1) = front := by
        rw [List.getElem_cons_drop, List.take_append_drop]
      rw [List.set_eq_take_append_cons_drop, if_pos within]
      have apart : (front.take i ++ front[i] :: front.drop (i + 1)).Perm
          (front[i] :: (front.take i ++ front.drop (i + 1))) := List.perm_middle
      rw [split] at apart
      have moved : (front.take i ++ last :: front.drop (i + 1)).Perm (last :: (front.take i ++ front.drop (i + 1))) :=
        List.perm_middle
      have exchanged := (apart.cons last).trans (List.Perm.swap front[i] last _)
      exact (List.perm_append_singleton last front).trans (exchanged.trans (moved.symm.cons front[i]))
  · exact .inl rfl

theorem jsonObjectRemove_held (object : Held (.object members)) :
    Held (.object (jsonObjectRemove members name)) := by
  rcases jsonObjectRemove_perm members name with same | ⟨m, perm⟩
  · rw [same]
    exact object
  · obtain ⟨differ, ended, each⟩ := held_object.mp object
    have kept : ∀ m' ∈ jsonObjectRemove members name, m' ∈ members := fun m' there =>
      perm.mem_iff.mpr (List.mem_cons_of_mem m there)
    have names := (perm.map Prod.fst).nodup_iff.mp differ
    rw [List.map_cons, List.nodup_cons] at names
    exact .object names.2 (fun m' there => ended m' (kept m' there)) fun m' there => each m' (kept m' there)

theorem removeAt_held {path : List (List UInt8)} (object : Held (.object members)) :
    Held (.object (removeAt path members)) := by
  induction path generalizing members with
  | nil => exact object
  | cons name path ih =>
    cases path with
    | nil => exact jsonObjectRemove_held object
    | cons next path =>
      rw [removeAt]
      split
      · next inner found => exact overwriteMember_held object (ih (jsonObjectGetObject_held object found))
      · exact object

end

section
variable {strtod : List UInt8 → Double × Nat}

/-- Every value that is made keeps to what `JSON_Value` holds. -/
theorem Made.held (numbers : ∀ s, (strtod s).1.InRange) {v : Json} (made : Made strtod v) : Held v := by
  induction made with
  | parsed read => exact jsonParseString_held numbers read
  | null => exact .null
  | boolean b => exact .bool b
  | @number d range => exact .number d range rfl
  | string s => exact .string (zero_notMem_cString s)
  | emptyObject => exact held_empty
  | emptyArray => exact .array (by simp)
  | set name _ _ object value => exact jsonObjectSetValue_held object (zero_notMem_cString name) value
  | dotset name _ _ object value => exact setAt_held (splitOn_ended (zero_notMem_cString name)) object value
  | remove _ _ object => exact jsonObjectRemove_held object
  | dotremove _ _ object => exact removeAt_held object
  | append _ _ array value =>
    rw [held_array, List.forall_mem_append]
    exact ⟨held_array.mp array, by simpa using value⟩
  | replace i _ _ array value =>
    rw [held_array]
    intro v there
    rcases List.mem_or_eq_of_mem_set there with kept | rfl
    · exact held_array.mp array v kept
    · exact value
  | member _ there object => exact (held_object.mp object).2.2 _ there
  | item _ there array => exact held_array.mp array _ there

/-- A buffer of the size that is counted takes the text and the zero behind it; a longer one keeps the rest, and a
shorter one is refused. -/
theorem made_printed (numbers : ∀ s, (strtod s).1.InRange) {v : Json} (made : Made strtod v) :
    jsonSerializationSize v = some ((jsonSerializeToString v).length + 1) ∧
      ∀ buffer, jsonSerializeToBuffer v buffer =
        if buffer.length < (jsonSerializeToString v).length + 1 then none
        else some (jsonSerializeToString v ++ 0 :: buffer.drop ((jsonSerializeToString v).length + 1)) :=
  ⟨jsonSerializationSize_eq (made.held numbers), jsonSerializeToBuffer_eq (made.held numbers)⟩

end

/-- The number that stands before the next comma or bracket, or at the end, to its last digit. -/
def strtodExact (s : List UInt8) : Double × Nat :=
  let text := s.takeWhile fun b => !(b == 44 || b == 93 || b == 125)
  let q := (evaluate text).getD 0
  (if |q| < 2 ^ 1024 then .finite q else .infinite (decide (q < 0)), text.length)

theorem strtodExact_inRange (s : List UInt8) : (strtodExact s).1.InRange := by
  simp only [strtodExact]
  split
  · next range => exact range
  · trivial

/-- An object with one array, of a number and a string with a line feed. -/
def sampleValue : Json :=
  .object (jsonObjectSetValue [] (cString (ascii "a"))
    (.array ([] ++ [jsonValueInitNumber (.finite 1)] ++ [.string (cString (ascii "x\n"))])))

theorem sampleValue_made : Made strtodExact sampleValue := by
  have range : (Double.finite 1).InRange := by
    rw [Double.InRange, abs_one]
    exact one_lt_pow₀ (by norm_num) (by decide)
  exact .set _ .emptyObject (.append (.append .emptyArray (.number range)) (.string _))

theorem made_printed_sample :
    jsonSerializationSize sampleValue = some ((jsonSerializeToString sampleValue).length + 1) ∧
      ∀ buffer, jsonSerializeToBuffer sampleValue buffer =
        if buffer.length < (jsonSerializeToString sampleValue).length + 1 then none
        else some (jsonSerializeToString sampleValue ++
          0 :: buffer.drop ((jsonSerializeToString sampleValue).length + 1)) :=
  made_printed strtodExact_inRange sampleValue_made

end LiveStreaming.Streamer
