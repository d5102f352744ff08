import LiveStreaming.FlvMux.Layout
import LiveStreaming.HappyHls.ScriptTag
import LiveStreaming.Library.BitString

/-!
# The numbers of a script tag from one program to the other

`get_flv_script_tag` finds every number that flv-mux writes under its name, and puts the places of all key frames into
the element of the array that the number of the property gives.
-/

namespace LiveStreaming.HappyHls
open Library CString

/-! ### The properties one after the other -/

/-- A number of eight bytes, the highest one first. -/
def numberOf (value : List UInt8) : DoubleBytes := Vector.ofFn fun i => value.getD (7 - i) 0

/-- What the bytes behind the name and the type of a property set. -/
def FlvScriptTag.setField (tag : FlvScriptTag) (field : ScriptField) (value : List UInt8) : FlvScriptTag :=
  if field = .stereo then { tag with stereo := value.getD 0 0 } else tag.setNumber (numberOf value) field

/-- A property with one value, as it is written. -/
structure Property where
  field : ScriptField
  information : UInt8
  value : List UInt8
  length_value : value.length = if field = .stereo then 1 else 8

def nameBytes (name : List UInt8) : List UInt8 := 0x00 :: UInt8.ofNat name.length :: name

def Property.bytes (property : Property) : List UInt8 :=
  nameBytes property.field.name ++ property.information :: property.value

/-- What is searched for the names, where the last one has been copied to `arryName`. -/
def nameText (arryName : Nat → UInt8) : List UInt8 := cString (slice arryName 0 maxEcmaarayNameLengh)

/-- The name in `arryName` ends within the array and stands for a field, or for none. -/
def Stands (arryName : Nat → UInt8) (field : Option ScriptField) : Prop :=
  0 ∈ slice arryName 0 maxEcmaarayNameLengh ∧ fieldOf (nameText arryName) = field

variable {tagData : List UInt8} {i : UInt32} {arryName : Nat → UInt8} {pos : Nat} {tag : FlvScriptTag}

theorem name_length (field : ScriptField) : 0 < field.name.length ∧ field.name.length ≤ maxEcmaarayNameLengh := by
  cases field <;> decide

theorem getElem?_of_drop {b : UInt8} {rest : List UInt8} (here : tagData.drop pos = b :: rest) :
    tagData[pos]? = some b := by
  rw [← List.head?_drop, here, List.head?_cons]

theorem drop_of_drop {front rest : List UInt8} (here : tagData.drop pos = front ++ rest) :
    tagData.drop (pos + front.length) = rest := by
  rw [← List.drop_drop, here, List.drop_left]

theorem length_of_drop {front rest : List UInt8} (here : tagData.drop pos = front ++ rest) (some_ : front ≠ []) :
    pos + front.length ≤ tagData.length := by
  have length := congrArg List.length here
  have positive := List.length_pos_iff.mpr some_
  rw [List.length_drop, List.length_append] at length
  omega

theorem twoBytes_name {name rest : List UInt8} (here : tagData.drop pos = nameBytes name ++ rest)
    (short : name.length < 256) : twoBytes tagData pos = some name.length := by
  have second : tagData.drop (pos + 1) = UInt8.ofNat name.length :: (name ++ rest) :=
    @drop_of_drop _ _ [0x00] _ here
  rw [twoBytes, getElem?_of_drop here, getElem?_of_drop second]
  simp [Nat.mod_eq_of_lt short]

/-- The name is copied, and the text that it leaves in the array decides on the value. -/
theorem readProperty_named {name rest : List UInt8} {information : UInt8}
    (here : tagData.drop pos = nameBytes name ++ information :: rest) (short : name.length ≤ maxEcmaarayNameLengh)
    (terminated : 0 ∈ slice (store arryName name) 0 maxEcmaarayNameLengh) :
    readProperty tagData i arryName pos tag =
      (readScriptValue tagData i (nameText (store arryName name)) information (pos + 3 + name.length) tag).bind
        fun read => some (read.1, store arryName name, read.2) := by
  have behind : tagData.drop (pos + 2) = name ++ information :: rest := @drop_of_drop _ _ [_, _] _ here
  have type : tagData.drop (pos + 2 + name.length) = information :: rest := drop_of_drop behind
  have inside : pos + 2 + name.length ≤ tagData.length := by
    have length := congrArg List.length type
    rw [List.length_drop, List.length_cons] at length
    omega
  rw [readProperty, twoBytes_name here (by rw [maxEcmaarayNameLengh] at short; omega), Option.bind_eq_bind,
    Option.bind_some, if_pos ⟨short, inside⟩, getElem?_of_drop type, behind, List.take_left]
  dsimp only [Option.bind_eq_bind, Option.bind_some]
  rw [if_pos terminated]
  rfl

theorem readsAs_name {name rest : List UInt8} (here : tagData.drop pos = nameBytes name ++ rest)
    (some_ : 0 < name.length) (short : name.length < 256) :
    readsAs tagData [0x00, 0x00, 0x00, 0x09] pos = some false := by
  have second : tagData.drop (pos + 1) = UInt8.ofNat name.length :: (name ++ rest) :=
    @drop_of_drop _ _ [0x00] _ here
  have other : UInt8.ofNat name.length ≠ 0 := by
    intro zero
    have := congrArg UInt8.toNat zero
    rw [UInt8.toNat_ofNat', UInt8.toNat_zero] at this
    omega
  rw [readsAs, getElem?_of_drop here, Option.bind_eq_bind, Option.bind_some, if_pos rfl, readsAs,
    getElem?_of_drop second, Option.bind_eq_bind, Option.bind_some, if_neg other]

theorem char2double_value {value rest : List UInt8} (here : tagData.drop pos = value ++ rest)
    (eight : value.length = 8) : char2double tagData pos = some (numberOf value) := by
  have inside := length_of_drop here (by rintro rfl; simp at eight)
  rw [char2double, if_pos (by omega), numberOf]
  congr 2
  funext j
  have byte : tagData[pos + (7 - (j : Nat))]? = value[7 - (j : Nat)]? := by
    rw [← List.getElem?_drop, here, List.getElem?_append_left (by omega)]
  rw [List.getD_eq_getElem?_getD, List.getD_eq_getElem?_getD, Nat.add_sub_assoc (by omega), byte]

theorem readField_value {field : ScriptField} {value rest : List UInt8} (here : tagData.drop pos = value ++ rest)
    (length : value.length = if field = .stereo then 1 else 8) :
    readField tagData field pos tag = some (pos + value.length, tag.setField field value) := by
  by_cases stereo : field = .stereo
  · rw [if_pos stereo] at length
    obtain ⟨b, rfl⟩ := List.length_eq_one_iff.mp length
    rw [readField, if_pos stereo, getElem?_of_drop here, FlvScriptTag.setField, if_pos stereo]
    rfl
  · rw [if_neg stereo] at length
    rw [readField, if_neg stereo, char2double_value here length, FlvScriptTag.setField, if_neg stereo, length]
    rfl

/-- One turn of the loop over a property that is read. -/
theorem scriptLoop_named {name rest : List UInt8} {information : UInt8} {fuel : Nat} {tag' : FlvScriptTag}
    (propertyEnd : PropertyEnd) (inObject : Bool) (here : tagData.drop pos = nameBytes name ++ information :: rest)
    (some_ : 0 < name.length) (short : name.length ≤ maxEcmaarayNameLengh) (more : i < tag.ecmaArrayLength)
    (terminated : 0 ∈ slice (store arryName name) 0 maxEcmaarayNameLengh) :
    readScriptValue tagData i (nameText (store arryName name)) information (pos + 3 + name.length) tag =
      some (propertyEnd, tag') →
    scriptLoop tagData (fuel + 1) inObject i arryName pos tag =
      match propertyEnd with
      | .next pos => scriptLoop tagData fuel false (i + 1) (store arryName name) pos tag'
      | .uncounted pos => scriptLoop tagData fuel false i (store arryName name) pos tag'
      | .loop pos => scriptLoop tagData fuel true i (store arryName name) pos tag' := by
  intro read
  have going : arrayEnds tagData inObject tag.ecmaArrayLength i pos = some false := by
    cases inObject with
    | true => rfl
    | false =>
      rw [arrayEnds, if_neg (by decide), if_neg (UInt32.not_le.mpr more)]
      exact readsAs_name here some_ (by rw [maxEcmaarayNameLengh] at short; omega)
  rw [scriptLoop, going, readProperty_named here short terminated, read]
  rfl

/-- One turn of the loop for a property with one value. -/
theorem scriptLoop_property {property : Property} {rest : List UInt8} {fuel : Nat}
    (here : tagData.drop pos = property.bytes ++ rest) (more : i < tag.ecmaArrayLength)
    (stands : Stands (store arryName property.field.name) (some property.field)) :
    scriptLoop tagData (fuel + 1) false i arryName pos tag =
      scriptLoop tagData fuel false (i + 1) (store arryName property.field.name) (pos + property.bytes.length)
        (tag.setField property.field property.value) := by
  obtain ⟨terminated, known⟩ := stands
  have named := name_length property.field
  rw [Property.bytes, List.append_assoc, List.cons_append] at here
  have value : tagData.drop (pos + 3 + property.field.name.length) = property.value ++ rest := by
    have front : (nameBytes property.field.name ++ [property.information]).length =
        3 + property.field.name.length := by
      simp only [nameBytes, List.length_append, List.length_cons, List.length_nil]
      omega
    rw [Nat.add_assoc, ← front]
    apply drop_of_drop
    rw [here, List.append_assoc]
    rfl
  have length : pos + 3 + property.field.name.length + property.value.length = pos + property.bytes.length := by
    simp only [Property.bytes, nameBytes, List.length_append, List.length_cons]
    omega
  have read := @readField_value _ _ tag property.field _ _ value property.length_value
  rw [length] at read
  refine scriptLoop_named (.next _) false here named.1 named.2 more terminated ?_
  rw [readScriptValue, known]
  dsimp only
  rw [read]
  rfl

/-- The array behind the names of some properties. -/
def namesAfter (arryName : Nat → UInt8) (fields : List ScriptField) : Nat → UInt8 :=
  fields.foldl (fun arryName field => store arryName field.name) arryName

/-- Each of the names stands for its field, over what the ones before it have left. -/
def StandInTurn : (Nat → UInt8) → List ScriptField → Prop
  | _, [] => True
  | arryName, field :: fields => Stands (store arryName field.name) (some field) ∧
      StandInTurn (store arryName field.name) fields

@[simp] theorem setField_ecmaArrayLength (field : ScriptField) (value : List UInt8) :
    (tag.setField field value).ecmaArrayLength = tag.ecmaArrayLength := by
  cases field <;> rfl

@[simp] theorem setField_filepositions (field : ScriptField) (value : List UInt8) :
    (tag.setField field value).filepositions = tag.filepositions := by
  cases field <;> rfl

def setFields (tag : FlvScriptTag) (properties : List Property) : FlvScriptTag :=
  properties.foldl (fun tag property => tag.setField property.field property.value) tag

/-- The loop over properties with one value each. -/
theorem scriptLoop_properties {properties : List Property} {rest : List UInt8} {fuel : Nat}
    (here : tagData.drop pos = properties.flatMap Property.bytes ++ rest)
    (counted : i.toNat + properties.length ≤ tag.ecmaArrayLength.toNat)
    (stand : StandInTurn arryName (properties.map Property.field)) :
    scriptLoop tagData (fuel + properties.length) false i arryName pos tag =
      scriptLoop tagData fuel false (i + UInt32.ofNat properties.length)
        (namesAfter arryName (properties.map Property.field)) (pos + (properties.flatMap Property.bytes).length)
        (setFields tag properties) := by
  induction properties generalizing i arryName pos tag with
  | nil =>
    rw [List.length_nil, show UInt32.ofNat 0 = 0 from rfl, UInt32.add_zero]
    rfl
  | cons property properties ih =>
    rw [List.flatMap_cons, List.append_assoc] at here
    rw [List.length_cons] at counted
    have more : i < tag.ecmaArrayLength := UInt32.lt_iff_toNat_lt.mpr (by omega)
    have next : (i + 1).toNat = i.toNat + 1 := by
      rw [UInt32.toNat_add, UInt32.toNat_one, Nat.mod_eq_of_lt]
      have := tag.ecmaArrayLength.toNat_lt
      omega
    have rest_ := @ih (i + 1) _ _ (tag.setField property.field property.value) (drop_of_drop here)
      (by rw [setField_ecmaArrayLength, next]; omega) stand.2
    rw [List.length_cons, ← Nat.add_assoc, scriptLoop_property here more stand.1, rest_, List.flatMap_cons,
      List.length_append, Nat.add_assoc, UInt32.add_assoc, Nat.add_comm properties.length 1, UInt32.ofNat_add]
    rfl

section
variable {δ : Type} (d : FlvMux.Double δ)

theorem numberOf_double2char (val : δ) : numberOf (FlvMux.double2char d val) = d.bytes val := by
  ext j inside
  have behind : 7 - j < (d.bytes val).toList.length := by
    rw [Vector.length_toList]
    omega
  have back : (d.bytes val).toList.length - 1 - (7 - j) = j := by
    rw [Vector.length_toList]
    omega
  rw [numberOf, Vector.getElem_ofFn, FlvMux.double2char, List.getD_eq_getElem?_getD, List.getElem?_reverse behind, back]
  simp [inside]

theorem readKeyFrames_written {vals : List δ} {rest : List UInt8}
    {set : Nat → FlvScriptTag → DoubleBytes → FlvScriptTag}
    (here : tagData.drop pos = (vals.flatMap fun val => 0x00 :: FlvMux.double2char d val) ++ rest)
    (room : i.toNat < maxKeyFrames) :
    readKeyFrames tagData set i vals.length pos tag =
      some (pos + (vals.flatMap fun val => 0x00 :: FlvMux.double2char d val).length,
        vals.foldl (fun tag val => set i.toNat tag (d.bytes val)) tag) := by
  induction vals generalizing pos tag with
  | nil => rfl
  | cons val vals ih =>
    rw [List.flatMap_cons, List.append_assoc] at here
    have eight := FlvMux.length_double2char d val
    have value : tagData.drop (pos + 1) = FlvMux.double2char d val ++
        ((vals.flatMap fun val => 0x00 :: FlvMux.double2char d val) ++ rest) := @drop_of_drop _ _ [0x00] _ here
    have next : tagData.drop (pos + 9) = (vals.flatMap fun val => 0x00 :: FlvMux.double2char d val) ++ rest := by
      rw [← drop_of_drop here, List.length_cons, eight]
    rw [List.length_cons, readKeyFrames, getElem?_of_drop here, Option.bind_eq_bind, Option.bind_some,
      char2double_value value eight, Option.bind_eq_bind, Option.bind_some, if_pos room,
      numberOf_double2char, ih next, List.flatMap_cons, List.length_append, List.length_cons, eight, List.foldl_cons,
      Nat.add_assoc]

end

/-! ### The tag of flv-mux -/

theorem nameText_store {name : List UInt8} (zeroless : 0 ∉ name) (short : name.length ≤ maxEcmaarayNameLengh) :
    ∃ rest, nameText (store arryName name) = name ++ rest := by
  refine ⟨cString (slice (store arryName name) name.length (maxEcmaarayNameLengh - name.length)), ?_⟩
  have front : slice (store arryName name) 0 name.length = name := by
    have stored := slice_store arryName [] name
    rwa [List.nil_append, List.length_nil] at stored
  have split : slice (store arryName name) 0 maxEcmaarayNameLengh =
      name ++ slice (store arryName name) name.length (maxEcmaarayNameLengh - name.length) := by
    have parts := slice_append (store arryName name) 0 name.length (maxEcmaarayNameLengh - name.length)
    rw [Nat.add_sub_cancel' short, front, Nat.zero_add] at parts
    exact parts.symm
  have unterminated : ∀ b ∈ name, (b != 0) = true := by
    intro b member
    simp only [bne_iff_ne, ne_eq]
    rintro rfl
    exact zeroless member
  rw [nameText, split, cString, List.takeWhile_append_of_pos unterminated]
  rfl

theorem strstr_front {c : UInt8} (needle rest : List UInt8) : (strstr (c :: needle) (c :: needle ++ rest)).isSome := by
  have found := @strstr_append c [] List.not_mem_nil needle rest
  rw [List.nil_append] at found
  rw [found]
  rfl

theorem fourBytes_sizeField {n : Nat} {rest : List UInt8} (here : tagData.drop pos = FlvFile.sizeField n ++ rest)
    (small : n < 2 ^ 32) : ∃ count, fourBytes tagData pos = some count ∧ count.toNat = n := by
  have byte (k : Nat) (b : UInt8) (bytes : List UInt8) (tail : tagData.drop (pos + k) = b :: bytes) :
      tagData[pos + k]? = some b := getElem?_of_drop tail
  have byte0 := byte 0 _ _ here
  have byte1 := byte 1 _ _ (@drop_of_drop _ _ [_] _ here)
  have byte2 := byte 2 _ _ (@drop_of_drop _ _ [_, _] _ here)
  have byte3 := byte 3 _ _ (@drop_of_drop _ _ [_, _, _] _ here)
  rw [Nat.add_zero] at byte0
  refine ⟨_, by rw [fourBytes, byte0, byte1, byte2, byte3]; rfl, ?_⟩
  rw [Masks.toNat_fourBytes]
  simp only [UInt8.toNat_ofNat', Nat.shiftRight_eq_div_pow]
  omega

theorem scriptLoop_keyframes {rest : List UInt8} {fuel : Nat}
    (here : tagData.drop pos = nameBytes (ascii "keyframes") ++ 0x03 :: rest) (more : i < tag.ecmaArrayLength)
    (stands : Stands (store arryName (ascii "keyframes")) none) :
    scriptLoop tagData (fuel + 1) false i arryName pos tag =
      scriptLoop tagData fuel true i (store arryName (ascii "keyframes")) (pos + 12) tag := by
  obtain ⟨terminated, unknown⟩ := stands
  obtain ⟨behind, text⟩ := @nameText_store arryName (ascii "keyframes") (by decide) (by decide)
  have found : (strstr (ascii "keyframe") (nameText (store arryName (ascii "keyframes")))).isSome := by
    rw [text]
    exact strstr_front (ascii "eyframe") (115 :: behind)
  refine scriptLoop_named (.loop (pos + 12)) false here (by decide) (by decide) more terminated ?_
  rw [readScriptValue, unknown]
  exact if_pos ⟨found, rfl⟩

/-- The numbers of a list of key frames all go to element `i`. -/
theorem readKeyFrames_array {δ : Type} (d : FlvMux.Double δ) {n : Nat} (vals : Vector δ n) {rest : List UInt8}
    {set : Nat → FlvScriptTag → DoubleBytes → FlvScriptTag} (small : n < 2 ^ 32) (room : i.toNat < maxKeyFrames)
    (here : tagData.drop pos = FlvFile.sizeField n ++
      (vals.toList.flatMap fun val => 0x00 :: FlvMux.double2char d val) ++ rest) :
    ∃ count, fourBytes tagData pos = some count ∧ readKeyFrames tagData set i count.toNat (pos + 4) tag =
      some (pos + 4 + 9 * n, vals.toList.foldl (fun tag val => set i.toNat tag (d.bytes val)) tag) := by
  rw [List.append_assoc] at here
  obtain ⟨count, read, counted⟩ := fourBytes_sizeField here small
  have entries : (vals.toList.flatMap fun val => 0x00 :: FlvMux.double2char d val).length = 9 * n := by
    rw [List.length_flatMap]
    simp [Nat.mul_comm]
  have written := @readKeyFrames_written _ i _ tag _ d _ _ set (drop_of_drop here) room
  rw [Vector.length_toList, entries, FlvFile.length_sizeField] at written
  exact ⟨count, read, by rw [counted]; exact written⟩

theorem drop_arrayProperty {δ : Type} (d : FlvMux.Double δ) {n : Nat} (vals : Vector δ n) {length : UInt8}
    {name : String} {rest : List UInt8} (counted : length = UInt8.ofNat (ascii name).length)
    (here : tagData.drop pos = FlvMux.arrayProperty d length name vals ++ rest) :
    tagData.drop pos = nameBytes (ascii name) ++ 0x0A :: (FlvFile.sizeField n ++
        (vals.toList.flatMap fun val => 0x00 :: FlvMux.double2char d val) ++ rest) ∧
      tagData.drop (pos + 3 + (ascii name).length) = FlvFile.sizeField n ++
        (vals.toList.flatMap fun val => 0x00 :: FlvMux.double2char d val) ++ rest ∧
      pos + 3 + (ascii name).length + 4 + 9 * n = pos + (FlvMux.arrayProperty d length name vals).length := by
  have front : (nameBytes (ascii name) ++ [0x0A]).length = 3 + (ascii name).length := by
    simp only [nameBytes, List.length_append, List.length_cons, List.length_nil]
    omega
  have split : tagData.drop pos = nameBytes (ascii name) ++ [0x0A] ++ (FlvFile.sizeField n ++
      (vals.toList.flatMap fun val => 0x00 :: FlvMux.double2char d val) ++ rest) := by
    rw [here, FlvMux.arrayProperty, nameBytes, counted]
    simp only [List.append_assoc, List.cons_append, List.nil_append]
  refine ⟨?_, ?_, ?_⟩
  · rw [split, List.append_assoc]
    rfl
  · rw [Nat.add_assoc, ← front]
    exact drop_of_drop split
  · rw [FlvMux.length_arrayProperty]
    omega

theorem scriptLoop_filepositions {δ : Type} (d : FlvMux.Double δ) {n : Nat} (vals : Vector δ n) {rest : List UInt8}
    {fuel : Nat} (small : n < 2 ^ 32) (more : i < tag.ecmaArrayLength) (room : i.toNat < maxKeyFrames)
    (here : tagData.drop pos = FlvMux.arrayProperty d 0x0D "filepositions" vals ++ rest)
    (stands : Stands (store arryName (ascii "filepositions")) none) :
    scriptLoop tagData (fuel + 1) true i arryName pos tag =
      scriptLoop tagData fuel false i (store arryName (ascii "filepositions"))
        (pos + (FlvMux.arrayProperty d 0x0D "filepositions" vals).length)
        (vals.toList.foldl (fun tag val => tag.setFileposition i.toNat (d.bytes val)) tag) := by
  obtain ⟨terminated, unknown⟩ := stands
  obtain ⟨behind, text⟩ := @nameText_store arryName (ascii "filepositions") (by decide) (by decide)
  obtain ⟨whole, array, next⟩ := drop_arrayProperty d vals (by decide) here
  have found : (strstr (ascii "filepositions") (nameText (store arryName (ascii "filepositions")))).isSome := by
    rw [text]
    exact strstr_front (ascii "ilepositions") behind
  obtain ⟨count, read, entries⟩ := @readKeyFrames_array _ i _ tag _ d _ vals _ FlvScriptTag.setFileposition small room
    array
  refine scriptLoop_named (.uncounted _) true whole (by decide) (by decide) more terminated ?_
  rw [readScriptValue, unknown]
  dsimp only
  rw [readArrays, if_neg fun object => absurd object.2 (by decide), if_pos ⟨found, rfl⟩, read]
  dsimp only [Option.bind_eq_bind, Option.bind_some]
  rw [entries, next]
  rfl

theorem scriptLoop_times {δ : Type} (d : FlvMux.Double δ) {n : Nat} (vals : Vector δ n) {rest : List UInt8}
    {fuel : Nat} (small : n < 2 ^ 32) (more : i < tag.ecmaArrayLength) (room : i.toNat < maxKeyFrames)
    (here : tagData.drop pos = FlvMux.arrayProperty d 0x05 "times" vals ++ rest)
    (stands : Stands (store arryName (ascii "times")) none)
    (absent : strstr (ascii "filepositions") (nameText (store arryName (ascii "times"))) = none) :
    scriptLoop tagData (fuel + 1) false i arryName pos tag =
      scriptLoop tagData fuel false i (store arryName (ascii "times"))
        (pos + (FlvMux.arrayProperty d 0x05 "times" vals).length)
        (vals.toList.foldl (fun tag val => tag.setTime i.toNat (d.bytes val)) tag) := by
  obtain ⟨terminated, unknown⟩ := stands
  obtain ⟨behind, text⟩ := @nameText_store arryName (ascii "times") (by decide) (by decide)
  obtain ⟨whole, array, next⟩ := drop_arrayProperty d vals (by decide) here
  have found : (strstr (ascii "times") (nameText (store arryName (ascii "times")))).isSome := by
    rw [text]
    exact strstr_front (ascii "imes") behind
  obtain ⟨count, read, entries⟩ := @readKeyFrames_array _ i _ tag _ d _ vals _ FlvScriptTag.setTime small room array
  refine scriptLoop_named (.uncounted _) false whole (by decide) (by decide) more terminated ?_
  rw [readScriptValue, unknown]
  dsimp only
  rw [readArrays, if_neg fun object => absurd object.2 (by decide), absent,
    if_neg fun first => absurd first.1 (by decide), if_pos ⟨found, rfl⟩, read]
  dsimp only [Option.bind_eq_bind, Option.bind_some]
  rw [entries, next]
  rfl

theorem scriptLoop_end {fuel : Nat} (here : tagData.drop pos = [0x00, 0x00, 0x00, 0x09]) :
    scriptLoop tagData (fuel + 1) false i arryName pos tag = some (pos, tag) := by
  have byte1 : tagData[pos + 1]? = some 0x00 := getElem?_of_drop (@drop_of_drop _ _ [_] _ here)
  have byte2 : tagData[pos + 1 + 1]? = some 0x00 := getElem?_of_drop (@drop_of_drop _ _ [_, _] _ here)
  have byte3 : tagData[pos + 1 + 1 + 1]? = some 0x09 := getElem?_of_drop (@drop_of_drop _ _ [_, _, _] _ here)
  have marked : readsAs tagData [0x00, 0x00, 0x00, 0x09] pos = some true := by
    simp [readsAs, getElem?_of_drop here, byte1, byte2, byte3]
  have ends : arrayEnds tagData false tag.ecmaArrayLength i pos = some true := by
    rw [arrayEnds, if_neg (by decide), marked, ite_self]
  rw [scriptLoop, ends]
  rfl

/-- The numbers of a script tag. -/
structure Metadata (δ : Type) (n : Nat) where
  duration : δ
  width : δ
  height : δ
  framerate : δ
  audiosamplerate : δ
  stereo : UInt8
  filesize : δ
  filepositions : Vector δ n
  times : Vector δ n

section
variable {δ : Type} (d : FlvMux.Double δ) {n : Nat} (m : Metadata δ n)

/-- The data of the tag that `WriteStruct_Script_Tag` makes of them. -/
def Metadata.scriptData : List UInt8 :=
  FlvMux.scriptData d m.duration m.width m.height m.framerate m.audiosamplerate m.stereo m.filesize m.filepositions
    m.times

/-- Every number is in its field, and the lists are in order. -/
structure Recovered (tag : FlvScriptTag) : Prop where
  duration : tag.duration = d.bytes m.duration
  width : tag.width = d.bytes m.width
  height : tag.height = d.bytes m.height
  videodatarate : tag.videodatarate = d.bytes (d.ofNat 0)
  framerate : tag.framerate = d.bytes m.framerate
  videocodecid : tag.videocodecid = d.bytes (d.ofNat 7)
  audiosamplerate : tag.audiosamplerate = d.bytes m.audiosamplerate
  audiosamplesize : tag.audiosamplesize = d.bytes (d.ofNat 16)
  stereo : tag.stereo = m.stereo
  audiocodecid : tag.audiocodecid = d.bytes (d.ofNat 10)
  filesize : tag.filesize = d.bytes m.filesize
  filepositions : ∀ k (inside : k < n), tag.filepositions k = d.bytes m.filepositions[k]
  times : ∀ k (inside : k < n), tag.times k = d.bytes m.times[k]

def numberField (field : ScriptField) (number : field ≠ .stereo) (val : δ) : Property where
  field
  information := 0x00
  value := FlvMux.double2char d val
  length_value := by rw [if_neg number, FlvMux.length_double2char]

def Metadata.properties : List Property :=
  [numberField d .duration (by decide) m.duration, numberField d .width (by decide) m.width,
    numberField d .height (by decide) m.height, numberField d .videodatarate (by decide) (d.ofNat 0),
    numberField d .framerate (by decide) m.framerate, numberField d .videocodecid (by decide) (d.ofNat 7),
    numberField d .audiosamplerate (by decide) m.audiosamplerate,
    numberField d .audiosamplesize (by decide) (d.ofNat 16), ⟨.stereo, 0x01, [m.stereo], rfl⟩,
    numberField d .audiocodecid (by decide) (d.ofNat 10), numberField d .filesize (by decide) m.filesize]

def scriptFront : List UInt8 := [0x02, 0x00, 0x0A] ++ ascii "onMetaData" ++ [0x08, 0x00, 0x00, 0x00, 0x0C]

theorem numberProperty_eq (field : ScriptField) (number : field ≠ .stereo) {length : UInt8} {name : String} (val : δ)
    (named : field.name = ascii name) (counted : length = UInt8.ofNat (ascii name).length) :
    FlvMux.numberProperty d length name val = (numberField d field number val).bytes := by
  rw [Property.bytes, numberField, nameBytes, FlvMux.numberProperty, named, counted]
  simp only [List.append_assoc, List.cons_append, List.nil_append]

theorem scriptData_eq : m.scriptData d = scriptFront ++ ((m.properties d).flatMap Property.bytes ++
    (nameBytes (ascii "keyframes") ++ 0x03 :: (FlvMux.arrayProperty d 0x0D "filepositions" m.filepositions ++
      (FlvMux.arrayProperty d 0x05 "times" m.times ++ [0x00, 0x00, 0x00, 0x09])))) := by
  rw [Metadata.scriptData, FlvMux.scriptData,
    numberProperty_eq d .duration (by decide) m.duration rfl (by decide),
    numberProperty_eq d .width (by decide) m.width rfl (by decide),
    numberProperty_eq d .height (by decide) m.height rfl (by decide),
    numberProperty_eq d .videodatarate (by decide) (d.ofNat 0) rfl (by decide),
    numberProperty_eq d .framerate (by decide) m.framerate rfl (by decide),
    numberProperty_eq d .videocodecid (by decide) (d.ofNat 7) rfl (by decide),
    numberProperty_eq d .audiosamplerate (by decide) m.audiosamplerate rfl (by decide),
    numberProperty_eq d .audiosamplesize (by decide) (d.ofNat 16) rfl (by decide),
    numberProperty_eq d .audiocodecid (by decide) (d.ofNat 10) rfl (by decide),
    numberProperty_eq d .filesize (by decide) m.filesize rfl (by decide)]
  have stereo : [0x00, 0x06] ++ ascii "stereo" ++ [0x01, m.stereo] =
      (⟨.stereo, 0x01, [m.stereo], rfl⟩ : Property).bytes := by
    rw [Property.bytes, nameBytes, show ScriptField.stereo.name = ascii "stereo" from rfl,
      show UInt8.ofNat (ascii "stereo").length = 0x06 by decide]
    simp only [List.cons_append, List.nil_append]
  rw [stereo]
  simp only [Metadata.properties, scriptFront, List.flatMap_cons, List.flatMap_nil, List.append_assoc, List.append_nil]
  rfl

/-- The bytes before the array make it one of twelve elements. -/
theorem getFlvScriptTag_front {rest : List UInt8} (whole : tagData = scriptFront ++ rest) :
    getFlvScriptTag tagData arryName tag =
      (scriptLoop tagData (tagData.length + 1) false 0 arryName 18 { tag with ecmaArrayLength := 12 }).bind
        fun read => if read.1 ≤ tagData.length ∧ tagData.length - read.1 ≤ oneScriptFrameSize then
          some { read.2 with data := tagData.drop read.1 } else none := by
  have front : scriptFront = [0x02, 0x00, 0x0A, 0x6F, 0x6E, 0x4D, 0x65, 0x74, 0x61, 0x44, 0x61, 0x74, 0x61, 0x08, 0x00,
    0x00, 0x00, 0x0C] := by decide
  rw [whole, front]
  rfl

end

def writtenFields : List ScriptField :=
  [.duration, .width, .height, .videodatarate, .framerate, .videocodecid, .audiosamplerate, .audiosamplesize, .stereo,
    .audiocodecid, .filesize]

/-- The array behind the names of the tag up to one of the last three. -/
def keyframesName (arryName : Nat → UInt8) : Nat → UInt8 :=
  store (namesAfter arryName writtenFields) (ascii "keyframes")
def filepositionsName (arryName : Nat → UInt8) : Nat → UInt8 := store (keyframesName arryName) (ascii "filepositions")
def timesName (arryName : Nat → UInt8) : Nat → UInt8 := store (filepositionsName arryName) (ascii "times")

instance decidableStands (arryName : Nat → UInt8) (field : Option ScriptField) : Decidable (Stands arryName field) :=
  inferInstanceAs (Decidable (_ ∧ _))

instance decidableStandInTurn : ∀ (arryName : Nat → UInt8) (fields : List ScriptField),
    Decidable (StandInTurn arryName fields)
  | _, [] => .isTrue trivial
  | arryName, field :: fields =>
    have := decidableStandInTurn (store arryName field.name) fields
    inferInstanceAs (Decidable (_ ∧ _))

/-- What is left in the array does not make another name of any of those in the tag. -/
structure Legible (arryName : Nat → UInt8) : Prop where
  fields : StandInTurn arryName writtenFields
  keyframes : Stands (keyframesName arryName) none
  filepositions : Stands (filepositionsName arryName) none
  times : Stands (timesName arryName) none
  onlyTimes : strstr (ascii "filepositions") (nameText (timesName arryName)) = none

def FlvScriptTag.setLists (tag : FlvScriptTag) (filepositions times : Nat → DoubleBytes) : FlvScriptTag :=
  { tag with filepositions, times }

theorem foldl_setFileposition (tag : FlvScriptTag) (i : Nat) (vals : List DoubleBytes) :
    ∃ filepositions, vals.foldl (fun tag val => tag.setFileposition i val) tag = tag.setLists filepositions tag.times ∧
      ∀ j ≠ i, filepositions j = tag.filepositions j := by
  induction vals generalizing tag with
  | nil => exact ⟨tag.filepositions, rfl, fun _ _ => rfl⟩
  | cons val vals ih =>
    obtain ⟨filepositions, set, others⟩ := ih (tag.setFileposition i val)
    refine ⟨filepositions, set, fun j other => (others j other).trans ?_⟩
    exact Function.update_of_ne other _ _

theorem foldl_setTime (tag : FlvScriptTag) (i : Nat) (vals : List DoubleBytes) :
    ∃ times, vals.foldl (fun tag val => tag.setTime i val) tag = tag.setLists tag.filepositions times := by
  induction vals generalizing tag with
  | nil => exact ⟨tag.times, rfl⟩
  | cons val vals ih =>
    obtain ⟨times, set⟩ := ih (tag.setTime i val)
    exact ⟨times, set⟩

section
variable {δ : Type} (d : FlvMux.Double δ) {n : Nat} (m : Metadata δ n)

theorem setFields_ecmaArrayLength (tag : FlvScriptTag) (properties : List Property) :
    (setFields tag properties).ecmaArrayLength = tag.ecmaArrayLength := by
  induction properties generalizing tag with
  | nil => rfl
  | cons property properties ih => exact (ih _).trans (setField_ecmaArrayLength _ _)

theorem setFields_filepositions (tag : FlvScriptTag) (properties : List Property) :
    (setFields tag properties).filepositions = tag.filepositions := by
  induction properties generalizing tag with
  | nil => rfl
  | cons property properties ih => exact (ih _).trans (setField_filepositions _ _)

/-- The loop over the object with the lists, where nothing is set but element 11. -/
theorem scriptLoop_lists {fuel : Nat} (small : n < 2 ^ 32) (legible : Legible arryName)
    (more : 11 < tag.ecmaArrayLength)
    (here : tagData.drop pos = nameBytes (ascii "keyframes") ++
      0x03 :: (FlvMux.arrayProperty d 0x0D "filepositions" m.filepositions ++
        (FlvMux.arrayProperty d 0x05 "times" m.times ++ [0x00, 0x00, 0x00, 0x09]))) :
    ∃ last filepositions times,
      scriptLoop tagData (fuel + 4) false 11 (namesAfter arryName writtenFields) pos tag =
        some (last, tag.setLists filepositions times) ∧
      tagData.drop last = [0x00, 0x00, 0x00, 0x09] ∧ ∀ j ≠ 11, filepositions j = tag.filepositions j := by
  obtain ⟨-, keyframes, positions, timesStand, onlyTimes⟩ := legible
  obtain ⟨filepositions, setPositions, others⟩ :=
    foldl_setFileposition tag 11 (m.filepositions.toList.map d.bytes)
  obtain ⟨times, setTimes⟩ := foldl_setTime (tag.setLists filepositions tag.times) 11 (m.times.toList.map d.bytes)
  rw [List.foldl_map] at setPositions setTimes
  have arrays : tagData.drop (pos + 12) = FlvMux.arrayProperty d 0x0D "filepositions" m.filepositions ++
      (FlvMux.arrayProperty d 0x05 "times" m.times ++ [0x00, 0x00, 0x00, 0x09]) := by
    have twelve : (nameBytes (ascii "keyframes") ++ [0x03]).length = 12 := by decide
    rw [← twelve]
    apply drop_of_drop
    rw [here, List.append_assoc]
    rfl
  have timesArray := drop_of_drop arrays
  have ends := drop_of_drop timesArray
  have object := @scriptLoop_keyframes _ _ _ _ _ _ (fuel + 3) here more keyframes
  have positionsRead := @scriptLoop_filepositions _ 11 (keyframesName arryName) _ _ _ d _ m.filepositions _ (fuel + 2)
    small more (by decide) arrays positions
  have timesRead := @scriptLoop_times _ 11 (filepositionsName arryName) _ (tag.setLists filepositions tag.times) _ d _
    m.times _ (fuel + 1) small more (by decide) timesArray timesStand onlyTimes
  rw [show UInt32.toNat 11 = 11 from rfl] at positionsRead timesRead
  rw [setPositions] at positionsRead
  rw [setTimes] at timesRead
  exact ⟨_, filepositions, times, object.trans (positionsRead.trans (timesRead.trans (scriptLoop_end ends))), ends,
    others⟩

/-- The tag as it is read: of the lists, nothing is set but element 11. -/
theorem getFlvScriptTag_written (small : n < 2 ^ 32) (legible : Legible arryName) (scriptTag : FlvScriptTag) :
    ∃ filepositions times, getFlvScriptTag (m.scriptData d) arryName scriptTag =
        some { (setFields { scriptTag with ecmaArrayLength := 12 } (m.properties d)).setLists filepositions times with
          data := [0x00, 0x00, 0x00, 0x09] } ∧
      ∀ j ≠ 11, filepositions j = scriptTag.filepositions j := by
  have whole := scriptData_eq d m
  have here := congrArg (List.drop scriptFront.length) whole
  rw [List.drop_left] at here
  have length := FlvMux.length_scriptData d m.duration m.width m.height m.framerate m.audiosamplerate m.stereo
    m.filesize m.filepositions m.times
  obtain ⟨fuel, enough⟩ : ∃ fuel, (m.scriptData d).length + 1 = fuel + 4 + 11 := by
    refine ⟨(m.scriptData d).length - 14, ?_⟩
    rw [FlvMux.scriptSize] at length
    rw [Metadata.scriptData]
    omega
  have eleven : (m.properties d).length = 11 := rfl
  have written : (m.properties d).map Property.field = writtenFields := rfl
  obtain ⟨start, started, counted⟩ : ∃ start : FlvScriptTag,
      start = { scriptTag with ecmaArrayLength := 12 } ∧ start.ecmaArrayLength = 12 := ⟨_, rfl, rfl⟩
  have fields := @scriptLoop_properties _ 0 arryName _ start _ _ (fuel + 4) here
    (by rw [counted, eleven]; decide) (by rw [written]; exact legible.fields)
  have more : 11 < (setFields start (m.properties d)).ecmaArrayLength := by
    rw [setFields_ecmaArrayLength, counted]
    decide
  obtain ⟨last, filepositions, times, read, ends, others⟩ :=
    @scriptLoop_lists _ _ _ _ _ d _ m fuel small legible more (drop_of_drop here)
  rw [eleven, written, UInt32.zero_add, show UInt32.ofNat 11 = 11 from rfl, read] at fields
  have four : (m.scriptData d).length - last = 4 := by
    rw [← List.length_drop, ends]
    rfl
  have inside : last ≤ (m.scriptData d).length ∧ (m.scriptData d).length - last ≤ oneScriptFrameSize := by
    rw [oneScriptFrameSize]
    omega
  refine ⟨filepositions, times, ?_, fun j other => (others j other).trans ?_⟩
  · rw [getFlvScriptTag_front whole, enough, ← started]
    refine (congrArg (Option.bind · _) fields).trans ?_
    rw [Option.bind_some, if_pos inside, ends]
  · rw [setFields_filepositions, started]

/-- What stands in the first element before the call is still there afterwards. -/
theorem first_lost (small : n < 2 ^ 32) (legible : Legible arryName) (first : 0 < n) :
    ∃ scriptTag, ∀ tag, getFlvScriptTag (m.scriptData d) arryName scriptTag = some tag → ¬ Recovered d m tag := by
  have other : (d.bytes m.filepositions[0]).map (· + 1) ≠ d.bytes m.filepositions[0] := by
    intro same
    have byte := congrArg (fun val : DoubleBytes => val[0]) same
    rw [Vector.getElem_map] at byte
    exact absurd byte (by simp)
  refine ⟨{ (default : FlvScriptTag) with filepositions := fun _ => (d.bytes m.filepositions[0]).map (· + 1) }, ?_⟩
  intro tag read holds
  obtain ⟨filepositions, times, written, others⟩ := getFlvScriptTag_written d m small legible
    { (default : FlvScriptTag) with filepositions := fun _ => (d.bytes m.filepositions[0]).map (· + 1) }
  obtain rfl := Option.some.inj (read.symm.trans written)
  exact other ((others 0 (by decide)).symm.trans (holds.filepositions 0 first))

/-- The record is recovered, whatever has been in the tag, exactly if it has no key frames. -/
theorem metadata_recovered_iff (small : n < 2 ^ 32) (legible : Legible arryName) :
    (∀ scriptTag, ∃ tag, getFlvScriptTag (m.scriptData d) arryName scriptTag = some tag ∧ Recovered d m tag) ↔
      n = 0 := by
  constructor
  · intro recovered
    by_contra frames
    obtain ⟨scriptTag, lost⟩ := first_lost d m small legible (Nat.pos_of_ne_zero frames)
    obtain ⟨tag, read, holds⟩ := recovered scriptTag
    exact lost tag read holds
  · rintro rfl scriptTag
    obtain ⟨filepositions, times, read, -⟩ := getFlvScriptTag_written d m small legible scriptTag
    refine ⟨_, read, ?_⟩
    constructor
    case stereo => rfl
    case filepositions => exact fun k inside => absurd inside (Nat.not_lt_zero k)
    case times => exact fun k inside => absurd inside (Nat.not_lt_zero k)
    all_goals exact numberOf_double2char d _

end

theorem legible_zeros : Legible fun _ => 0 where
  fields := by decide
  keyframes := by decide
  filepositions := by decide
  times := by decide
  onlyTimes := by decide

/-- Ten seconds of video, without key frames. -/
def sampleMetadata : Metadata ℚ 0 := ⟨10, 720, 468, 30, 44100, 1, 500000, #v[], #v[]⟩

theorem metadata_recovered_sample :
    (∀ scriptTag, ∃ tag, getFlvScriptTag (sampleMetadata.scriptData FlvMux.binary64) (fun _ => 0) scriptTag = some tag ∧
      Recovered FlvMux.binary64 sampleMetadata tag) ↔ (0 : Nat) = 0 :=
  metadata_recovered_iff FlvMux.binary64 sampleMetadata (by decide) legible_zeros

/-- One key frame is enough. -/
theorem metadata_refuted : ¬ ∀ (n : Nat) (m : Metadata ℚ n) (arryName : Nat → UInt8) (scriptTag : FlvScriptTag),
    n < 2 ^ 32 → Legible arryName → ∃ tag,
      getFlvScriptTag (m.scriptData FlvMux.binary64) arryName scriptTag = some tag ∧
        Recovered FlvMux.binary64 m tag := by
  intro recovered
  obtain ⟨scriptTag, lost⟩ := first_lost FlvMux.binary64
    (⟨10, 720, 468, 30, 44100, 1, 500000, #v[1000], #v[0]⟩ : Metadata ℚ 1) (by decide) legible_zeros (by decide)
  obtain ⟨tag, read, holds⟩ := recovered 1 ⟨10, 720, 468, 30, 44100, 1, 500000, #v[1000], #v[0]⟩ (fun _ => 0) scriptTag
    (by decide) legible_zeros
  exact lost tag read holds

end LiveStreaming.HappyHls
