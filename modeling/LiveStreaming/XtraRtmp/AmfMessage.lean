import LiveStreaming.XtraRtmp.ChunkStream
import LiveStreaming.XtraRtmp.ParserBounds

/-!
# What is recovered from a command

A command in its standard encoding, and what `parseRtmpAMF0` makes of it. The code takes sixteen times the first byte
of a length for its value, goes on behind a number or a boolean as if a key stood there, and leaves its loop at the
end of the object.
-/

namespace LiveStreaming.XtraRtmp
open Library

/-- A string that two bytes can tell the length of. -/
abbrev AmfString := { s : List UInt8 // s.length < 2 ^ 16 }

inductive AmfValue where
  | number (bytes : Vector UInt8 8)
  | boolean (value : Bool)
  | string (value : AmfString)

structure AmfMessage where
  name : AmfString
  transaction : Vector UInt8 8
  properties : List (AmfString × AmfValue)
  following : List AmfString

/-! ### The standard encoding -/

def AmfString.encode (s : AmfString) : List UInt8 := ChunkStream.bigEndianBytes 2 s.val.length ++ s.val

def AmfValue.encode : AmfValue → List UInt8
  | .number bytes => 0x00 :: bytes.toList
  | .boolean value => [0x01, if value then 1 else 0]
  | .string value => 0x02 :: value.encode

def encodeProperty (property : AmfString × AmfValue) : List UInt8 := property.1.encode ++ property.2.encode

/-- What lies behind the first byte of the object. -/
def AmfMessage.object (m : AmfMessage) : List UInt8 :=
  m.properties.flatMap encodeProperty ++ objectEnd ++ m.following.flatMap fun s => AmfValue.encode (.string s)

def AmfMessage.encode (m : AmfMessage) : List UInt8 :=
  AmfValue.encode (.string m.name) ++ (AmfValue.encode (.number m.transaction) ++ 0x03 :: m.object)

/-- The buffer with the message in it, and any memory behind. -/
def memoryOf (bytes : List UInt8) (behind : Nat → UInt8) : Nat → UInt8 := fun i => bytes[i]?.getD (behind i)

/-- The packet has the command, the strings behind the object in its two fields for them, and each string of the
object under its key. -/
structure Recovers (m : AmfMessage) (packet : AmfPacket) : Prop where
  command : packet.command = m.name.val
  following : ∀ (i : Nat) (s : AmfString), m.following[i]? = some s →
    [packet.streamName, packet.publishType][i]? = some s.val
  properties : ∀ key value, (key, .string value) ∈ m.properties →
    packet.parameters.lookup key.val = some value.val

/-! ### Where the code looks for a key -/

/-- A key and a string behind it, with the lengths as the code takes them. -/
structure PairAt (memory : Nat → UInt8) (key value : List UInt8) (pos : Nat) : Prop where
  keyLen : lengthAt memory pos = key.length
  keyBytes : bytesAt memory (pos + 2) key.length = key
  type : memory (pos + 2 + key.length) = 0x02
  stringLen : lengthAt memory (pos + 3 + key.length) = value.length
  valueBytes : bytesAt memory (pos + 5 + key.length) value.length = value

/-- The place behind a key, or behind the string that follows it. -/
def behindProperty (memory : Nat → UInt8) (pos : Nat) : Nat :=
  let type := pos + 2 + lengthAt memory pos
  if memory type = 0x02 then type + 3 + lengthAt memory (type + 1) else type

/-- From one place for a key to the next, up to the end of the buffer or of an object, the first that has `key` has
`value` behind it. -/
inductive FirstPair (memory : Nat → UInt8) (len : Nat) (key value : List UInt8) : Nat → Prop where
  | here {pos : Nat} (inside : pos < len) (pair : PairAt memory key value pos) : FirstPair memory len key value pos
  | later {pos : Nat} (inside : pos < len) (other : ∀ value, ¬ PairAt memory key value pos)
      (goesOn : objectEnds memory len (behindProperty memory pos) = false)
      (rest : FirstPair memory len key value (behindProperty memory pos)) : FirstPair memory len key value pos

def AmfMessage.objectStart (m : AmfMessage) : Nat := 13 + m.name.val.length

/-- The command is shorter than 256 bytes, no string but an empty one or two follows the object, and each string of
the object is the first under its key where the code looks for keys. -/
structure Readable (m : AmfMessage) (behind : Nat → UInt8) : Prop where
  name : m.name.val.length < 256
  following : m.following.length ≤ 2 ∧ ∀ s ∈ m.following, s.val = []
  properties : ∀ key value, (key, .string value) ∈ m.properties →
    FirstPair (memoryOf m.encode behind) m.encode.length key.val value.val m.objectStart

/-! ### A round within the object -/

variable {memory : Nat → UInt8} {len rounds : Nat} {key value : List UInt8} {c : AmfCursor} {packet : AmfPacket}

theorem propertyRound_behind (memory : Nat → UInt8) (c : AmfCursor) :
    (propertyRound memory c).pos = behindProperty memory c.pos := propertyRound_end memory c

/-- What a round leaves alone. -/
theorem propertyRound_keeps (memory : Nat → UInt8) (c : AmfCursor) :
    (propertyRound memory c).packet.command = c.packet.command ∧
      (propertyRound memory c).packet.streamName = c.packet.streamName ∧
      (propertyRound memory c).packet.publishType = c.packet.publishType := by
  unfold propertyRound
  dsimp only
  split <;> exact ⟨rfl, rfl, rfl⟩

theorem PairAt.unique {value' : List UInt8} {pos : Nat} (pair : PairAt memory key value pos)
    (pair' : PairAt memory key value' pos) : value = value' := by
  have length : value.length = value'.length := pair.stringLen.symm.trans pair'.stringLen
  rw [← pair.valueBytes, ← pair'.valueBytes, length]

/-- The pair is what the code takes from the memory. -/
theorem pairAt_iff {pos : Nat} : PairAt memory key value pos ↔
    memory (pos + 2 + lengthAt memory pos) = 0x02 ∧ bytesAt memory (pos + 2) (lengthAt memory pos) = key ∧
      bytesAt memory (pos + 2 + lengthAt memory pos + 3) (lengthAt memory (pos + 2 + lengthAt memory pos + 1)) =
        value := by
  constructor
  · rintro ⟨keyLen, keyBytes, type, stringLen, valueBytes⟩
    have place : pos + 2 + key.length + 1 = pos + 3 + key.length := by omega
    have start : pos + 2 + key.length + 3 = pos + 5 + key.length := by omega
    rw [keyLen, place, stringLen, start]
    exact ⟨type, keyBytes, valueBytes⟩
  · rintro ⟨type, rfl, rfl⟩
    constructor
    · rw [length_bytesAt]
    · rw [length_bytesAt]
    · rwa [length_bytesAt]
    · rw [length_bytesAt, length_bytesAt]
      congr 1
      omega
    · rw [length_bytesAt, length_bytesAt]
      congr 1
      omega

/-- A round keeps the first value of each key. -/
theorem lookup_propertyRound : (propertyRound memory c).packet.parameters.lookup key = some value ↔
    c.packet.parameters.lookup key = some value ∨
      c.packet.parameters.lookup key = none ∧ PairAt memory key value c.pos := by
  rw [pairAt_iff, propertyRound]
  dsimp only
  split
  · next type =>
    dsimp only
    generalize bytesAt memory (c.pos + 2) (lengthAt memory c.pos) = key'
    generalize bytesAt memory _ _ = value'
    split
    · next present =>
      rw [AList.lookup_eq_none]
      constructor
      · exact .inl
      · rintro (found | ⟨absent, _, rfl, _⟩)
        · exact found
        · exact absurd present absent
    · next absent =>
      by_cases same : key = key'
      · subst same
        rw [AList.lookup_insert, AList.lookup_eq_none.mpr absent]
        simp [type]
      · rw [AList.lookup_insert_ne same]
        simp [Ne.symm same]
  · next other =>
    dsimp only
    simp [other]

/-! ### The rounds within the object -/

theorem amfRun_object_isSome (started : c.amfObjectAlreadyStart = true) (enough : len - c.pos < rounds) :
    (amfRun memory len rounds c).isSome := by
  induction rounds generalizing c with
  | zero => exact absurd enough (Nat.not_lt_zero _)
  | succ rounds ih =>
    rw [amfRun]
    split
    · rfl
    · next more =>
      rw [amfRound_object started]
      cases objectEnds memory len (propertyRound memory c).pos with
      | true => rfl
      | false =>
        have further := propertyRound_advances memory c
        exact ih ((propertyRound_start memory c).trans started) (by omega)

theorem firstPair_iff {pos : Nat} (inside : pos < len) : FirstPair memory len key value pos ↔
    PairAt memory key value pos ∨
      (∀ value, ¬ PairAt memory key value pos) ∧ objectEnds memory len (behindProperty memory pos) = false ∧
        FirstPair memory len key value (behindProperty memory pos) := by
  constructor
  · intro first
    cases first with
    | here _ pair => exact .inl pair
    | later _ other goesOn rest => exact .inr ⟨other, goesOn, rest⟩
  · rintro (pair | ⟨other, goesOn, rest⟩)
    · exact .here inside pair
    · exact .later inside other goesOn rest

theorem not_firstPair {pos : Nat} (outside : len ≤ pos) : ¬ FirstPair memory len key value pos := by
  intro first
  cases first with
  | here inside _ => exact absurd inside (Nat.not_lt.mpr outside)
  | later inside _ _ _ => exact absurd inside (Nat.not_lt.mpr outside)

/-- Induction on the rounds: within the object the strings of the packet stay, and each key gets the first value that
is there for it. -/
theorem amfRun_object (started : c.amfObjectAlreadyStart = true) (run : amfRun memory len rounds c = some packet) :
    (packet.command = c.packet.command ∧ packet.streamName = c.packet.streamName ∧
      packet.publishType = c.packet.publishType) ∧
    ∀ key value, packet.parameters.lookup key = some value ↔ c.packet.parameters.lookup key = some value ∨
      c.packet.parameters.lookup key = none ∧ FirstPair memory len key value c.pos := by
  induction rounds generalizing c with
  | zero => cases run
  | succ rounds ih =>
    rw [amfRun] at run
    by_cases outside : len ≤ c.pos
    · rw [if_pos outside] at run
      obtain rfl := Option.some.inj run
      refine ⟨⟨rfl, rfl, rfl⟩, fun key value => ?_⟩
      rw [or_iff_left]
      exact fun first => not_firstPair outside first.2
    · have inside := Nat.not_le.mp outside
      rw [if_neg outside, amfRound_object started] at run
      obtain ⟨command, streamName, publishType⟩ := propertyRound_keeps memory c
      cases ends : objectEnds memory len (propertyRound memory c).pos with
      | true =>
        rw [ends, if_pos rfl] at run
        obtain rfl := Option.some.inj run
        refine ⟨⟨command, streamName, publishType⟩, fun key value => ?_⟩
        rw [propertyRound_behind] at ends
        rw [lookup_propertyRound, firstPair_iff inside, ends]
        simp
      | false =>
        rw [ends, if_neg Bool.false_ne_true] at run
        obtain ⟨⟨command', streamName', publishType'⟩, parameters⟩ :=
          ih ((propertyRound_start memory c).trans started) run
        refine ⟨⟨command'.trans command, streamName'.trans streamName, publishType'.trans publishType⟩,
          fun key value => ?_⟩
        rw [propertyRound_behind] at ends parameters
        rw [parameters key value, lookup_propertyRound, firstPair_iff inside, ends]
        have absent : (propertyRound memory c).packet.parameters.lookup key = none ↔
            c.packet.parameters.lookup key = none ∧ ∀ value, ¬ PairAt memory key value c.pos := by
          rw [Option.eq_none_iff_forall_ne_some]
          simp only [Ne, lookup_propertyRound, not_or, not_and]
          constructor
          · intro none
            have absent := Option.eq_none_iff_forall_ne_some.mpr fun value => (none value).1
            exact ⟨absent, fun value => (none value).2 absent⟩
          · rintro ⟨absent, other⟩ value
            exact ⟨by simp [absent], fun _ => other value⟩
        rw [absent]
        tauto

/-! ### The rounds before it -/

/-- Behind the first string no round changes the command. -/
theorem valueRound_command (counted : c.countString ≠ 0) :
    (valueRound memory c).packet.command = c.packet.command ∧ (valueRound memory c).countString ≠ 0 := by
  have string : ∀ value, (setString c value).packet.command = c.packet.command ∧
    (setString c value).countString ≠ 0 := by
    intro value
    unfold setString
    split
    · next none => exact absurd none counted
    · exact ⟨rfl, (by decide : 2 ≠ 0)⟩
    · exact ⟨rfl, (by decide : 3 ≠ 0)⟩
    · exact ⟨rfl, counted⟩
  by_cases type : memory c.pos = 0x02
  · have round : valueRound memory c =
        { setString c (bytesAt memory (c.pos + 3) (lengthAt memory (c.pos + 1))) with
          pos := c.pos + 3 + lengthAt memory (c.pos + 1) } := by
      simp [valueRound, type]
    rw [round]
    exact string _
  · unfold valueRound
    rw [if_neg type]
    repeat' split
    all_goals exact ⟨rfl, counted⟩

theorem propertyRound_countString (memory : Nat → UInt8) (c : AmfCursor) :
    (propertyRound memory c).countString = c.countString := by
  unfold propertyRound
  dsimp only
  split <;> rfl

theorem amfRun_command (counted : c.countString ≠ 0) (run : amfRun memory len rounds c = some packet) :
    packet.command = c.packet.command := by
  induction rounds generalizing c with
  | zero => cases run
  | succ rounds ih =>
    rw [amfRun] at run
    split at run
    · rw [← Option.some.inj run]
    · cases started : c.amfObjectAlreadyStart with
      | true =>
        rw [amfRound_object started] at run
        have kept := (propertyRound_keeps memory c).1
        have still : (propertyRound memory c).countString ≠ 0 := by rwa [propertyRound_countString]
        cases ends : objectEnds memory len (propertyRound memory c).pos with
        | true =>
          rw [ends, if_pos rfl] at run
          rw [← Option.some.inj run, kept]
        | false =>
          rw [ends, if_neg Bool.false_ne_true] at run
          rw [ih still run, kept]
      | false =>
        rw [amfRound_value started] at run
        obtain ⟨kept, still⟩ := valueRound_command counted
        rw [ih still run, kept]

/-! ### The command in the buffer -/

variable {m : AmfMessage} {behind : Nat → UInt8}

theorem memoryOf_middle {bytes pre mid post : List UInt8} (split : bytes = pre ++ (mid ++ post)) :
    bytesAt (memoryOf bytes behind) pre.length mid.length = mid := by
  apply List.ext_getElem?
  intro i
  by_cases inside : i < mid.length
  · rw [bytesAt, List.getElem?_map, List.getElem?_range inside, Option.map_some, memoryOf, split,
      List.getElem?_append_right (Nat.le_add_right _ _), Nat.add_sub_cancel_left, List.getElem?_append_left inside,
      List.getElem?_eq_getElem inside]
    rfl
  · rw [List.getElem?_eq_none (by rw [length_bytesAt]; omega), List.getElem?_eq_none (by omega)]

theorem memoryOf_at {bytes pre post : List UInt8} {b : UInt8} (split : bytes = pre ++ b :: post) :
    memoryOf bytes behind pre.length = b := by
  rw [memoryOf, split, List.getElem?_append_right (Nat.le_refl _), Nat.sub_self]
  rfl

/-- The length that the code takes from the two bytes of `n`. -/
theorem lengthAt_encoded {bytes pre post : List UInt8} {n : Nat} (small : n < 2 ^ 16)
    (split : bytes = pre ++ (ChunkStream.bigEndianBytes 2 n ++ post)) :
    lengthAt (memoryOf bytes behind) pre.length = n / 256 * 16 + n % 256 := by
  have high : memoryOf bytes behind pre.length = UInt8.ofNat (n / 256 ^ 1) := memoryOf_at split
  have low : memoryOf bytes behind (pre.length + 1) = UInt8.ofNat (n / 256 ^ 0) := by
    have behindHigh : bytes = (pre ++ [UInt8.ofNat (n / 256 ^ 1)]) ++ UInt8.ofNat (n / 256 ^ 0) :: post := by
      rw [split, List.append_assoc]
      rfl
    have place := @memoryOf_at behind _ _ _ _ behindHigh
    rwa [List.length_append] at place
  rw [lengthAt, high, low, UInt8.toNat_ofNat', UInt8.toNat_ofNat']
  omega

theorem encode_name (m : AmfMessage) : ∃ post, m.encode =
    [0x02] ++ (ChunkStream.bigEndianBytes 2 m.name.val.length ++ (m.name.val ++ post)) := by
  refine ⟨AmfValue.encode (.number m.transaction) ++ 0x03 :: m.object, ?_⟩
  change 0x02 :: (ChunkStream.bigEndianBytes 2 m.name.val.length ++ m.name.val ++ _) = _
  rw [List.append_assoc]
  rfl

theorem length_encode_name (m : AmfMessage) : (AmfValue.encode (.string m.name)).length = 3 + m.name.val.length := by
  rw [AmfValue.encode, AmfString.encode, List.length_cons, List.length_append]
  change 2 + m.name.val.length + 1 = _
  omega

theorem length_encode_number (bytes : Vector UInt8 8) : (AmfValue.encode (.number bytes)).length = 9 := by
  rw [AmfValue.encode, List.length_cons, Vector.length_toList]

theorem objectStart_le (m : AmfMessage) : m.objectStart ≤ m.encode.length := by
  rw [AmfMessage.encode, List.length_append, List.length_append, length_encode_name, length_encode_number,
    List.length_cons, AmfMessage.objectStart]
  omega

theorem amfRun_value (inside : c.pos < len) (outer : c.amfObjectAlreadyStart = false) (rounds : Nat) :
    amfRun memory len (rounds + 1) c = amfRun memory len rounds (valueRound memory c) := by
  rw [amfRun, if_neg (Nat.not_le.mpr inside), amfRound_value outer]

/-- The first round takes the command, by the length as the code has it. -/
theorem valueRound_name (m : AmfMessage) (behind : Nat → UInt8) :
    ∃ taken, taken = m.name.val.length / 256 * 16 + m.name.val.length % 256 ∧
      valueRound (memoryOf m.encode behind) amfStart =
        { amfStart with
          pos := 3 + taken
          countString := 1
          packet := { amfStart.packet with command := bytesAt (memoryOf m.encode behind) 3 taken } } := by
  obtain ⟨post, split⟩ := encode_name m
  have type : memoryOf m.encode behind 0 = 0x02 := @memoryOf_at behind _ [] _ _ split
  have taken := @lengthAt_encoded behind _ [0x02] _ _ m.name.property split
  change lengthAt (memoryOf m.encode behind) 1 = _ at taken
  refine ⟨_, rfl, ?_⟩
  rw [← taken]
  simp [valueRound, amfStart, type, setString]

/-- The cursor behind the first byte of the object, where the command has been read as it is. -/
def objectCursor (memory : Nat → UInt8) (m : AmfMessage) : AmfCursor :=
  { pos := m.objectStart
    amfObjectAlreadyStart := true
    countString := 1
    countNumber := 1
    packet := { amfStart.packet with
      command := m.name.val
      transactionID := some (bytesAt memory (4 + m.name.val.length) 8) } }

/-- A command of less than 256 bytes and the number are read as they are. -/
theorem amfRun_start (short : m.name.val.length < 256) (rounds : Nat) :
    amfRun (memoryOf m.encode behind) m.encode.length (rounds + 3) amfStart =
      amfRun (memoryOf m.encode behind) m.encode.length rounds (objectCursor (memoryOf m.encode behind) m) := by
  obtain ⟨post, split⟩ := encode_name m
  obtain ⟨taken, length, first⟩ := valueRound_name m behind
  have whole : taken = m.name.val.length := by omega
  clear length
  subst whole
  have command : bytesAt (memoryOf m.encode behind) 3 m.name.val.length = m.name.val := by
    refine @memoryOf_middle behind _ ([0x02] ++ ChunkStream.bigEndianBytes 2 m.name.val.length) _ post ?_
    rw [split, List.append_assoc]
  rw [command] at first
  have number : memoryOf m.encode behind (3 + m.name.val.length) = 0x00 := by
    rw [← length_encode_name]
    exact memoryOf_at rfl
  have object : memoryOf m.encode behind (3 + m.name.val.length + 9) = 0x03 := by
    rw [← length_encode_name, ← length_encode_number m.transaction, ← List.length_append]
    refine @memoryOf_at behind _ _ m.object _ ?_
    rw [AmfMessage.encode, List.append_assoc]
  have long : 13 + m.name.val.length ≤ m.encode.length := objectStart_le m
  rw [amfRun_value (by simp only [amfStart]; omega) rfl, first]
  generalize memoryOf m.encode behind = memory at *
  have second : valueRound memory { amfStart with
      pos := 3 + m.name.val.length
      countString := 1
      packet := { amfStart.packet with command := m.name.val } } = { amfStart with
      pos := 3 + m.name.val.length + 9
      countString := 1
      countNumber := 1
      packet := { amfStart.packet with
        command := m.name.val
        transactionID := some (bytesAt memory (3 + m.name.val.length + 1) 8) } } := by
    simp [valueRound, amfStart, number]
  rw [amfRun_value (by dsimp only; omega) rfl, second, amfRun_value (by dsimp only; omega) rfl,
    valueRound_object object, objectCursor, AmfMessage.objectStart,
    show 3 + m.name.val.length + 1 = 4 + m.name.val.length by omega]
  dsimp only
  rw [show 3 + m.name.val.length + 9 + 1 = 13 + m.name.val.length by omega]

/-- A longer command is never had. -/
theorem amfRun_long (long : 256 ≤ m.name.val.length)
    (run : amfRun (memoryOf m.encode behind) m.encode.length rounds amfStart = some packet) :
    packet.command ≠ m.name.val := by
  obtain ⟨taken, length, first⟩ := valueRound_name m behind
  have inside : amfStart.pos < m.encode.length := by
    have start := objectStart_le m
    rw [AmfMessage.objectStart] at start
    change 0 < m.encode.length
    omega
  cases rounds with
  | zero => cases run
  | succ rounds =>
    rw [amfRun_value inside rfl, first] at run
    have command := amfRun_command (by decide : (1 : Nat) ≠ 0) run
    rw [command]
    intro same
    have shorter := congrArg List.length same
    rw [length_bytesAt] at shorter
    omega

/-! ### Strings that are in step -/

/-- The encoding of a string property. -/
theorem encodeProperty_string (k v : AmfString) : encodeProperty (k, .string v) =
    ChunkStream.bigEndianBytes 2 k.val.length ++ (k.val ++ ([0x02] ++
      (ChunkStream.bigEndianBytes 2 v.val.length ++ v.val))) := by
  change (ChunkStream.bigEndianBytes 2 k.val.length ++ k.val) ++ ([0x02] ++ _) = _
  rw [List.append_assoc]

theorem length_encodeProperty_string (k v : AmfString) :
    (encodeProperty (k, .string v)).length = 5 + k.val.length + v.val.length := by
  rw [encodeProperty_string, List.length_append, List.length_append, List.length_append, List.length_append]
  change 2 + (k.val.length + (1 + (2 + v.val.length))) = _
  omega

/-- Where a short key and a short string stand the code reads them. -/
theorem pairAt_encoded {bytes pre post : List UInt8} {k v : AmfString}
    (split : bytes = pre ++ (encodeProperty (k, .string v) ++ post)) (key : k.val.length < 256)
    (value : v.val.length < 256) : PairAt (memoryOf bytes behind) k.val v.val pre.length := by
  rw [encodeProperty_string] at split
  simp only [List.append_assoc] at split
  have sizes : ∀ n, (ChunkStream.bigEndianBytes 2 n).length = 2 := fun _ => rfl
  constructor
  · have taken := @lengthAt_encoded behind _ _ _ _ k.property split
    omega
  · have middle := @memoryOf_middle behind bytes (pre ++ ChunkStream.bigEndianBytes 2 k.val.length) k.val _
      (by rw [split, List.append_assoc])
    rwa [List.length_append] at middle
  · have type := @memoryOf_at behind bytes (pre ++ ChunkStream.bigEndianBytes 2 k.val.length ++ k.val) _ 0x02
      (by rw [split, List.append_assoc, List.append_assoc]; rfl)
    rwa [List.length_append, List.length_append] at type
  · have taken := @lengthAt_encoded behind bytes
      (pre ++ ChunkStream.bigEndianBytes 2 k.val.length ++ k.val ++ [0x02]) _ _ v.property
      (by rw [split, List.append_assoc, List.append_assoc, List.append_assoc])
    rw [List.length_append, List.length_append, List.length_append, sizes, List.length_singleton] at taken
    rw [show pre.length + 3 + k.val.length = pre.length + 2 + k.val.length + 1 by omega, taken]
    omega
  · have middle := @memoryOf_middle behind bytes
      (pre ++ ChunkStream.bigEndianBytes 2 k.val.length ++ k.val ++ [0x02] ++
        ChunkStream.bigEndianBytes 2 v.val.length) v.val _
      (by rw [split, List.append_assoc, List.append_assoc, List.append_assoc, List.append_assoc])
    rw [List.length_append, List.length_append, List.length_append, List.length_append, sizes, sizes,
      List.length_singleton] at middle
    rwa [show pre.length + 5 + k.val.length = pre.length + 2 + k.val.length + 1 + 2 by omega]

theorem PairAt.advance {pos : Nat} (pair : PairAt memory key value pos) :
    behindProperty memory pos = pos + (5 + key.length + value.length) := by
  have type : pos + 2 + key.length + 1 = pos + 3 + key.length := by omega
  rw [behindProperty, pair.keyLen, if_pos pair.type, type, pair.stringLen]
  omega

theorem PairAt.key_unique {key' value' : List UInt8} {pos : Nat} (pair : PairAt memory key value pos)
    (pair' : PairAt memory key' value' pos) : key = key' := by
  have length : key.length = key'.length := pair.keyLen.symm.trans pair'.keyLen
  rw [← pair.keyBytes, ← pair'.keyBytes, length]

/-- Where a string property begins no object ends. -/
theorem not_objectEnds {pos : Nat} (pair : PairAt memory key value pos) : objectEnds memory len pos = false := by
  rw [objectEnds, Bool.and_eq_false_iff]
  refine .inr ?_
  rw [beq_eq_false_iff_ne]
  intro ends
  obtain ⟨first, second, third⟩ : memory pos = 0 ∧ memory (pos + 1) = 0 ∧ memory (pos + 2) = 9 := by
    simpa [bytesAt, List.range_succ] using ends
  have keyLen := pair.keyLen
  have type := pair.type
  rw [lengthAt, first, second] at keyLen
  rw [← keyLen] at type
  have nine : memory (pos + 2) = 2 := type
  rw [third] at nine
  cases nine

/-- Strings one behind the other: the code comes to each of them. -/
theorem firstPair_strings {bytes pre post : List UInt8} {strings : List (AmfString × AmfString)}
    (split : bytes = pre ++ ((strings.flatMap fun p => encodeProperty (p.1, .string p.2)) ++ post))
    (short : ∀ p ∈ strings, p.1.val.length < 256 ∧ p.2.val.length < 256)
    (once : ∀ p ∈ strings, ∀ q ∈ strings, p.1 = q.1 → p.2 = q.2) {k v : AmfString} (member : (k, v) ∈ strings) :
    FirstPair (memoryOf bytes behind) bytes.length k.val v.val pre.length := by
  induction strings generalizing pre with
  | nil => cases member
  | cons p strings ih =>
    obtain ⟨k', v'⟩ := p
    rw [List.flatMap_cons, List.append_assoc] at split
    obtain ⟨keyShort, valueShort⟩ := short _ List.mem_cons_self
    have pair := @pairAt_encoded behind _ _ _ k' v' split keyShort valueShort
    have inside : pre.length < bytes.length := by
      rw [split, List.length_append, List.length_append, length_encodeProperty_string]
      omega
    by_cases same : k' = k
    · subst same
      obtain rfl := once _ List.mem_cons_self _ member rfl
      exact .here inside pair
    · have rest : (k, v) ∈ strings := by
        rcases List.mem_cons.mp member with head | tail
        · exact absurd (congrArg Prod.fst head).symm same
        · exact tail
      have other : ∀ value, ¬ PairAt (memoryOf bytes behind) k.val value pre.length := by
        intro value pair'
        exact same (Subtype.ext (pair.key_unique pair'))
      have next : behindProperty (memoryOf bytes behind) pre.length =
        (pre ++ encodeProperty (k', .string v')).length := by
        rw [pair.advance, List.length_append, length_encodeProperty_string]
      have found := @ih (pre ++ encodeProperty (k', .string v')) (by rw [split, List.append_assoc])
        (fun p member => short p (List.mem_cons_of_mem _ member))
        (fun p member q member' => once p (List.mem_cons_of_mem _ member) q (List.mem_cons_of_mem _ member')) rest
      rw [← next] at found
      refine .later inside other ?_ found
      cases strings with
      | nil => cases rest
      | cons p strings =>
        obtain ⟨keyShort', valueShort'⟩ := short p (List.mem_cons_of_mem _ List.mem_cons_self)
        have start : bytes = (pre ++ encodeProperty (k', .string v')) ++ (encodeProperty (p.1, .string p.2) ++
            ((strings.flatMap fun p => encodeProperty (p.1, .string p.2)) ++ post)) := by
          rw [split, List.flatMap_cons, List.append_assoc, List.append_assoc]
        rw [next]
        exact not_objectEnds (@pairAt_encoded behind _ _ _ p.1 p.2 start keyShort' valueShort')

/-- A command is readable if its object has strings with short keys and values first, one value for each key, and
no string behind them. -/
theorem readable_of_strings {strings : List (AmfString × AmfString)} {others : List (AmfString × AmfValue)}
    (name : m.name.val.length < 256) (following : m.following.length ≤ 2 ∧ ∀ s ∈ m.following, s.val = [])
    (properties : m.properties = (strings.map fun p => (p.1, .string p.2)) ++ others)
    (noString : ∀ key value, (key, .string value) ∉ others)
    (short : ∀ p ∈ strings, p.1.val.length < 256 ∧ p.2.val.length < 256)
    (once : ∀ p ∈ strings, ∀ q ∈ strings, p.1 = q.1 → p.2 = q.2) : Readable m behind := by
  refine ⟨name, following, fun key value member => ?_⟩
  have own : (key, value) ∈ strings := by
    rw [properties, List.mem_append] at member
    obtain ⟨p, inside, same⟩ := List.mem_map.mp (member.resolve_right (noString key value))
    obtain ⟨rfl, equal⟩ := Prod.mk.inj same
    rwa [← AmfValue.string.inj equal]
  have start : (AmfValue.encode (.string m.name) ++ (AmfValue.encode (.number m.transaction) ++ [0x03])).length =
      m.objectStart := by
    rw [List.length_append, List.length_append, length_encode_name, length_encode_number, AmfMessage.objectStart,
      List.length_singleton]
    omega
  rw [← start]
  refine @firstPair_strings behind _ _ (others.flatMap encodeProperty ++ objectEnd ++
    m.following.flatMap fun s => AmfValue.encode (.string s)) strings ?_ short once _ _ own
  rw [AmfMessage.encode, AmfMessage.object, properties, List.flatMap_append, List.flatMap_map]
  simp only [List.append_assoc, List.singleton_append]

/-! ### What is recovered -/

/-- Two empty fields stand for no more than two strings, and for empty ones only. -/
theorem following_iff (following : List AmfString) :
    (∀ (i : Nat) (s : AmfString), following[i]? = some s → [([] : List UInt8), []][i]? = some s.val) ↔
      following.length ≤ 2 ∧ ∀ s ∈ following, s.val = [] := by
  have field : ∀ i < 2, [([] : List UInt8), []][i]? = some [] := by decide
  constructor
  · intro recovered
    refine ⟨?_, fun s member => ?_⟩
    · by_contra more
      have third := recovered 2 _ (List.getElem?_eq_getElem (by omega))
      cases third
    · obtain ⟨i, found⟩ := List.getElem?_of_mem member
      have known := recovered i s found
      have inside : i < 2 := (List.getElem?_eq_some_iff.mp known).1
      rw [field i inside] at known
      exact (Option.some.inj known).symm
  · rintro ⟨few, empty⟩ i s found
    have inside := (List.getElem?_eq_some_iff.mp found).1
    rw [field i (by omega), empty s (List.mem_of_getElem? found)]

/-- The parser recovers a command from its encoding exactly when it is readable. -/
theorem parseRtmpAMF0_recovers_iff (m : AmfMessage) (behind : Nat → UInt8) :
    (∃ packet, parseRtmpAMF0 (fun i => some (memoryOf m.encode behind i)) m.encode.length MESSAGE_INVOKE = some packet ∧
      Recovers m packet) ↔ Readable m behind := by
  have whole : 13 + m.name.val.length ≤ m.encode.length := objectStart_le m
  have loops : ¬ Loopless m.encode.length MESSAGE_INVOKE := by
    rintro (empty | window | control)
    · omega
    · exact absurd window (by decide)
    · exact absurd control (by decide)
  rw [parseRtmpAMF0_total, parseRtmpAMF0Rounds_loop loops]
  by_cases short : m.name.val.length < 256
  · obtain ⟨rounds, enough⟩ : ∃ rounds, m.encode.length + 1 = rounds + 3 := ⟨m.encode.length - 2, by omega⟩
    rw [enough, amfRun_start short]
    have more : m.encode.length - (objectCursor (memoryOf m.encode behind) m).pos < rounds := by
      change m.encode.length - (13 + m.name.val.length) < rounds
      omega
    have returned := @amfRun_object_isSome (memoryOf m.encode behind) _ _ _ rfl more
    obtain ⟨packet, run⟩ := Option.isSome_iff_exists.mp returned
    obtain ⟨⟨command, streamName, publishType⟩, parameters⟩ := amfRun_object rfl run
    have lookup : ∀ key value, packet.parameters.lookup key = some value ↔
        FirstPair (memoryOf m.encode behind) m.encode.length key value m.objectStart := by
      intro key value
      have none : (objectCursor (memoryOf m.encode behind) m).packet.parameters.lookup key = none := rfl
      rw [parameters key value, none]
      simp
      rfl
    have fields : [packet.streamName, packet.publishType] = [[], []] := by rw [streamName, publishType]; rfl
    constructor
    · rintro ⟨packet', run', recovers⟩
      obtain rfl := Option.some.inj (run.symm.trans run')
      refine ⟨short, ?_, fun key value member => (lookup _ _).mp (recovers.properties key value member)⟩
      rw [← following_iff, ← fields]
      exact recovers.following
    · intro readable
      refine ⟨packet, run, command, ?_, fun key value member => (lookup _ _).mpr (readable.properties key value member)⟩
      rw [fields, following_iff]
      exact readable.following
  · constructor
    · rintro ⟨packet, run, recovers⟩
      exact absurd recovers.command (amfRun_long (Nat.not_lt.mp short) run)
    · intro readable
      exact absurd readable.name short

/-- `connect` with a number before the string. -/
def numberFirst : AmfMessage where
  name := ⟨CString.ascii "connect", by decide⟩
  transaction := #v[0x3f, 0xf0, 0, 0, 0, 0, 0, 0]
  properties :=
    [(⟨CString.ascii "n", by decide⟩, .number #v[0x3f, 0xf0, 0, 0, 0, 0, 0, 0]),
      (⟨CString.ascii "app", by decide⟩, .string ⟨CString.ascii "live", by decide⟩)]
  following := []

theorem number_hides_string :
    ¬ ∃ packet, parseRtmpAMF0 (fun i => some (memoryOf numberFirst.encode (fun _ => 0) i)) numberFirst.encode.length
      MESSAGE_INVOKE = some packet ∧ Recovers numberFirst packet := by
  have hidden : (parseRtmpAMF0 (fun i => some (memoryOf numberFirst.encode (fun _ => 0) i)) numberFirst.encode.length
      MESSAGE_INVOKE).map (fun packet => packet.parameters.lookup (CString.ascii "app")) = some none := by
    decide
  rintro ⟨packet, parsed, recovers⟩
  have found := recovers.properties ⟨CString.ascii "app", by decide⟩ ⟨CString.ascii "live", by decide⟩
    (List.mem_cons_of_mem _ List.mem_cons_self)
  rw [parsed, Option.map_some] at hidden
  rw [Option.some.inj hidden] at found
  cases found

end LiveStreaming.XtraRtmp
