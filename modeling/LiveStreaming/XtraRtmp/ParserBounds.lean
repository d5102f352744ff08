import LiveStreaming.XtraRtmp.AmfRounds

/-!
# What the parsers touch

Every byte that `parseRtmpPacket` and `parseRtmpAMF0` read, and every element of a fixed array of the packet that
they write. What they keep of a packet or a value they read by the length that the bytes say, whether or not the
buffer goes on as far.
-/

namespace LiveStreaming.XtraRtmp
open Library

/-- The arrays of a fixed size in `RtmpPacket` and `AmfPacket`. -/
inductive Field where
  | rtmpPacketPayload | transactionID | flag
  deriving DecidableEq

def Field.size : Field → Nat
  | .rtmpPacketPayload => MAX_PAYLOAD_SIZE
  | .transactionID => 9
  | .flag => 2

inductive Access where
  | read (pos : Nat)
  | write (field : Field) (index : Nat)
  deriving DecidableEq

def Access.Within (len : Nat) : Access → Prop
  | .read pos => pos < len
  | .write field index => index < field.size

def reads (pos n : Nat) : List Access := (List.range n).map fun i => .read (pos + i)

def writes (field : Field) (n : Nat) : List Access := (List.range n).map fun i => .write field i

/-! ### The packets -/

def headerAt (memory : Nat → UInt8) (pos : Nat) : RtmpPacketHeader := parseRtmpPacketHeader (bytesAt memory pos 12) 0

/-- A round of `parseRtmpPacket`: the header, and the payload unless it is too long. -/
def packetAccesses (memory : Nat → UInt8) (pos : Nat) : List Access :=
  let header := headerAt memory pos
  reads pos header.size ++
    if header.amfSize > MAX_PAYLOAD_SIZE then []
    else reads (pos + header.size) header.amfSize ++ writes .rtmpPacketPayload header.amfSize

/-- A round of `parseRtmpPacket` that the loop goes on from. -/
def PacketStep (memory : Nat → UInt8) (len pos next : Nat) : Prop :=
  pos + 1 < len ∧ (headerAt memory pos).amfSize ≤ MAX_PAYLOAD_SIZE ∧
    next = pos + (headerAt memory pos).size + (headerAt memory pos).amfSize

/-- The rounds of `parseRtmpPacket` from `start` on stay within the buffer. -/
def PacketsContained (memory : Nat → UInt8) (len start : Nat) : Prop :=
  ∀ pos, Relation.ReflTransGen (PacketStep memory len) start pos → pos + 1 < len →
    ∀ access ∈ packetAccesses memory pos, access.Within len

/-- Packets that are there in full, up to the end, a last byte, or one whose payload is too long. -/
inductive CompletePackets : List UInt8 → Prop where
  | stop {bytes : List UInt8} (short : bytes.length ≤ 1) : CompletePackets bytes
  | tooLong {bytes : List UInt8} (whole : (parseRtmpPacketHeader bytes 0).size ≤ bytes.length)
      (long : (parseRtmpPacketHeader bytes 0).amfSize > MAX_PAYLOAD_SIZE) : CompletePackets bytes
  | packet {bytes : List UInt8} (fits : (parseRtmpPacketHeader bytes 0).amfSize ≤ MAX_PAYLOAD_SIZE)
      (whole : (parseRtmpPacketHeader bytes 0).size + (parseRtmpPacketHeader bytes 0).amfSize ≤ bytes.length)
      (after : CompletePackets
        (bytes.drop ((parseRtmpPacketHeader bytes 0).size + (parseRtmpPacketHeader bytes 0).amfSize))) :
      CompletePackets bytes

/-! ### The values -/

/-- The round of `parseRtmpAMF0` outside an object. -/
def valueAccesses (memory : Nat → UInt8) (c : AmfCursor) : List Access :=
  .read c.pos ::
    if memory c.pos = 0x00 then
      if c.countNumber = 0 then writes .transactionID 9 ++ reads (c.pos + 1) 8 else []
    else if memory c.pos = 0x01 then writes .flag 2 ++ reads (c.pos + 1) 1
    else if memory c.pos = 0x02 then
      reads (c.pos + 1) 2 ++ if c.countString < 3 then reads (c.pos + 3) (lengthAt memory (c.pos + 1)) else []
    else []

/-- The round within an object, up to the test for its end. -/
def propertyAccesses (memory : Nat → UInt8) (c : AmfCursor) : List Access :=
  let keyLen := lengthAt memory c.pos
  let pos := c.pos + 2 + keyLen
  reads c.pos (2 + keyLen + 1) ++ if memory pos = 0x02 then reads (pos + 1) (2 + lengthAt memory (pos + 1)) else []

/-- The test stops at the first byte that differs. -/
def endAccesses (memory : Nat → UInt8) (len pos : Nat) : List Access :=
  if pos + 3 ≤ len then
    .read pos ::
      if memory pos = 0 then .read (pos + 1) :: if memory (pos + 1) = 0 then [.read (pos + 2)] else [] else []
  else []

def roundAccesses (memory : Nat → UInt8) (len : Nat) (c : AmfCursor) : List Access :=
  if c.amfObjectAlreadyStart then propertyAccesses memory c ++ endAccesses memory len (propertyRound memory c).pos
  else valueAccesses memory c

/-- What a call of `parseRtmpAMF0` touches. -/
inductive AmfAccesses (memory : Nat → UInt8) (len : Nat) (amfType : UInt8) : Access → Prop where
  | reset {access : Access} (filled : len ≠ 0) (member : access ∈ [.write .transactionID 0, .write .flag 0]) :
      AmfAccesses memory len amfType access
  | windowAcknowledgementSize {access : Access} (filled : len ≠ 0)
      (type : amfType = MESSAGE_WINDOW_ACKNOWLEDGEMENT_SIZE) (member : access ∈ reads 0 4) :
      AmfAccesses memory len amfType access
  | userControl {access : Access} (filled : len ≠ 0) (type : amfType = MESSAGE_USER_CONTROL)
      (member : access ∈ reads 0 2) : AmfAccesses memory len amfType access
  | round {access : Access} {c : AmfCursor} (loops : ¬ Loopless len amfType)
      (reached : Reaches memory len amfStart c) (inside : c.pos < len)
      (member : access ∈ roundAccesses memory len c) : AmfAccesses memory len amfType access

/-- The rounds from a cursor on stay within the buffer. -/
def RoundsContained (memory : Nat → UInt8) (len : Nat) (start : AmfCursor) : Prop :=
  ∀ c, Reaches memory len start c → c.pos < len → ∀ access ∈ roundAccesses memory len c, access.Within len

def stringLength (high low : UInt8) : Nat := high.toNat * 16 + low.toNat

def objectEnd : List UInt8 := [0, 0, 9]

/-- The properties of an object, up to the first end behind one. Each key has a type byte behind it, and each
string is there in full. -/
inductive CompleteProperties : List UInt8 → Prop where
  | nil : CompleteProperties []
  | string {high low high' low' : UInt8} {key value after : List UInt8} (keyLen : key.length = stringLength high low)
      (stringLen : value.length = stringLength high' low') (more : ¬ objectEnd <+: after → CompleteProperties after) :
      CompleteProperties (high :: low :: (key ++ 0x02 :: high' :: low' :: (value ++ after)))
  | other {high low type : UInt8} {key after : List UInt8} (keyLen : key.length = stringLength high low)
      (noString : type ≠ 0x02) (more : ¬ objectEnd <+: type :: after → CompleteProperties (type :: after)) :
      CompleteProperties (high :: low :: (key ++ type :: after))

/-- The values of a message behind `strings` strings and `numbers` numbers. The first number and the first three
strings are there in full, and each boolean has its value. -/
inductive CompleteValues : Nat → Nat → List UInt8 → Prop where
  | nil {strings numbers : Nat} : CompleteValues strings numbers []
  | number {strings numbers : Nat} {after : List UInt8} (kept : numbers = 0 → 8 ≤ after.length)
      (more : CompleteValues strings (numbers + 1) (after.drop 8)) : CompleteValues strings numbers (0x00 :: after)
  | boolean {strings numbers : Nat} {value : UInt8} {after : List UInt8} (more : CompleteValues strings numbers after) :
      CompleteValues strings numbers (0x01 :: value :: after)
  | string {strings numbers : Nat} {high low : UInt8} {after : List UInt8}
      (kept : strings < 3 → stringLength high low ≤ after.length)
      (more : CompleteValues (strings + 1) numbers (after.drop (stringLength high low))) :
      CompleteValues strings numbers (0x02 :: high :: low :: after)
  | object {strings numbers : Nat} {after : List UInt8} (more : CompleteProperties after) :
      CompleteValues strings numbers (0x03 :: after)
  | null {strings numbers : Nat} {after : List UInt8} (more : CompleteValues strings numbers after) :
      CompleteValues strings numbers (0x05 :: after)
  | map {strings numbers : Nat} {after : List UInt8} (more : CompleteValues strings numbers (after.drop 4)) :
      CompleteValues strings numbers (0x08 :: after)
  | unknown {strings numbers : Nat} {type : UInt8} {after : List UInt8} (unknown : type ∉ amfTypes) :
      CompleteValues strings numbers (type :: after)

def CompleteMessage (amfType : UInt8) (buffer : List UInt8) : Prop :=
  if amfType = MESSAGE_WINDOW_ACKNOWLEDGEMENT_SIZE then buffer = [] ∨ 4 ≤ buffer.length
  else if amfType = MESSAGE_USER_CONTROL then buffer.length ≠ 1
  else CompleteValues 0 0 buffer

/-- The parsers read below `len` only, and write only where the packet has room. -/
structure Contained (memory : Nat → UInt8) (len : Nat) (amfType : UInt8) : Prop where
  parseRtmpPacket : PacketsContained memory len 0
  parseRtmpAMF0 : ∀ access, AmfAccesses memory len amfType access → access.Within len

/-! ### What is left of the buffer -/

def bytesFrom (memory : Nat → UInt8) (len pos : Nat) : List UInt8 := bytesAt memory pos (len - pos)

variable {memory : Nat → UInt8} {len pos n : Nat} {amfType : UInt8} {c : AmfCursor}

theorem length_bytesFrom : (bytesFrom memory len pos).length = len - pos := length_bytesAt _ _

theorem drop_bytesAt (k : Nat) : (bytesAt memory pos n).drop k = bytesAt memory (pos + k) (n - k) := by
  apply List.ext_getElem
  · simp [length_bytesAt]
  · intro i _ _
    simp [bytesAt, Nat.add_assoc]

theorem take_bytesAt (k : Nat) : (bytesAt memory pos n).take k = bytesAt memory pos (min k n) := by
  apply List.ext_getElem
  · simp [length_bytesAt]
  · intro i _ _
    simp [bytesAt]

theorem drop_bytesFrom (k : Nat) : (bytesFrom memory len pos).drop k = bytesFrom memory len (pos + k) := by
  unfold bytesFrom
  rw [drop_bytesAt, Nat.sub_add_eq]

theorem bytesFrom_nil (outside : len ≤ pos) : bytesFrom memory len pos = [] := by
  apply List.eq_nil_of_length_eq_zero
  rw [length_bytesFrom]
  omega

theorem bytesFrom_cons (inside : pos < len) :
    bytesFrom memory len pos = memory pos :: bytesFrom memory len (pos + 1) := by
  have first : (bytesFrom memory len pos)[0]? = some (memory pos) := by
    rw [bytesFrom, bytesAt, List.getElem?_map, List.getElem?_range (Nat.sub_pos_of_lt inside)]
    rfl
  have rest := @drop_bytesFrom memory len pos 1
  cases whole : bytesFrom memory len pos with
  | nil =>
    rw [whole] at first
    cases first
  | cons b bs =>
    rw [whole] at first rest
    rw [← rest, ← Option.some.inj first]
    rfl

theorem bytesFrom_eq_cons {b : UInt8} {bs : List UInt8} (same : bytesFrom memory len pos = b :: bs) :
    pos < len ∧ memory pos = b ∧ bytesFrom memory len (pos + 1) = bs := by
  have inside : pos < len := by
    by_contra outside
    rw [bytesFrom_nil (Nat.not_lt.mp outside)] at same
    cases same
  rw [bytesFrom_cons inside] at same
  exact ⟨inside, (List.cons.inj same).1, (List.cons.inj same).2⟩

theorem bytesFrom_eq_append {xs ys : List UInt8} (same : bytesFrom memory len pos = xs ++ ys) :
    bytesFrom memory len (pos + xs.length) = ys := by
  rw [← drop_bytesFrom, same, List.drop_left]

theorem bytesFrom_split (inside : pos + n ≤ len) :
    bytesFrom memory len pos = bytesAt memory pos n ++ bytesFrom memory len (pos + n) := by
  have start : (bytesFrom memory len pos).take n = bytesAt memory pos n := by
    unfold bytesFrom
    rw [take_bytesAt, Nat.min_eq_left (by omega)]
  rw [← start, ← drop_bytesFrom, List.take_append_drop]

theorem objectEnds_iff : objectEnds memory len pos = true ↔ objectEnd <+: bytesFrom memory len pos := by
  have three : objectEnd.length = 3 := rfl
  unfold objectEnds bytesFrom
  rw [Bool.and_eq_true, decide_eq_true_eq, beq_iff_eq, List.prefix_iff_eq_take, three, take_bytesAt]
  constructor
  · rintro ⟨inside, same⟩
    rw [Nat.min_eq_left (by omega), same]
    rfl
  · intro same
    have length := congrArg List.length same
    rw [length_bytesAt, three] at length
    rw [← length] at same
    exact ⟨by omega, same.symm⟩

theorem reads_within : (∀ access ∈ reads pos n, access.Within len) ↔ n = 0 ∨ pos + n ≤ len := by
  unfold reads
  rw [List.forall_mem_map]
  constructor
  · intro all
    cases n with
    | zero => exact .inl rfl
    | succ n => exact .inr (all n (List.mem_range.mpr (Nat.lt_succ_self n)))
  · intro inside i member
    have := List.mem_range.mp member
    rcases inside with none | inside
    · omega
    · exact Nat.lt_of_lt_of_le (Nat.add_lt_add_left this pos) inside

theorem writes_within {field : Field} (room : n ≤ field.size) : ∀ access ∈ writes field n, access.Within len := by
  unfold writes
  rw [List.forall_mem_map]
  intro i member
  exact Nat.lt_of_lt_of_le (List.mem_range.mp member) room

/-! ### The packets are complete where the loop stays inside -/

theorem field_take (bytes : List UInt8) {start size : Nat} (whole : start + size ≤ n) :
    ((bytes.take n).drop start).take size = (bytes.drop start).take size := by
  rw [List.drop_take, List.take_take, Nat.min_eq_left (by omega)]

theorem headD_take (bytes : List UInt8) {start : Nat} (inside : start < n) :
    ((bytes.take n).drop start).headD 0 = (bytes.drop start).headD 0 := by
  rw [List.headD_eq_head?_getD, List.headD_eq_head?_getD, List.head?_drop, List.head?_drop,
    List.getElem?_take_of_lt inside]

theorem size_take (bytes : List UInt8) (filled : 0 < n) :
    (parseRtmpPacketHeader (bytes.take n) 0).size = (parseRtmpPacketHeader bytes 0).size := by
  have first : (bytes.take n).headD 0 = bytes.headD 0 := headD_take bytes filled
  unfold parseRtmpPacketHeader
  dsimp only
  rw [List.drop_zero, List.drop_zero, first]
  split <;> rfl

theorem size_bounds (bytes : List UInt8) :
    0 < (parseRtmpPacketHeader bytes 0).size ∧ (parseRtmpPacketHeader bytes 0).size ≤ 12 := by
  unfold parseRtmpPacketHeader
  dsimp only
  split <;> exact ⟨Nat.zero_lt_succ _, by simp⟩

/-- A header is a matter of the bytes that belong to it. -/
theorem header_take (bytes : List UInt8) (whole : (parseRtmpPacketHeader bytes 0).size ≤ n) :
    parseRtmpPacketHeader (bytes.take n) 0 = parseRtmpPacketHeader bytes 0 := by
  have filled : 0 < n := Nat.lt_of_lt_of_le (size_bounds bytes).1 whole
  have first : (bytes.take n).headD 0 = bytes.headD 0 := headD_take bytes filled
  unfold parseRtmpPacketHeader at whole ⊢
  dsimp only at whole ⊢
  rw [List.drop_zero] at whole ⊢
  rw [List.drop_zero, first]
  split at whole
  · have : 12 ≤ n := whole
    rw [field_take bytes (by omega), field_take bytes (by omega), field_take bytes (by omega),
      headD_take bytes (by omega)]
  · have : 8 ≤ n := whole
    rw [field_take bytes (by omega), field_take bytes (by omega), headD_take bytes (by omega)]
  · have : 4 ≤ n := whole
    rw [field_take bytes (by omega)]
  · rfl

theorem size_bytesFrom (inside : pos < len) :
    (parseRtmpPacketHeader (bytesFrom memory len pos) 0).size = (headerAt memory pos).size := by
  have left := size_take (bytesAt memory pos (max 12 (len - pos))) (n := len - pos) (Nat.sub_pos_of_lt inside)
  have right := size_take (bytesAt memory pos (max 12 (len - pos))) (n := 12) (by decide)
  rw [take_bytesAt, Nat.min_eq_left (Nat.le_max_right _ _)] at left
  rw [take_bytesAt, Nat.min_eq_left (Nat.le_max_left _ _)] at right
  exact left.trans right.symm

theorem header_bytesFrom (inside : pos < len) (whole : pos + (headerAt memory pos).size ≤ len) :
    parseRtmpPacketHeader (bytesFrom memory len pos) 0 = headerAt memory pos := by
  have size := size_take (bytesAt memory pos (max 12 (len - pos))) (n := 12) (by decide)
  rw [take_bytesAt, Nat.min_eq_left (Nat.le_max_left _ _)] at size
  change (headerAt memory pos).size = _ at size
  have left := header_take (bytesAt memory pos (max 12 (len - pos))) (n := len - pos) (by omega)
  have right := header_take (bytesAt memory pos (max 12 (len - pos))) (n := 12) (size_bounds _).2
  rw [take_bytesAt, Nat.min_eq_left (Nat.le_max_right _ _)] at left
  rw [take_bytesAt, Nat.min_eq_left (Nat.le_max_left _ _)] at right
  exact left.trans right.symm

theorem packetAccesses_within : (∀ access ∈ packetAccesses memory pos, access.Within len) ↔
    pos + (headerAt memory pos).size ≤ len ∧
      ((headerAt memory pos).amfSize ≤ MAX_PAYLOAD_SIZE →
        pos + (headerAt memory pos).size + (headerAt memory pos).amfSize ≤ len) := by
  have filled := (size_bounds (bytesAt memory pos 12)).1
  change 0 < (headerAt memory pos).size at filled
  unfold packetAccesses
  dsimp only
  rw [List.forall_mem_append, reads_within]
  split
  · next long =>
    simp only [List.not_mem_nil, false_imp_iff, implies_true, and_true]
    omega
  · next fits =>
    have written := @writes_within len _ .rtmpPacketPayload (Nat.not_lt.mp fits)
    rw [List.forall_mem_append, reads_within, and_iff_left written]
    omega

/-- What a round of `parseRtmpPacket` asks for, and what the rest of the buffer has to have. -/
theorem packetsContained_round (more : pos + 1 < len) : PacketsContained memory len pos ↔
    (∀ access ∈ packetAccesses memory pos, access.Within len) ∧
      ((headerAt memory pos).amfSize ≤ MAX_PAYLOAD_SIZE →
        PacketsContained memory len (pos + (headerAt memory pos).size + (headerAt memory pos).amfSize)) := by
  constructor
  · intro contained
    exact ⟨contained pos .refl more, fun fits pos' reached => contained pos' (.head ⟨more, fits, rfl⟩ reached)⟩
  · rintro ⟨first, rest⟩ pos' reached more'
    rcases reached.cases_head with rfl | ⟨next, ⟨_, fits, rfl⟩, reached⟩
    · exact first
    · exact rest fits pos' reached more'

theorem packetsContained_end (last : ¬ pos + 1 < len) : PacketsContained memory len pos := by
  intro pos' reached more
  rcases reached.cases_head with rfl | ⟨next, ⟨more, _⟩, _⟩
  · exact absurd more last
  · exact absurd more last

theorem PacketsContained.complete (contained : PacketsContained memory len pos) :
    CompletePackets (bytesFrom memory len pos) := by
  induction h : len - pos using Nat.strong_induction_on generalizing pos with
  | _ left ih =>
    by_cases more : pos + 1 < len
    · obtain ⟨round, rest⟩ := (packetsContained_round more).mp contained
      obtain ⟨header, payload⟩ := packetAccesses_within.mp round
      have same := header_bytesFrom (by omega) header
      have filled := (size_bounds (bytesAt memory pos 12)).1
      change 0 < (headerAt memory pos).size at filled
      by_cases fits : (headerAt memory pos).amfSize ≤ MAX_PAYLOAD_SIZE
      · have whole := payload fits
        apply CompletePackets.packet
        · rwa [same]
        · rw [same, length_bytesFrom]
          omega
        · rw [same, drop_bytesFrom, ← Nat.add_assoc]
          exact ih _ (by omega) (rest fits) rfl
      · apply CompletePackets.tooLong
        · rw [same, length_bytesFrom]
          omega
        · rw [same]
          exact Nat.not_le.mp fits
    · apply CompletePackets.stop
      rw [length_bytesFrom]
      omega

theorem CompletePackets.contained {bytes : List UInt8} (complete : CompletePackets bytes)
    (same : bytesFrom memory len pos = bytes) : PacketsContained memory len pos := by
  induction complete generalizing pos with
  | stop short =>
    rw [← same, length_bytesFrom] at short
    exact packetsContained_end (by omega)
  | tooLong whole long =>
    subst same
    by_cases more : pos + 1 < len
    · rw [size_bytesFrom (by omega), length_bytesFrom] at whole
      rw [header_bytesFrom (by omega) (by omega)] at long
      rw [packetsContained_round more, packetAccesses_within]
      exact ⟨⟨by omega, fun fits => absurd long (Nat.not_lt.mpr fits)⟩, fun fits => absurd long (Nat.not_lt.mpr fits)⟩
    · exact packetsContained_end more
  | packet fits whole after ih =>
    subst same
    by_cases more : pos + 1 < len
    · have size := @size_bytesFrom memory len pos (by omega)
      have header : (headerAt memory pos).size ≤ len - pos := by
        rw [← size, ← @length_bytesFrom memory len pos]
        exact Nat.le_of_add_right_le whole
      have known : parseRtmpPacketHeader (bytesFrom memory len pos) 0 = headerAt memory pos :=
        header_bytesFrom (by omega) (by omega)
      rw [known] at fits whole ih
      rw [length_bytesFrom] at whole
      rw [packetsContained_round more, packetAccesses_within]
      refine ⟨⟨by omega, fun _ => by omega⟩, fun _ => ?_⟩
      rw [Nat.add_assoc]
      exact ih (drop_bytesFrom _).symm
    · exact packetsContained_end more

/-! ### The values are complete where the loop stays inside -/

theorem roundsContained_round (inside : c.pos < len) : RoundsContained memory len c ↔
    (∀ access ∈ roundAccesses memory len c, access.Within len) ∧
      ∀ next, amfRound memory len c = .again next → RoundsContained memory len next := by
  constructor
  · intro contained
    exact ⟨contained c .refl inside, fun next again c' reached => contained c' (.head ⟨inside, again⟩ reached)⟩
  · rintro ⟨first, rest⟩ c' reached inside'
    rcases reached.cases_head with rfl | ⟨next, ⟨_, again⟩, reached⟩
    · exact first
    · exact rest next again c' reached inside'

theorem roundsContained_end (outside : len ≤ c.pos) : RoundsContained memory len c := by
  intro c' reached inside
  rcases reached.cases_head with rfl | ⟨next, ⟨inside, _⟩, _⟩
  · exact absurd inside (Nat.not_lt.mpr outside)
  · exact absurd inside (Nat.not_lt.mpr outside)

/-- A byte that the `switch` does not know is read over and over. -/
theorem roundsContained_unknown (outer : c.amfObjectAlreadyStart = false) (unknown : memory c.pos ∉ amfTypes) :
    RoundsContained memory len c := by
  intro c' reached inside
  have stays : c' = c := by
    induction reached with
    | refl => rfl
    | tail _ step ih =>
      have again := step.2
      rw [ih step.1, amfRound_value outer, valueRound_unknown unknown] at again
      exact (AmfNext.again.inj again).symm
  subst stays
  simp only [amfTypes, List.mem_cons, List.not_mem_nil, or_false, not_or] at unknown
  unfold roundAccesses valueAccesses
  rw [if_neg (by simp [outer]), if_neg unknown.1, if_neg unknown.2.1, if_neg unknown.2.2.1]
  intro access member
  obtain rfl := List.mem_singleton.mp member
  exact inside

theorem endAccesses_within : ∀ access ∈ endAccesses memory len pos, access.Within len := by
  intro access member
  unfold endAccesses at member
  split at member
  · next inside =>
    have covered : access ∈ reads pos 3 := by
      change access ∈ [Access.read pos, .read (pos + 1), .read (pos + 2)]
      simp only [List.mem_cons, List.not_mem_nil, or_false]
      split at member
      · split at member
        · simpa using member
        · have : access = .read pos ∨ access = .read (pos + 1) := by simpa using member
          exact this.imp_right .inl
      · exact .inl (by simpa using member)
    exact reads_within.mpr (.inr inside) access covered
  · cases member

theorem propertyAccesses_within : (∀ access ∈ propertyAccesses memory c, access.Within len) ↔
    c.pos + 2 + lengthAt memory c.pos + 1 ≤ len ∧
      (memory (c.pos + 2 + lengthAt memory c.pos) = 0x02 → (propertyRound memory c).pos ≤ len) := by
  unfold propertyAccesses propertyRound
  dsimp only
  rw [List.forall_mem_append, reads_within]
  by_cases string : memory (c.pos + 2 + lengthAt memory c.pos) = 0x02
  · rw [if_pos string, if_pos string, reads_within, imp_iff_right string]
    dsimp only
    omega
  · rw [if_neg string, if_neg string]
    simp only [string, List.not_mem_nil, false_imp_iff, implies_true, and_true]
    omega

theorem propertyRound_end (memory : Nat → UInt8) (c : AmfCursor) :
    (propertyRound memory c).pos =
      if memory (c.pos + 2 + lengthAt memory c.pos) = 0x02 then
        c.pos + 2 + lengthAt memory c.pos + 3 + lengthAt memory (c.pos + 2 + lengthAt memory c.pos + 1)
      else c.pos + 2 + lengthAt memory c.pos := by
  unfold propertyRound
  dsimp only
  split <;> rfl

theorem roundAccesses_object (started : c.amfObjectAlreadyStart = true) :
    (∀ access ∈ roundAccesses memory len c, access.Within len) ↔
      ∀ access ∈ propertyAccesses memory c, access.Within len := by
  unfold roundAccesses
  rw [if_pos started, List.forall_mem_append, and_iff_left endAccesses_within]

theorem amfRound_object (started : c.amfObjectAlreadyStart = true) :
    amfRound memory len c =
      if objectEnds memory len (propertyRound memory c).pos then .left (propertyRound memory c).packet
      else .again (propertyRound memory c) := by
  rw [amfRound, if_pos started]

/-- Within an object: the round itself, and what follows unless the object ends. -/
theorem roundsContained_object (started : c.amfObjectAlreadyStart = true) (inside : c.pos < len) :
    RoundsContained memory len c ↔ (∀ access ∈ propertyAccesses memory c, access.Within len) ∧
      (¬ objectEnd <+: bytesFrom memory len (propertyRound memory c).pos →
        RoundsContained memory len (propertyRound memory c)) := by
  rw [roundsContained_round inside, roundAccesses_object started, amfRound_object started, ← objectEnds_iff]
  apply and_congr_right
  intro _
  cases objectEnds memory len (propertyRound memory c).pos <;> simp

theorem RoundsContained.properties (contained : RoundsContained memory len c)
    (started : c.amfObjectAlreadyStart = true) : CompleteProperties (bytesFrom memory len c.pos) := by
  induction h : len - c.pos using Nat.strong_induction_on generalizing c with
  | _ left ih =>
    by_cases inside : c.pos < len
    · obtain ⟨round, rest⟩ := (roundsContained_object started inside).mp contained
      obtain ⟨key, string⟩ := propertyAccesses_within.mp round
      have further := propertyRound_advances memory c
      have more (goesOn : ¬ objectEnd <+: bytesFrom memory len (propertyRound memory c).pos) :
          CompleteProperties (bytesFrom memory len (propertyRound memory c).pos) :=
        ih _ (by omega) (rest goesOn) ((propertyRound_start memory c).trans started) rfl
      have next := propertyRound_end memory c
      rw [bytesFrom_cons inside, bytesFrom_cons (by omega), Nat.add_assoc,
        @bytesFrom_split memory len (c.pos + (1 + 1)) (lengthAt memory c.pos) (by omega), bytesFrom_cons (by omega)]
      by_cases type : memory (c.pos + 2 + lengthAt memory c.pos) = 0x02
      · rw [if_pos type] at next
        have value := string type
        rw [next] at more value
        rw [type, bytesFrom_cons (by omega), bytesFrom_cons (by omega),
          @bytesFrom_split memory len (c.pos + 2 + lengthAt memory c.pos + 1 + 1 + 1)
            (lengthAt memory (c.pos + 2 + lengthAt memory c.pos + 1)) (by omega)]
        exact .string (length_bytesAt _ _) (length_bytesAt _ _) more
      · rw [if_neg type] at next
        rw [next, bytesFrom_cons (by omega)] at more
        exact .other (length_bytesAt _ _) type more
    · rw [bytesFrom_nil (Nat.not_lt.mp inside)]
      exact .nil

theorem CompleteProperties.contained {bytes : List UInt8} (complete : CompleteProperties bytes)
    (same : bytesFrom memory len c.pos = bytes) (started : c.amfObjectAlreadyStart = true) :
    RoundsContained memory len c := by
  induction complete generalizing c with
  | nil =>
    apply roundsContained_end
    by_contra inside
    rw [bytesFrom_cons (Nat.not_le.mp inside)] at same
    cases same
  | @string high low high' low' key value after keyLen stringLen more ih =>
    obtain ⟨inside, first, same⟩ := bytesFrom_eq_cons same
    obtain ⟨_, second, same⟩ := bytesFrom_eq_cons same
    obtain ⟨_, type, same⟩ := bytesFrom_eq_cons (bytesFrom_eq_append same)
    obtain ⟨_, third, same⟩ := bytesFrom_eq_cons same
    obtain ⟨there, fourth, same⟩ := bytesFrom_eq_cons same
    have type : memory (c.pos + 2 + key.length) = 0x02 := type
    have ending := congrArg List.length same
    rw [length_bytesFrom, List.length_append] at ending
    have rest : bytesFrom memory len (c.pos + 2 + key.length + 3 + value.length) = after := bytesFrom_eq_append same
    have length : lengthAt memory c.pos = key.length := by
      rw [lengthAt, first, second, keyLen]
      rfl
    have length' : lengthAt memory (c.pos + 2 + key.length + 1) = value.length := by
      rw [stringLen]
      exact congrArg₂ (fun high low : UInt8 => high.toNat * 16 + low.toNat) third fourth
    have next := propertyRound_end memory c
    rw [length, if_pos type, length'] at next
    rw [roundsContained_object started inside, propertyAccesses_within, length, next, rest]
    refine ⟨⟨by omega, fun _ => by omega⟩, fun goesOn => ih goesOn ?_ ((propertyRound_start memory c).trans started)⟩
    rw [next, rest]
  | @other high low type key after keyLen noString more ih =>
    obtain ⟨inside, first, same⟩ := bytesFrom_eq_cons same
    obtain ⟨_, second, same⟩ := bytesFrom_eq_cons same
    have rest : bytesFrom memory len (c.pos + 2 + key.length) = type :: after := bytesFrom_eq_append same
    obtain ⟨there, found, _⟩ := bytesFrom_eq_cons rest
    have length : lengthAt memory c.pos = key.length := by
      rw [lengthAt, first, second, keyLen]
      rfl
    have next := propertyRound_end memory c
    rw [length, found, if_neg noString] at next
    rw [roundsContained_object started inside, propertyAccesses_within, length, next, rest, found]
    refine ⟨⟨there, fun string => absurd string noString⟩, fun goesOn =>
      ih goesOn ?_ ((propertyRound_start memory c).trans started)⟩
    rw [next, rest]

/-- Outside an object, behind `strings` strings and `numbers` numbers. -/
structure Outside (c : AmfCursor) (strings numbers : Nat) : Prop where
  outer : c.amfObjectAlreadyStart = false
  strings : c.countString = min strings 3
  numbers : c.countNumber = min numbers 1

theorem setString_counts (c : AmfCursor) (value : List UInt8) :
    (setString c value).countString = max c.countString (min (c.countString + 1) 3) ∧
      (setString c value).countNumber = c.countNumber := by
  unfold setString
  split
  · next first => exact ⟨by rw [first]; rfl, rfl⟩
  · next second => exact ⟨by rw [second]; rfl, rfl⟩
  · next third => exact ⟨by rw [third]; rfl, rfl⟩
  · next first second third =>
    have none : c.countString ≠ 0 := first
    have one : c.countString ≠ 1 := second
    have two : c.countString ≠ 2 := third
    exact ⟨by omega, rfl⟩

variable {strings numbers : Nat}

theorem Outside.number (outside : Outside c strings numbers) (type : memory c.pos = 0x00) :
    Outside (valueRound memory c) strings (numbers + 1) := by
  obtain ⟨outer, strings, numbers⟩ := outside
  unfold valueRound
  rw [if_pos type]
  split
  · exact ⟨outer, strings, by dsimp only; omega⟩
  · exact ⟨outer, strings, by dsimp only; omega⟩

theorem Outside.string (outside : Outside c strings numbers) (type : memory c.pos = 0x02) :
    Outside (valueRound memory c) (strings + 1) numbers := by
  obtain ⟨outer, strings, numbers⟩ := outside
  have counts := setString_counts c (bytesAt memory (c.pos + 3) (lengthAt memory (c.pos + 1)))
  have round : valueRound memory c =
      { setString c (bytesAt memory (c.pos + 3) (lengthAt memory (c.pos + 1))) with
        pos := c.pos + 3 + lengthAt memory (c.pos + 1) } := by
    simp [valueRound, type]
  rw [round]
  exact ⟨(setString_start c _).trans outer, counts.1.trans (by omega), counts.2.trans numbers⟩

/-- A boolean, a `null` or a map. -/
theorem Outside.other (outside : Outside c strings numbers)
    (type : memory c.pos = 0x01 ∨ memory c.pos = 0x05 ∨ memory c.pos = 0x08) :
    Outside (valueRound memory c) strings numbers := by
  obtain ⟨outer, strings, numbers⟩ := outside
  rcases type with type | type | type <;> simp only [valueRound, type] <;> exact ⟨outer, strings, numbers⟩

theorem roundsContained_value (outer : c.amfObjectAlreadyStart = false) (inside : c.pos < len) :
    RoundsContained memory len c ↔
      (∀ access ∈ valueAccesses memory c, access.Within len) ∧ RoundsContained memory len (valueRound memory c) := by
  have accesses : roundAccesses memory len c = valueAccesses memory c := if_neg (by simp [outer])
  rw [roundsContained_round inside, amfRound_value outer, accesses]
  simp

theorem valueAccesses_number (inside : c.pos < len) (type : memory c.pos = 0x00) :
    (∀ access ∈ valueAccesses memory c, access.Within len) ↔ (c.countNumber = 0 → c.pos + 9 ≤ len) := by
  have transactionID := @writes_within len _ .transactionID (Nat.le_refl 9)
  have first : Access.Within len (.read c.pos) := inside
  unfold valueAccesses
  rw [List.forall_mem_cons, and_iff_right first, if_pos type]
  by_cases kept : c.countNumber = 0
  · rw [if_pos kept, List.forall_mem_append, and_iff_right transactionID, reads_within, imp_iff_right kept]
    omega
  · simp [kept]

theorem valueAccesses_boolean (inside : c.pos < len) (type : memory c.pos = 0x01) :
    (∀ access ∈ valueAccesses memory c, access.Within len) ↔ c.pos + 2 ≤ len := by
  have flag := @writes_within len _ .flag (Nat.le_refl 2)
  have first : Access.Within len (.read c.pos) := inside
  unfold valueAccesses
  rw [List.forall_mem_cons, and_iff_right first, if_neg (by rw [type]; decide), if_pos type, List.forall_mem_append,
    and_iff_right flag, reads_within]
  omega

theorem valueAccesses_string (inside : c.pos < len) (type : memory c.pos = 0x02) :
    (∀ access ∈ valueAccesses memory c, access.Within len) ↔
      c.pos + 3 ≤ len ∧ (c.countString < 3 → c.pos + 3 + lengthAt memory (c.pos + 1) ≤ len) := by
  have first : Access.Within len (.read c.pos) := inside
  unfold valueAccesses
  rw [List.forall_mem_cons, and_iff_right first, if_neg (by rw [type]; decide), if_neg (by rw [type]; decide),
    if_pos type, List.forall_mem_append, reads_within]
  split
  · rw [reads_within]
    omega
  · simp only [List.not_mem_nil, false_imp_iff, implies_true, and_true]
    omega

theorem valueAccesses_other (inside : c.pos < len)
    (type : memory c.pos = 0x03 ∨ memory c.pos = 0x05 ∨ memory c.pos = 0x08) :
    ∀ access ∈ valueAccesses memory c, access.Within len := by
  have alone : valueAccesses memory c = [.read c.pos] := by
    unfold valueAccesses
    rcases type with type | type | type <;> rw [type] <;> rfl
  rw [alone]
  intro access member
  obtain rfl := List.mem_singleton.mp member
  exact inside

theorem valueWidth_number (type : memory pos = 0x00) : valueWidth memory pos = 9 := if_pos type

theorem valueWidth_boolean (type : memory pos = 0x01) : valueWidth memory pos = 2 := by simp [valueWidth, type]

theorem valueWidth_string (type : memory pos = 0x02) : valueWidth memory pos = 3 + lengthAt memory (pos + 1) := by
  simp [valueWidth, type]

theorem valueWidth_null (type : memory pos = 0x05) : valueWidth memory pos = 1 := by simp [valueWidth, type]

theorem valueWidth_map (type : memory pos = 0x08) : valueWidth memory pos = 5 := by simp [valueWidth, type]

theorem RoundsContained.values (contained : RoundsContained memory len c) (outside : Outside c strings numbers) :
    CompleteValues strings numbers (bytesFrom memory len c.pos) := by
  induction h : len - c.pos using Nat.strong_induction_on generalizing c strings numbers with
  | _ left ih =>
    by_cases inside : c.pos < len
    · by_cases known : memory c.pos ∈ amfTypes
      · obtain ⟨round, rest⟩ := (roundsContained_value outside.outer inside).mp contained
        by_cases object : memory c.pos = 0x03
        · rw [valueRound_object object] at rest
          rw [bytesFrom_cons inside, object]
          exact .object (rest.properties rfl)
        · have width := (valueRound_scalar known object).1
          have further := valueWidth_pos memory c.pos
          have more {strings numbers : Nat} (next : Outside (valueRound memory c) strings numbers) :
              CompleteValues strings numbers (bytesFrom memory len (c.pos + valueWidth memory c.pos)) := by
            rw [← width]
            exact ih _ (by omega) rest next rfl
          rw [bytesFrom_cons inside]
          simp only [amfTypes, List.mem_cons, List.not_mem_nil, or_false] at known
          rcases known with type | type | type | type | type | type
          · have next := more (outside.number type)
            rw [valueWidth_number type] at next
            rw [type]
            apply CompleteValues.number
            · intro none
              have whole := (valueAccesses_number inside type).mp round (by rw [outside.numbers, none]; rfl)
              rw [length_bytesFrom]
              omega
            · rwa [drop_bytesFrom, Nat.add_assoc]
          · have next := more (outside.other (.inl type))
            rw [valueWidth_boolean type] at next
            have value := (valueAccesses_boolean inside type).mp round
            rw [type, bytesFrom_cons (by omega), Nat.add_assoc]
            exact .boolean next
          · have next := more (outside.string type)
            rw [valueWidth_string type] at next
            obtain ⟨length, content⟩ := (valueAccesses_string inside type).mp round
            rw [type, bytesFrom_cons (by omega), bytesFrom_cons (by omega)]
            apply CompleteValues.string
            · intro kept
              have whole := content (by rw [outside.strings]; omega)
              rw [length_bytesFrom]
              exact Nat.le_sub_of_add_le' whole
            · rw [drop_bytesFrom]
              rwa [← Nat.add_assoc] at next
          · exact absurd type object
          · have next := more (outside.other (.inr (.inl type)))
            rw [valueWidth_null type] at next
            rw [type]
            exact .null next
          · have next := more (outside.other (.inr (.inr type)))
            rw [valueWidth_map type] at next
            rw [type]
            apply CompleteValues.map
            rwa [drop_bytesFrom, Nat.add_assoc]
      · rw [bytesFrom_cons inside]
        exact .unknown known
    · rw [bytesFrom_nil (Nat.not_lt.mp inside)]
      exact .nil

theorem mem_amfTypes {type : UInt8} :
    type ∈ amfTypes ↔ type = 0x00 ∨ type = 0x01 ∨ type = 0x02 ∨ type = 0x03 ∨ type = 0x05 ∨ type = 0x08 := by
  simp [amfTypes]

theorem CompleteValues.contained {bytes : List UInt8} (complete : CompleteValues strings numbers bytes)
    (same : bytesFrom memory len c.pos = bytes) (outside : Outside c strings numbers) :
    RoundsContained memory len c := by
  induction complete generalizing c with
  | nil =>
    apply roundsContained_end
    by_contra inside
    rw [bytesFrom_cons (Nat.not_le.mp inside)] at same
    cases same
  | number kept more ih =>
    obtain ⟨inside, type, same⟩ := bytesFrom_eq_cons same
    have next := (valueRound_scalar (mem_amfTypes.mpr (.inl type)) (by rw [type]; decide)).1
    rw [valueWidth_number type] at next
    have within : ∀ access ∈ valueAccesses memory c, access.Within len := by
      have first := outside.numbers
      rw [← same, length_bytesFrom] at kept
      rw [valueAccesses_number inside type]
      omega
    refine (roundsContained_value outside.outer inside).mpr ⟨within, ih ?_ (outside.number type)⟩
    rw [next, ← same, drop_bytesFrom, Nat.add_assoc]
  | boolean more ih =>
    obtain ⟨inside, type, same⟩ := bytesFrom_eq_cons same
    obtain ⟨value, _, same⟩ := bytesFrom_eq_cons same
    have next := (valueRound_scalar (mem_amfTypes.mpr (.inr (.inl type))) (by rw [type]; decide)).1
    rw [valueWidth_boolean type] at next
    have within := (valueAccesses_boolean inside type).mpr value
    refine (roundsContained_value outside.outer inside).mpr ⟨within, ih ?_ (outside.other (.inl type))⟩
    rw [next]
    exact same
  | @string strings numbers high low after kept more ih =>
    obtain ⟨inside, type, same⟩ := bytesFrom_eq_cons same
    obtain ⟨_, first, same⟩ := bytesFrom_eq_cons same
    obtain ⟨there, second, same⟩ := bytesFrom_eq_cons same
    have length : lengthAt memory (c.pos + 1) = stringLength high low :=
      congrArg₂ (fun high low : UInt8 => high.toNat * 16 + low.toNat) first second
    have next := (valueRound_scalar (mem_amfTypes.mpr (.inr (.inr (.inl type)))) (by rw [type]; decide)).1
    rw [valueWidth_string type, length] at next
    have within : ∀ access ∈ valueAccesses memory c, access.Within len := by
      have count := outside.strings
      rw [← same, length_bytesFrom] at kept
      rw [valueAccesses_string inside type, length]
      omega
    refine (roundsContained_value outside.outer inside).mpr ⟨within, ih ?_ (outside.string type)⟩
    rw [next, ← same, drop_bytesFrom, ← Nat.add_assoc]
  | object more =>
    obtain ⟨inside, type, same⟩ := bytesFrom_eq_cons same
    have within := @valueAccesses_other memory len c inside (.inl type)
    have next := @valueRound_object memory c type
    refine (roundsContained_value outside.outer inside).mpr ⟨within, more.contained ?_ ?_⟩
    · rw [next]
      exact same
    · rw [next]
  | null more ih =>
    obtain ⟨inside, type, same⟩ := bytesFrom_eq_cons same
    have known := mem_amfTypes.mpr (.inr (.inr (.inr (.inr (.inl type)))))
    have next := (valueRound_scalar known (by rw [type]; decide)).1
    rw [valueWidth_null type] at next
    have within := @valueAccesses_other memory len c inside (.inr (.inl type))
    refine (roundsContained_value outside.outer inside).mpr ⟨within, ih ?_ (outside.other (.inr (.inl type)))⟩
    rw [next]
    exact same
  | map more ih =>
    obtain ⟨inside, type, same⟩ := bytesFrom_eq_cons same
    have known := mem_amfTypes.mpr (.inr (.inr (.inr (.inr (.inr type)))))
    have next := (valueRound_scalar known (by rw [type]; decide)).1
    rw [valueWidth_map type] at next
    have within := @valueAccesses_other memory len c inside (.inr (.inr type))
    refine (roundsContained_value outside.outer inside).mpr ⟨within, ih ?_ (outside.other (.inr (.inr type)))⟩
    rw [next, ← same, drop_bytesFrom, Nat.add_assoc]
  | unknown unknown =>
    obtain ⟨inside, type, same⟩ := bytesFrom_eq_cons same
    exact roundsContained_unknown outside.outer (type ▸ unknown)

/-! ### Both parsers -/

theorem AmfAccesses.reset_within {access : Access} (member : access ∈ [Access.write .transactionID 0, .write .flag 0]) :
    access.Within len := by
  simp only [List.mem_cons, List.not_mem_nil, or_false] at member
  rcases member with rfl | rfl
  · exact Nat.zero_lt_succ 8
  · exact Nat.zero_lt_succ 1

theorem start_outside : Outside amfStart 0 0 := ⟨rfl, rfl, rfl⟩

/-- A message that is not answered before the loop: all depends on the rounds. -/
theorem amfAccesses_rounds (window : amfType ≠ MESSAGE_WINDOW_ACKNOWLEDGEMENT_SIZE)
    (control : amfType ≠ MESSAGE_USER_CONTROL) :
    (∀ access, AmfAccesses memory len amfType access → access.Within len) ↔ RoundsContained memory len amfStart := by
  constructor
  · intro all c reached inside access member
    have filled : len ≠ 0 := by omega
    have loops : ¬ Loopless len amfType := by
      rintro (empty | type | type)
      · exact filled empty
      · exact window type
      · exact control type
    exact all access (.round loops reached inside member)
  · intro contained access accessed
    cases accessed with
    | reset _ member => exact AmfAccesses.reset_within member
    | windowAcknowledgementSize _ type => exact absurd type window
    | userControl _ type => exact absurd type control
    | round _ reached inside member => exact contained _ reached inside access member

theorem amfAccesses_complete : (∀ access, AmfAccesses memory len amfType access → access.Within len) ↔
    CompleteMessage amfType (bytesFrom memory len 0) := by
  unfold CompleteMessage
  by_cases window : amfType = MESSAGE_WINDOW_ACKNOWLEDGEMENT_SIZE
  · rw [if_pos window]
    constructor
    · intro all
      by_cases empty : len = 0
      · exact .inl (bytesFrom_nil (Nat.le_of_eq empty))
      · right
        have four := reads_within.mp fun access member => all access (.windowAcknowledgementSize empty window member)
        rw [length_bytesFrom]
        omega
    · intro whole access accessed
      cases accessed with
      | reset _ member => exact AmfAccesses.reset_within member
      | windowAcknowledgementSize filled _ member =>
        refine reads_within.mpr (.inr ?_) access member
        rcases whole with none | four
        · have none := congrArg List.length none
          rw [length_bytesFrom, List.length_nil] at none
          omega
        · rw [length_bytesFrom] at four
          omega
      | userControl _ type => exact absurd (window.symm.trans type) (by decide)
      | round loops => exact absurd (.inr (.inl window)) loops
  · rw [if_neg window]
    by_cases control : amfType = MESSAGE_USER_CONTROL
    · rw [if_pos control, length_bytesFrom]
      constructor
      · intro all
        by_cases empty : len = 0
        · omega
        · have two := reads_within.mp fun access member => all access (.userControl empty control member)
          omega
      · intro two access accessed
        cases accessed with
        | reset _ member => exact AmfAccesses.reset_within member
        | windowAcknowledgementSize _ type => exact absurd type window
        | userControl filled _ member => exact reads_within.mpr (.inr (by omega)) access member
        | round loops => exact absurd (.inr (.inr control)) loops
    · rw [if_neg control, amfAccesses_rounds window control]
      exact ⟨fun contained => contained.values start_outside, fun complete => complete.contained rfl start_outside⟩

/-- The parsers stay inside exactly where the packets, and the values they keep, are there in full. -/
theorem parsers_contained (memory : Nat → UInt8) (len : Nat) (amfType : UInt8) :
    Contained memory len amfType ↔
      CompletePackets (bytesAt memory 0 len) ∧ CompleteMessage amfType (bytesAt memory 0 len) := by
  have packets : PacketsContained memory len 0 ↔ CompletePackets (bytesFrom memory len 0) :=
    ⟨PacketsContained.complete, fun complete => complete.contained rfl⟩
  constructor
  · rintro ⟨packet, amf⟩
    exact ⟨packets.mp packet, amfAccesses_complete.mp amf⟩
  · rintro ⟨packet, amf⟩
    exact ⟨packets.mpr packet, amfAccesses_complete.mpr amf⟩

/-- Three bytes: a packet whose header has twelve, and a string of five with none of them. -/
theorem parsers_read_beyond :
    let memory := fun i => ([0x02, 0x00, 0x05][i]?).getD 0x00
    ¬ PacketsContained memory 3 0 ∧
      (∃ pos, AmfAccesses memory 3 MESSAGE_INVOKE (.read pos) ∧ 3 ≤ pos) ∧
      ¬ ∀ memory len amfType, Contained memory len amfType := by
  intro memory
  have packet : ¬ PacketsContained memory 3 0 := by
    intro contained
    have beyond : Access.Within 3 (.read 11) := contained 0 .refl (by decide) _ (by decide)
    exact absurd (show 11 < 3 from beyond) (by decide)
  have loops : ¬ Loopless 3 MESSAGE_INVOKE := by
    unfold Loopless
    decide
  refine ⟨packet, ⟨7, .round loops .refl (by decide) (by decide), by decide⟩, fun all => ?_⟩
  exact packet (all _ _ 0).parseRtmpPacket

end LiveStreaming.XtraRtmp
