import LiveStreaming.XtraRtmp.Amf
import Mathlib.Logic.Relation

/-!
# The rounds of the AMF parser

One round of `parseRtmpAMF0`'s loop, on the memory from `buffer` on, whatever it holds. Outside an object
the `switch` knows six types; at any other byte a round leaves everything as it was.
-/

namespace LiveStreaming.XtraRtmp
open Library

def bytesAt (memory : Nat → UInt8) (pos n : Nat) : List UInt8 := (List.range n).map fun i => memory (pos + i)

/-- `buffer[pos]*16+buffer[pos+1]` -/
def lengthAt (memory : Nat → UInt8) (pos : Nat) : Nat := (memory pos).toNat * 16 + (memory (pos + 1)).toNat

/-- A round outside an object. -/
def valueRound (memory : Nat → UInt8) (c : AmfCursor) : AmfCursor :=
  if memory c.pos = 0x00 then
    if c.countNumber = 0 then
      { c with
        pos := c.pos + 9
        countNumber := 1
        packet := { c.packet with transactionID := some (bytesAt memory (c.pos + 1) 8) } }
    else { c with pos := c.pos + 9 }
  else if memory c.pos = 0x01 then
    { c with pos := c.pos + 2, packet := { c.packet with flag := some (memory (c.pos + 1)) } }
  else if memory c.pos = 0x02 then
    let stringLen := lengthAt memory (c.pos + 1)
    { setString c (bytesAt memory (c.pos + 3) stringLen) with pos := c.pos + 3 + stringLen }
  else if memory c.pos = 0x03 then { c with pos := c.pos + 1, amfObjectAlreadyStart := true }
  else if memory c.pos = 0x05 then { c with pos := c.pos + 1 }
  else if memory c.pos = 0x08 then { c with pos := c.pos + 5 }
  else c

/-- A round within an object, up to the test for its end. -/
def propertyRound (memory : Nat → UInt8) (c : AmfCursor) : AmfCursor :=
  let keyLen := lengthAt memory c.pos
  let pos := c.pos + 2 + keyLen
  if memory pos = 0x02 then
    let stringLen := lengthAt memory (pos + 1)
    let key := bytesAt memory (c.pos + 2) keyLen
    let parameters :=
      if key ∈ c.packet.parameters then c.packet.parameters
      else c.packet.parameters.insert key (bytesAt memory (pos + 3) stringLen)
    { c with pos := pos + 3 + stringLen, packet := { c.packet with parameters := parameters } }
  else { c with pos := pos }

def objectEnds (memory : Nat → UInt8) (len pos : Nat) : Bool := pos + 3 ≤ len && bytesAt memory pos 3 == [0, 0, 9]

/-- A round goes on to the next one or leaves the loop. -/
inductive AmfNext where
  | again (c : AmfCursor)
  | left (packet : AmfPacket)

def amfRound (memory : Nat → UInt8) (len : Nat) (c : AmfCursor) : AmfNext :=
  if c.amfObjectAlreadyStart then
    let c := propertyRound memory c
    if objectEnds memory len c.pos then .left c.packet else .again c
  else .again (valueRound memory c)

/-- At most `rounds` rounds; `none` where they are not enough. -/
def amfRun (memory : Nat → UInt8) (len : Nat) : Nat → AmfCursor → Option AmfPacket
  | 0, _ => none
  | rounds + 1, c =>
    if len ≤ c.pos then some c.packet
    else
      match amfRound memory len c with
      | .left packet => some packet
      | .again c => amfRun memory len rounds c

def amfStart : AmfCursor := ⟨0, false, 0, 0, ⟨-1, 0, [], none, none, [], [], ∅⟩⟩

/-- The messages that `parseRtmpAMF0` answers without its loop. -/
def Loopless (len : Nat) (amfType : UInt8) : Prop :=
  len = 0 ∨ amfType = MESSAGE_WINDOW_ACKNOWLEDGEMENT_SIZE ∨ amfType = MESSAGE_USER_CONTROL

def amfTypes : List UInt8 := [0x00, 0x01, 0x02, 0x03, 0x05, 0x08]

/-- How far the `switch` goes at a value that is not an object. -/
def valueWidth (memory : Nat → UInt8) (pos : Nat) : Nat :=
  if memory pos = 0x00 then 9
  else if memory pos = 0x01 then 2
  else if memory pos = 0x02 then 3 + lengthAt memory (pos + 1)
  else if memory pos = 0x05 then 1
  else 5

/-- The places where a value begins: the first byte, and what lies behind a value that is not an object. -/
inductive ValueAt (memory : Nat → UInt8) : Nat → Prop where
  | first : ValueAt memory 0
  | next {pos : Nat} (value : ValueAt memory pos) (known : memory pos ∈ amfTypes) (scalar : memory pos ≠ 0x03) :
      ValueAt memory (pos + valueWidth memory pos)

/-- A round that another one follows, or the end of the loop at `len`. -/
def AmfStep (memory : Nat → UInt8) (len : Nat) (c next : AmfCursor) : Prop :=
  c.pos < len ∧ amfRound memory len c = .again next

/-- The cursors at which the loop stands. -/
def Reaches (memory : Nat → UInt8) (len : Nat) : AmfCursor → AmfCursor → Prop :=
  Relation.ReflTransGen (AmfStep memory len)

/-- `parseRtmpAMF0` on memory of any content, with at most `rounds` rounds of its loop. -/
def parseRtmpAMF0Rounds (memory : Nat → UInt8) (len : Nat) (amfType : UInt8) (rounds : Nat) : Option AmfPacket :=
  if len = 0 then some amfStart.packet
  else if amfType = MESSAGE_WINDOW_ACKNOWLEDGEMENT_SIZE then
    some { amfStart.packet with windowAcknowledgementSize := bigEndian (bytesAt memory 0 4) }
  else if amfType = MESSAGE_USER_CONTROL then
    some { amfStart.packet with eventType := toShort (bigEndian (bytesAt memory 0 2)) }
  else amfRun memory len rounds amfStart

/-- The call returns, and each round of its loop goes forward or leaves it. -/
structure Terminates (memory : Nat → UInt8) (len : Nat) (amfType : UInt8) : Prop where
  returns : ∃ rounds, (parseRtmpAMF0Rounds memory len amfType rounds).isSome
  advances : ¬ Loopless len amfType → ∀ c next, Reaches memory len amfStart c → AmfStep memory len c next →
    c.pos < next.pos

/-- Every value within the buffer has a type that the `switch` knows. -/
def AllKnown (memory : Nat → UInt8) (len : Nat) : Prop := ∀ pos < len, ValueAt memory pos → memory pos ∈ amfTypes

variable {memory : Nat → UInt8} {len : Nat} {amfType : UInt8} {c : AmfCursor}

theorem peekBytes_total (pos n : Nat) : peekBytes (fun i => some (memory i)) pos n = some (bytesAt memory pos n) := by
  unfold peekBytes bytesAt
  induction List.range n with
  | nil => rfl
  | cons i is ih =>
    rw [List.mapM_cons, ih]
    rfl

theorem peekString_total (pos : Nat) :
    peekString (fun i => some (memory i)) pos = some (bytesAt memory (pos + 2) (lengthAt memory pos)) :=
  peekBytes_total _ _

theorem length_bytesAt (pos n : Nat) : (bytesAt memory pos n).length = n := by simp [bytesAt]

theorem parseAmfValue_known (known : memory c.pos ∈ amfTypes) :
    parseAmfValue (fun i => some (memory i)) c = some (valueRound memory c) := by
  simp only [amfTypes, List.mem_cons, List.not_mem_nil, or_false] at known
  unfold parseAmfValue valueRound
  rcases known with type | type | type | type | type | type
  · by_cases first : c.countNumber = 0
    · simp [type, first, peekBytes_total]
    · simp [type, first]
  · simp [type]
  · simp [type, peekString_total, length_bytesAt]
  · simp [type]
  · simp [type]
  · simp [type]

theorem parseAmfValue_unknown (unknown : memory c.pos ∉ amfTypes) :
    parseAmfValue (fun i => some (memory i)) c = none := by
  simp only [amfTypes, List.mem_cons, List.not_mem_nil, or_false, not_or] at unknown
  simp [parseAmfValue, unknown]

theorem parseAmfProperty_total (c : AmfCursor) :
    parseAmfProperty (fun i => some (memory i)) c = some (propertyRound memory c) := by
  unfold parseAmfProperty propertyRound
  simp only [Option.bind_eq_bind, Option.bind_some, peekString_total, Option.pure_def, length_bytesAt]
  split <;> rfl

theorem amfObjectEnds_total (len pos : Nat) :
    amfObjectEnds (fun i => some (memory i)) len pos = some (objectEnds memory len pos) := by
  unfold amfObjectEnds objectEnds
  rw [peekBytes_total]
  split
  · next inside => simp [inside]
  · next outside => simp [outside]

/-- A byte that the `switch` does not know keeps the loop where it is. -/
theorem valueRound_unknown (unknown : memory c.pos ∉ amfTypes) : valueRound memory c = c := by
  simp only [amfTypes, List.mem_cons, List.not_mem_nil, or_false, not_or] at unknown
  obtain ⟨number, boolean, string, object, null, map⟩ := unknown
  unfold valueRound
  rw [if_neg number, if_neg boolean, if_neg string, if_neg object, if_neg null, if_neg map]

theorem amfRun_unknown (inside : c.pos < len) (outer : c.amfObjectAlreadyStart = false)
    (unknown : memory c.pos ∉ amfTypes) (rounds : Nat) : amfRun memory len rounds c = none := by
  induction rounds with
  | zero => rfl
  | succ rounds ih =>
    have same : amfRound memory len c = .again c := by
      rw [amfRound, if_neg (by simp [outer]), valueRound_unknown unknown]
    rw [amfRun, if_neg (Nat.not_le.mpr inside), same]
    exact ih

/-- The loop of the model that stops at an unknown byte gives what the rounds give, on all of memory. -/
theorem parseAmfFrom_total (rounds : Nat) (c : AmfCursor) :
    parseAmfFrom (fun i => some (memory i)) len rounds c = amfRun memory len rounds c := by
  induction rounds generalizing c with
  | zero => rfl
  | succ rounds ih =>
    by_cases inside : len ≤ c.pos
    · rw [parseAmfFrom, amfRun, if_pos inside, if_pos inside]
    · cases started : c.amfObjectAlreadyStart with
      | true =>
        rw [parseAmfFrom, amfRun, if_neg inside, if_neg inside, if_pos started, amfRound, if_pos started,
          parseAmfProperty_total, Option.bind_eq_bind, Option.bind_some, amfObjectEnds_total]
        dsimp only [Option.bind_eq_bind, Option.bind_some]
        cases objectEnds memory len (propertyRound memory c).pos with
        | true => rfl
        | false => exact ih _
      | false =>
        have outer : ¬ c.amfObjectAlreadyStart = true := by simp [started]
        by_cases known : memory c.pos ∈ amfTypes
        · rw [parseAmfFrom, amfRun, if_neg inside, if_neg inside, if_neg outer, amfRound, if_neg outer,
            parseAmfValue_known known]
          exact ih _
        · rw [amfRun_unknown (Nat.not_le.mp inside) started known, parseAmfFrom, if_neg inside, if_neg outer,
            parseAmfValue_unknown known]
          rfl

theorem setString_start (c : AmfCursor) (value : List UInt8) :
    (setString c value).amfObjectAlreadyStart = c.amfObjectAlreadyStart := by
  unfold setString
  split <;> rfl

/-- Where a round leads from a value that is not an object. -/
theorem valueRound_scalar (known : memory c.pos ∈ amfTypes) (scalar : memory c.pos ≠ 0x03) :
    (valueRound memory c).pos = c.pos + valueWidth memory c.pos ∧
      (valueRound memory c).amfObjectAlreadyStart = c.amfObjectAlreadyStart := by
  simp only [amfTypes, List.mem_cons, List.not_mem_nil, or_false] at known
  unfold valueRound valueWidth
  rcases known with type | type | type | type | type | type
  · rw [if_pos type, if_pos type]
    split <;> exact ⟨rfl, rfl⟩
  · simp [type]
  · simp [type, setString_start, Nat.add_assoc]
  · exact absurd type scalar
  · simp [type]
  · simp [type]

theorem valueRound_object (object : memory c.pos = 0x03) :
    valueRound memory c = { c with pos := c.pos + 1, amfObjectAlreadyStart := true } := by
  simp [valueRound, object]

theorem valueWidth_pos (memory : Nat → UInt8) (pos : Nat) : 0 < valueWidth memory pos := by
  unfold valueWidth
  repeat' split
  all_goals omega

theorem propertyRound_advances (memory : Nat → UInt8) (c : AmfCursor) : c.pos < (propertyRound memory c).pos := by
  unfold propertyRound
  dsimp only
  split
  · dsimp only
    omega
  · dsimp only
    omega

theorem propertyRound_start (memory : Nat → UInt8) (c : AmfCursor) :
    (propertyRound memory c).amfObjectAlreadyStart = c.amfObjectAlreadyStart := by
  unfold propertyRound
  dsimp only
  split <;> rfl

/-- A round that goes on: within an object, or at a value. -/
theorem amfRound_again {next : AmfCursor} (again : amfRound memory len c = .again next) :
    (c.amfObjectAlreadyStart = true ∧ next = propertyRound memory c) ∨
      (c.amfObjectAlreadyStart = false ∧ next = valueRound memory c) := by
  unfold amfRound at again
  split at again
  · next started =>
    dsimp only at again
    split at again
    · cases again
    · exact .inl ⟨started, (AmfNext.again.inj again).symm⟩
  · next outer => exact .inr ⟨Bool.eq_false_iff.mpr outer, (AmfNext.again.inj again).symm⟩

theorem amfRound_value (outer : c.amfObjectAlreadyStart = false) :
    amfRound memory len c = .again (valueRound memory c) := by
  rw [amfRound, if_neg (by simp [outer])]

/-- Outside an object the loop stands where a value begins. -/
theorem Reaches.valueAt (reached : Reaches memory len amfStart c) (outer : c.amfObjectAlreadyStart = false) :
    ValueAt memory c.pos := by
  induction reached with
  | refl => exact .first
  | @tail c next reached step ih =>
    rcases amfRound_again step.2 with ⟨started, rfl⟩ | ⟨before, rfl⟩
    · rw [propertyRound_start, started] at outer
      cases outer
    · by_cases known : memory c.pos ∈ amfTypes
      · by_cases object : memory c.pos = 0x03
        · rw [valueRound_object object] at outer
          cases outer
        · rw [(valueRound_scalar known object).1]
          exact (ih before).next known object
      · rw [valueRound_unknown known]
        exact ih before

/-- The loop stands at every value within the buffer. -/
theorem ValueAt.reached {pos : Nat} (value : ValueAt memory pos) (inside : pos < len) :
    ∃ c, Reaches memory len amfStart c ∧ c.pos = pos ∧ c.amfObjectAlreadyStart = false := by
  induction value with
  | first => exact ⟨amfStart, .refl, rfl, rfl⟩
  | @next pos value known scalar ih =>
    have before : pos < len := by
      have := valueWidth_pos memory pos
      omega
    obtain ⟨c, reached, rfl, outer⟩ := ih before
    obtain ⟨width, start⟩ := valueRound_scalar known scalar
    exact ⟨_, reached.tail ⟨before, amfRound_value outer⟩, width, start.trans outer⟩

theorem AllKnown.advances (all : AllKnown memory len) {next : AmfCursor} (reached : Reaches memory len amfStart c)
    (step : AmfStep memory len c next) : c.pos < next.pos := by
  rcases amfRound_again step.2 with ⟨_, rfl⟩ | ⟨outer, rfl⟩
  · exact propertyRound_advances memory c
  · have known := all c.pos step.1 (reached.valueAt outer)
    by_cases object : memory c.pos = 0x03
    · rw [valueRound_object object]
      exact Nat.lt_succ_self _
    · rw [(valueRound_scalar known object).1]
      have := valueWidth_pos memory c.pos
      omega

/-- Induction on the rounds: what is left of the buffer shrinks with each. -/
theorem AllKnown.returns (all : AllKnown memory len) (reached : Reaches memory len amfStart c) {rounds : Nat}
    (enough : len - c.pos < rounds) : (amfRun memory len rounds c).isSome := by
  induction rounds generalizing c with
  | zero => exact absurd enough (Nat.not_lt_zero _)
  | succ rounds ih =>
    rw [amfRun]
    split
    · rfl
    · next more =>
      have inside := Nat.not_le.mp more
      cases next : amfRound memory len c with
      | left packet => rfl
      | again c' =>
        have further := all.advances reached ⟨inside, next⟩
        exact ih (reached.tail ⟨inside, next⟩) (by omega)

/-- The model of the parser on all of memory, which takes one round more than there are bytes. -/
theorem parseRtmpAMF0_total (memory : Nat → UInt8) (len : Nat) (amfType : UInt8) :
    parseRtmpAMF0 (fun i => some (memory i)) len amfType = parseRtmpAMF0Rounds memory len amfType (len + 1) := by
  unfold parseRtmpAMF0 parseRtmpAMF0Rounds
  dsimp only
  rw [peekBytes_total, peekBytes_total, parseAmfFrom_total]
  rfl

theorem parseRtmpAMF0Rounds_loop (loops : ¬ Loopless len amfType) (rounds : Nat) :
    parseRtmpAMF0Rounds memory len amfType rounds = amfRun memory len rounds amfStart := by
  obtain ⟨filled, window, control⟩ : len ≠ 0 ∧ _ ∧ _ := by simpa only [Loopless, not_or] using loops
  rw [parseRtmpAMF0Rounds, if_neg filled, if_neg window, if_neg control]

theorem parseRtmpAMF0Rounds_loopless (loopless : Loopless len amfType) (rounds : Nat) :
    (parseRtmpAMF0Rounds memory len amfType rounds).isSome := by
  unfold parseRtmpAMF0Rounds
  split
  · rfl
  · next filled =>
    split
    · rfl
    · next window =>
      rw [if_pos (loopless.resolve_left filled |>.resolve_left window)]
      rfl

/-- The rounds the model allows are enough wherever any number is. -/
theorem parseRtmpAMF0_isSome (all : Loopless len amfType ∨ AllKnown memory len) :
    (parseRtmpAMF0 (fun i => some (memory i)) len amfType).isSome := by
  rw [parseRtmpAMF0_total]
  by_cases loopless : Loopless len amfType
  · exact parseRtmpAMF0Rounds_loopless loopless _
  · rw [parseRtmpAMF0Rounds_loop loopless]
    exact (all.resolve_left loopless).returns .refl (Nat.lt_succ_of_le (Nat.sub_le _ _))

/-- The parser terminates exactly where it has no loop to run or knows the type of every value. -/
theorem parseRtmpAMF0_terminates (memory : Nat → UInt8) (len : Nat) (amfType : UInt8) :
    Terminates memory len amfType ↔ Loopless len amfType ∨ AllKnown memory len := by
  constructor
  · intro terminates
    rw [or_iff_not_imp_left]
    intro loops pos inside value
    by_contra unknown
    obtain ⟨c, reached, rfl, outer⟩ := value.reached inside
    have stays := @amfRound_value memory len c outer
    rw [valueRound_unknown unknown] at stays
    exact Nat.lt_irrefl _ (terminates.advances loops c c reached ⟨inside, stays⟩)
  · intro all
    refine ⟨⟨len + 1, ?_⟩, fun loops c next => (all.resolve_left loops).advances⟩
    rw [← parseRtmpAMF0_total]
    exact parseRtmpAMF0_isSome all

/-- A single byte that is no type, in a message of the type `invoke`. -/
theorem unknown_type_hangs :
    (∀ rounds, parseRtmpAMF0Rounds (fun _ => 0xff) 1 MESSAGE_INVOKE rounds = none) ∧
      ¬ ∀ memory len amfType, Terminates memory len amfType := by
  have loops : ¬ Loopless 1 MESSAGE_INVOKE := by
    rintro (empty | window | control)
    · cases empty
    · exact absurd window (by decide)
    · exact absurd control (by decide)
  have hangs (rounds : Nat) : parseRtmpAMF0Rounds (fun _ => 0xff) 1 MESSAGE_INVOKE rounds = none := by
    rw [parseRtmpAMF0Rounds_loop loops]
    exact amfRun_unknown Nat.one_pos rfl (by decide) rounds
  refine ⟨hangs, fun all => ?_⟩
  obtain ⟨rounds, returned⟩ := (all (fun _ => 0xff) 1 MESSAGE_INVOKE).returns
  rw [hangs rounds] at returned
  cases returned

end LiveStreaming.XtraRtmp
