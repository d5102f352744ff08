import LiveStreaming.HappyHls.TagBounds
import LiveStreaming.Library.CString

/-!
# Script tags

`get_flv_script_tag` goes through the array of a script tag. It knows no end but that of the array `flv_tag_data`: what
stands behind the tag is read like the tag. The names are copied to a local array and searched for the fields that are
kept, so that what has been in that array before counts behind a shorter name.
-/

namespace LiveStreaming.FlvDemux
open Library HappyHls CString

def flvFrameSize : Nat := 1024 * 1024
def maxEcmaarayNameLengh : Nat := 100
def oneScriptFrameSize : Nat := 1024 * 1024
/-- The elements of `filepositions` and `times`. -/
def maxFilepositions : Nat := 1000

variable (flvTagData : Nat → UInt8)

/-- `none` behind the end of the array. -/
def readArray (pos n : Nat) : Option (List UInt8) :=
  if pos + n ≤ flvFrameSize then some (slice flvTagData pos n) else none

def readByte (pos : Nat) : Option UInt8 := if pos < flvFrameSize then some (flvTagData pos) else none

def readLength (pos : Nat) : Option Nat :=
  if pos + 2 ≤ flvFrameSize then some (lengthAt flvTagData pos) else none

def readCount (pos : Nat) : Option UInt32 :=
  if pos + 4 ≤ flvFrameSize then
    some ((flvTagData pos).toUInt32 <<< 24 ||| (flvTagData (pos + 1)).toUInt32 <<< 16 |||
      (flvTagData (pos + 2)).toUInt32 <<< 8 ||| (flvTagData (pos + 3)).toUInt32)
  else none

/-- A chain of `&&` over the bytes from a position on, which stops at the first that differs. -/
def readsAs : List UInt8 → Nat → Option Bool
  | [], _ => some true
  | b :: bs, pos => do
    let byte ← readByte flvTagData pos
    if byte = b then readsAs bs (pos + 1) else some false

/-- `memcpy` of what is left of a tag. A size below zero is more than any array has. -/
def copyRest (tagDataSize pos size : Nat) : Option (List UInt8) :=
  if pos ≤ tagDataSize ∧ tagDataSize - pos ≤ size then some (slice flvTagData pos (tagDataSize - pos)) else none

/-- A name, which `Arry_Name` may have no room for. -/
def readName (pos nameSize : Nat) : Option (List UInt8) :=
  if nameSize ≤ maxEcmaarayNameLengh then readArray flvTagData pos nameSize else none

/-- A number that goes to element `i` of an array. -/
def readTime (i : UInt32) (pos : Nat) : Option (List UInt8) :=
  if i.toNat < maxFilepositions then readArray flvTagData pos 8 else none

/-- The loop over `filepositions` or `times`, which all go to element `i`. -/
def readTimes (i : UInt32) : Nat → Nat → Option Nat
  | 0, pos => some pos
  | k + 1, pos => do
    let _type ← readByte flvTagData pos
    let _value ← readTime flvTagData i (pos + 1)
    readTimes i k (pos + 9)

/-- Where an element leaves off: before the next one, before one that does not count, or in an object. -/
inductive ElementEnd where
  | next (pos : Nat)
  | uncounted (pos : Nat)
  | loop (pos : Nat)

/-- The names of the numbers that are kept, which are looked for before `stereo` and behind it. -/
def numbersBefore : List (List UInt8) :=
  [ascii "duration", ascii "width", ascii "height", ascii "videodatarate", ascii "framerate", ascii "videocodecid",
    ascii "audiosamplerate", ascii "audiodatarate", ascii "audiosamplesize"]

def numbersBehind : List (List UInt8) :=
  [ascii "audiocodecid", ascii "filesize", ascii "lasttime", ascii "lastkeyframetime"]

/-- An element whose name has been read. -/
def readValue (i : UInt32) (name : List UInt8) (information : UInt8) (pos : Nat) : Option ElementEnd :=
  if numbersBefore.any fun needle => (strstr needle name).isSome then do
    let _value ← readArray flvTagData pos 8
    some (.next (pos + 8))
  else if (strstr (ascii "stereo") name).isSome then do
    let _value ← readByte flvTagData pos
    some (.next (pos + 1))
  else if numbersBehind.any fun needle => (strstr needle name).isSome then do
    let _value ← readArray flvTagData pos 8
    some (.next (pos + 8))
  else if (strstr (ascii "keyframe") name).isSome ∧ information = 0x03 then some (.loop pos)
  else if ((strstr (ascii "filepositions") name).isSome ∨ (strstr (ascii "times") name).isSome) ∧
      information = 0x0A then do
    let count ← readCount flvTagData pos
    let pos ← readTimes flvTagData i count.toNat (pos + 4)
    some (.uncounted pos)
  else if information = 0x00 then some (.next (pos + 8))
  else if information = 0x01 then some (.next (pos + 1))
  else if information = 0x02 then do
    let length ← readLength flvTagData pos
    some (.next (pos + length + 2))
  else if information = 0x03 then some (.loop pos)
  else if information = 0x07 then some (.next (pos + 2))
  else if information = 0x0A then some (.next (pos + 4))
  else if information = 0x0B then some (.next (pos + 10))
  else some (.next pos)

/-- The test of the loop, which the label `loop` stands behind. -/
def arrayEnds (ecmaArrayLength i : UInt32) (inObject : Bool) (pos : Nat) : Option Bool :=
  if inObject then some false
  else if i < ecmaArrayLength then readsAs flvTagData [0, 0, 0, 9] pos
  else some true

/-- An element, whose name goes to `Arry_Name`. -/
def readElement (i : UInt32) (arryName : Nat → UInt8) (pos : Nat) : Option (ElementEnd × (Nat → UInt8)) := do
  let nameSize ← readLength flvTagData pos
  let bytes ← readName flvTagData (pos + 2) nameSize
  let arryName := store arryName bytes
  let information ← readByte flvTagData (pos + 2 + nameSize)
  let text := slice arryName 0 maxEcmaarayNameLengh
  if 0 ∈ text then
    let elementEnd ← readValue flvTagData i (cString text) information (pos + 2 + nameSize + 1)
    some (elementEnd, arryName)
  else none

/-- The loop over the array, from its test or from the label `loop`: where it ends. -/
def scriptLoop (ecmaArrayLength : UInt32) : Nat → Bool → UInt32 → (Nat → UInt8) → Nat → Option Nat
  | 0, _, _, _, _ => none
  | fuel + 1, inObject, i, arryName, pos => do
    let ended ← arrayEnds flvTagData ecmaArrayLength i inObject pos
    if ended then some pos
    else
      let (elementEnd, arryName) ← readElement flvTagData i arryName pos
      match elementEnd with
      | .next pos => scriptLoop ecmaArrayLength fuel false (i + 1) arryName pos
      | .uncounted pos => scriptLoop ecmaArrayLength fuel false i arryName pos
      | .loop pos => scriptLoop ecmaArrayLength fuel true i arryName pos

/-- `get_flv_script_tag`: the length of the array, which is kept where a tag has none. `arryName` is what the local
array holds before. -/
def getFlvScriptTag (tagDataSize : Nat) (ecmaArrayLength : UInt32) (arryName : Nat → UInt8) : Option UInt32 := do
  let first ← readByte flvTagData 0
  let pos ← if first = 0x02 then (readLength flvTagData 1).map (3 + ·) else some 1
  let second ← readByte flvTagData pos
  let (ecmaArrayLength, pos) ←
    if second = 0x08 then (readCount flvTagData (pos + 1)).map ((·, pos + 5)) else some (ecmaArrayLength, pos + 1)
  let pos ← scriptLoop flvTagData ecmaArrayLength flvFrameSize false 0 arryName pos
  let _data ← copyRest flvTagData tagDataSize pos oneScriptFrameSize
  some ecmaArrayLength

/-! ### The loop ends -/

def ElementEnd.pos : ElementEnd → Nat
  | .next pos => pos
  | .uncounted pos => pos
  | .loop pos => pos

variable {flvTagData} {i ecmaArrayLength : UInt32} {pos last k fuel more : Nat} {information : UInt8} {inObject : Bool}
  {name : List UInt8} {arryName arryName' : Nat → UInt8} {elementEnd : ElementEnd}

theorem readTimes_behind (read : readTimes flvTagData i k pos = some last) : pos ≤ last := by
  induction k generalizing pos with
  | zero => exact Nat.le_of_eq (Option.some.inj read)
  | succ k ih =>
    obtain ⟨_, _, read⟩ := Option.bind_eq_some_iff.mp read
    obtain ⟨_, _, read⟩ := Option.bind_eq_some_iff.mp read
    exact Nat.le_trans (Nat.le_add_right _ _) (ih read)

theorem of_ite {α : Type} {c : Prop} [Decidable c] {x y : Option α} {a : α} {p : Prop} (yes : x = some a → p)
    (no : y = some a → p) (either : (if c then x else y) = some a) : p := by
  split at either
  · exact yes either
  · exact no either

theorem readValue_behind (read : readValue flvTagData i name information pos = some elementEnd) :
    pos ≤ elementEnd.pos := by
  have ends : ∀ {e : ElementEnd}, pos ≤ e.pos → some e = some elementEnd → pos ≤ elementEnd.pos :=
    fun behind read => Option.some.inj read ▸ behind
  have skips : ∀ {n : Nat}, some (ElementEnd.next (pos + n)) = some elementEnd → pos ≤ elementEnd.pos :=
    ends (Nat.le_add_right _ _)
  have reads : ∀ {α : Type} {x : Option α} {n : Nat}, (x.bind fun _ => some (ElementEnd.next (pos + n))) =
      some elementEnd → pos ≤ elementEnd.pos := by
    intro α x n read
    obtain ⟨_, _, read⟩ := Option.bind_eq_some_iff.mp read
    exact skips read
  rw [readValue] at read
  refine of_ite reads (of_ite reads (of_ite reads (of_ite (ends (Nat.le_refl _)) (of_ite ?times (of_ite skips
    (of_ite skips (of_ite ?text (of_ite (ends (Nat.le_refl _)) (of_ite skips (of_ite skips (of_ite skips
      (ends (Nat.le_refl _))))))))))))) read
  case times =>
    intro read
    obtain ⟨_, _, read⟩ := Option.bind_eq_some_iff.mp read
    obtain ⟨_, times, read⟩ := Option.bind_eq_some_iff.mp read
    exact ends (Nat.le_trans (Nat.le_add_right _ _) (readTimes_behind times)) read
  case text =>
    intro read
    obtain ⟨length, _, read⟩ := Option.bind_eq_some_iff.mp read
    exact ends (Nat.le_trans (Nat.le_add_right _ _) (Nat.le_add_right _ 2)) read

/-- Every element takes more than two bytes. -/
theorem readElement_behind (read : readElement flvTagData i arryName pos = some (elementEnd, arryName')) :
    pos < elementEnd.pos := by
  obtain ⟨nameSize, _, read⟩ := Option.bind_eq_some_iff.mp read
  obtain ⟨bytes, _, read⟩ := Option.bind_eq_some_iff.mp read
  obtain ⟨information, _, read⟩ := Option.bind_eq_some_iff.mp read
  dsimp only at read
  split at read
  · obtain ⟨_, value, read⟩ := Option.bind_eq_some_iff.mp read
    obtain ⟨rfl, _⟩ := Prod.mk.inj (Option.some.inj read)
    have behind := readValue_behind value
    omega
  · exact absurd read (by simp)

/-- A round either ends the loop or goes on further behind. -/
theorem scriptLoop_cases
    (ended : scriptLoop flvTagData ecmaArrayLength (more + 1) inObject i arryName pos = some last) :
    (last = pos ∧ ∀ fuel, scriptLoop flvTagData ecmaArrayLength (fuel + 1) inObject i arryName pos = some pos) ∨
    ∃ inObject' i' arryName' pos', pos < pos' ∧ ∀ fuel,
      scriptLoop flvTagData ecmaArrayLength (fuel + 1) inObject i arryName pos =
        scriptLoop flvTagData ecmaArrayLength fuel inObject' i' arryName' pos' := by
  obtain ⟨ends, test, ended⟩ := Option.bind_eq_some_iff.mp ended
  cases ends with
  | true =>
    refine .inl ⟨(Option.some.inj ended).symm, fun fuel => ?_⟩
    rw [scriptLoop, test, Option.bind_eq_bind, Option.bind_some, if_pos rfl]
  | false =>
    obtain ⟨⟨elementEnd, arryName'⟩, read, _⟩ := Option.bind_eq_some_iff.mp ended
    have behind := readElement_behind read
    cases elementEnd with
    | next pos' =>
      refine .inr ⟨false, i + 1, arryName', pos', behind, fun fuel => ?_⟩
      rw [scriptLoop, test, Option.bind_eq_bind, Option.bind_some, if_neg Bool.false_ne_true, read]
      rfl
    | uncounted pos' =>
      refine .inr ⟨false, i, arryName', pos', behind, fun fuel => ?_⟩
      rw [scriptLoop, test, Option.bind_eq_bind, Option.bind_some, if_neg Bool.false_ne_true, read]
      rfl
    | loop pos' =>
      refine .inr ⟨true, i, arryName', pos', behind, fun fuel => ?_⟩
      rw [scriptLoop, test, Option.bind_eq_bind, Option.bind_some, if_neg Bool.false_ne_true, read]
      rfl

theorem scriptLoop_behind (ended : scriptLoop flvTagData ecmaArrayLength more inObject i arryName pos = some last) :
    pos ≤ last := by
  induction more generalizing inObject i arryName pos with
  | zero => exact absurd ended (by simp [scriptLoop])
  | succ more ih =>
    obtain ⟨rfl, _⟩ | ⟨_, _, _, _, behind, step⟩ := scriptLoop_cases ended
    · exact Nat.le_refl _
    · exact Nat.le_trans (Nat.le_of_lt behind) (ih (step more ▸ ended))

/-- The rounds are fewer than the bytes that they go through, so that more of them make no difference. -/
theorem scriptLoop_enough (near : last ≤ pos + fuel)
    (ended : scriptLoop flvTagData ecmaArrayLength more inObject i arryName pos = some last) :
    scriptLoop flvTagData ecmaArrayLength (fuel + 1) inObject i arryName pos = some last := by
  induction more generalizing fuel inObject i arryName pos with
  | zero => exact absurd ended (by simp [scriptLoop])
  | succ more ih =>
    obtain ⟨rfl, ends⟩ | ⟨_, _, _, _, behind, step⟩ := scriptLoop_cases ended
    · exact ends fuel
    · rw [step] at ended ⊢
      have inside := scriptLoop_behind ended
      obtain ⟨fuel, rfl⟩ : ∃ k, fuel = k + 1 := ⟨fuel - 1, by omega⟩
      exact ih (by omega) ended

end LiveStreaming.FlvDemux
