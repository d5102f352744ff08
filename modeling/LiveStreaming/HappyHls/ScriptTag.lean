import LiveStreaming.HappyHls.ParameterSets
import LiveStreaming.Library.CString

/-!
# Script tags

`get_flv_script_tag` of happy-hls goes through the properties of a script tag and keeps the ones that it knows by
name. The names are copied to a local array one after the other, so that the end of a longer one stands behind a shorter
one, and the key frames all go to one element of their arrays.
-/

namespace LiveStreaming.HappyHls
open Library CString

def maxEcmaarayNameLengh : Nat := 100
def oneScriptFrameSize : Nat := 1024 * 1024
/-- The elements of `filepositions` and `times`. -/
def maxKeyFrames : Nat := 1000

/-- A number as it lies in memory. -/
abbrev DoubleBytes := Vector UInt8 8

structure FlvScriptTag where
  ecmaArrayLength : UInt32
  duration : DoubleBytes
  width : DoubleBytes
  height : DoubleBytes
  videodatarate : DoubleBytes
  framerate : DoubleBytes
  videocodecid : DoubleBytes
  audiosamplerate : DoubleBytes
  audiodatarate : DoubleBytes
  audiosamplesize : DoubleBytes
  stereo : UInt8
  audiocodecid : DoubleBytes
  filesize : DoubleBytes
  lasttimetamp : DoubleBytes
  lastkeyframetimetamp : DoubleBytes
  filepositions : Nat → DoubleBytes
  times : Nat → DoubleBytes
  data : List UInt8
  deriving Inhabited

/-- The properties with one value. -/
inductive ScriptField where
  | duration | width | height | videodatarate | framerate | videocodecid | audiosamplerate | audiodatarate
  | audiosamplesize | stereo | audiocodecid | filesize | lasttime | lastkeyframetime
  deriving DecidableEq

def ScriptField.name : ScriptField → List UInt8
  | .duration => ascii "duration"
  | .width => ascii "width"
  | .height => ascii "height"
  | .videodatarate => ascii "videodatarate"
  | .framerate => ascii "framerate"
  | .videocodecid => ascii "videocodecid"
  | .audiosamplerate => ascii "audiosamplerate"
  | .audiodatarate => ascii "audiodatarate"
  | .audiosamplesize => ascii "audiosamplesize"
  | .stereo => ascii "stereo"
  | .audiocodecid => ascii "audiocodecid"
  | .filesize => ascii "filesize"
  | .lasttime => ascii "lasttime"
  | .lastkeyframetime => ascii "lastkeyframetime"

/-- The order in which a name is searched for them. -/
def scriptFields : List ScriptField :=
  [.duration, .width, .height, .videodatarate, .framerate, .videocodecid, .audiosamplerate, .audiodatarate,
    .audiosamplesize, .stereo, .audiocodecid, .filesize, .lasttime, .lastkeyframetime]

def fieldOf (name : List UInt8) : Option ScriptField := scriptFields.find? fun field => (strstr field.name name).isSome

def FlvScriptTag.setNumber (tag : FlvScriptTag) (val : DoubleBytes) : ScriptField → FlvScriptTag
  | .duration => { tag with duration := val }
  | .width => { tag with width := val }
  | .height => { tag with height := val }
  | .videodatarate => { tag with videodatarate := val }
  | .framerate => { tag with framerate := val }
  | .videocodecid => { tag with videocodecid := val }
  | .audiosamplerate => { tag with audiosamplerate := val }
  | .audiodatarate => { tag with audiodatarate := val }
  | .audiosamplesize => { tag with audiosamplesize := val }
  | .stereo => tag
  | .audiocodecid => { tag with audiocodecid := val }
  | .filesize => { tag with filesize := val }
  | .lasttime => { tag with lasttimetamp := val }
  | .lastkeyframetime => { tag with lastkeyframetimetamp := val }

def FlvScriptTag.setFileposition (i : Nat) (tag : FlvScriptTag) (val : DoubleBytes) : FlvScriptTag :=
  { tag with filepositions := Function.update tag.filepositions i val }

def FlvScriptTag.setTime (i : Nat) (tag : FlvScriptTag) (val : DoubleBytes) : FlvScriptTag :=
  { tag with times := Function.update tag.times i val }

section
variable (tagData : List UInt8)

/-- The bytes are put in the order of the machine. `none` behind the tag. -/
def char2double (pos : Nat) : Option DoubleBytes :=
  if pos + 8 ≤ tagData.length then some (Vector.ofFn fun i => tagData.getD (pos + 7 - i) 0) else none

def readField (field : ScriptField) (pos : Nat) (tag : FlvScriptTag) : Option (Nat × FlvScriptTag) :=
  if field = .stereo then do
    let val ← tagData[pos]?
    some (pos + 1, { tag with stereo := val })
  else do
    let val ← char2double tagData pos
    some (pos + 8, tag.setNumber val field)

def fourBytes (pos : Nat) : Option UInt32 := do
  let b₀ ← tagData[pos]?
  let b₁ ← tagData[pos + 1]?
  let b₂ ← tagData[pos + 2]?
  let b₃ ← tagData[pos + 3]?
  some (b₀.toUInt32 <<< 24 ||| b₁.toUInt32 <<< 16 ||| b₂.toUInt32 <<< 8 ||| b₃.toUInt32)

/-- The loops over `filepositions` and `times`: every number goes to element `i`. -/
def readKeyFrames (set : Nat → FlvScriptTag → DoubleBytes → FlvScriptTag) (i : UInt32) :
    Nat → Nat → FlvScriptTag → Option (Nat × FlvScriptTag)
  | 0, pos, tag => some (pos, tag)
  | k + 1, pos, tag => do
    let _type ← tagData[pos]?
    let val ← char2double tagData (pos + 1)
    if i.toNat < maxKeyFrames then readKeyFrames set i k (pos + 9) (set i.toNat tag val) else none

/-- How a property leaves off: before the next one, before one that counts no more, or in an object. -/
inductive PropertyEnd where
  | next (pos : Nat)
  | uncounted (pos : Nat)
  | loop (pos : Nat)

/-- The `switch` over the types of the properties that are passed. -/
def skipValue (information : UInt8) (pos : Nat) : Option PropertyEnd :=
  if information = 0x00 then some (.next (pos + 8))
  else if information = 0x01 then some (.next (pos + 1))
  else if information = 0x02 then (twoBytes tagData pos).map fun length => .next (pos + length + 2)
  else if information = 0x03 then some (.loop pos)
  else if information = 0x07 then some (.next (pos + 2))
  else if information = 0x0A then some (.next (pos + 4))
  else if information = 0x0B then some (.next (pos + 10))
  else some (.next pos)

def readArrays (i : UInt32) (name : List UInt8) (information : UInt8) (pos : Nat) (tag : FlvScriptTag) :
    Option (PropertyEnd × FlvScriptTag) :=
  if (strstr (ascii "keyframe") name).isSome ∧ information = 0x03 then some (.loop pos, tag)
  else if (strstr (ascii "filepositions") name).isSome ∧ information = 0x0A then do
    let count ← fourBytes tagData pos
    let (pos, tag) ← readKeyFrames tagData FlvScriptTag.setFileposition i count.toNat (pos + 4) tag
    some (.uncounted pos, tag)
  else if (strstr (ascii "times") name).isSome ∧ information = 0x0A then do
    let count ← fourBytes tagData pos
    let (pos, tag) ← readKeyFrames tagData FlvScriptTag.setTime i count.toNat (pos + 4) tag
    some (.uncounted pos, tag)
  else do
    let propertyEnd ← skipValue tagData information pos
    some (propertyEnd, tag)

def readScriptValue (i : UInt32) (name : List UInt8) (information : UInt8) (pos : Nat) (tag : FlvScriptTag) :
    Option (PropertyEnd × FlvScriptTag) :=
  match fieldOf name with
  | some field => do
    let (pos, tag) ← readField tagData field pos tag
    some (.next pos, tag)
  | none => readArrays tagData i name information pos tag

/-- `arryName` is the local array, where a name that ends with no zero is searched beyond its end. -/
def readProperty (i : UInt32) (arryName : Nat → UInt8) (pos : Nat) (tag : FlvScriptTag) :
    Option (PropertyEnd × (Nat → UInt8) × FlvScriptTag) := do
  let nameSize ← twoBytes tagData pos
  if nameSize ≤ maxEcmaarayNameLengh ∧ pos + 2 + nameSize ≤ tagData.length then
    let arryName := store arryName ((tagData.drop (pos + 2)).take nameSize)
    let information ← tagData[pos + 2 + nameSize]?
    let text := slice arryName 0 maxEcmaarayNameLengh
    if 0 ∈ text then
      let (propertyEnd, tag) ← readScriptValue tagData i (cString text) information (pos + 3 + nameSize) tag
      some (propertyEnd, arryName, tag)
    else none
  else none

/-- A chain of `&&` over the bytes from a position on, which stops at the first that differs. -/
def readsAs : List UInt8 → Nat → Option Bool
  | [], _ => some true
  | b :: bs, pos => do
    let byte ← tagData[pos]?
    if byte = b then readsAs bs (pos + 1) else some false

/-- The test of the loop, which `goto` leaves out: the end of the array, or its last element. -/
def arrayEnds (inObject : Bool) (ecmaArrayLength i : UInt32) (pos : Nat) : Option Bool :=
  if inObject then some false
  else if ecmaArrayLength ≤ i then some true
  else readsAs tagData [0x00, 0x00, 0x00, 0x09] pos

/-- The loop from its test, or from the label `loop` behind it. -/
def scriptLoop : Nat → Bool → UInt32 → (Nat → UInt8) → Nat → FlvScriptTag → Option (Nat × FlvScriptTag)
  | 0, _, _, _, _, _ => none
  | fuel + 1, inObject, i, arryName, pos, tag => do
    let ends ← arrayEnds tagData inObject tag.ecmaArrayLength i pos
    if ends then some (pos, tag)
    else
      let (propertyEnd, arryName, tag) ← readProperty tagData i arryName pos tag
      match propertyEnd with
      | .next pos => scriptLoop fuel false (i + 1) arryName pos tag
      | .uncounted pos => scriptLoop fuel false i arryName pos tag
      | .loop pos => scriptLoop fuel true i arryName pos tag

/-- Every property has three bytes or more, so that there are fewer of them than bytes. -/
def getFlvScriptTag (arryName : Nat → UInt8) (tag : FlvScriptTag) : Option FlvScriptTag := do
  let type ← tagData[0]?
  let pos ← if type = 0x02 then (twoBytes tagData 1).map fun stringLength => stringLength + 3 else some 1
  let type ← tagData[pos]?
  let (pos, tag) ←
    if type = 0x08 then
      (fourBytes tagData (pos + 1)).map fun length => (pos + 5, { tag with ecmaArrayLength := length })
    else some (pos + 1, tag)
  let (pos, tag) ← scriptLoop tagData (tagData.length + 1) false 0 arryName pos tag
  if pos ≤ tagData.length ∧ tagData.length - pos ≤ oneScriptFrameSize then some { tag with data := tagData.drop pos }
  else none

end

end LiveStreaming.HappyHls
