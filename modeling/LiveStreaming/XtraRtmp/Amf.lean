import LiveStreaming.Library.CString
import LiveStreaming.Library.Pool

/-!
# RTMP packets and AMF0 values

`parseRtmpPacket` copies the payload of a packet into an array of its own, and `parseRtmpAMF0` scans that
array with lengths that it takes from the bytes themselves. `peek` stands for the memory it reads: the
payload alone, or the payload and whatever lies behind it.
-/

namespace LiveStreaming.XtraRtmp
open Library

structure RtmpPacketHeader where
  size : Nat
  chunkStreamID : UInt8
  timestamp : Nat
  amfSize : Nat
  amfType : UInt8
  streamID : Nat
  deriving DecidableEq

def MAX_PAYLOAD_SIZE : Nat := 1460
def MESSAGE_USER_CONTROL : UInt8 := 0x04
def MESSAGE_WINDOW_ACKNOWLEDGEMENT_SIZE : UInt8 := 0x05
def MESSAGE_INVOKE : UInt8 := 0x14

def bigEndian (bytes : List UInt8) : Nat := bytes.foldl (fun n b => 256 * n + b.toNat) 0

/-- The header at `pos`, by the format in its first two bits. -/
def parseRtmpPacketHeader (rtmpRequest : List UInt8) (pos : Nat) : RtmpPacketHeader :=
  let request := rtmpRequest.drop pos
  let first := request.headD 0
  let field := fun start size => bigEndian ((request.drop start).take size)
  match (first >>> 6).toNat with
  | 0 => ⟨12, first &&& 0x3f, field 1 3, field 4 3, (request.drop 7).headD 0, field 8 4⟩
  | 1 => ⟨8, first &&& 0x3f, field 1 3, field 4 3, (request.drop 7).headD 0, 0⟩
  | 2 => ⟨4, first &&& 0x3f, field 1 3, 0, 0, 0⟩
  | _ => ⟨1, first &&& 0x3f, 0, 0, 0, 0⟩

/-- The loop of `parseRtmpPacket`; `none` for a payload that is too long. -/
def parseRtmpPacketFrom (rtmpRequest : List UInt8) (len : Nat) :
    Nat → Nat → RtmpPacketHeader × (Nat → UInt8) → Option (RtmpPacketHeader × (Nat → UInt8))
  | 0, _, packet => some packet
  | fuel + 1, pos, (header, payload) =>
    if pos + 1 ≥ len then some (header, payload)
    else
      let header := parseRtmpPacketHeader rtmpRequest pos
      let pos := pos + header.size
      if header.amfSize > MAX_PAYLOAD_SIZE then none
      else
        let payload := fun i => if i < header.amfSize then (rtmpRequest[pos + i]?).getD 0 else payload i
        parseRtmpPacketFrom rtmpRequest len fuel (pos + header.amfSize) (header, payload)

/-- `parseRtmpPacket` into a `RtmpPacket` whose payload array, and the memory behind it, held `stack`. Every
round takes at least one byte, so `len` rounds are enough. -/
def parseRtmpPacket (rtmpRequest : List UInt8) (len : Nat) (stack : Nat → UInt8) :
    Option (RtmpPacketHeader × (Nat → UInt8)) :=
  if 0 < len then parseRtmpPacketFrom rtmpRequest len len 0 (⟨0, 0, 0, 0, 0, 0⟩, stack) else none

structure AmfPacket where
  eventType : Int
  windowAcknowledgementSize : Nat
  command : List UInt8
  transactionID : Option (List UInt8)
  flag : Option UInt8
  streamName : List UInt8
  publishType : List UInt8
  parameters : Pool (List UInt8) (List UInt8)

/-- Where `parseRtmpAMF0` stands in its loop. -/
structure AmfCursor where
  pos : Nat
  amfObjectAlreadyStart : Bool
  countString : Nat
  countNumber : Nat
  packet : AmfPacket

def peekBytes (peek : Nat → Option UInt8) (pos n : Nat) : Option (List UInt8) :=
  (List.range n).mapM fun i => peek (pos + i)

/-- A length of two bytes as the code computes it, and the bytes that follow it. -/
def peekString (peek : Nat → Option UInt8) (pos : Nat) : Option (List UInt8) := do
  let high ← peek pos
  let low ← peek (pos + 1)
  peekBytes peek (pos + 2) (high.toNat * 16 + low.toNat)

def setString (c : AmfCursor) (value : List UInt8) : AmfCursor :=
  match c.countString with
  | 0 => { c with countString := 1, packet := { c.packet with command := value } }
  | 1 => { c with countString := 2, packet := { c.packet with streamName := value } }
  | 2 => { c with countString := 3, packet := { c.packet with publishType := value } }
  | _ => c

/-- One value outside an object. A type byte that the `switch` does not know leaves `pos` where it is, and
the loop never ends: `none`. -/
def parseAmfValue (peek : Nat → Option UInt8) (c : AmfCursor) : Option AmfCursor := do
  let type ← peek c.pos
  if type = 0x00 then
    if c.countNumber = 0 then
      let number ← peekBytes peek (c.pos + 1) 8
      return { c with pos := c.pos + 9, countNumber := 1, packet := { c.packet with transactionID := some number } }
    else return { c with pos := c.pos + 9 }
  else if type = 0x01 then
    let value ← peek (c.pos + 1)
    return { c with pos := c.pos + 2, packet := { c.packet with flag := some value } }
  else if type = 0x02 then
    let value ← peekString peek (c.pos + 1)
    return { setString c value with pos := c.pos + 3 + value.length }
  else if type = 0x03 then return { c with pos := c.pos + 1, amfObjectAlreadyStart := true }
  else if type = 0x05 then return { c with pos := c.pos + 1 }
  else if type = 0x08 then return { c with pos := c.pos + 5 }
  else none

/-- The key of a property, and its value where that is a string. -/
def parseAmfProperty (peek : Nat → Option UInt8) (c : AmfCursor) : Option AmfCursor := do
  let key ← peekString peek c.pos
  let pos := c.pos + 2 + key.length
  let type ← peek pos
  if type = 0x02 then
    let value ← peekString peek (pos + 1)
    let parameters := if key ∈ c.packet.parameters then c.packet.parameters else c.packet.parameters.insert key value
    return { c with pos := pos + 3 + value.length, packet := { c.packet with parameters := parameters } }
  else return { c with pos := pos }

def amfObjectEnds (peek : Nat → Option UInt8) (len pos : Nat) : Option Bool :=
  if pos + 3 ≤ len then (peekBytes peek pos 3).map (· == [0, 0, 9]) else some false

/-- The loop of `parseRtmpAMF0`. Every round but an endless one takes at least one byte. -/
def parseAmfFrom (peek : Nat → Option UInt8) (len : Nat) : Nat → AmfCursor → Option AmfPacket
  | 0, _ => none
  | fuel + 1, c =>
    if len ≤ c.pos then some c.packet
    else if c.amfObjectAlreadyStart then do
      let c ← parseAmfProperty peek c
      let ends ← amfObjectEnds peek len c.pos
      if ends then return c.packet else parseAmfFrom peek len fuel c
    else do
      let c ← parseAmfValue peek c
      parseAmfFrom peek len fuel c

/-- `static_cast<short>` -/
def toShort (n : Nat) : Int := if n % 65536 < 32768 then n % 65536 else (n % 65536 : Int) - 65536

/-- `parseRtmpAMF0` on a buffer of `len` bytes; `none` where it never returns or `peek` does not reach. -/
def parseRtmpAMF0 (peek : Nat → Option UInt8) (len : Nat) (amfType : UInt8) : Option AmfPacket :=
  let packet : AmfPacket := ⟨-1, 0, [], none, none, [], [], ∅⟩
  if len = 0 then some packet
  else if amfType = MESSAGE_WINDOW_ACKNOWLEDGEMENT_SIZE then
    (peekBytes peek 0 4).map fun bytes => { packet with windowAcknowledgementSize := bigEndian bytes }
  else if amfType = MESSAGE_USER_CONTROL then
    (peekBytes peek 0 2).map fun bytes => { packet with eventType := toShort (bigEndian bytes) }
  else parseAmfFrom peek len (len + 1) ⟨0, false, 0, 0, packet⟩

/-- `y` gives what `x` gives, where `x` gives anything. -/
def Below {α : Type} (x y : Option α) : Prop := ∀ a, x = some a → y = some a

theorem Below.refl {α : Type} (x : Option α) : Below x x := fun _ => id

theorem Below.bind {α β : Type} {x y : Option α} {f g : α → Option β} (first : Below x y)
    (rest : ∀ a, Below (f a) (g a)) : Below (x >>= f) (y >>= g) := by
  intro b result
  obtain ⟨a, found, result⟩ := Option.bind_eq_some_iff.mp result
  exact Option.bind_eq_some_iff.mpr ⟨a, first a found, rest a b result⟩

theorem Below.map {α β : Type} {x y : Option α} (f : α → β) (h : Below x y) : Below (x.map f) (y.map f) := by
  intro b result
  obtain ⟨a, found, result⟩ := Option.map_eq_some_iff.mp result
  exact Option.map_eq_some_iff.mpr ⟨a, h a found, result⟩

section

variable {peek peek' : Nat → Option UInt8} (reach : ∀ i, Below (peek i) (peek' i))
include reach

theorem peekBytes_below (pos n : Nat) : Below (peekBytes peek pos n) (peekBytes peek' pos n) := by
  unfold peekBytes
  induction List.range n with
  | nil => exact .refl _
  | cons i is ih =>
    rw [List.mapM_cons, List.mapM_cons]
    exact (reach _).bind fun b => ih.bind fun bs => .refl _

theorem peekString_below (pos : Nat) : Below (peekString peek pos) (peekString peek' pos) :=
  (reach _).bind fun _ => (reach _).bind fun _ => peekBytes_below reach _ _

theorem parseAmfValue_below (c : AmfCursor) : Below (parseAmfValue peek c) (parseAmfValue peek' c) := by
  unfold parseAmfValue
  refine (reach _).bind fun type => ?_
  split
  · split
    · exact (peekBytes_below reach _ _).bind fun _ => .refl _
    · exact .refl _
  · split
    · exact (reach _).bind fun _ => .refl _
    · split
      · exact (peekString_below reach _).bind fun _ => .refl _
      · exact .refl _

theorem parseAmfProperty_below (c : AmfCursor) : Below (parseAmfProperty peek c) (parseAmfProperty peek' c) := by
  unfold parseAmfProperty
  refine (peekString_below reach _).bind fun key => (reach _).bind fun type => ?_
  split
  · exact (peekString_below reach _).bind fun _ => .refl _
  · exact .refl _

theorem amfObjectEnds_below (len pos : Nat) : Below (amfObjectEnds peek len pos) (amfObjectEnds peek' len pos) := by
  unfold amfObjectEnds
  split
  · exact (peekBytes_below reach _ _).map _
  · exact .refl _

theorem parseAmfFrom_below (len fuel : Nat) (c : AmfCursor) :
    Below (parseAmfFrom peek len fuel c) (parseAmfFrom peek' len fuel c) := by
  induction fuel generalizing c with
  | zero => exact .refl _
  | succ fuel ih =>
    unfold parseAmfFrom
    split
    · exact .refl _
    · split
      · refine (parseAmfProperty_below reach c).bind fun c => (amfObjectEnds_below reach len c.pos).bind fun ends => ?_
        split
        · exact .refl _
        · exact ih c
      · exact (parseAmfValue_below reach c).bind ih

theorem parseRtmpAMF0_below (len : Nat) (amfType : UInt8) :
    Below (parseRtmpAMF0 peek len amfType) (parseRtmpAMF0 peek' len amfType) := by
  unfold parseRtmpAMF0
  dsimp only
  split
  · exact .refl _
  · split
    · exact (peekBytes_below reach _ _).map _
    · split
      · exact (peekBytes_below reach _ _).map _
      · exact parseAmfFrom_below reach _ _ _

end

end LiveStreaming.XtraRtmp
