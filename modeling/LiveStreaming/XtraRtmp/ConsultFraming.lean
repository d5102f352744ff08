import LiveStreaming.XtraRtmp.Consult

/-!
# The messages of a connection

What the server owes a client is a function of the bytes of that client: they fall into messages, and each
message that invokes something carries a command.
-/

namespace LiveStreaming.XtraRtmp
open Library

/-- A channel id of 0 is followed by one more byte. -/
def extraBytes (chunkBasicHeader : UInt8) : Nat := if chunkBasicHeader &&& 0x3f = 0 then 1 else 0

def channelOf (message : List UInt8) : UInt8 :=
  let first := message.headD 0
  if first &&& 0x3f = 0 then (message.drop 1).headD 0 + 64 else first &&& 0x3f

def messageHeader (message : List UInt8) : List UInt8 :=
  let first := message.headD 0
  (message.drop (1 + extraBytes first)).take (chunkMsgHeaderSizeOf first)

def messagePayload (message : List UInt8) : List UInt8 :=
  let first := message.headD 0
  message.drop (1 + extraBytes first + chunkMsgHeaderSizeOf first)

def announced (message : List UInt8) : Nat := bigEndian (((messageHeader message).drop 3).take 3)

/-- The message is read on to the end of an object. -/
def Scanned (message : List UInt8) : Prop :=
  ((messageHeader message).drop 6).headD 0 = MESSAGE_INVOKE ∧ message.headD 0 >>> 6 = 0 ∧ channelOf message = 3

instance (message : List UInt8) : Decidable (Scanned message) := inferInstanceAs (Decidable (_ ∧ _ ∧ _))

/-- The bytes are one whole message: the payload announced, and for a scanned message what follows it up to
the first end of an object at or behind its last byte. -/
def Complete (message : List UInt8) : Prop :=
  7 ≤ chunkMsgHeaderSizeOf (message.headD 0) ∧ 0 < announced message ∧
    announced message ≤ (messagePayload message).length ∧
    if Scanned message then
      ((messagePayload message).drop (announced message - 1)).findIdx? isAmfEnd =
        some ((messagePayload message).length - announced message)
    else (messagePayload message).length = announced message

instance (message : List UInt8) : Decidable (Complete message) := inferInstanceAs (Decidable (_ ∧ _ ∧ _ ∧ _))

def requestOf (message : List UInt8) : List UInt8 :=
  message.take 1 ++ messageHeader message ++ messagePayload message

def commandOf (message : List UInt8) : Option Command :=
  let header := parseRtmpPacketHeader (requestOf message) 0
  if header.amfType = MESSAGE_INVOKE then
    (parseRtmpAMF0 (((messagePayload message).take (announced message))[·]?) header.amfSize header.amfType).map
      (header, ·)
  else none

def assembleByte (assembled : List (List UInt8) × List UInt8) (byte : UInt8) : List (List UInt8) × List UInt8 :=
  let message := assembled.2 ++ [byte]
  if Complete message then (assembled.1 ++ [message], []) else (assembled.1, message)

/-- The messages of a stream, and what it holds of the next one. -/
def assemble (received : List UInt8) : List (List UInt8) × List UInt8 := received.foldl assembleByte ([], [])

/-- The commands that a client is to have dispatched for what it has sent. -/
def commands (received : List UInt8) : List Command := (assemble received).1.filterMap commandOf

theorem assemble_bytes {message bytes : List UInt8} (ms : List (List UInt8))
    (open_ : ∀ before after, bytes = before ++ after → after ≠ [] → ¬ Complete (message ++ before) ∨ before = [])
    (some_ : bytes ≠ []) :
    bytes.foldl assembleByte (ms, message) =
      if Complete (message ++ bytes) then (ms ++ [message ++ bytes], []) else (ms, message ++ bytes) := by
  induction bytes generalizing message with
  | nil => exact (some_ rfl).elim
  | cons b bytes ih =>
    rw [List.foldl_cons]
    cases bytes with
    | nil => rfl
    | cons c bytes =>
      have first : ¬ Complete (message ++ [b]) :=
        (open_ [b] (c :: bytes) rfl (by simp)).resolve_right (by simp)
      have step : assembleByte (ms, message) b = (ms, message ++ [b]) := if_neg first
      rw [step, ih, List.append_assoc]
      · rfl
      · intro before after split more
        refine .inl ?_
        have whole := (open_ (b :: before) after (by rw [split]; rfl) more).resolve_right (by simp)
        simpa using whole
      · simp

theorem assemble_append (xs ys : List UInt8) : assemble (xs ++ ys) = ys.foldl assembleByte (assemble xs) :=
  List.foldl_append

section
variable {b : UInt8} {extra header payload : List UInt8}

theorem shape_payload (extra_ : extra.length = extraBytes b) (full : header.length = chunkMsgHeaderSizeOf b) :
    messageHeader (b :: (extra ++ (header ++ payload))) = header ∧
      messagePayload (b :: (extra ++ (header ++ payload))) = payload := by
  refine ⟨?_, ?_⟩
  · simp only [messageHeader, List.headD_cons]
    rw [← extra_, Nat.add_comm, List.drop_succ_cons, List.drop_left, ← full, List.take_left]
  · simp only [messagePayload, List.headD_cons]
    rw [← extra_, ← full, Nat.add_assoc, Nat.add_comm, List.drop_succ_cons, ← List.append_assoc,
      ← List.length_append, List.drop_left]

end

theorem not_complete {message : List UInt8} (short : (messagePayload message).length < announced message ∨
    messagePayload message = []) : ¬ Complete message := by
  rintro ⟨_, positive, whole, _⟩
  rcases short with short | empty
  · omega
  · rw [empty, List.length_nil] at whole
    omega

end LiveStreaming.XtraRtmp
