import LiveStreaming.XtraRtmp.Replies

/-!
# What a command is answered with

`onRtmpInvoke` hands a command to the function for it, which replies with some rows of parameters each. A reply
takes its header from the request, and the functions set some of its fields before.
-/

namespace LiveStreaming.XtraRtmp
open Library Library.CString

namespace AmfCommand

def connect : List UInt8 := ascii "connect"
def play : List UInt8 := ascii "play"
def publish : List UInt8 := ascii "publish"
def createStream : List UInt8 := ascii "createStream"
def releaseStream : List UInt8 := ascii "releaseStream"
def FCPublish : List UInt8 := ascii "FCPublish"
def _checkbw : List UInt8 := ascii "_checkbw"
def getStreamLength : List UInt8 := ascii "getStreamLength"

end AmfCommand

/-- A call of `onRtmpReply`. -/
inductive ReplyCall where
  | command (rtmpPacketHeader : ReplyHeader) (transactionID : Option (Vector UInt8 8)) (name : List UInt8)
      (rows : List Row)
  | message (rtmpMessageType : UInt8) (size : Nat)

/-- What it writes to the client. -/
def ReplyCall.pack (heap : Nat → UInt8) : ReplyCall → Option RtmpPack
  | .command rtmpPacketHeader transactionID name rows => onRtmpReply heap rtmpPacketHeader transactionID name rows
  | .message rtmpMessageType size => some (onRtmpReplyMessage rtmpMessageType size)

def row (key value : String) : Row := .property (ascii key) (ascii value)

/-! ### The functions for the commands

`transactionID` stands for the eight bytes of the packet's array, which hold its number where it has one. Each of the
functions gives its replies in order; `onPublish` is given whether some work thread has the channel. -/

def onPlay (h : ReplyHeader) (transactionID : Vector UInt8 8) : List ReplyCall :=
  let h := { h with flag := 0, chunkStreamID := 4, size := 12 }
  [.command h (some transactionID) (ascii "onStatus") [.null, row "level" "status", row "code" "NetStream.Play.Reset"],
    .command h (some transactionID) (ascii "onStatus") [.null, row "level" "status", row "code" "NetStream.Play.Start"],
    .command h (some transactionID) (ascii "|RtmpSampleAccess") []]

def onGetStreamLength (h : ReplyHeader) (transactionID : Vector UInt8 8) : List ReplyCall :=
  if h.size < 8 then []
  else [.command h (some transactionID) (ascii "_result") [.null], .message MESSAGE_USER_CONTROL 0]

def connectNumber : Vector UInt8 8 := #v[0x40, 0xc0, 0, 0, 0, 0, 0, 0]

def onConnect (h : ReplyHeader) (transactionID : Vector UInt8 8) : List ReplyCall :=
  if h.size < 8 then []
  else
    [.message MESSAGE_WINDOW_ACKNOWLEDGEMENT_SIZE 2500000, .message MESSAGE_SET_PEER_BANDWIDTH 2500000,
      .message MESSAGE_USER_CONTROL 0,
      .command h (some transactionID) (ascii "_result")
        [row "level" "status", row "code" "NetConnection.Connect.Success", row "description" "Connection succeeded."],
      .command { h with flag := 1, size := 8 } none (ascii "onBWDone") [.null, .number connectNumber]]

def onCreateStream (h : ReplyHeader) (transactionID : Vector UInt8 8) : List ReplyCall :=
  if h.size < 8 then []
  else [.command { h with flag := 1, chunkStreamID := 3, size := 8 } (some transactionID) (ascii "_result") [.null]]

def onCheckbw (h : ReplyHeader) (transactionID : Vector UInt8 8) : List ReplyCall :=
  if h.size < 8 then []
  else
    [.command { h with flag := 1, chunkStreamID := 3, size := 8 } (some transactionID) (ascii "_error")
      [.null, row "level" "error", row "code" "NetConnection.Call.Failed",
        row "description" "call to function _checkbw failed"]]

/-- The array of the parameters has a fourth row, which is null. -/
def onReleaseStream (h : ReplyHeader) (transactionID : Vector UInt8 8) : List ReplyCall :=
  [.command { h with flag := 1, chunkStreamID := 3, size := 8 } (some transactionID) (ascii "_result")
    [row "level" "status", row "code" "NetConnection.Call.Failed", .null]]

/-- The rows of the second reply to `FCPublish`, which has the name of the stream in it. -/
def fcPublishParametersC (streamName : List UInt8) : List Row :=
  [.null, row "code" "NetStream.Publish.Start", .property (ascii "description") streamName]

def onFCPublish (h : ReplyHeader) (amfPacket : AmfPacket) (transactionID : Vector UInt8 8) : List ReplyCall :=
  if 8 ≤ h.size then
    let h := { h with flag := 0, chunkStreamID := 3, size := 12 }
    [.command h (some transactionID) (ascii "_result") [.null, .null],
      .command h none (ascii "onFCPublish") (fcPublishParametersC amfPacket.streamName)]
  else []

def onPublish (h : ReplyHeader) (taken : Bool) : List ReplyCall :=
  if taken then []
  else
    [.command { h with flag := 0, chunkStreamID := 4, size := 12 } none (ascii "onStatus")
      [.null, row "level" "status", row "code" "NetStream.Publish.Start", row "clientid" "mlgb123456"]]

/-- What the server knows besides the request. -/
structure InvokeServer where
  APP : List UInt8
  MAX_CHANNEL_LENGTH : Nat
  taken : List UInt8 → Bool

/-- The replies of `onRtmpInvoke`, which has none for the commands that are left out here. -/
def onRtmpInvoke (server : InvokeServer) (h : ReplyHeader) (amfPacket : AmfPacket) (transactionID : Vector UInt8 8) :
    List ReplyCall :=
  if amfPacket.command = AmfCommand.connect then
    if (amfPacket.parameters.lookup (ascii "app")).getD [] = server.APP then onConnect h transactionID else []
  else if amfPacket.command = AmfCommand.createStream then onCreateStream h transactionID
  else if amfPacket.command = AmfCommand.releaseStream then onReleaseStream h transactionID
  else if amfPacket.command = AmfCommand.play then onPlay h transactionID
  else if amfPacket.command = AmfCommand.FCPublish then onFCPublish h amfPacket transactionID
  else if amfPacket.command = AmfCommand.publish then
    if amfPacket.streamName.length ≤ server.MAX_CHANNEL_LENGTH then onPublish h
      (server.taken amfPacket.streamName) else []
  else if amfPacket.command = AmfCommand._checkbw then onCheckbw h transactionID
  else if amfPacket.command = AmfCommand.getStreamLength then onGetStreamLength h transactionID
  else []

/-- It writes a chunk that is well formed, whatever the memory of the chunk held. -/
def ReplyCall.WellFormed (call : ReplyCall) : Prop := ∀ heap, ∃ pack, call.pack heap = some pack ∧ pack.WellFormed

/-- `generateReply` stays within its array, and what it says it has written is what it has. -/
def ReplyCall.Fits : ReplyCall → Prop
  | .command _ transactionID name rows => XtraRtmp.Fits transactionID name rows
  | .message _ _ => True

/-- What is known of the header of a request. -/
structure Requested (h : ReplyHeader) : Prop where
  flag : h.flag = 0
  size : h.size = 12 ∨ h.size = 8 ∨ h.size < 8
  chunkStreamID : h.chunkStreamID.toNat < 64

theorem requestHeader_requested (request : List UInt8) (pos : Nat) :
    Requested (requestHeader (parseRtmpPacketHeader request pos)) := by
  have masked : ∀ b : UInt8, (b &&& 0x3f).toNat < 64 := by
    intro b
    rw [UInt8.toNat_and]
    exact Nat.lt_succ_of_le Nat.and_le_right
  unfold requestHeader parseRtmpPacketHeader
  dsimp only
  generalize ((request.drop pos).headD 0 >>> 6).toNat = format
  rcases format with _ | _ | _ | format
  · exact ⟨rfl, .inl rfl, masked _⟩
  · exact ⟨rfl, .inr (.inl rfl), masked _⟩
  · exact ⟨rfl, .inr (.inr (show 4 < 8 by decide)), masked _⟩
  · exact ⟨rfl, .inr (.inr (show 1 < 8 by decide)), masked _⟩

section

variable {h : ReplyHeader} {tid : Option (Vector UInt8 8)} {name : List UInt8} {rows : List Row}

theorem command_wellFormed_iff (sized : h.size = 12 ∨ h.size = 8) (flagged : h.flag = 0 ∨ h.flag = 1)
    (small : h.chunkStreamID.toNat < 64) :
    (ReplyCall.command h tid name rows).WellFormed ↔ h.Agrees ∧ (replyBytes tid name rows).length ≤ replySize := by
  constructor
  · intro wellFormed
    obtain ⟨pack, result, formed⟩ := wellFormed fun _ => 0
    by_cases room : (replyBytes tid name rows).length ≤ replySize
    · obtain ⟨pack', result', same⟩ := @onRtmpReply_wellFormed_iff tid name rows (fun _ => 0) h sized flagged small room
      obtain rfl := Option.some.inj (result.symm.trans result')
      exact ⟨same.mp formed, room⟩
    · have long : (List.replicate replySize (0 : UInt8)).length < (replyBytes tid name rows).length := by
        rw [List.length_replicate]
        omega
      rw [ReplyCall.pack, onRtmpReply, generateReply_leaves long] at result
      cases result
  · rintro ⟨agrees, room⟩ heap
    obtain ⟨pack, result, same⟩ := @onRtmpReply_wellFormed_iff tid name rows heap h sized flagged small room
    exact ⟨pack, result, same.mpr agrees⟩

theorem message_wellFormed {rtmpMessageType : UInt8} (control : IsControl rtmpMessageType) (size : Nat) :
    (ReplyCall.message rtmpMessageType size).WellFormed := fun _ => ⟨_, rfl, onRtmpReplyMessage_wellFormed control size⟩

theorem command_wellFormed (agrees : h.Agrees) (small : h.chunkStreamID.toNat < 64)
    (room : (replyBytes tid name rows).length ≤ replySize) : (ReplyCall.command h tid name rows).WellFormed := by
  refine (command_wellFormed_iff ?_ ?_ small).mpr ⟨agrees, room⟩
  · exact agrees.imp And.right And.right
  · exact agrees.imp And.left And.left

/-- Where nothing in the rows comes from the client the bytes can be counted. -/
theorem counted (small : 12 + (cString name).length + (rows.map Row.size).sum +
    (if rows.any Row.isProperty then 4 else 0) ≤ replySize) : (replyBytes tid name rows).length ≤ replySize := by
  rwa [length_replyBytes]

end

/-! ### Each of the functions -/

variable {h : ReplyHeader} {tid : Vector UInt8 8} {amfPacket : AmfPacket}

theorem onPlay_wellFormed : ∀ call ∈ onPlay h tid, call.WellFormed := by
  have agrees : ({ h with flag := 0, chunkStreamID := 4, size := 12 } : ReplyHeader).Agrees := .inl ⟨rfl, rfl⟩
  have small : (4 : UInt8).toNat < 64 := by decide
  refine List.forall_mem_cons.mpr ⟨?_, List.forall_mem_cons.mpr ⟨?_, List.forall_mem_singleton.mpr ?_⟩⟩
  · exact command_wellFormed agrees small (counted (by decide))
  · exact command_wellFormed agrees small (counted (by decide))
  · exact command_wellFormed agrees small (counted (by decide))

theorem onReleaseStream_wellFormed : ∀ call ∈ onReleaseStream h tid, call.WellFormed :=
  List.forall_mem_singleton.mpr (command_wellFormed (.inr ⟨rfl, rfl⟩) (by decide : (3 : UInt8).toNat < 64)
    (counted (by decide)))

theorem onPublish_wellFormed (taken : Bool) : ∀ call ∈ onPublish h taken, call.WellFormed := by
  rw [onPublish]
  split
  · exact List.forall_mem_nil _
  · exact List.forall_mem_singleton.mpr (command_wellFormed (.inl ⟨rfl, rfl⟩) (by decide : (4 : UInt8).toNat < 64)
      (counted (by decide)))

theorem onCreateStream_wellFormed : ∀ call ∈ onCreateStream h tid, call.WellFormed := by
  rw [onCreateStream]
  split
  · exact List.forall_mem_nil _
  · exact List.forall_mem_singleton.mpr (command_wellFormed (.inr ⟨rfl, rfl⟩) (by decide : (3 : UInt8).toNat < 64)
      (counted (by decide)))

theorem onCheckbw_wellFormed : ∀ call ∈ onCheckbw h tid, call.WellFormed := by
  rw [onCheckbw]
  split
  · exact List.forall_mem_nil _
  · exact List.forall_mem_singleton.mpr (command_wellFormed (.inr ⟨rfl, rfl⟩) (by decide : (3 : UInt8).toNat < 64)
      (counted (by decide)))

/-- A reply with the request's own header has the format bits of twelve bytes. -/
theorem own_header_iff {name : List UInt8} {rows : List Row} (requested : Requested h) (long : ¬ h.size < 8)
    (room : (replyBytes (some tid) name rows).length ≤ replySize) :
    (ReplyCall.command h (some tid) name rows).WellFormed ↔ h.size ≠ 8 := by
  have sized : h.size = 12 ∨ h.size = 8 := by
    rcases requested.size with twelve | eight | short
    · exact .inl twelve
    · exact .inr eight
    · exact absurd short long
  rw [command_wellFormed_iff sized (.inl requested.flag) requested.chunkStreamID, and_iff_left room]
  constructor
  · rintro (⟨_, twelve⟩ | ⟨one, _⟩) eight
    · omega
    · rw [requested.flag] at one
      cases one
  · intro other
    exact .inl ⟨requested.flag, sized.resolve_right other⟩

theorem onGetStreamLength_wellFormed_iff (requested : Requested h) :
    (∀ call ∈ onGetStreamLength h tid, call.WellFormed) ↔ h.size ≠ 8 := by
  rw [onGetStreamLength]
  split
  · next short => exact iff_of_true (List.forall_mem_nil _) (by omega)
  · next long =>
    rw [List.forall_mem_cons, List.forall_mem_singleton, own_header_iff requested long (counted (by decide))]
    exact and_iff_left (message_wellFormed (.inr (.inr rfl)) 0)

theorem onConnect_wellFormed_iff (requested : Requested h) :
    (∀ call ∈ onConnect h tid, call.WellFormed) ↔ h.size ≠ 8 := by
  rw [onConnect]
  split
  · next short => exact iff_of_true (List.forall_mem_nil _) (by omega)
  · next long =>
    rw [List.forall_mem_cons, List.forall_mem_cons, List.forall_mem_cons, List.forall_mem_cons,
      List.forall_mem_singleton, own_header_iff requested long (counted (by decide))]
    have behind : (ReplyCall.command { h with flag := 1, size := 8 } none (ascii "onBWDone")
        [.null, .number connectNumber]).WellFormed :=
      command_wellFormed (.inr ⟨rfl, rfl⟩) requested.chunkStreamID (counted (by decide))
    constructor
    · rintro ⟨_, _, _, own, _⟩
      exact own
    · intro own
      exact ⟨message_wellFormed (.inl rfl) _, message_wellFormed (.inr (.inl rfl)) _,
        message_wellFormed (.inr (.inr rfl)) _, own, behind⟩

/-- The reply with the name of the stream has 76 bytes besides. -/
theorem named_room_iff {transactionID : Option (Vector UInt8 8)} (streamName : List UInt8) :
    (replyBytes transactionID (ascii "onFCPublish") (fcPublishParametersC streamName)).length ≤ replySize ↔
      (cString streamName).length ≤ 174 := by
  have name : (cString (ascii "onFCPublish")).length = 11 := by decide
  have code : (row "code" "NetStream.Publish.Start").size = 32 := by decide
  have key : (cString (ascii "description")).length = 11 := by decide
  have size : (replyBytes transactionID (ascii "onFCPublish") (fcPublishParametersC streamName)).length =
      76 + (cString streamName).length := by
    have object : (fcPublishParametersC streamName).any Row.isProperty = true := rfl
    rw [length_replyBytes, name, object, if_pos rfl]
    simp only [fcPublishParametersC, List.map_cons, List.map_nil, List.sum_cons, List.sum_nil, code]
    simp only [Row.size, key]
    omega
  rw [size, replySize]
  omega

theorem onFCPublish_wellFormed_iff : (∀ call ∈ onFCPublish h amfPacket tid, call.WellFormed) ↔
    (8 ≤ h.size → (cString amfPacket.streamName).length ≤ 174) := by
  rw [onFCPublish]
  split
  · next long =>
    have agrees : ({ h with flag := 0, chunkStreamID := 3, size := 12 } : ReplyHeader).Agrees := .inl ⟨rfl, rfl⟩
    have small : (3 : UInt8).toNat < 64 := by decide
    rw [List.forall_mem_cons, List.forall_mem_singleton, command_wellFormed_iff (.inl rfl) (.inl rfl) small,
      command_wellFormed_iff (.inl rfl) (.inl rfl) small, named_room_iff]
    constructor
    · rintro ⟨_, _, fits⟩ _
      exact fits
    · intro fits
      exact ⟨⟨agrees, counted (by decide)⟩, agrees, fits long⟩
  · next short => exact iff_of_true (List.forall_mem_nil _) (absurd · short)

/-! ### All of them -/

/-- The commands that are answered with the request's own header or with a name of the client. -/
def dependent : List (List UInt8) := [AmfCommand.connect, AmfCommand.getStreamLength, AmfCommand.FCPublish]

/-- The function that a command is for. -/
theorem onRtmpInvoke_cases (server : InvokeServer) (h : ReplyHeader) (amfPacket : AmfPacket) (tid : Vector UInt8 8) :
    (amfPacket.command = AmfCommand.connect ∧ onRtmpInvoke server h amfPacket tid =
      if (amfPacket.parameters.lookup (ascii "app")).getD [] = server.APP then onConnect h tid else []) ∨
    (amfPacket.command = AmfCommand.getStreamLength ∧ onRtmpInvoke server h amfPacket tid = onGetStreamLength h tid) ∨
    (amfPacket.command = AmfCommand.FCPublish ∧ onRtmpInvoke server h amfPacket tid = onFCPublish h amfPacket tid) ∨
    (amfPacket.command ∉ dependent ∧ ∀ call ∈ onRtmpInvoke server h amfPacket tid, call.WellFormed) := by
  have plain : ∀ {name : List UInt8} {calls : List ReplyCall}, amfPacket.command = name → name ∉ dependent →
      (∀ call ∈ calls, call.WellFormed) →
      amfPacket.command ∉ dependent ∧ ∀ call ∈ calls, call.WellFormed :=
    fun is other wellFormed => ⟨is ▸ other, wellFormed⟩
  rw [onRtmpInvoke]
  by_cases connect : amfPacket.command = AmfCommand.connect
  · rw [if_pos connect]
    exact .inl ⟨connect, rfl⟩
  rw [if_neg connect]
  by_cases createStream : amfPacket.command = AmfCommand.createStream
  · rw [if_pos createStream]
    exact .inr (.inr (.inr (plain createStream (by decide) onCreateStream_wellFormed)))
  rw [if_neg createStream]
  by_cases releaseStream : amfPacket.command = AmfCommand.releaseStream
  · rw [if_pos releaseStream]
    exact .inr (.inr (.inr (plain releaseStream (by decide) onReleaseStream_wellFormed)))
  rw [if_neg releaseStream]
  by_cases play : amfPacket.command = AmfCommand.play
  · rw [if_pos play]
    exact .inr (.inr (.inr (plain play (by decide) onPlay_wellFormed)))
  rw [if_neg play]
  by_cases fcPublish : amfPacket.command = AmfCommand.FCPublish
  · rw [if_pos fcPublish]
    exact .inr (.inr (.inl ⟨fcPublish, rfl⟩))
  rw [if_neg fcPublish]
  by_cases publish : amfPacket.command = AmfCommand.publish
  · rw [if_pos publish]
    refine .inr (.inr (.inr (plain publish (by decide) ?_)))
    split
    · exact onPublish_wellFormed _
    · exact List.forall_mem_nil _
  rw [if_neg publish]
  by_cases checkbw : amfPacket.command = AmfCommand._checkbw
  · rw [if_pos checkbw]
    exact .inr (.inr (.inr (plain checkbw (by decide) onCheckbw_wellFormed)))
  rw [if_neg checkbw]
  by_cases getStreamLength : amfPacket.command = AmfCommand.getStreamLength
  · rw [if_pos getStreamLength]
    exact .inr (.inl ⟨getStreamLength, rfl⟩)
  rw [if_neg getStreamLength]
  refine .inr (.inr (.inr ⟨?_, List.forall_mem_nil _⟩))
  simp [dependent, connect, getStreamLength, fcPublish]

/-- The fields of the request's header are those of a reply, and the name of a stream leaves room for the rest. -/
structure Answerable (server : InvokeServer) (h : ReplyHeader) (amfPacket : AmfPacket) : Prop where
  connect : amfPacket.command = AmfCommand.connect →
    (amfPacket.parameters.lookup (ascii "app")).getD [] = server.APP → h.size ≠ 8
  getStreamLength : amfPacket.command = AmfCommand.getStreamLength → h.size ≠ 8
  FCPublish : amfPacket.command = AmfCommand.FCPublish → 8 ≤ h.size → (cString amfPacket.streamName).length ≤ 174

/-- The replies to a command are well formed chunks exactly when it is answerable. -/
theorem replies_wellFormed_iff (server : InvokeServer) (request : List UInt8) (pos : Nat) (amfPacket : AmfPacket)
    (tid : Vector UInt8 8) :
    (∀ call ∈ onRtmpInvoke server (requestHeader (parseRtmpPacketHeader request pos)) amfPacket tid, call.WellFormed) ↔
      Answerable server (requestHeader (parseRtmpPacketHeader request pos)) amfPacket := by
  have requested := requestHeader_requested request pos
  generalize requestHeader (parseRtmpPacketHeader request pos) = h at *
  rcases onRtmpInvoke_cases server h amfPacket tid with ⟨is, replies⟩ | ⟨is, replies⟩ | ⟨is, replies⟩ | ⟨other, formed⟩
  · rw [replies]
    split
    · next app =>
      rw [onConnect_wellFormed_iff requested]
      refine ⟨fun own => ⟨fun _ _ => own, ?_, ?_⟩, fun answerable => answerable.connect is app⟩
      all_goals
        rw [is]
        intro same
        exact absurd same (by decide)
    · next app =>
      refine iff_of_true (List.forall_mem_nil _) ⟨fun _ same => absurd same app, ?_, ?_⟩
      all_goals
        rw [is]
        intro same
        exact absurd same (by decide)
  · rw [replies, onGetStreamLength_wellFormed_iff requested]
    refine ⟨fun own => ⟨fun _ _ => own, fun _ => own, ?_⟩, fun answerable => answerable.getStreamLength is⟩
    rw [is]
    intro same
    exact absurd same (by decide)
  · rw [replies, onFCPublish_wellFormed_iff]
    refine ⟨fun fits => ⟨?_, ?_, fun _ => fits⟩, fun answerable => answerable.FCPublish is⟩
    all_goals
      rw [is]
      intro same
      exact absurd same (by decide)
  · rw [dependent, List.mem_cons, List.mem_cons, List.mem_singleton, not_or, not_or] at other
    obtain ⟨connect, getStreamLength, fcPublish⟩ := other
    exact iff_of_true formed ⟨fun is => absurd is connect, fun is => absurd is getStreamLength, fun is =>
      absurd is fcPublish⟩

def someConnect : AmfPacket :=
  { amfStart.packet with
    command := AmfCommand.connect
    parameters := AList.insert (ascii "app") (ascii "mycs/live") ∅ }

/-- `connect` in a chunk of format 1: the reply has a header of eight bytes, and the format bits of twelve. -/
theorem connect_misformatted :
    ¬ ∀ call ∈ onRtmpInvoke ⟨ascii "mycs/live", 32, fun _ => false⟩
      (requestHeader (parseRtmpPacketHeader [0x43, 0, 0, 0, 0, 0, 40, 0x14] 0)) someConnect (Vector.replicate 8 0),
      call.WellFormed := by
  have requested := requestHeader_requested [0x43, 0, 0, 0, 0, 0, 40, 0x14] 0
  have app : (someConnect.parameters.lookup (ascii "app")).getD [] = ascii "mycs/live" := by
    rw [someConnect, AList.lookup_insert]
    rfl
  have connect : someConnect.command = AmfCommand.connect := rfl
  rw [onRtmpInvoke, if_pos connect, if_pos app, onConnect_wellFormed_iff requested]
  decide

/-! ### The array of a reply -/

theorem ReplyCall.WellFormed.fits {call : ReplyCall} (wellFormed : call.WellFormed) : call.Fits := by
  obtain ⟨pack, result, _⟩ := wellFormed fun _ => 0
  cases call with
  | message rtmpMessageType size => trivial
  | command rtmpPacketHeader transactionID name rows =>
    rw [ReplyCall.Fits, fits_iff]
    by_contra long
    have leaves : (List.replicate replySize (0 : UInt8)).length < (replyBytes transactionID name rows).length := by
      rw [List.length_replicate]
      omega
    rw [ReplyCall.pack, onRtmpReply, generateReply_leaves leaves] at result
    cases result

theorem fits_of_counted {h : ReplyHeader} {tid : Option (Vector UInt8 8)} {name : List UInt8} {rows : List Row}
    (small : 12 + (cString name).length + (rows.map Row.size).sum +
      (if rows.any Row.isProperty then 4 else 0) ≤ replySize) : (ReplyCall.command h tid name rows).Fits :=
  fits_iff.mpr (counted small)

theorem onConnect_fits : ∀ call ∈ onConnect h tid, call.Fits := by
  rw [onConnect]
  split
  · exact List.forall_mem_nil _
  · refine List.forall_mem_cons.mpr ⟨trivial, List.forall_mem_cons.mpr ⟨trivial, List.forall_mem_cons.mpr ⟨trivial,
      List.forall_mem_cons.mpr ⟨?_, List.forall_mem_singleton.mpr ?_⟩⟩⟩⟩
    · exact fits_of_counted (by decide)
    · exact fits_of_counted (by decide)

theorem onGetStreamLength_fits : ∀ call ∈ onGetStreamLength h tid, call.Fits := by
  rw [onGetStreamLength]
  split
  · exact List.forall_mem_nil _
  · exact List.forall_mem_cons.mpr ⟨fits_of_counted (by decide), List.forall_mem_singleton.mpr trivial⟩

theorem onFCPublish_fits_iff : (∀ call ∈ onFCPublish h amfPacket tid, call.Fits) ↔
    (8 ≤ h.size → (cString amfPacket.streamName).length ≤ 174) := by
  rw [onFCPublish]
  split
  · next long =>
    rw [List.forall_mem_cons, List.forall_mem_singleton, and_iff_right (fits_of_counted (by decide)), ReplyCall.Fits,
      fits_iff, named_room_iff]
    exact ⟨fun fits _ => fits, fun fits => fits long⟩
  · next short => exact iff_of_true (List.forall_mem_nil _) (absurd · short)

/-- The replies stay within their arrays except for the one that has the name of a stream in it, which does for a name
of up to 174 bytes. -/
theorem replies_fit_iff (server : InvokeServer) (h : ReplyHeader) (amfPacket : AmfPacket) (tid : Vector UInt8 8) :
    (∀ call ∈ onRtmpInvoke server h amfPacket tid, call.Fits) ↔
      (amfPacket.command = AmfCommand.FCPublish → 8 ≤ h.size → (cString amfPacket.streamName).length ≤ 174) := by
  rcases onRtmpInvoke_cases server h amfPacket tid with ⟨is, replies⟩ | ⟨is, replies⟩ | ⟨is, replies⟩ | ⟨other, formed⟩
  · rw [replies]
    refine iff_of_true ?_ fun same => absurd (is.symm.trans same) (by decide)
    split
    · exact onConnect_fits
    · exact List.forall_mem_nil _
  · rw [replies]
    exact iff_of_true onGetStreamLength_fits fun same => absurd (is.symm.trans same) (by decide)
  · rw [replies, onFCPublish_fits_iff]
    exact ⟨fun fits _ => fits, fun fits => fits is⟩
  · refine iff_of_true (fun call member => (formed call member).fits) fun same => absurd ?_ other
    rw [same]
    decide

/-- No name is refused by `FCPublish`, and one of 200 bytes does not fit. -/
theorem long_name_leaves :
    ¬ ∀ call ∈ onRtmpInvoke ⟨ascii "mycs/live", 32, fun _ => false⟩
      (requestHeader (parseRtmpPacketHeader [0x03, 0, 0, 0, 0, 0, 240, 0x14, 0, 0, 0, 0] 0))
      { amfStart.packet with command := AmfCommand.FCPublish, streamName := List.replicate 200 97 }
      (Vector.replicate 8 0), call.Fits := by
  have publish : ∀ {h : ReplyHeader} {amfPacket : AmfPacket}, amfPacket.command = AmfCommand.FCPublish →
      onRtmpInvoke ⟨ascii "mycs/live", 32, fun _ => false⟩ h amfPacket (Vector.replicate 8 0) =
        onFCPublish h amfPacket (Vector.replicate 8 0) := by
    intro h amfPacket is
    simp only [onRtmpInvoke, is]
    rfl
  rw [publish rfl, onFCPublish_fits_iff]
  intro fits
  have length : (cString (List.replicate 200 97)).length = 200 := by
    have unterminated : (0 : UInt8) ∉ List.replicate 200 97 := by
      intro member
      exact absurd (List.eq_of_mem_replicate member) (by decide)
    rw [cString_eq unterminated, List.length_replicate]
  have short := fits (by decide)
  change (cString (List.replicate 200 97)).length ≤ 174 at short
  omega

end LiveStreaming.XtraRtmp
