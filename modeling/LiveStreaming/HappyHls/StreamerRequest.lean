import LiveStreaming.Streamer.ChannelRequest
import LiveStreaming.Streamer.NotifySlot

/-!
# Reading the streamer's notification

`parse_streamer_request` is happy-hls's reader of the message that `do_notify_cb` writes. Behind the `?`
a key ends at the next `=` and a value at the next `&`, or at the next blank where no `&` is left.
-/

namespace LiveStreaming.HappyHls
open Streamer Library.CString

structure StreamerRequest where
  method : List UInt8
  path : List UInt8
  channel : List UInt8
  token : List UInt8
  status : Int
  deriving DecidableEq

def isSpace (b : UInt8) : Bool := b == 32 || (9 ≤ b && b ≤ 13)
def isDigit (b : UInt8) : Bool := 48 ≤ b && b ≤ 57

def digits (s : List UInt8) : Nat :=
  (s.takeWhile isDigit).foldl (fun n b => 10 * n + (b.toNat - 48)) 0

def atoi (s : List UInt8) : Int :=
  match s.dropWhile isSpace with
  | 45 :: rest => -(digits rest : Int)
  | 43 :: rest => digits rest
  | rest => digits rest

def setArgument (request : StreamerRequest) (key value : List UInt8) : StreamerRequest :=
  if key = ascii "channel" then { request with channel := value }
  else if key = ascii "status" then { request with status := atoi value }
  else if key = ascii "token" then { request with token := value }
  else request

/-- The loop of `parse_streamer_request`, with what lies from `prev_pos` on. -/
def parseArguments (request : StreamerRequest) (header : List UInt8) : StreamerRequest :=
  match _ : strchr 61 header with
  | none => request
  | some curPos =>
    let key := header.take curPos
    let header := header.drop (curPos + 1)
    match (strchr 38 header).or (strchr 32 header) with
    | none => request
    | some curPos => parseArguments (setArgument request key (header.take curPos)) (header.drop (curPos + 1))
termination_by header.length
decreasing_by
  have found := strchr_lt ‹strchr 61 _ = some _›
  simp only [List.length_drop]
  omega

def parseStreamerRequest (request : List UInt8) (streamerRequest : StreamerRequest) : StreamerRequest :=
  let streamerRequest := { streamerRequest with status := -1 }
  let httpHeader := request.dropWhile (· == 32)
  if httpHeader.isEmpty then streamerRequest
  else
    match strchr 32 httpHeader with
    | none => streamerRequest
    | some curPos =>
      let streamerRequest := { streamerRequest with method := httpHeader.take curPos }
      let header := httpHeader.drop curPos
      match strchr 63 header with
      | none => streamerRequest
      | some curPos => parseArguments { streamerRequest with path := header.take curPos } (header.drop (curPos + 1))

theorem setArgument_channel (request : StreamerRequest) (value : List UInt8) :
    setArgument request (ascii "channel") value = { request with channel := value } := if_pos rfl

theorem setArgument_status (request : StreamerRequest) (value : List UInt8) :
    setArgument request (ascii "status") value = { request with status := atoi value } := by
  rw [setArgument, if_neg (by decide), if_pos rfl]

theorem parseArguments_done {header : List UInt8} (absent : 61 ∉ header) (request : StreamerRequest) :
    parseArguments request header = request := by
  rw [parseArguments]
  split
  · rfl
  · next found => simp [strchr_none absent] at found

theorem parseArguments_ampersand {key value : List UInt8} (noEquals : 61 ∉ key) (noAmpersand : 38 ∉ value)
    (rest : List UInt8) (request : StreamerRequest) :
    parseArguments request (key ++ 61 :: (value ++ 38 :: rest)) =
      parseArguments (setArgument request key value) rest := by
  rw [parseArguments]
  split
  · next missing => simp [strchr_append noEquals] at missing
  · next curPos found =>
    obtain rfl := Option.some.inj ((strchr_append noEquals _).symm.trans found)
    have behind : (key ++ 61 :: (value ++ 38 :: rest)).drop (key.length + 1) = value ++ 38 :: rest := by
      simp [List.drop_append]
    simp [behind, strchr_append noAmpersand]

theorem parseArguments_blank {key value rest : List UInt8} (noEquals : 61 ∉ key) (noBlank : 32 ∉ value)
    (noAmpersand : 38 ∉ value ++ 32 :: rest) (request : StreamerRequest) :
    parseArguments request (key ++ 61 :: (value ++ 32 :: rest)) =
      parseArguments (setArgument request key value) rest := by
  rw [parseArguments]
  split
  · next missing => simp [strchr_append noEquals] at missing
  · next curPos found =>
    obtain rfl := Option.some.inj ((strchr_append noEquals _).symm.trans found)
    have behind : (key ++ 61 :: (value ++ 32 :: rest)).drop (key.length + 1) = value ++ 32 :: rest := by
      simp [List.drop_append]
    simp [behind, strchr_none noAmpersand, strchr_append noBlank]

theorem notifyFormat_eq (data : NotifyData) :
    notifyFormat data =
      ascii "POST" ++ 32 :: (ascii "/daemon/channel_stat.do" ++ 63 :: (ascii "channel" ++ 61 :: (data.channel ++
        38 :: (ascii "status" ++ 61 :: (ascii (toString data.flag) ++ 32 :: ascii "HTTP/1.1\r\n\r\n"))))) := by
  have path : ascii "POST /daemon/channel_stat.do?channel=" =
      ascii "POST" ++ 32 :: (ascii "/daemon/channel_stat.do" ++ 63 :: (ascii "channel" ++ [61])) := by decide
  have status : ascii "&status=" = 38 :: (ascii "status" ++ [61]) := by decide
  have version : ascii " HTTP/1.1\r\n\r\n" = 32 :: ascii "HTTP/1.1\r\n\r\n" := by decide
  rw [notifyFormat, path, status, version]
  simp

theorem length_notifyFormat {data : NotifyData} (flag : data.flag = ONLINE ∨ data.flag = OFFLINE) :
    (notifyFormat data).length = data.channel.length + 59 := by
  have path : (ascii "POST /daemon/channel_stat.do?channel=").length = 37 := by decide
  have status : (ascii "&status=").length = 8 := by decide
  have digit : (ascii (toString data.flag)).length = 1 := by
    rcases flag with flag | flag <;> (rw [flag]; decide)
  have version : (ascii " HTTP/1.1\r\n\r\n").length = 13 := by decide
  simp only [notifyFormat, List.length_append, path, status, digit, version]
  omega

/-- The two ends of the notification agree on every channel without an `&`. -/
theorem parseStreamerRequest_notifyFormat {data : NotifyData} (noAmpersand : 38 ∉ data.channel)
    (flag : data.flag = ONLINE ∨ data.flag = OFFLINE) (before : StreamerRequest) :
    parseStreamerRequest (notifyFormat data) before =
      ⟨ascii "POST", ascii " /daemon/channel_stat.do", data.channel, before.token, data.flag⟩ := by
  have method : strchr 32 (notifyFormat data) = some 4 := by
    rw [notifyFormat_eq]
    exact strchr_append (by decide) _
  have path : strchr 63 ((notifyFormat data).drop 4) = some 24 := by
    rw [notifyFormat_eq]
    exact @strchr_append 63 (ascii " /daemon/channel_stat.do") (by decide) _
  have digit : 32 ∉ ascii (toString data.flag) ∧ 38 ∉ ascii (toString data.flag) ++ 32 :: ascii "HTTP/1.1\r\n\r\n" := by
    rcases flag with flag | flag <;> (rw [flag]; decide)
  have status : atoi (ascii (toString data.flag)) = data.flag := by
    rcases flag with flag | flag <;> (rw [flag]; decide)
  have arguments : ((notifyFormat data).drop 4).drop 25 = ascii "channel" ++ 61 :: (data.channel ++
      38 :: (ascii "status" ++ 61 :: (ascii (toString data.flag) ++ 32 :: ascii "HTTP/1.1\r\n\r\n"))) := by
    rw [notifyFormat_eq]
    rfl
  have noBlank : (notifyFormat data).dropWhile (· == 32) = notifyFormat data := by
    rw [notifyFormat_eq]
    rfl
  have filled : (notifyFormat data).isEmpty = false := by
    rw [notifyFormat_eq]
    rfl
  have first : (notifyFormat data).take 4 = ascii "POST" := by
    rw [notifyFormat_eq]
    rfl
  have second : ((notifyFormat data).drop 4).take 24 = ascii " /daemon/channel_stat.do" := by
    rw [notifyFormat_eq]
    rfl
  unfold parseStreamerRequest
  simp only [noBlank, filled, method, path, Bool.false_eq_true, if_false, arguments, first, second]
  rw [parseArguments_ampersand (by decide) noAmpersand, parseArguments_blank (by decide) digit.1 digit.2,
    parseArguments_done (by decide), setArgument_channel, setArgument_status, status]

/-- What the streamer sends for an admitted channel fits its buffer, and happy-hls reads from it what the
streamer meant. -/
theorem notification_roundtrip {behind request channel : List UInt8} {flag : Int}
    (admitted : admittedChannel behind request = some channel) (status : flag = ONLINE ∨ flag = OFFLINE)
    (before : StreamerRequest) :
    ∃ message, doNotifyCb (some (notifyData channel flag)) = some message ∧
      message = notifyFormat ⟨channel, flag⟩ ∧
      (parseStreamerRequest message before).method = ascii "POST" ∧
      (parseStreamerRequest message before).channel = channel ∧
      (parseStreamerRequest message before).status = flag := by
  obtain ⟨short, noZero, _, noAmpersand⟩ := admittedChannel_spec admitted
  have data : notifyData channel flag = ⟨channel, flag⟩ := by
    rw [notifyData, cString_eq noZero]
  have length := @length_notifyFormat ⟨channel, flag⟩ status
  have parsed := @parseStreamerRequest_notifyFormat ⟨channel, flag⟩ noAmpersand status before
  refine ⟨notifyFormat ⟨channel, flag⟩, ?_, rfl, ?_, ?_, ?_⟩
  · have known : ¬ (flag ≠ ONLINE ∧ flag ≠ OFFLINE) := fun neither => status.elim neither.1 neither.2
    rw [data, doNotifyCb, if_neg known, truncate_eq]
    rw [length]
    rw [maxChannelSize] at short
    dsimp only
    omega
  · rw [parsed]
  · rw [parsed]
  · rw [parsed]

theorem notification_roundtrip_sample :
    ∃ message, doNotifyCb (some (notifyData (ascii "a=?b") OFFLINE)) = some message ∧
      message = notifyFormat ⟨ascii "a=?b", OFFLINE⟩ ∧
      (parseStreamerRequest message ⟨[], [], [], [], 0⟩).method = ascii "POST" ∧
      (parseStreamerRequest message ⟨[], [], [], [], 0⟩).channel = ascii "a=?b" ∧
      (parseStreamerRequest message ⟨[], [], [], [], 0⟩).status = OFFLINE := by
  have admitted : admittedChannel [] (ascii "POST /live?channel=a=?b HTTP/1.1\r\n\r\n") = some (ascii "a=?b") := by
    decide +kernel
  exact notification_roundtrip admitted (.inr rfl) ⟨[], [], [], [], 0⟩

end LiveStreaming.HappyHls
