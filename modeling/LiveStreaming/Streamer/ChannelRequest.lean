import LiveStreaming.Library.CString
import LiveStreaming.Library.Pool

/-!
# Which channels the streamer admits

`parse_simple_rosehttp_header` scans the request line with `strchr` and `strstr`, and `receive_request_cb`
takes the channel from the arguments it collects. Only a format error stops the callback: after any
other failure the argument is missing and the channel is empty.
-/

namespace LiveStreaming.Streamer
open Library Library.CString

def streamLengthError : Int := -92
def streamFormatError : Int := -93
def argumentError : Int := -98
def ok : Int := 0

structure SimpleRosehttpHeader where
  method : List UInt8
  serverPath : List UInt8
  urlArgs : Pool (List UInt8) (List UInt8)
  httpVersion : List UInt8

/-- `std::map::insert`, which keeps the value of a key that is there. -/
def insertArg (args : Pool (List UInt8) (List UInt8)) (key value : List UInt8) : Pool (List UInt8) (List UInt8) :=
  if key ∈ args then args else args.insert key value

def isKeyByte (b : UInt8) : Bool := b != 32 && b != 61
def isValueByte (b : UInt8) : Bool := b != 32 && b != 38

/-- Past the separator between a key and its value: blanks, or one `=`. -/
def skipSeparator : List UInt8 → Option (List UInt8)
  | [] => none
  | 61 :: rest => some rest
  | b :: rest =>
    match (b :: rest).dropWhile (· == 32) with
    | [] => none
    | rest => some rest

theorem skipSeparator_suffix {s rest : List UInt8} (skipped : skipSeparator s = some rest) : rest <:+ s := by
  unfold skipSeparator at skipped
  split at skipped
  · cases skipped
  · obtain rfl := Option.some.inj skipped
    exact List.suffix_cons _ _
  · split at skipped
    · cases skipped
    · obtain rfl := Option.some.inj skipped
      exact List.dropWhile_suffix _

/-- The loop of `parse_simple_rosehttp_header` over the arguments behind the `?`. -/
def parseUrlArgs (args : Pool (List UInt8) (List UInt8)) (prevPos : List UInt8) :
    Int × Pool (List UInt8) (List UInt8) × List UInt8 :=
  match prevPos with
  | [] => (ok, args, [])
  | b :: tail =>
    let key := (b :: tail).takeWhile isKeyByte
    match _ : skipSeparator ((b :: tail).dropWhile isKeyByte) with
    | none => (streamFormatError, args, [])
    | some afterKey =>
      let args := insertArg args key (afterKey.takeWhile isValueByte)
      match _ : afterKey.dropWhile isValueByte with
      | [] => (streamFormatError, args, [])
      | 32 :: rest => (ok, args, 32 :: rest)
      | _ :: rest => parseUrlArgs args rest
termination_by prevPos.length
decreasing_by
  have key := (List.dropWhile_suffix (l := b :: tail) isKeyByte).length_le
  have separator := (skipSeparator_suffix ‹skipSeparator _ = some afterKey›).length_le
  have value := (List.dropWhile_suffix (l := afterKey) isValueByte).length_le
  rw [‹afterKey.dropWhile isValueByte = _›] at value
  simp only [List.length_cons] at *
  omega

/-- The end of `parse_simple_rosehttp_header`, which looks for the version. -/
def parseHttpVersion (header : SimpleRosehttpHeader) (prevPos : List UInt8) : Int × SimpleRosehttpHeader :=
  match (strstr (ascii "http/") prevPos).or (strstr (ascii "HTTP/") prevPos) with
  | none => (streamFormatError, header)
  | some curPos =>
    let prevPos := prevPos.drop (curPos + 5)
    match strstr (ascii "\r\n") prevPos with
    | none => (streamFormatError, header)
    | some curPos => (ok, { header with httpVersion := prevPos.take curPos })

/-- The scan of `requestLine`, from the blank behind the method on. -/
def parseRequestLine (header : SimpleRosehttpHeader) (requestLine : List UInt8) : Int × SimpleRosehttpHeader :=
  match strchr 32 requestLine with
  | none => (streamFormatError, header)
  | some curPos =>
    let header := { header with method := requestLine.take curPos }
    let prevPos := requestLine.drop curPos
    match strchr 63 (prevPos.drop 1) with
    | some curPos =>
      let header := { header with serverPath := prevPos.take (curPos + 1) }
      match parseUrlArgs header.urlArgs (prevPos.drop (curPos + 2)) with
      | (ret, args, rest) =>
        let header := { header with urlArgs := args }
        if ret = ok then parseHttpVersion header rest else (ret, header)
    | none =>
      if (strchr 61 (prevPos.drop 1)).isSome then (streamFormatError, header)
      else
        match strchr 32 (prevPos.drop 1) with
        | none => (streamFormatError, header)
        | some curPos =>
          parseHttpVersion { header with serverPath := prevPos.take (curPos + 1) } (prevPos.drop (curPos + 2))

/-- `request` is the C string the caller passes with its length. A line of 1024 bytes fills `requestLine`
to its end, and the scan then goes on in what lies `behind` that array. -/
def parseSimpleRosehttpHeader (behind request : List UInt8) : Int × SimpleRosehttpHeader :=
  let header : SimpleRosehttpHeader := ⟨[], [], ∅, []⟩
  if request.length = 0 then (argumentError, header)
  else
    match strstr (ascii "\r\n") request with
    | none => (streamFormatError, header)
    | some pos =>
      if pos + 2 > 1024 then (streamLengthError, header)
      else
        let line := request.take (pos + 2)
        parseRequestLine header (if line.length = 1024 then line ++ cString behind else line)

def maxChannelSize : Nat := 32

/-- The checks of `receive_request_cb` on a request it has read: the channel, where it goes on. -/
def admittedChannel (behind request : List UInt8) : Option (List UInt8) :=
  let parsed := parseSimpleRosehttpHeader behind (cString request)
  if parsed.1 = streamFormatError then none
  else
    let channel := (parsed.2.urlArgs.lookup (ascii "channel")).getD []
    let method := parsed.2.method
    if channel.isEmpty ∨ channel.length > maxChannelSize ∨ (method ≠ ascii "POST" ∧ method ≠ ascii "GET") then none
    else some channel

/-- What a value may hold: neither a delimiter that ends it nor the zero that ends the line. -/
def Plain (value : List UInt8) : Prop := 0 ∉ value ∧ 32 ∉ value ∧ 38 ∉ value

def PlainArgs (args : Pool (List UInt8) (List UInt8)) : Prop := ∀ key value, args.lookup key = some value → Plain value

theorem plain_takeWhile {s : List UInt8} (unterminated : 0 ∉ s) : Plain (s.takeWhile isValueByte) := by
  refine ⟨fun zero => unterminated ((List.takeWhile_prefix _).subset zero), fun blank => ?_, fun ampersand => ?_⟩
  · exact absurd (List.mem_takeWhile_imp blank) (by decide)
  · exact absurd (List.mem_takeWhile_imp ampersand) (by decide)

theorem PlainArgs.insertArg {args : Pool (List UInt8) (List UInt8)} {value : List UInt8} (plain : PlainArgs args)
    (key : List UInt8) (value_plain : Plain value) : PlainArgs (insertArg args key value) := by
  intro key' value' found
  rw [Streamer.insertArg] at found
  split at found
  · exact plain key' value' found
  · by_cases same : key' = key
    · rw [same, AList.lookup_insert] at found
      exact Option.some.inj found ▸ value_plain
    · rw [AList.lookup_insert_ne same] at found
      exact plain key' value' found

theorem afterKey_subset {s afterKey : List UInt8} (separated : skipSeparator (s.dropWhile isKeyByte) = some afterKey) :
    afterKey ⊆ s :=
  ((skipSeparator_suffix separated).trans (List.dropWhile_suffix _)).subset

theorem parseUrlArgs_plain {args : Pool (List UInt8) (List UInt8)} {prevPos : List UInt8} (unterminated : 0 ∉ prevPos)
    (plain : PlainArgs args) : PlainArgs (parseUrlArgs args prevPos).2.1 := by
  fun_induction parseUrlArgs args prevPos with
  | case1 args => exact plain
  | case2 args b tail stuck => exact plain
  | case3 args b tail key afterKey separated args' ended =>
    exact plain.insertArg key (plain_takeWhile fun zero => unterminated (afterKey_subset separated zero))
  | case4 args b tail key afterKey separated args' rest ended =>
    exact plain.insertArg key (plain_takeWhile fun zero => unterminated (afterKey_subset separated zero))
  | case5 args b tail key afterKey separated args' c rest more ended ih =>
    have behind : rest ⊆ afterKey := by
      have suffix := (List.dropWhile_suffix (l := afterKey) isValueByte).subset
      rw [ended] at suffix
      exact fun x member => suffix (List.mem_cons_of_mem _ member)
    apply ih
    · exact fun zero => unterminated (afterKey_subset separated (behind zero))
    · exact plain.insertArg key (plain_takeWhile fun zero => unterminated (afterKey_subset separated zero))

theorem parseHttpVersion_urlArgs (header : SimpleRosehttpHeader) (prevPos : List UInt8) :
    (parseHttpVersion header prevPos).2.urlArgs = header.urlArgs := by
  unfold parseHttpVersion
  split
  · rfl
  · dsimp only
    split <;> rfl

theorem parseRequestLine_plain {header : SimpleRosehttpHeader} {requestLine : List UInt8}
    (unterminated : 0 ∉ requestLine) (plain : PlainArgs header.urlArgs) :
    PlainArgs (parseRequestLine header requestLine).2.urlArgs := by
  unfold parseRequestLine
  split
  · exact plain
  · next curPos _ =>
    dsimp only
    split
    · next mark _ =>
      have collected := @parseUrlArgs_plain header.urlArgs ((requestLine.drop curPos).drop (mark + 2))
        (fun zero => unterminated (List.mem_of_mem_drop (List.mem_of_mem_drop zero))) plain
      split
      · rw [parseHttpVersion_urlArgs]
        exact collected
      · exact collected
    · split
      · exact plain
      · split
        · exact plain
        · rw [parseHttpVersion_urlArgs]
          exact plain

theorem parseSimpleRosehttpHeader_plain {request : List UInt8} (unterminated : 0 ∉ request) (behind : List UInt8) :
    PlainArgs (parseSimpleRosehttpHeader behind request).2.urlArgs := by
  have empty : PlainArgs ∅ := by
    intro key value found
    simp at found
  unfold parseSimpleRosehttpHeader
  dsimp only
  split
  · exact empty
  · split
    · exact empty
    · next pos _ =>
      split
      · exact empty
      · have line : 0 ∉ request.take (pos + 2) := fun zero => unterminated (List.mem_of_mem_take zero)
        apply parseRequestLine_plain _ empty
        split
        · rw [List.mem_append]
          rintro (zero | zero)
          · exact line zero
          · exact zero_notMem_cString behind zero
        · exact line

/-- An admitted channel is short, and holds no byte that ends an argument. -/
theorem admittedChannel_spec {behind request channel : List UInt8}
    (admitted : admittedChannel behind request = some channel) : channel.length ≤ maxChannelSize ∧ Plain channel := by
  unfold admittedChannel at admitted
  dsimp only at admitted
  split at admitted
  · cases admitted
  · split at admitted
    · cases admitted
    · next valid =>
      obtain rfl := Option.some.inj admitted
      refine ⟨by omega, ?_⟩
      cases found : (parseSimpleRosehttpHeader behind (cString request)).2.urlArgs.lookup (ascii "channel") with
      | none => simp [Plain]
      | some value => exact parseSimpleRosehttpHeader_plain (zero_notMem_cString request) behind _ _ found

end LiveStreaming.Streamer
