import LiveStreaming.HappyHls.StreamerRequest

/-!
# Which arguments happy-hls takes

`parse_streamer_request` looks for `=`, `&` and blanks in all of the text behind the `?`. What follows the
last argument of the request line can lengthen that argument and can bring in arguments of its own.
-/

namespace LiveStreaming.HappyHls
open Streamer Library.CString

/-- The keys and values that the loop of `parse_streamer_request` cuts out of what lies behind the `?`. -/
def arguments (header : List UInt8) : List (List UInt8 × List UInt8) :=
  match _ : strchr 61 header with
  | none => []
  | some curPos =>
    let key := header.take curPos
    let header := header.drop (curPos + 1)
    match (strchr 38 header).or (strchr 32 header) with
    | none => []
    | some curPos => (key, header.take curPos) :: arguments (header.drop (curPos + 1))
termination_by header.length
decreasing_by
  have found := strchr_lt ‹strchr 61 _ = some _›
  simp only [List.length_drop]
  omega

def names : List (List UInt8) := [ascii "channel", ascii "status", ascii "token"]

/-- What is set: the text of the channel or the token, the number of the status. -/
inductive Assignment where
  | channel (value : List UInt8)
  | status (value : Int)
  | token (value : List UInt8)
  deriving DecidableEq

def assignment (argument : List UInt8 × List UInt8) : Option Assignment :=
  if argument.1 = ascii "channel" then some (.channel argument.2)
  else if argument.1 = ascii "status" then some (.status (atoi argument.2))
  else if argument.1 = ascii "token" then some (.token argument.2)
  else none

def Assignment.apply (request : StreamerRequest) : Assignment → StreamerRequest
  | .channel value => { request with channel := value }
  | .status value => { request with status := value }
  | .token value => { request with token := value }

/-- The assignments to the three fields that a call of `parse_streamer_request` makes, in their order. -/
def assigned (request : List UInt8) : List Assignment :=
  let httpHeader := request.dropWhile (· == 32)
  match strchr 32 httpHeader with
  | none => []
  | some curPos =>
    let header := httpHeader.drop curPos
    match strchr 63 header with
    | none => []
    | some curPos => (arguments (header.drop (curPos + 1))).filterMap assignment

/-- `METHOD SP path?k1=v1&...&kn=vn SP version CR LF`, with at least one argument. -/
structure ArgumentLine where
  method : List UInt8
  path : List UInt8
  init : List (List UInt8 × List UInt8)
  last : List UInt8 × List UInt8
  version : List UInt8

namespace ArgumentLine

def args (line : ArgumentLine) : List (List UInt8 × List UInt8) := line.init ++ [line.last]

/-- The arguments with an `&` behind each. -/
def argsText (args : List (List UInt8 × List UInt8)) : List UInt8 :=
  args.flatMap fun arg => arg.1 ++ 61 :: (arg.2 ++ [38])

def text (line : ArgumentLine) : List UInt8 :=
  line.method ++ 32 :: (line.path ++ 63 :: (argsText line.init ++
    (line.last.1 ++ 61 :: (line.last.2 ++ 32 :: (line.version ++ [13, 10])))))

structure Proper (line : ArgumentLine) : Prop where
  unterminated : 0 ∉ line.text
  named : line.method ≠ []
  method : 32 ∉ line.method
  path : 63 ∉ line.path
  keys : ∀ arg ∈ line.args, 61 ∉ arg.1
  values : ∀ arg ∈ line.args, 38 ∉ arg.2 ∧ 32 ∉ arg.2

/-- What stands behind the last blank of the line, with the rest of the request. -/
def behind (line : ArgumentLine) (rest : List UInt8) : List UInt8 := line.version ++ 13 :: 10 :: cString rest

end ArgumentLine

/-- A name can start here: at the start of the text, behind an `&` or a blank that ends a value, and behind
a blank only where no `&` is left. -/
def Opened (before after : List UInt8) : Prop :=
  before = [] ∨ (∃ start value, before = start ++ 61 :: (value ++ [38]) ∧ 38 ∉ value) ∨
    ∃ start value, before = start ++ 61 :: (value ++ [32]) ∧ 32 ∉ value ∧ 38 ∉ value ∧ 38 ∉ after

/-- The text holds one of the three names with `=` behind it and, further on, something to end its value. -/
def Foreign (text : List UInt8) : Prop :=
  ∃ before name after, name ∈ names ∧ text = before ++ (name ++ 61 :: after) ∧ (38 ∈ after ∨ 32 ∈ after) ∧
    Opened before after

theorem arguments_done {header : List UInt8} (absent : 61 ∉ header) : arguments header = [] := by
  rw [arguments]
  split
  · rfl
  · next found => simp [strchr_none absent] at found

theorem arguments_ampersand {key value : List UInt8} (noEquals : 61 ∉ key) (noAmpersand : 38 ∉ value)
    (rest : List UInt8) : arguments (key ++ 61 :: (value ++ 38 :: rest)) = (key, value) :: arguments rest := by
  rw [arguments]
  split
  · next missing => simp [strchr_append noEquals] at missing
  · next curPos found =>
    obtain rfl := Option.some.inj ((strchr_append noEquals _).symm.trans found)
    have behind : (key ++ 61 :: (value ++ 38 :: rest)).drop (key.length + 1) = value ++ 38 :: rest := by
      simp [List.drop_append]
    simp [behind, strchr_append noAmpersand]

theorem arguments_blank {key value rest : List UInt8} (noEquals : 61 ∉ key) (noBlank : 32 ∉ value)
    (noAmpersand : 38 ∉ value ++ 32 :: rest) :
    arguments (key ++ 61 :: (value ++ 32 :: rest)) = (key, value) :: arguments rest := by
  rw [arguments]
  split
  · next missing => simp [strchr_append noEquals] at missing
  · next curPos found =>
    obtain rfl := Option.some.inj ((strchr_append noEquals _).symm.trans found)
    have behind : (key ++ 61 :: (value ++ 32 :: rest)).drop (key.length + 1) = value ++ 32 :: rest := by
      simp [List.drop_append]
    simp [behind, strchr_none noAmpersand, strchr_append noBlank]

theorem arguments_open {key rest : List UInt8} (noEquals : 61 ∉ key) (noAmpersand : 38 ∉ rest) (noBlank : 32 ∉ rest) :
    arguments (key ++ 61 :: rest) = [] := by
  rw [arguments]
  split
  · rfl
  · next curPos found =>
    obtain rfl := Option.some.inj ((strchr_append noEquals _).symm.trans found)
    have behind : (key ++ 61 :: rest).drop (key.length + 1) = rest := by simp [List.drop_append]
    simp [behind, strchr_none noAmpersand, strchr_none noBlank]

/-- What the texts behind the `?` are like, for the induction over what the loop cuts off. -/
inductive Scanned : List UInt8 → Prop where
  | done {text : List UInt8} (absent : 61 ∉ text) : Scanned text
  | unended {key rest : List UInt8} (noEquals : 61 ∉ key) (noAmpersand : 38 ∉ rest) (noBlank : 32 ∉ rest) :
      Scanned (key ++ 61 :: rest)
  | ampersand {key value rest : List UInt8} (noEquals : 61 ∉ key) (noAmpersand : 38 ∉ value) (more : Scanned rest) :
      Scanned (key ++ 61 :: (value ++ 38 :: rest))
  | blank {key value rest : List UInt8} (noEquals : 61 ∉ key) (noBlank : 32 ∉ value)
      (noAmpersand : 38 ∉ value ++ 32 :: rest) (more : Scanned rest) : Scanned (key ++ 61 :: (value ++ 32 :: rest))

/-- Every text is cut up by the loop, by induction on its length. -/
theorem scanned (text : List UInt8) : Scanned text := by
  induction length : text.length using Nat.strongRecOn generalizing text with
  | _ length ih =>
    by_cases equals : 61 ∈ text
    · obtain ⟨key, rest, rfl, noEquals⟩ := List.eq_append_cons_of_mem equals
      by_cases ampersand : 38 ∈ rest
      · obtain ⟨value, rest, rfl, noAmpersand⟩ := List.eq_append_cons_of_mem ampersand
        refine .ampersand noEquals noAmpersand (ih _ ?_ rest rfl)
        simp only [List.length_append, List.length_cons] at length
        omega
      · by_cases blank : 32 ∈ rest
        · obtain ⟨value, rest, rfl, noBlank⟩ := List.eq_append_cons_of_mem blank
          refine .blank noEquals noBlank ampersand (ih _ ?_ rest rfl)
          simp only [List.length_append, List.length_cons] at length
          omega
        · exact .unended noEquals ampersand blank
    · exact .done equals

/-- Two cuts at an `x`, of which the first is at the first `x`. -/
theorem cut {x : UInt8} {first rest before after : List UInt8} (absent : x ∉ first)
    (equal : first ++ x :: rest = before ++ x :: after) :
    (before = first ∧ after = rest) ∨ ∃ more, before = first ++ x :: more ∧ rest = more ++ x :: after := by
  rcases List.append_eq_append_iff.mp equal with ⟨more, rfl, split⟩ | ⟨more, rfl, split⟩
  · cases more with
    | nil => exact .inl ⟨List.append_nil _, (List.cons.inj split).2.symm⟩
    | cons c more =>
      obtain ⟨rfl, rfl⟩ := List.cons.inj split
      exact .inr ⟨more, rfl, rfl⟩
  · cases more with
    | nil => exact .inl ⟨(List.append_nil _).symm, (List.cons.inj split).2⟩
    | cons c more =>
      obtain ⟨rfl, _⟩ := List.cons.inj split
      exact absurd (List.mem_append_right before List.mem_cons_self) absent

/-- What is foreign behind a value is foreign in the whole text. -/
theorem Foreign.behind {rest : List UInt8} (foreign : Foreign rest) {key value : List UInt8} {stop : UInt8}
    (ends : stop = 38 ∧ 38 ∉ value ∨ stop = 32 ∧ 32 ∉ value ∧ 38 ∉ value ++ 32 :: rest) :
    Foreign (key ++ 61 :: (value ++ stop :: rest)) := by
  obtain ⟨before, name, after, member, rfl, ended, opened⟩ := foreign
  refine ⟨key ++ 61 :: (value ++ stop :: before), name, after, member, by simp, ended, ?_⟩
  rcases opened with rfl | ⟨start, found, rfl, plain⟩ | ⟨start, found, rfl, opened⟩
  · rcases ends with ⟨rfl, plain⟩ | ⟨rfl, noBlank, noAmpersand⟩
    · exact .inr (.inl ⟨key, value, rfl, plain⟩)
    · simp only [List.mem_append, List.mem_cons, not_or] at noAmpersand
      exact .inr (.inr ⟨key, value, rfl, noBlank, noAmpersand.1, noAmpersand.2.2.2.2.2⟩)
  · exact .inr (.inl ⟨key ++ 61 :: (value ++ stop :: start), found, by simp, plain⟩)
  · exact .inr (.inr ⟨key ++ 61 :: (value ++ stop :: start), found, by simp, opened⟩)

theorem parseArguments_eq (request : StreamerRequest) (header : List UInt8) :
    parseArguments request header =
      (arguments header).foldl (fun request argument => setArgument request argument.1 argument.2) request := by
  induction scanned header generalizing request with
  | done absent =>
    rw [parseArguments_done absent, arguments_done absent]
    rfl
  | @unended key rest noEquals noAmpersand noBlank =>
    rw [arguments_open noEquals noAmpersand noBlank, parseArguments]
    split
    · rfl
    · next curPos found =>
      obtain rfl := Option.some.inj ((strchr_append noEquals _).symm.trans found)
      have behind : (key ++ 61 :: rest).drop (key.length + 1) = rest := by simp [List.drop_append]
      simp [behind, strchr_none noAmpersand, strchr_none noBlank]
  | ampersand noEquals noAmpersand _ ih =>
    rw [parseArguments_ampersand noEquals noAmpersand, arguments_ampersand noEquals noAmpersand]
    exact ih _
  | blank noEquals noBlank noAmpersand _ ih =>
    rw [parseArguments_blank noEquals noBlank noAmpersand, arguments_blank noEquals noBlank noAmpersand]
    exact ih _

theorem foldl_setArgument (request : StreamerRequest) (arguments : List (List UInt8 × List UInt8)) :
    arguments.foldl (fun request argument => setArgument request argument.1 argument.2) request =
      (arguments.filterMap assignment).foldl Assignment.apply request := by
  induction arguments generalizing request with
  | nil => rfl
  | cons argument arguments ih =>
    rw [List.foldl_cons, ih, List.filterMap_cons]
    unfold setArgument assignment
    split
    · rfl
    · split
      · rfl
      · split
        · rfl
        · rfl

/-- Two requests with the same channel, status and token. -/
structure Agree (a b : StreamerRequest) : Prop where
  channel : a.channel = b.channel
  status : a.status = b.status
  token : a.token = b.token

theorem Agree.foldl {a b : StreamerRequest} (agree : Agree a b) (assignments : List Assignment) :
    Agree (assignments.foldl Assignment.apply a) (assignments.foldl Assignment.apply b) := by
  induction assignments generalizing a b with
  | nil => exact agree
  | cons assignment assignments ih =>
    apply ih
    obtain ⟨channel, status, token⟩ := agree
    cases assignment with
    | channel value => exact ⟨rfl, status, token⟩
    | status value => exact ⟨channel, rfl, token⟩
    | token value => exact ⟨channel, status, rfl⟩

/-- The three fields are what the assignments make of them. -/
theorem parseStreamerRequest_assigned (request : List UInt8) (before : StreamerRequest) :
    Agree (parseStreamerRequest request before)
      ((assigned request).foldl Assignment.apply { before with status := -1 }) := by
  have same (a : StreamerRequest) : Agree a a := ⟨rfl, rfl, rfl⟩
  unfold parseStreamerRequest assigned
  dsimp only
  split
  · next empty =>
    rw [List.isEmpty_iff] at empty
    rw [empty]
    exact same _
  · cases strchr 32 (request.dropWhile (· == 32)) with
    | none => exact same _
    | some curPos =>
      dsimp only
      cases strchr 63 ((request.dropWhile (· == 32)).drop curPos) with
      | none => exact ⟨rfl, rfl, rfl⟩
      | some mark =>
        dsimp only
        rw [parseArguments_eq, foldl_setArgument]
        apply Agree.foldl
        exact ⟨rfl, rfl, rfl⟩

namespace ArgumentLine

variable {line : ArgumentLine}

end ArgumentLine

end LiveStreaming.HappyHls
