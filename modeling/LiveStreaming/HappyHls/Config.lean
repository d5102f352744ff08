import LiveStreaming.HappyHls.StreamerRequest
import LiveStreaming.Library.CString
import LiveStreaming.Library.JsonNumber

/-!
# The configuration file of happy-hls

`read_config` goes through each line with one iterator, which five loops move on. Two of them look at the character
that it is at before they know that there is one.
-/

namespace LiveStreaming.HappyHls.Configuration
open Library CString TextLines

structure Config where
  version : List UInt8
  logFile : List UInt8
  lockFile : List UInt8
  notifyServerFile : List UInt8
  ip : List UInt8
  port : Int32
  logLevel : Int32
  evLoop : Int32
  streamerIp : List UInt8
  streamerPort : Int32
  stateIp : List UInt8
  statePort : Int32
  runAsDaemon : Int32
  deriving DecidableEq

/-- How the reading ends otherwise: at the end of a line, where no character is, or with `exit(EXIT_FAILURE)`. -/
inductive ConfigEnd where
  | outside
  | invalid
  deriving DecidableEq

structure ConfigReading where
  isStreamer : Bool
  isState : Bool
  config : Config

/-- `while(*line_iter !=']')`, with what `line_iter` is before. -/
def readHeading (heading : List UInt8) : List UInt8 → Except ConfigEnd (List UInt8)
  | [] => .error .outside
  | c :: rest => if c = 93 then .ok heading else readHeading (heading ++ [c]) rest

/-- `while( line_iter !=line.end() && *line_iter != '=' )` -/
def readKey (key : List UInt8) : List UInt8 → List UInt8 × List UInt8
  | [] => (key, [])
  | c :: rest =>
    if c = 61 then (key, c :: rest)
    else if c = 32 then readKey key rest
    else readKey (key ++ [c]) rest

/-- `while( *line_iter == ' ' && line_iter != line.end() )` -/
def skipSpaces : List UInt8 → Except ConfigEnd (List UInt8)
  | [] => .error .outside
  | c :: rest => if c = 32 then skipSpaces rest else .ok (c :: rest)

/-- The loop that stops at the first space. -/
def readValue (value : List UInt8) : List UInt8 → List UInt8
  | [] => value
  | c :: rest => if c = 32 then value else readValue (value ++ [c]) rest

/-- `atol`, which `atoi` cuts down to an `int`. -/
def atol (s : List UInt8) : Int64 := Int64.ofInt (max (-9223372036854775808) (min 9223372036854775807 (atoi s)))

def setKey (r : ConfigReading) (key value : List UInt8) : Config :=
  if key = ascii "log-dir" then { r.config with logFile := value }
  else if key = ascii "log-level" then { r.config with logLevel := (atol value).toInt32 }
  else if key = ascii "lock-file" then { r.config with lockFile := value }
  else if key = ascii "event-loop" then { r.config with evLoop := (atol value).toInt32 }
  else if key = ascii "version" then { r.config with version := value }
  else if key = ascii "notify-server-dir" then { r.config with notifyServerFile := value }
  else if key = ascii "daemon" then { r.config with runAsDaemon := (atol value).toInt32 }
  else if key = ascii "bind-address" then
    if r.isStreamer then { r.config with streamerIp := value }
    else if r.isState then { r.config with stateIp := value }
    else { r.config with ip := value }
  else if key = ascii "port" then
    if r.isStreamer then { r.config with streamerPort := (atol value).toInt32 }
    else if r.isState then { r.config with statePort := (atol value).toInt32 }
    else { r.config with port := (atol value).toInt32 }
  else r.config

/-- `while( line_iter != line.end() )` -/
def readLine (r : ConfigReading) : List UInt8 → Except ConfigEnd ConfigReading
  | [] => .ok r
  | c :: rest =>
    if c = 32 then readLine r rest
    else if c = 91 then
      (readHeading [] rest).map fun heading =>
        if heading = ascii "streamer" then { r with isStreamer := true, isState := false }
        else if heading = ascii "state-server" then { r with isStreamer := false, isState := true }
        else { r with isStreamer := false, isState := false }
    else if c = 35 then .ok r
    else
      match readKey [] (c :: rest) with
      | (_, []) => .ok r
      | (key, _ :: rest) =>
        (skipSpaces rest).map fun rest =>
          if rest = [] then r else { r with config := setKey r key (readValue [] rest) }

/-- `if( config.log_file.empty() || … )` -/
def checkConfig (config : Config) : Except ConfigEnd Config :=
  if config.logFile = [] ∨ config.ip = [] ∨ config.port = -1 ∨ config.logLevel = -1 ∨ config.runAsDaemon = -1 then
    .error .invalid
  else if config.evLoop = -1 then .ok { config with evLoop := 0 }
  else .ok config

/-- For a file that can be opened. -/
def readConfig (content : List UInt8) (config : Config) : Except ConfigEnd Config := do
  let r ← (getlines content).foldlM readLine
    { isStreamer := false, isState := false,
      config := { config with port := -1, logLevel := -1, runAsDaemon := -1, evLoop := -1 } }
  checkConfig r.config

/-! ### Configuration texts -/

inductive ConfigSection where
  | streamer
  | stateServer
  | other
  deriving DecidableEq

/-- The lines of a well-formed file, with the spaces that they may have. -/
inductive ConfigLine where
  | blank (spaces : Nat)
  | comment (spaces : Nat) (content : List UInt8)
  | heading (spaces : Nat) (name rest : List UInt8)
  | pair (spaces : Nat) (key : List UInt8) (before behind : Nat) (value rest : List UInt8)

def ConfigLine.bytes : ConfigLine → List UInt8
  | .blank spaces => List.replicate spaces 32
  | .comment spaces content => List.replicate spaces 32 ++ 35 :: content
  | .heading spaces name rest => List.replicate spaces 32 ++ 91 :: name ++ 93 :: rest
  | .pair spaces key before behind value rest =>
    List.replicate spaces 32 ++ key ++ List.replicate before 32 ++ 61 :: List.replicate behind 32 ++ value ++ rest

def sectionOf (name : List UInt8) : ConfigSection :=
  if name = ascii "streamer" then .streamer
  else if name = ascii "state-server" then .stateServer
  else .other

/-- What a file can set. -/
inductive ConfigField where
  | version | logFile | lockFile | notifyServerFile | ip | port | logLevel | evLoop | streamerIp | streamerPort
  | stateIp | statePort | runAsDaemon
  deriving DecidableEq

namespace ConfigField

def key : ConfigField → List UInt8
  | version => ascii "version"
  | logFile => ascii "log-dir"
  | lockFile => ascii "lock-file"
  | notifyServerFile => ascii "notify-server-dir"
  | ip | streamerIp | stateIp => ascii "bind-address"
  | port | streamerPort | statePort => ascii "port"
  | logLevel => ascii "log-level"
  | evLoop => ascii "event-loop"
  | runAsDaemon => ascii "daemon"

/-- The section that the key has to be in, if it matters. -/
def place : ConfigField → Option ConfigSection
  | streamerIp | streamerPort => some .streamer
  | stateIp | statePort => some .stateServer
  | ip | port => some .other
  | _ => none

def isNumber : ConfigField → Bool
  | port | logLevel | evLoop | streamerPort | statePort | runAsDaemon => true
  | _ => false

def get (config : Config) : ConfigField → List UInt8 ⊕ Int32
  | version => .inl config.version
  | logFile => .inl config.logFile
  | lockFile => .inl config.lockFile
  | notifyServerFile => .inl config.notifyServerFile
  | ip => .inl config.ip
  | port => .inr config.port
  | logLevel => .inr config.logLevel
  | evLoop => .inr config.evLoop
  | streamerIp => .inl config.streamerIp
  | streamerPort => .inr config.streamerPort
  | stateIp => .inl config.stateIp
  | statePort => .inr config.statePort
  | runAsDaemon => .inr config.runAsDaemon

def InSection (field : ConfigField) (current : ConfigSection) : Prop := field.place.getD current = current

instance decidableInSection (field : ConfigField) (current : ConfigSection) : Decidable (field.InSection current) :=
  inferInstanceAs (Decidable (_ = _))

/-- What a text stands for. -/
def value (field : ConfigField) (text : List UInt8) : List UInt8 ⊕ Int32 :=
  if field.isNumber then .inr (Int32.ofNat (JsonNumber.ofDigits text)) else .inl text

/-- The last text that the lines give for a field. -/
def given (field : ConfigField) : ConfigSection → List ConfigLine → Option (List UInt8)
  | _, [] => none
  | _, .heading _ name _ :: lines => field.given (sectionOf name) lines
  | current, .pair _ key _ _ text _ :: lines =>
    (field.given current lines).or (if key = field.key ∧ field.InSection current then some text else none)
  | current, _ :: lines => field.given current lines

end ConfigField

/-- Digits for a number of an `int`. -/
def Numeric (text : List UInt8) : Prop :=
  text ≠ [] ∧ (∀ b ∈ text, isDigit b) ∧ JsonNumber.ofDigits text < 2 ^ 31

def ConfigLine.WellFormed : ConfigLine → Prop
  | .blank _ => True
  | .comment _ _ => True
  | .heading _ name _ => 93 ∉ name
  | .pair _ key _ _ text rest =>
    (32 ∉ key ∧ 61 ∉ key ∧ key.head? ≠ some 91 ∧ key.head? ≠ some 35 ∧ key ≠ []) ∧
      (32 ∉ text ∧ text ≠ []) ∧ (rest = [] ∨ rest.head? = some 32) ∧
      ∀ field : ConfigField, key = field.key → field.isNumber → Numeric text

/-- What has to be given. -/
def required : List ConfigField := [.logFile, .ip, .port, .logLevel, .runAsDaemon]

def WellFormedFile (lines : List ConfigLine) : Prop :=
  (∀ line ∈ lines, line.WellFormed) ∧ ∀ field ∈ required, (field.given .other lines).isSome

/-- No line is read beyond its end, and a well-formed file gives each key its value. -/
def ConfigRead (content : List UInt8) : Prop :=
  (∀ config, readConfig content config ≠ .error .outside) ∧
    ∀ lines, WellFormedFile lines → getlines content = lines.map ConfigLine.bytes →
      ∀ config, ∃ result, readConfig content config = .ok result ∧
        ∀ (field : ConfigField) text, field.given .other lines = some text → field.get result = field.value text

/-- Whether what follows a bracket has one that closes it, and what follows the first equals sign a value. -/
def EndTested (line : List UInt8) : Prop :=
  match line.dropWhile (· = 32) with
  | [] => True
  | c :: rest =>
    if c = 91 then 93 ∈ rest
    else c = 35 ∨ ∀ front back, c :: rest = front ++ 61 :: back → 61 ∉ front → ∃ b ∈ back, b ≠ 32

/-! ### The loops -/

variable {s front back : List UInt8} {r : ConfigReading} {c : UInt8}

theorem readHeading_eq (open_ : 93 ∉ s) (heading rest : List UInt8) :
    readHeading heading (s ++ 93 :: rest) = .ok (heading ++ s) := by
  induction s generalizing heading with
  | nil => rw [List.nil_append, readHeading, if_pos rfl, List.append_nil]
  | cons c s ih =>
    rw [List.mem_cons, not_or] at open_
    rw [List.cons_append, readHeading, if_neg (Ne.symm open_.1), ih open_.2, List.append_assoc]
    rfl

theorem readHeading_outside (open_ : 93 ∉ s) (heading : List UInt8) : readHeading heading s = .error .outside := by
  induction s generalizing heading with
  | nil => rfl
  | cons c s ih =>
    rw [List.mem_cons, not_or] at open_
    rw [readHeading, if_neg (Ne.symm open_.1), ih open_.2]

theorem readKey_eq (single : 61 ∉ s) (key rest : List UInt8) :
    readKey key (s ++ 61 :: rest) = (key ++ s.filter (· ≠ 32), 61 :: rest) := by
  induction s generalizing key with
  | nil => rw [List.nil_append, readKey, if_pos rfl, List.filter_nil, List.append_nil]
  | cons c s ih =>
    rw [List.mem_cons, not_or] at single
    rw [List.cons_append, readKey, if_neg (Ne.symm single.1)]
    by_cases blank : c = 32
    · rw [if_pos blank, ih single.2, List.filter_cons_of_neg (by simp [blank])]
    · rw [if_neg blank, ih single.2, List.filter_cons_of_pos (by simp [blank]), List.append_assoc]
      rfl

theorem readKey_none (single : 61 ∉ s) (key : List UInt8) : (readKey key s).2 = [] := by
  induction s generalizing key with
  | nil => rfl
  | cons c s ih =>
    rw [List.mem_cons, not_or] at single
    rw [readKey, if_neg (Ne.symm single.1)]
    split
    · exact ih single.2 _
    · exact ih single.2 _

theorem skipSpaces_ok (some_ : ∃ b ∈ s, b ≠ 32) : skipSpaces s = .ok (s.dropWhile (· = 32)) := by
  induction s with
  | nil =>
    obtain ⟨_, member, _⟩ := some_
    cases member
  | cons c s ih =>
    by_cases blank : c = 32
    · rw [skipSpaces, if_pos blank, List.dropWhile_cons_of_pos (by simp [blank])]
      refine ih ?_
      obtain ⟨b, member, other⟩ := some_
      rcases List.mem_cons.mp member with rfl | member
      · exact absurd blank other
      · exact ⟨b, member, other⟩
    · rw [skipSpaces, if_neg blank, List.dropWhile_cons_of_neg (by simp [blank])]

theorem skipSpaces_outside (blank : ∀ b ∈ s, b = 32) : skipSpaces s = .error .outside := by
  induction s with
  | nil => rfl
  | cons c s ih =>
    rw [skipSpaces, if_pos (blank c List.mem_cons_self)]
    exact ih fun b member => blank b (List.mem_cons_of_mem _ member)

theorem readValue_eq (value s : List UInt8) : readValue value s = value ++ s.takeWhile (· ≠ 32) := by
  induction s generalizing value with
  | nil => exact (List.append_nil value).symm
  | cons c s ih =>
    by_cases blank : c = 32
    · rw [readValue, if_pos blank, List.takeWhile_cons_of_neg (by simp [blank]), List.append_nil]
    · rw [readValue, if_neg blank, ih, List.takeWhile_cons_of_pos (by simp [blank]), List.append_assoc]
      rfl

theorem readLine_dropWhile (r : ConfigReading) (line : List UInt8) :
    readLine r line = readLine r (line.dropWhile (· = 32)) := by
  induction line with
  | nil => rfl
  | cons c line ih =>
    by_cases blank : c = 32
    · rw [List.dropWhile_cons_of_pos (by simp [blank]), ← ih, readLine, if_pos blank]
    · rw [List.dropWhile_cons_of_neg (by simp [blank])]

/-- A line of a key, which goes to its first equals sign. -/
theorem readLine_pair (blank : c ≠ 32) (heading : c ≠ 91) (comment : c ≠ 35) (whole : c :: s = front ++ 61 :: back)
    (single : 61 ∉ front) :
    readLine r (c :: s) = (skipSpaces back).map fun rest =>
      if rest = [] then r else { r with config := setKey r (front.filter (· ≠ 32)) (readValue [] rest) } := by
  have key := readKey_eq single [] back
  rw [← whole] at key
  rw [readLine, if_neg blank, if_neg heading, if_neg comment, key]
  rfl

theorem readLine_keyless (blank : c ≠ 32) (heading : c ≠ 91) (comment : c ≠ 35) (single : 61 ∉ c :: s) :
    readLine r (c :: s) = .ok r := by
  have none_ := readKey_none single []
  rw [readLine, if_neg blank, if_neg heading, if_neg comment]
  split
  · rfl
  · next found =>
    rw [found] at none_
    cases none_

/-- What is left of a line behind its spaces. -/
theorem dropWhile_line {line rest : List UInt8} (start : line.dropWhile (· = 32) = c :: rest) : c ≠ 32 := by
  have first := List.head?_dropWhile_not (fun b : UInt8 => decide (b = 32)) line
  rw [start] at first
  simpa using first

theorem readLine_ok {line : List UInt8} (r : ConfigReading) (tested : EndTested line) :
    ∃ r', readLine r line = .ok r' := by
  rw [readLine_dropWhile]
  unfold EndTested at tested
  cases start : line.dropWhile (· = 32) with
  | nil => exact ⟨r, rfl⟩
  | cons c rest =>
    have blank := dropWhile_line start
    rw [start] at tested
    by_cases heading : c = 91
    · obtain ⟨name, behind, rfl, open_⟩ := List.eq_append_cons_of_mem ((if_pos heading).mp tested)
      rw [readLine, if_neg blank, if_pos heading, readHeading_eq open_]
      exact ⟨_, rfl⟩
    · by_cases comment : c = 35
      · rw [readLine, if_neg blank, if_neg heading, if_pos comment]
        exact ⟨r, rfl⟩
      · by_cases sign : 61 ∈ c :: rest
        · obtain ⟨front, back, whole, single⟩ := List.eq_append_cons_of_mem sign
          have some_ := ((if_neg heading).mp tested).resolve_left comment front back whole single
          rw [readLine_pair blank heading comment whole single, skipSpaces_ok some_]
          exact ⟨_, rfl⟩
        · exact ⟨r, readLine_keyless blank heading comment sign⟩

theorem readLine_outside {line : List UInt8} (r : ConfigReading) (untested : ¬ EndTested line) :
    readLine r line = .error .outside := by
  rw [readLine_dropWhile]
  unfold EndTested at untested
  cases start : line.dropWhile (· = 32) with
  | nil =>
    rw [start] at untested
    exact absurd trivial untested
  | cons c rest =>
    have blank := dropWhile_line start
    rw [start] at untested
    by_cases heading : c = 91
    · have open_ : 93 ∉ rest := fun closed => untested ((if_pos heading).mpr closed)
      rw [readLine, if_neg blank, if_pos heading, readHeading_outside open_]
      rfl
    · obtain ⟨comment, bad⟩ := not_or.mp fun good => untested ((if_neg heading).mpr good)
      push Not at bad
      obtain ⟨front, back, whole, single, spaces⟩ := bad
      rw [readLine_pair blank heading comment whole single, skipSpaces_outside spaces]
      rfl

theorem readLines_ok {lines : List (List UInt8)} (r : ConfigReading) (tested : ∀ line ∈ lines, EndTested line) :
    ∃ r', lines.foldlM readLine r = .ok r' := by
  induction lines generalizing r with
  | nil => exact ⟨r, rfl⟩
  | cons line lines ih =>
    obtain ⟨r', read⟩ := readLine_ok r (tested line List.mem_cons_self)
    rw [List.foldlM_cons, read]
    exact ih r' fun other member => tested other (List.mem_cons_of_mem _ member)

theorem readLines_outside {lines : List (List UInt8)} {line : List UInt8} (r : ConfigReading) (there : line ∈ lines)
    (untested : ¬ EndTested line) : lines.foldlM readLine r = .error .outside := by
  induction lines generalizing r with
  | nil => cases there
  | cons first lines ih =>
    rw [List.foldlM_cons]
    by_cases tested : EndTested first
    · obtain ⟨r', read⟩ := readLine_ok r tested
      rw [read]
      refine ih r' ((List.mem_cons.mp there).resolve_left fun same => ?_)
      exact untested (same ▸ tested)
    · rw [readLine_outside r tested]
      rfl

/-! ### Well-formed lines -/

variable {current : ConfigSection} {config : Config} {key text rest name : List UInt8}

/-- The flags of a section. -/
def readingIn (current : ConfigSection) (config : Config) : ConfigReading where
  isStreamer := current = .streamer
  isState := current = .stateServer
  config := config

theorem dropWhile_spaces (n : Nat) (s : List UInt8) :
    (List.replicate n 32 ++ s).dropWhile (· = 32) = s.dropWhile (· = 32) :=
  List.dropWhile_append_of_pos fun _ member => decide_eq_true (List.eq_of_mem_replicate member)

theorem readLine_spaces (n : Nat) (r : ConfigReading) (s : List UInt8) :
    readLine r (List.replicate n 32 ++ s) = readLine r s := by
  rw [readLine_dropWhile, dropWhile_spaces, ← readLine_dropWhile]

theorem readLine_heading (spaces : Nat) (open_ : 93 ∉ name) :
    readLine (readingIn current config) (ConfigLine.heading spaces name rest).bytes =
      .ok (readingIn (sectionOf name) config) := by
  rw [ConfigLine.bytes, List.append_assoc, readLine_spaces, List.cons_append, readLine, if_neg (by decide),
    if_pos rfl, readHeading_eq open_, List.nil_append, Except.map, sectionOf]
  by_cases streamer : name = ascii "streamer"
  · rw [if_pos streamer, if_pos streamer]
    rfl
  · rw [if_neg streamer, if_neg streamer]
    by_cases state : name = ascii "state-server"
    · rw [if_pos state, if_pos state]
      rfl
    · rw [if_neg state, if_neg state]
      rfl

theorem readLine_wellFormedPair {spaces before behind : Nat}
    (well : (ConfigLine.pair spaces key before behind text rest).WellFormed) :
    readLine r (ConfigLine.pair spaces key before behind text rest).bytes =
      .ok { r with config := setKey r key text } := by
  obtain ⟨⟨keyBlank, single, heading, comment, named⟩, ⟨textBlank, some_⟩, end_, _⟩ := well
  obtain ⟨c, key', rfl⟩ := List.exists_cons_of_ne_nil named
  obtain ⟨t, text', rfl⟩ := List.exists_cons_of_ne_nil some_
  have keyBlank' := List.mem_cons.not.mp keyBlank
  have textBlank' := List.mem_cons.not.mp textBlank
  rw [not_or] at keyBlank' textBlank'
  have whole : (ConfigLine.pair spaces (c :: key') before behind (t :: text') rest).bytes =
      List.replicate spaces 32 ++ c :: (key' ++ List.replicate before 32 ++
        61 :: (List.replicate behind 32 ++ (t :: text' ++ rest))) := by
    simp [ConfigLine.bytes]
  have front : 61 ∉ c :: key' ++ List.replicate before 32 := by
    rw [List.mem_append, not_or]
    exact ⟨single, fun member => absurd (List.eq_of_mem_replicate member) (by decide)⟩
  have filtered : (c :: key' ++ List.replicate before 32).filter (· ≠ 32) = c :: key' := by
    rw [List.filter_append, List.filter_eq_self.mpr, List.filter_eq_nil_iff.mpr, List.append_nil]
    · intro b member
      simp [List.eq_of_mem_replicate member]
    · intro b member
      simpa using fun blank : b = 32 => keyBlank (blank ▸ member)
  have value : (t :: text' ++ rest).takeWhile (· ≠ 32) = t :: text' := by
    have all : ∀ b ∈ t :: text', decide (b ≠ 32) = true := by
      intro b member
      simpa using fun blank : b = 32 => textBlank (blank ▸ member)
    have none_ : rest.takeWhile (· ≠ 32) = [] := by
      rcases rest with _ | ⟨b, rest⟩
      · rfl
      · rcases end_ with end_ | blank
        · cases end_
        · exact List.takeWhile_cons_of_neg (by simpa using blank)
    rw [List.takeWhile_append_of_pos all, none_, List.append_nil]
  rw [whole, readLine_spaces, readLine_pair (Ne.symm keyBlank'.1) (by simpa using heading) (by simpa using comment)
    (by rw [← List.cons_append, ← List.cons_append]) front, skipSpaces_ok, dropWhile_spaces, filtered]
  · rw [List.cons_append, List.dropWhile_cons_of_neg (by simpa using Ne.symm textBlank'.1), Except.map,
      if_neg (List.cons_ne_nil _ _), ← List.cons_append, readValue_eq, value]
    rfl
  · exact ⟨t, by simp, Ne.symm textBlank'.1⟩

/-! ### Fields -/

/-- What the code makes of a text. -/
def ConfigField.codeValue (field : ConfigField) (text : List UInt8) : List UInt8 ⊕ Int32 :=
  if field.isNumber then .inr (atol text).toInt32 else .inl text

def ConfigField.set (config : Config) (text : List UInt8) : ConfigField → Config
  | version => { config with version := text }
  | logFile => { config with logFile := text }
  | lockFile => { config with lockFile := text }
  | notifyServerFile => { config with notifyServerFile := text }
  | ip => { config with ip := text }
  | port => { config with port := (atol text).toInt32 }
  | logLevel => { config with logLevel := (atol text).toInt32 }
  | evLoop => { config with evLoop := (atol text).toInt32 }
  | streamerIp => { config with streamerIp := text }
  | streamerPort => { config with streamerPort := (atol text).toInt32 }
  | stateIp => { config with stateIp := text }
  | statePort => { config with statePort := (atol text).toInt32 }
  | runAsDaemon => { config with runAsDaemon := (atol text).toInt32 }

/-- The field that a key sets in a section. -/
def fieldOf (current : ConfigSection) (key : List UInt8) : Option ConfigField :=
  if key = ascii "log-dir" then some .logFile
  else if key = ascii "log-level" then some .logLevel
  else if key = ascii "lock-file" then some .lockFile
  else if key = ascii "event-loop" then some .evLoop
  else if key = ascii "version" then some .version
  else if key = ascii "notify-server-dir" then some .notifyServerFile
  else if key = ascii "daemon" then some .runAsDaemon
  else if key = ascii "bind-address" then
    match current with
    | .streamer => some .streamerIp
    | .stateServer => some .stateIp
    | .other => some .ip
  else if key = ascii "port" then
    match current with
    | .streamer => some .streamerPort
    | .stateServer => some .statePort
    | .other => some .port
  else none

theorem elim_ite {p : Prop} [Decidable p] {first rest : Option ConfigField} {a b : Config}
    {f : ConfigField → Config} (here : a = first.elim config f) (there : b = rest.elim config f) :
    (if p then a else b) = (if p then first else rest).elim config f := by
  by_cases holds : p
  · rw [if_pos holds, if_pos holds, here]
  · rw [if_neg holds, if_neg holds, there]

theorem setKey_eq (current : ConfigSection) (config : Config) (key text : List UInt8) :
    setKey (readingIn current config) key text =
      (fieldOf current key).elim config fun field => field.set config text := by
  unfold setKey fieldOf
  iterate 7 refine elim_ite rfl ?_
  apply elim_ite
  · cases current <;> rfl
  · apply elim_ite
    · cases current <;> rfl
    · rfl

theorem fieldOf_some {field : ConfigField} (found : fieldOf current key = some field) :
    key = field.key ∧ field.InSection current := by
  unfold fieldOf at found
  split_ifs at found with known
  all_goals cases current <;> cases found <;> exact ⟨by assumption, rfl⟩

theorem fieldOf_key {field : ConfigField} (inside : field.InSection current) :
    fieldOf current field.key = some field := by
  cases field
  all_goals first | rfl | (cases current <;> first | (cases inside; done) | rfl)

theorem get_set (field : ConfigField) : field.get (field.set config text) = field.codeValue text := by
  cases field <;> rfl

theorem get_set_other {field other : ConfigField} (different : field ≠ other) :
    other.get (field.set config text) = other.get config := by
  cases field <;> cases other <;> first | rfl | exact absurd rfl different

theorem get_setKey (field : ConfigField) (current : ConfigSection) (config : Config) (key text : List UInt8) :
    field.get (setKey (readingIn current config) key text) =
      if key = field.key ∧ field.InSection current then field.codeValue text else field.get config := by
  rw [setKey_eq]
  cases found : fieldOf current key with
  | none =>
    rw [if_neg ?_]
    · rfl
    · rintro ⟨rfl, inside⟩
      rw [fieldOf_key inside] at found
      cases found
  | some other =>
    obtain ⟨rfl, inside⟩ := fieldOf_some found
    by_cases same : other = field
    · subst same
      rw [if_pos ⟨rfl, inside⟩]
      exact get_set other
    · rw [if_neg ?_]
      · exact get_set_other same
      · rintro ⟨known, within⟩
        rw [known, fieldOf_key within] at found
        exact same (Option.some.inj found).symm

theorem atoi_numeric (digits_ : ∀ b ∈ text, isDigit b) (some_ : text ≠ []) :
    atoi text = JsonNumber.ofDigits text := by
  obtain ⟨b, text', rfl⟩ := List.exists_cons_of_ne_nil some_
  have first := digits_ b List.mem_cons_self
  have all : digits (b :: text') = JsonNumber.ofDigits (b :: text') := by
    rw [digits, List.takeWhile_eq_self_iff.mpr digits_]
    rfl
  have space : ¬ isSpace b = true := by
    simp only [isDigit, isSpace, Bool.and_eq_true, Bool.or_eq_true, decide_eq_true_eq, beq_iff_eq,
      UInt8.le_iff_toNat_le, ← UInt8.toNat_inj, UInt8.reduceToNat] at first ⊢
    omega
  rw [atoi, List.dropWhile_cons_of_neg space]
  split
  · next minus =>
    obtain ⟨rfl, _⟩ := List.cons.inj minus
    cases first
  · next plus =>
    obtain ⟨rfl, _⟩ := List.cons.inj plus
    cases first
  · rw [all]

theorem codeValue_eq {field : ConfigField} (numeric : field.isNumber → Numeric text) :
    field.codeValue text = field.value text := by
  unfold ConfigField.codeValue ConfigField.value
  by_cases number : field.isNumber = true
  · obtain ⟨some_, digits_, small⟩ := numeric number
    rw [if_pos number, if_pos number, atol, atoi_numeric digits_ some_, Int64.toInt32_ofInt, ← Int32.ofInt_eq_ofNat]
    congr 2
    omega
  · rw [if_neg number, if_neg number]

/-- By induction over the lines: the flags are those of the section, and each field has the last of its texts. -/
theorem readLines_given {lines : List ConfigLine} (wellFormed : ∀ line ∈ lines, line.WellFormed) :
    ∃ after config', (lines.map ConfigLine.bytes).foldlM readLine (readingIn current config) =
        .ok (readingIn after config') ∧
      ∀ field : ConfigField,
        field.get config' = ((field.given current lines).map field.value).getD (field.get config) := by
  induction lines generalizing current config with
  | nil => exact ⟨current, config, rfl, fun _ => rfl⟩
  | cons line lines ih =>
    have here := wellFormed line List.mem_cons_self
    have rest := fun current config =>
      @ih current config fun other member => wellFormed other (List.mem_cons_of_mem _ member)
    rw [List.map_cons, List.foldlM_cons]
    cases line with
    | blank spaces =>
      have read := readLine_spaces spaces (readingIn current config) []
      rw [List.append_nil] at read
      rw [ConfigLine.bytes, read]
      exact rest current config
    | comment spaces content =>
      rw [ConfigLine.bytes, readLine_spaces]
      exact rest current config
    | heading spaces name behind =>
      rw [readLine_heading spaces here]
      exact rest (sectionOf name) config
    | pair spaces key before behind text rest_ =>
      rw [readLine_wellFormedPair here]
      obtain ⟨after, config', run, fields⟩ := rest current (setKey (readingIn current config) key text)
      refine ⟨after, config', run, fun field => ?_⟩
      rw [fields, get_setKey, ConfigField.given]
      cases field.given current lines with
      | some later => rfl
      | none =>
        by_cases known : key = field.key ∧ field.InSection current
        · rw [if_pos known, if_pos known]
          exact codeValue_eq (here.2.2.2 field known.1)
        · rw [if_neg known, if_neg known]
          rfl

theorem given_wellFormed {lines : List ConfigLine} {field : ConfigField} (wellFormed : ∀ line ∈ lines, line.WellFormed)
    (found : field.given current lines = some text) : text ≠ [] ∧ (field.isNumber → Numeric text) := by
  induction lines generalizing current with
  | nil => cases found
  | cons line lines ih =>
    have here := wellFormed line List.mem_cons_self
    have rest := fun current =>
      @ih current fun other member => wellFormed other (List.mem_cons_of_mem _ member)
    cases line with
    | blank => exact rest current found
    | comment => exact rest current found
    | heading => exact rest _ found
    | pair spaces key before behind text' rest_ =>
      rw [ConfigField.given] at found
      rcases Option.or_eq_some_iff.mp found with later | ⟨_, here_⟩
      · exact rest current later
      · by_cases known : key = field.key ∧ field.InSection current
        · rw [if_pos known] at here_
          obtain rfl := Option.some.inj here_
          exact ⟨here.2.1.2, here.2.2.2 field known.1⟩
        · rw [if_neg known] at here_
          cases here_

theorem value_ne {field : ConfigField} (number : field.isNumber = true) (numeric : Numeric text) :
    field.value text ≠ .inr (-1) := by
  rw [ConfigField.value, if_pos number]
  intro same
  have minus := congrArg Int32.toInt (Sum.inr.inj same)
  have exact_ := Int32.toInt_ofNat_of_lt numeric.2.2
  have one : (-1 : Int32).toInt = -1 := by decide
  rw [exact_, one] at minus
  omega

/-! ### Files -/

theorem checkConfig_inside (config : Config) : checkConfig config ≠ .error .outside := by
  unfold checkConfig
  split_ifs
  all_goals exact fun bad => by cases bad

/-- A configuration with what is required passes, and keeps what it has. -/
theorem checkConfig_ok {fields : ConfigField → Option (List UInt8)}
    (wellFormed : ∀ field text, fields field = some text → text ≠ [] ∧ (field.isNumber → Numeric text))
    (read : ∀ field text, fields field = some text → field.get config = field.value text)
    (all : ∀ field ∈ required, (fields field).isSome) :
    ∃ result, checkConfig config = .ok result ∧
      ∀ field text, fields field = some text → field.get result = field.value text := by
  have number (field : ConfigField) (given : (fields field).isSome) (number : field.isNumber = true) :
      field.get config ≠ .inr (-1) := by
    obtain ⟨text, found⟩ := Option.isSome_iff_exists.mp given
    rw [read field text found]
    exact value_ne number ((wellFormed field text found).2 number)
  have string (field : ConfigField) (given : (fields field).isSome) (string : field.isNumber = false) :
      field.get config ≠ .inl [] := by
    obtain ⟨text, found⟩ := Option.isSome_iff_exists.mp given
    rw [read field text found, ConfigField.value, string]
    exact fun empty => (wellFormed field text found).1 (Sum.inl.inj empty)
  have valid : ¬ (config.logFile = [] ∨ config.ip = [] ∨ config.port = -1 ∨ config.logLevel = -1 ∨
      config.runAsDaemon = -1) := by
    rintro (bad | bad | bad | bad | bad)
    · exact string .logFile (all _ (by decide)) rfl (congrArg Sum.inl bad)
    · exact string .ip (all _ (by decide)) rfl (congrArg Sum.inl bad)
    · exact number .port (all _ (by decide)) rfl (congrArg Sum.inr bad)
    · exact number .logLevel (all _ (by decide)) rfl (congrArg Sum.inr bad)
    · exact number .runAsDaemon (all _ (by decide)) rfl (congrArg Sum.inr bad)
  rw [checkConfig, if_neg valid]
  by_cases unset : config.evLoop = -1
  · rw [if_pos unset]
    refine ⟨_, rfl, fun field text found => ?_⟩
    rw [← read field text found]
    cases field with
    | evLoop => exact absurd (congrArg Sum.inr unset) (number .evLoop (by rw [found]; rfl) rfl)
    | _ => rfl
  · rw [if_neg unset]
    exact ⟨config, rfl, read⟩

theorem readConfig_given {content : List UInt8} {lines : List ConfigLine} (file : WellFormedFile lines)
    (whole : getlines content = lines.map ConfigLine.bytes) (config : Config) :
    ∃ result, readConfig content config = .ok result ∧
      ∀ (field : ConfigField) text, field.given .other lines = some text → field.get result = field.value text := by
  obtain ⟨after, config', run, fields⟩ := @readLines_given .other
    { config with port := -1, logLevel := -1, runAsDaemon := -1, evLoop := -1 } lines file.1
  have checked := @checkConfig_ok config' (fun field => field.given .other lines)
    (fun field text found => given_wellFormed file.1 found) (fun field text found => by rw [fields, found]; rfl) file.2
  obtain ⟨result, passed, values⟩ := checked
  refine ⟨result, ?_, values⟩
  rw [readConfig, whole]
  exact (congrArg (Except.bind · fun r : ConfigReading => checkConfig r.config) run).trans passed

example : (readConfig (ascii "log-dir=/l \nlog-level=3\ndaemon=0\nbind-address=::\nport=80\n[streamer]\nport = 81")
    ⟨[], [], [], [], [], 0, 0, 0, [], 0, [], 0, 0⟩).map (fun config => (config.port, config.streamerPort)) =
      .ok (80, 81) := by
  decide

theorem readConfig_inside {content : List UInt8} (tested : ∀ line ∈ getlines content, EndTested line)
    (config : Config) : readConfig content config ≠ .error .outside := by
  obtain ⟨r, run⟩ := readLines_ok
    { isStreamer := false, isState := false,
      config := { config with port := -1, logLevel := -1, runAsDaemon := -1, evLoop := -1 } } tested
  rw [readConfig, run]
  exact checkConfig_inside r.config

theorem readConfig_outside {content line : List UInt8} (there : line ∈ getlines content) (untested : ¬ EndTested line)
    (config : Config) : readConfig content config = .error .outside := by
  rw [readConfig, readLines_outside _ there untested]
  rfl

/-- `read_config` needs a bracket that closes each heading, and a value behind each equals sign. -/
theorem configRead_iff (content : List UInt8) : ConfigRead content ↔ ∀ line ∈ getlines content, EndTested line := by
  constructor
  · rintro ⟨inside, _⟩ line there
    by_contra untested
    exact inside ⟨[], [], [], [], [], 0, 0, 0, [], 0, [], 0, 0⟩ (readConfig_outside there untested _)
  · intro tested
    exact ⟨readConfig_inside tested, fun lines file whole config => readConfig_given file whole config⟩

theorem heading_untested : ¬ EndTested (ascii "[streamer") := by
  have start : (ascii "[streamer").dropWhile (· = 32) = 91 :: ascii "streamer" := by decide
  unfold EndTested
  rw [start]
  exact fun closed => absurd ((if_pos rfl).mp closed) (by decide)

/-- A heading that is not closed. -/
theorem heading_outside : ¬ ∀ content, ConfigRead content := by
  intro read
  have there : ascii "[streamer" ∈ getlines (ascii "[streamer") := by decide
  exact (read (ascii "[streamer")).1 ⟨[], [], [], [], [], 0, 0, 0, [], 0, [], 0, 0⟩
    (readConfig_outside there heading_untested _)

end LiveStreaming.HappyHls.Configuration
