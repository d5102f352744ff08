import LiveStreaming.Streamer.ChannelRequest
import Mathlib.Data.List.Infix
import Mathlib.Data.List.Nodup

/-!
# Request lines

A well-formed request line is read back by `parse_simple_rosehttp_header` as it was written, whatever
follows it.
-/

namespace LiveStreaming.Streamer
open Library Library.CString

structure RequestLine where
  method : List UInt8
  path : List UInt8
  args : List (List UInt8 × List UInt8)
  version : List UInt8

namespace RequestLine

def argText (arg : List UInt8 × List UInt8) : List UInt8 := arg.1 ++ 61 :: arg.2

def queryText : List (List UInt8 × List UInt8) → List UInt8
  | [] => []
  | first :: others => 63 :: List.intercalate [38] ((first :: others).map argText)

/-- `METHOD SP path[?k1=v1&...&kn=vn] SP HTTP/version CR LF` -/
def text (line : RequestLine) : List UInt8 :=
  line.method ++ 32 :: (line.path ++ queryText line.args ++ 32 :: (ascii "HTTP/" ++ (line.version ++ ascii "\r\n")))

def fields (line : RequestLine) : List (List UInt8) :=
  line.method :: line.path :: line.version :: line.args.flatMap fun arg => [arg.1, arg.2]

/-- Blank, `?`, `=`, `&`, CR, LF and the zero. -/
def delimiters : List UInt8 := [32, 63, 61, 38, 13, 10, 0]

structure Field (field : List UInt8) : Prop where
  plain : ∀ b ∈ field, b ∉ delimiters
  upper : ¬ ascii "HTTP/" <:+: field
  lower : ¬ ascii "http/" <:+: field

structure Proper (line : RequestLine) : Prop where
  fields : ∀ field ∈ line.fields, Field field
  distinct : (line.args.map Prod.fst).Nodup
  short : line.text.length ≤ 1023

/-- What the parser is to make of the line. -/
structure ReadAs (line : RequestLine) (result : Int × SimpleRosehttpHeader) : Prop where
  accepted : result.1 = ok
  method : result.2.method = line.method
  serverPath : result.2.serverPath = 32 :: line.path
  httpVersion : result.2.httpVersion = line.version
  urlArgs : ∀ key value, result.2.urlArgs.lookup key = some value ↔ (key, value) ∈ line.args

end RequestLine

open RequestLine

variable {key value : List UInt8} {args : Pool (List UInt8) (List UInt8)} {pairs : List (List UInt8 × List UInt8)}

theorem takeWhile_dropWhile_stop {p : UInt8 → Bool} {s : List UInt8} {b : UInt8} (all : ∀ c ∈ s, p c = true)
    (stop : p b = false) (rest : List UInt8) :
    (s ++ b :: rest).takeWhile p = s ∧ (s ++ b :: rest).dropWhile p = b :: rest := by
  have halts : ¬ p b = true := by simp [stop]
  rw [List.takeWhile_append_of_pos all, List.dropWhile_append_of_pos all, List.takeWhile_cons_of_neg halts,
    List.dropWhile_cons_of_neg halts, List.append_nil]
  exact ⟨rfl, rfl⟩

theorem RequestLine.Field.key_bytes (field : Field key) : ∀ b ∈ key, isKeyByte b = true := by
  intro b member
  have plain := field.plain b member
  simp only [delimiters, List.mem_cons, not_or] at plain
  simp [isKeyByte, plain.1, plain.2.2.1]

theorem RequestLine.Field.value_bytes (field : Field value) : ∀ b ∈ value, isValueByte b = true := by
  intro b member
  have plain := field.plain b member
  simp only [delimiters, List.mem_cons, not_or] at plain
  simp [isValueByte, plain.1, plain.2.2.2.1]

theorem RequestLine.Field.absent {field : List UInt8} (proper : Field field) {b : UInt8}
    (delimiter : b ∈ delimiters) : b ∉ field :=
  fun member => proper.plain b member delimiter

/-- One turn of the loop over the arguments: at a blank it ends, at an `&` it goes on. -/
theorem parseUrlArgs_turn (keyField : Field key) (valueField : Field value) {stop : UInt8}
    (stops : isValueByte stop = false) (rest : List UInt8) :
    parseUrlArgs args (argText (key, value) ++ stop :: rest) =
      if stop = 32 then (ok, insertArg args key value, 32 :: rest) else parseUrlArgs
        (insertArg args key value) rest := by
  obtain ⟨keyTaken, keyDropped⟩ := takeWhile_dropWhile_stop keyField.key_bytes (by decide : isKeyByte 61 = false)
    (value ++ stop :: rest)
  obtain ⟨valueTaken, valueDropped⟩ := takeWhile_dropWhile_stop valueField.value_bytes stops rest
  have shape : argText (key, value) ++ stop :: rest = key ++ 61 :: (value ++ stop :: rest) := by
    rw [argText, List.append_assoc, List.cons_append]
  rw [shape]
  obtain ⟨b, tail, equal⟩ : ∃ b tail, key ++ 61 :: (value ++ stop :: rest) = b :: tail :=
    List.exists_cons_of_ne_nil (by simp)
  rw [equal] at keyTaken keyDropped ⊢
  rw [parseUrlArgs]
  split
  · next stuck =>
    rw [keyDropped] at stuck
    cases stuck
  · next afterKey separated =>
    rw [keyDropped] at separated
    obtain rfl : value ++ stop :: rest = afterKey := Option.some.inj separated
    dsimp only
    rw [keyTaken, valueTaken]
    split
    · next ended =>
      rw [valueDropped] at ended
      cases ended
    · next behind ended =>
      obtain ⟨rfl, rfl⟩ := List.cons.inj (valueDropped.symm.trans ended)
      rw [if_pos rfl]
    · next c behind other ended =>
      obtain ⟨rfl, rfl⟩ := List.cons.inj (valueDropped.symm.trans ended)
      rw [if_neg other]

def insertArgs (args : Pool (List UInt8) (List UInt8)) (pairs : List (List UInt8 × List UInt8)) :
    Pool (List UInt8) (List UInt8) :=
  pairs.foldl (fun args pair => insertArg args pair.1 pair.2) args

/-- The loop over the arguments, by induction on the arguments behind the first. -/
theorem parseUrlArgs_pairs {first : List UInt8 × List UInt8}
    (proper : ∀ pair ∈ first :: pairs, Field pair.1 ∧ Field pair.2) (rest : List UInt8) :
    parseUrlArgs args (List.intercalate [38] ((first :: pairs).map argText) ++ 32 :: rest) =
      (ok, insertArgs args (first :: pairs), 32 :: rest) := by
  induction pairs generalizing args first with
  | nil =>
    obtain ⟨keyField, valueField⟩ := proper first List.mem_cons_self
    have turn := @parseUrlArgs_turn first.1 first.2 args keyField valueField 32 rfl rest
    rw [if_pos rfl] at turn
    simpa [List.intercalate, insertArgs] using turn
  | cons second pairs ih =>
    obtain ⟨keyField, valueField⟩ := proper first List.mem_cons_self
    have turn := @parseUrlArgs_turn first.1 first.2 args keyField valueField 38 rfl
      (List.intercalate [38] ((second :: pairs).map argText) ++ 32 :: rest)
    rw [if_neg (by decide), ih fun pair member => proper pair (List.mem_cons_of_mem _ member)] at turn
    rw [← show insertArgs (insertArg args first.1 first.2) (second :: pairs) =
      insertArgs args (first :: second :: pairs)
      from rfl, ← turn]
    simp [List.intercalate]

theorem lookup_insertArg (fresh : key ∉ args) (other found : List UInt8) :
    (insertArg args key value).lookup other = some found ↔
      args.lookup other = some found ∨ (other, found) = (key, value) := by
  rw [insertArg, if_neg fresh]
  by_cases same : other = key
  · subst same
    rw [AList.lookup_insert, AList.lookup_eq_none.mpr fresh]
    simp [eq_comm]
  · rw [AList.lookup_insert_ne same]
    simp [same]

/-- With distinct keys every pair is found, and nothing else. -/
theorem lookup_insertArgs (distinct : (pairs.map Prod.fst).Nodup) (fresh : ∀ pair ∈ pairs, pair.1 ∉ args)
    (other found : List UInt8) :
    (insertArgs args pairs).lookup other = some found ↔ args.lookup other = some found ∨ (other, found) ∈ pairs := by
  induction pairs generalizing args with
  | nil => simp [insertArgs]
  | cons first pairs ih =>
    rw [List.map_cons, List.nodup_cons] at distinct
    have own := fresh first List.mem_cons_self
    have later : ∀ pair ∈ pairs, pair.1 ∉ insertArg args first.1 first.2 := by
      intro pair member
      rw [insertArg, if_neg own, AList.mem_insert, not_or]
      refine ⟨fun same => distinct.1 ?_, fresh pair (List.mem_cons_of_mem _ member)⟩
      exact same ▸ List.mem_map_of_mem member
    rw [insertArgs, List.foldl_cons, ← insertArgs, ih distinct.2 later, lookup_insertArg own, List.mem_cons, or_assoc]

theorem crlf_eq : ascii "\r\n" = [13, 10] := rfl
theorem upper_eq : ascii "HTTP/" = 72 :: [84, 84, 80, 47] := rfl
theorem lower_eq : ascii "http/" = 104 :: [116, 116, 112, 47] := rfl

/-- The version, behind what has no `H` and no `h`. -/
theorem parseHttpVersion_text {version before : List UInt8} (field : Field version) (upper : 72 ∉ before)
    (lower : 104 ∉ before) (header : SimpleRosehttpHeader) :
    parseHttpVersion header (before ++ (ascii "HTTP/" ++ (version ++ ascii "\r\n"))) =
      (ok, { header with httpVersion := version }) := by
  have small : strstr (ascii "http/") (before ++ (ascii "HTTP/" ++ (version ++ ascii "\r\n"))) = none := by
    have skipped : 104 ∉ before ++ ascii "HTTP/" := by
      rw [List.mem_append, not_or]
      exact ⟨lower, by decide⟩
    have foreign : 13 ∉ ascii "http/" := by decide
    have behind : strstr (ascii "http/") [13, 10] = none := by decide
    rw [← List.append_assoc, lower_eq, strstr_skip skipped, ← lower_eq, crlf_eq,
      strstr_before field.lower foreign, behind]
    rfl
  have large : strstr (ascii "HTTP/") (before ++ (ascii "HTTP/" ++ (version ++ ascii "\r\n"))) =
    some before.length := by
    rw [upper_eq]
    exact strstr_append upper _ _
  have dropped : (before ++ (ascii "HTTP/" ++ (version ++ ascii "\r\n"))).drop (before.length + 5) =
      version ++ ascii "\r\n" := by
    rw [← List.append_assoc]
    exact List.drop_left' (by rw [List.length_append]; rfl)
  have ended : strstr (ascii "\r\n") (version ++ ascii "\r\n") = some version.length :=
    @strstr_append 13 version (field.absent (by decide)) [10] []
  unfold parseHttpVersion
  rw [small, large]
  simp only [Option.none_or, dropped, ended, List.take_left]

namespace RequestLine

variable {line : RequestLine}

theorem Proper.path_field (proper : line.Proper) : Field line.path := proper.fields _ (by simp [RequestLine.fields])

theorem Proper.method_field (proper : line.Proper) : Field line.method := proper.fields _ (by simp [RequestLine.fields])

theorem Proper.version_field (proper : line.Proper) : Field line.version :=
  proper.fields _ (by simp [RequestLine.fields])

theorem Proper.arg_fields (proper : line.Proper) : ∀ arg ∈ line.args, Field arg.1 ∧ Field arg.2 := by
  intro arg member
  have inside : ∀ field ∈ [arg.1, arg.2], field ∈ line.fields := by
    intro field one
    have : field ∈ line.args.flatMap fun arg => [arg.1, arg.2] := List.mem_flatMap.mpr ⟨arg, member, one⟩
    simp [RequestLine.fields, this]
  exact ⟨proper.fields _ (inside _ (by simp)), proper.fields _ (inside _ (by simp))⟩

/-- The version and the end of the line have no delimiter but the last two bytes. -/
theorem Proper.absent_behind (proper : line.Proper) {b : UInt8} (delimiter : b = 63 ∨ b = 61) :
    b ∉ line.path ++ 32 :: (ascii "HTTP/" ++ (line.version ++ ascii "\r\n")) := by
  have fixed : b ∉ 32 :: ascii "HTTP/" ∧ b ∉ ascii "\r\n" := by rcases delimiter with rfl | rfl <;> decide
  have listed : b ∈ delimiters := by rcases delimiter with rfl | rfl <;> decide
  rw [← List.cons_append]
  simp only [List.mem_append, not_or]
  exact ⟨proper.path_field.absent listed, fixed.1, proper.version_field.absent listed, fixed.2⟩

/-- The scan behind the method of a line without arguments. -/
theorem Proper.parseRequestLine_bare (proper : line.Proper) (bare : line.args = []) :
    parseRequestLine ⟨[], [], ∅, []⟩ line.text = (ok, ⟨line.method, 32 :: line.path, ∅, line.version⟩) := by
  have text : line.text =
      line.method ++ 32 :: (line.path ++ 32 :: (ascii "HTTP/" ++ (line.version ++ ascii "\r\n"))) := by
    rw [RequestLine.text, bare, queryText, List.append_nil]
  have blank : strchr 32 line.text = some line.method.length := by
    rw [text]
    exact strchr_append (proper.method_field.absent (by decide)) _
  have mark := strchr_none (proper.absent_behind (.inl rfl))
  have equals := strchr_none (proper.absent_behind (.inr rfl))
  have second := strchr_append (proper.path_field.absent (by decide : 32 ∈ delimiters))
    (ascii "HTTP/" ++ (line.version ++ ascii "\r\n"))
  have version := @parseHttpVersion_text line.version [] proper.version_field List.not_mem_nil List.not_mem_nil
    ⟨line.method, 32 :: line.path, ∅, []⟩
  unfold parseRequestLine
  rw [blank, text]
  simp only [List.take_left, List.drop_left, List.drop_zero, mark, equals, second, Option.isSome_none,
    Bool.false_eq_true, if_false, List.take_succ_cons, List.drop_succ_cons, List.drop_length_add_append]
  exact version

/-- The scan behind the method of a line with arguments. -/
theorem Proper.parseRequestLine_args (proper : line.Proper) {first : List UInt8 × List UInt8}
    {others : List (List UInt8 × List UInt8)} (args : line.args = first :: others) :
    parseRequestLine ⟨[], [], ∅, []⟩ line.text =
      (ok, ⟨line.method, 32 :: line.path, insertArgs ∅ line.args, line.version⟩) := by
  have text : line.text = line.method ++ 32 :: (line.path ++ 63 :: (List.intercalate [38] (line.args.map argText) ++
      32 :: (ascii "HTTP/" ++ (line.version ++ ascii "\r\n")))) := by
    rw [RequestLine.text, args, queryText]
    simp
  have blank : strchr 32 line.text = some line.method.length := by
    rw [text]
    exact strchr_append (proper.method_field.absent (by decide)) _
  have mark := strchr_append (proper.path_field.absent (by decide : 63 ∈ delimiters))
    (List.intercalate [38] (line.args.map argText) ++ 32 :: (ascii "HTTP/" ++ (line.version ++ ascii "\r\n")))
  have pairs := @parseUrlArgs_pairs ∅ others first (args ▸ proper.arg_fields)
    (ascii "HTTP/" ++ (line.version ++ ascii "\r\n"))
  rw [← args] at pairs
  have version := @parseHttpVersion_text line.version [32] proper.version_field (by decide) (by decide)
    ⟨line.method, 32 :: line.path, insertArgs ∅ line.args, []⟩
  unfold parseRequestLine
  rw [blank, text]
  simp only [List.take_left, List.drop_left, mark, List.take_succ_cons,
    List.drop_succ_cons, List.drop_length_add_append, List.drop_zero, pairs, if_true]
  exact version

theorem Proper.parseRequestLine_text (proper : line.Proper) :
    line.ReadAs (parseRequestLine ⟨[], [], ∅, []⟩ line.text) := by
  have none (key : List UInt8) : (∅ : Pool (List UInt8) (List UInt8)).lookup key = none := rfl
  cases args : line.args with
  | nil =>
    rw [proper.parseRequestLine_bare args]
    refine ⟨rfl, rfl, rfl, rfl, fun key value => ?_⟩
    rw [args]
    simp [none]
  | cons first others =>
    rw [proper.parseRequestLine_args args]
    refine ⟨rfl, rfl, rfl, rfl, fun key value => ?_⟩
    dsimp only
    rw [lookup_insertArgs proper.distinct fun pair _ => AList.notMem_empty pair.1]
    simp [none]

/-- The line without its end. -/
def body (line : RequestLine) : List UInt8 :=
  line.method ++ 32 :: (line.path ++ queryText line.args ++ 32 :: (ascii "HTTP/" ++ line.version))

theorem text_eq (line : RequestLine) : line.text = line.body ++ [13, 10] := by
  simp [text, body, crlf_eq]

theorem absent_queryText {b : UInt8} {args : List (List UInt8 × List UInt8)} (mark : b ∉ [38, 61, 63])
    (absent : ∀ arg ∈ args, b ∉ arg.1 ∧ b ∉ arg.2) : b ∉ queryText args := by
  simp only [List.mem_cons, List.not_mem_nil, or_false, not_or] at mark
  cases args with
  | nil => exact List.not_mem_nil
  | cons first others =>
    rw [queryText, List.mem_cons, not_or]
    refine ⟨mark.2.2, ?_⟩
    induction others generalizing first with
    | nil =>
      have own := absent first List.mem_cons_self
      simp [List.intercalate, argText, own, mark]
    | cons second others ih =>
      have own := absent first List.mem_cons_self
      have later := ih second fun arg member => absent arg (List.mem_cons_of_mem _ member)
      rw [List.map_cons, List.map_cons, List.intercalate_cons_cons, ← List.map_cons, List.mem_append, not_or]
      exact ⟨by simp [argText, own, mark], later⟩

theorem Proper.absent_body (proper : line.Proper) {b : UInt8} (ending : b = 13 ∨ b = 0) : b ∉ line.body := by
  have listed : b ∈ delimiters := by rcases ending with rfl | rfl <;> decide
  have blank : b ≠ 32 := by rcases ending with rfl | rfl <;> decide
  have fixed : b ∉ ascii "HTTP/" := by rcases ending with rfl | rfl <;> decide
  have query : b ∉ queryText line.args := by
    apply absent_queryText
    · rcases ending with rfl | rfl <;> decide
    · intro arg member
      obtain ⟨key, value⟩ := proper.arg_fields arg member
      exact ⟨key.absent listed, value.absent listed⟩
  simp only [body, List.mem_append, List.mem_cons, not_or]
  exact ⟨proper.method_field.absent listed, blank, ⟨proper.path_field.absent listed, query⟩, blank, fixed,
    proper.version_field.absent listed⟩

theorem Proper.cString_text (proper : line.Proper) (rest : List UInt8) :
    cString (line.text ++ rest) = line.text ++ cString rest := by
  rw [cString, List.takeWhile_append_of_pos, ← cString]
  intro b member
  have nonzero : (0 : UInt8) ∉ line.text := by
    rw [text_eq, List.mem_append, not_or]
    exact ⟨proper.absent_body (.inr rfl), by decide⟩
  exact bne_iff_ne.mpr fun zero => nonzero (zero ▸ member)

/-- A request whose line is well-formed is read as it was written, whatever follows the line. -/
theorem parseSimpleRosehttpHeader_text (proper : line.Proper) (behind rest : List UInt8) :
    line.ReadAs (parseSimpleRosehttpHeader behind (cString (line.text ++ rest))) := by
  have request : cString (line.text ++ rest) = line.body ++ (ascii "\r\n" ++ cString rest) := by
    rw [proper.cString_text, text_eq, List.append_assoc, crlf_eq]
  have length : line.text.length = line.body.length + 2 := by rw [text_eq, List.length_append]; rfl
  have short := proper.short
  have found : strstr (ascii "\r\n") (cString (line.text ++ rest)) = some line.body.length := by
    rw [request]
    exact strstr_append (proper.absent_body (.inl rfl)) [10] _
  have filled : (cString (line.text ++ rest)).length ≠ 0 := by
    rw [proper.cString_text, List.length_append]
    omega
  have taken : (cString (line.text ++ rest)).take (line.body.length + 2) = line.text := by
    rw [proper.cString_text, ← length, List.take_left]
  unfold parseSimpleRosehttpHeader
  rw [if_neg filled, found]
  dsimp only
  rw [taken, if_neg (by omega), if_neg (by omega)]
  exact proper.parseRequestLine_text

def sample : RequestLine where
  method := ascii "GET"
  path := ascii "/live"
  args := [(ascii "channel", ascii "7"), (ascii "src", [])]
  version := ascii "1.1"

theorem parseSimpleRosehttpHeader_text_sample :
    sample.ReadAs (parseSimpleRosehttpHeader [] (cString (sample.text ++ ascii "Host: a?b=c&d HTTP/9\r\n\r\n"))) := by
  have proper : sample.Proper := by
    refine ⟨fun field member => ⟨?_, ?_, ?_⟩, by decide, by decide⟩
    · revert field
      decide +kernel
    · revert field
      decide +kernel
    · revert field
      decide +kernel
  exact parseSimpleRosehttpHeader_text proper [] _

end RequestLine

end LiveStreaming.Streamer
