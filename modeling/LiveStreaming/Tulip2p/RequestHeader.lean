import LiveStreaming.Streamer.ChannelRequest
import LiveStreaming.Tulip2p.Tulip2pServer

/-!
# The header of a tulip2p request

`parseTulip2pHeader` was made from the parser for HTTP: it steps over five bytes of `TULIP2P/`, the length of `HTTP/`,
takes the path from the blank in front of it on, and asks for a second blank, which a `PING` has none of.
-/

namespace LiveStreaming.Tulip2p
open Library CString
open Streamer (ok streamFormatError streamLengthError argumentError parseUrlArgs)

/-- The whole of what is parsed; the server uses the method and the path. -/
structure RequestHeader extends Tulip2pHeader where
  urlArgs : Pool (List UInt8) (List UInt8)
  version : List UInt8

/-- The end of `parseTulip2pHeader`, which looks for the version. -/
def parseVersion (header : RequestHeader) (prevPos : List UInt8) : Int × RequestHeader :=
  match strstr (ascii "TULIP2P/") prevPos with
  | none => (streamFormatError, header)
  | some curPos =>
    let prevPos := prevPos.drop (curPos + 5)
    match strstr (ascii "\r\n") prevPos with
    | none => (streamFormatError, header)
    | some curPos => (ok, { header with version := prevPos.take curPos })

/-- The scan of `requestLine`, from the blank behind the method on. -/
def parseRequestLine (header : RequestHeader) (requestLine : List UInt8) : Int × RequestHeader :=
  match strchr 32 requestLine with
  | none => (streamFormatError, header)
  | some curPos =>
    let header := { header with method := requestLine.take curPos }
    let prevPos := requestLine.drop curPos
    match strchr 63 (prevPos.drop 1) with
    | some curPos =>
      let header := { header with serverPath := prevPos.take (curPos + 1) }
      match parseUrlArgs header.urlArgs (prevPos.drop (curPos + 2)) with
      | (ret, args, rest) =>
        let header := { header with urlArgs := args }
        if ret = ok then parseVersion header rest else (ret, header)
    | none =>
      if (strchr 61 (prevPos.drop 1)).isSome then (streamFormatError, header)
      else
        match strchr 32 (prevPos.drop 1) with
        | none => (streamFormatError, header)
        | some curPos =>
          parseVersion { header with serverPath := prevPos.take (curPos + 1) } (prevPos.drop (curPos + 2))

/-- A line of 1024 bytes fills `requestLine` to its end, and the scan goes on in what lies `behind` that array. -/
def parseTulip2pHeader (behind request : List UInt8) : Int × RequestHeader :=
  let header : RequestHeader := ⟨⟨[], []⟩, ∅, []⟩
  if request.length = 0 then (argumentError, header)
  else
    match strstr (ascii "\r\n") request with
    | none => (streamFormatError, header)
    | some pos =>
      if pos + 2 > 1024 then (streamLengthError, header)
      else
        let line := request.take (pos + 2)
        parseRequestLine header (if line.length = 1024 then line ++ cString behind else line)

/-- `handleClientRequest` on the bytes of a datagram. -/
def Tulip2pServer.handleDatagram (s : Tulip2pServer) (behind : List UInt8) (address : SockAddr)
    (request : List UInt8) : Tulip2pServer × Sent :=
  let parsed := parseTulip2pHeader behind (cString request)
  if parsed.1 = ok then s.handleClientRequest ⟨address, parsed.2.toTulip2pHeader⟩ else (s, [])

/-- The methods that stand before a path. -/
inductive Method where
  | query | commit | transfer | quit

def Method.text : Method → List UInt8
  | .query => ascii "QUERY"
  | .commit => ascii "COMMIT"
  | .transfer => ascii "TRANSFER"
  | .quit => ascii "QUIT"

/-- The requests that the comments of the server show. A path is a slash and the name behind it. -/
inductive Documented where
  | ping (version : List UInt8)
  | request (method : Method) (name version : List UInt8)

namespace Documented

def header : Documented → RequestHeader
  | .ping version => ⟨⟨ascii "PING", []⟩, ∅, version⟩
  | .request method name version => ⟨⟨method.text, 47 :: name⟩, ∅, version⟩

/-- The request line, without its end. -/
def line : Documented → List UInt8
  | .ping version => ascii "PING " ++ ascii "TULIP2P/" ++ version
  | .request method name version => method.text ++ 32 :: 47 :: name ++ 32 :: ascii "TULIP2P/" ++ version

/-- The parser accepts the request and gives its method, its path and its version. -/
def Recovered (r : Documented) (behind more : List UInt8) : Prop :=
  ∃ header, parseTulip2pHeader behind (cString (r.line ++ ascii "\r\n" ++ more)) = (ok, header) ∧
    header.method = r.header.method ∧ header.serverPath = r.header.serverPath ∧ header.version = r.header.version

end Documented

/-- No delimiter of the scan. -/
def Clean (text : List UInt8) : Prop := ∀ b ∈ text, b ≠ 0 ∧ b ≠ 13 ∧ b ≠ 32 ∧ b ≠ 61 ∧ b ≠ 63

/-- Its name and its version are clean. -/
def Documented.Plain : Documented → Prop
  | .ping version => Clean version
  | .request _ name version => Clean name ∧ Clean version

/-! ### Every path begins with a blank -/

theorem parseVersion_serverPath {header header' : RequestHeader} {prevPos : List UInt8} {ret : Int}
    (parsed : parseVersion header prevPos = (ret, header')) : header'.serverPath = header.serverPath := by
  unfold parseVersion at parsed
  split at parsed
  · exact congrArg (·.2.serverPath) parsed.symm
  · dsimp only at parsed
    split at parsed
    · exact congrArg (·.2.serverPath) parsed.symm
    · exact congrArg (·.2.serverPath) parsed.symm

theorem error_ne_ok {ret : Int} {header header' : RequestHeader} (error : ret ≠ ok) :
    (ret, header) ≠ (ok, header') := by
  intro same
  exact error (congrArg Prod.fst same)

theorem parseRequestLine_blank {header header' : RequestHeader} {requestLine : List UInt8}
    (accepted : parseRequestLine header requestLine = (ok, header')) : ∃ path, header'.serverPath = 32 :: path := by
  unfold parseRequestLine at accepted
  split at accepted
  · exact absurd accepted (error_ne_ok (by decide))
  · next curPos blank =>
    obtain ⟨inside, value, _⟩ := List.findIdx?_eq_some_iff_getElem.mp blank
    have front : requestLine.drop curPos = 32 :: requestLine.drop (curPos + 1) := by
      rw [List.drop_eq_getElem_cons inside, eq_of_beq value]
    rw [front] at accepted
    dsimp only at accepted
    split at accepted
    · split at accepted
      · exact ⟨_, parseVersion_serverPath accepted⟩
      · next failed => exact absurd accepted (error_ne_ok failed)
    · split at accepted
      · exact absurd accepted (error_ne_ok (by decide))
      · split at accepted
        · exact absurd accepted (error_ne_ok (by decide))
        · exact ⟨_, parseVersion_serverPath accepted⟩

theorem parseTulip2pHeader_blank {behind request : List UInt8} {header : RequestHeader}
    (accepted : parseTulip2pHeader behind request = (ok, header)) : ∃ path, header.serverPath = 32 :: path := by
  unfold parseTulip2pHeader at accepted
  dsimp only at accepted
  split at accepted
  · exact absurd accepted (error_ne_ok (by decide))
  · split at accepted
    · exact absurd accepted (error_ne_ok (by decide))
    · split at accepted
      · exact absurd accepted (error_ne_ok (by decide))
      · exact parseRequestLine_blank accepted

/-! ### What comes of plain requests -/

theorem parseTulip2pHeader_line {line : List UInt8} (short : line.length + 2 < 1024) (unended : 13 ∉ line)
    (unterminated : 0 ∉ line) (behind more : List UInt8) :
    parseTulip2pHeader behind (cString (line ++ ascii "\r\n" ++ more)) =
      parseRequestLine ⟨⟨[], []⟩, ∅, []⟩ (line ++ ascii "\r\n") := by
  have front : 0 ∉ line ++ ascii "\r\n" := by
    rw [List.mem_append, not_or]
    exact ⟨unterminated, by decide⟩
  have text : cString (line ++ ascii "\r\n" ++ more) = line ++ (13 :: [10] ++ cString more) := by
    have kept : ∀ b ∈ line ++ ascii "\r\n", (b != 0) = true := by
      intro b member
      rw [bne_iff_ne]
      rintro rfl
      exact front member
    rw [cString, List.takeWhile_append_of_pos kept, List.append_assoc]
    rfl
  have found : strstr (ascii "\r\n") (line ++ (13 :: [10] ++ cString more)) = some line.length :=
    strstr_append unended [10] (cString more)
  have copied : (line ++ (13 :: [10] ++ cString more)).take (line.length + 2) = line ++ ascii "\r\n" := by
    rw [← List.append_assoc]
    exact List.take_left' (by simp)
  have filled : (line ++ ascii "\r\n").length ≠ 1024 := by
    have two : (ascii "\r\n").length = 2 := rfl
    rw [List.length_append, two]
    omega
  rw [parseTulip2pHeader, text, if_neg (by simp), found]
  dsimp only
  rw [if_neg (by omega), copied, if_neg filled]

theorem clean_notMem {text : List UInt8} (clean : Clean text) :
    0 ∉ text ∧ 13 ∉ text ∧ 32 ∉ text ∧ 61 ∉ text ∧ 63 ∉ text := by
  refine ⟨fun member => ?_, fun member => ?_, fun member => ?_, fun member => ?_, fun member => ?_⟩
  · exact (clean _ member).1 rfl
  · exact (clean _ member).2.1 rfl
  · exact (clean _ member).2.2.1 rfl
  · exact (clean _ member).2.2.2.1 rfl
  · exact (clean _ member).2.2.2.2 rfl

theorem Method.clean (method : Method) : Clean method.text := by
  cases method <;> simp [Clean, Method.text, ascii]

/-- Five bytes of the token are stepped over, and three of it are left in front of the version. -/
theorem parseVersion_token (header : RequestHeader) {version : List UInt8} (clean : Clean version) :
    parseVersion header (ascii "TULIP2P/" ++ version ++ ascii "\r\n") =
      (ok, { header with version := ascii "2P/" ++ version }) := by
  have token : strstr (ascii "TULIP2P/") (ascii "TULIP2P/" ++ version ++ ascii "\r\n") = some 0 := by
    rw [List.append_assoc]
    exact @strstr_append 84 [] (by simp) (ascii "ULIP2P/") (version ++ ascii "\r\n")
  have ended : strstr (ascii "\r\n") (ascii "2P/" ++ version ++ ascii "\r\n") =
      some (ascii "2P/" ++ version).length := by
    have absent : 13 ∉ ascii "2P/" ++ version := by
      rw [List.mem_append, not_or]
      exact ⟨by decide, (clean_notMem clean).2.1⟩
    have found := strstr_append absent [10] []
    rwa [List.append_nil] at found
  have stepped : (ascii "TULIP2P/" ++ version ++ ascii "\r\n").drop (0 + 5) =
      ascii "2P/" ++ version ++ ascii "\r\n" := rfl
  rw [parseVersion, token]
  dsimp only
  rw [stepped, ended]
  dsimp only
  rw [List.take_left]

theorem parseRequestLine_ping {version : List UInt8} (clean : Clean version) :
    (parseRequestLine ⟨⟨[], []⟩, ∅, []⟩ ((Documented.ping version).line ++ ascii "\r\n")).1 = streamFormatError := by
  have line : (Documented.ping version).line ++ ascii "\r\n" =
      ascii "PING" ++ 32 :: (ascii "TULIP2P/" ++ version ++ ascii "\r\n") := rfl
  have delimiters (c : UInt8) (token : c ∉ ascii "TULIP2P/") (absent : c ∉ version) (other : c ∉ ascii "\r\n") :
      strchr c (ascii "TULIP2P/" ++ version ++ ascii "\r\n") = none := by
    apply strchr_none
    rw [List.mem_append, List.mem_append, not_or, not_or]
    exact ⟨⟨token, absent⟩, other⟩
  obtain ⟨_, _, blank, equals, question⟩ := clean_notMem clean
  have space : strchr 32 (ascii "PING" ++ 32 :: (ascii "TULIP2P/" ++ version ++ ascii "\r\n")) = some 4 :=
    strchr_append (by decide) _
  have stepped : ((ascii "PING" ++ 32 :: (ascii "TULIP2P/" ++ version ++ ascii "\r\n")).drop 4).drop 1 =
      ascii "TULIP2P/" ++ version ++ ascii "\r\n" := rfl
  rw [line, parseRequestLine, space]
  dsimp only
  rw [stepped, delimiters 63 (by decide) question (by decide), delimiters 61 (by decide) equals (by decide),
    delimiters 32 (by decide) blank (by decide)]
  rfl

theorem parseRequestLine_request (method : Method) {name version : List UInt8} (clean : Clean name)
    (clean' : Clean version) :
    parseRequestLine ⟨⟨[], []⟩, ∅, []⟩ ((Documented.request method name version).line ++ ascii "\r\n") =
      (ok, ⟨⟨method.text, 32 :: 47 :: name⟩, ∅, ascii "2P/" ++ version⟩) := by
  have line : (Documented.request method name version).line ++ ascii "\r\n" =
      method.text ++ 32 :: (47 :: name ++ 32 :: (ascii "TULIP2P/" ++ version ++ ascii "\r\n")) := by
    simp only [Documented.line, List.append_assoc, List.cons_append]
  obtain ⟨_, _, blank, equals, question⟩ := clean_notMem clean
  obtain ⟨_, _, _, equals', question'⟩ := clean_notMem clean'
  have space : strchr 32 (method.text ++
      32 :: (47 :: name ++ 32 :: (ascii "TULIP2P/" ++ version ++ ascii "\r\n"))) = some method.text.length :=
    strchr_append (clean_notMem method.clean).2.2.1 _
  have delimiters (c : UInt8) (slash : c ∉ [47, (32 : UInt8)]) (absent : c ∉ name) (token : c ∉ ascii "TULIP2P/")
      (absent' : c ∉ version) (other : c ∉ ascii "\r\n") :
      strchr c (47 :: name ++ 32 :: (ascii "TULIP2P/" ++ version ++ ascii "\r\n")) = none := by
    apply strchr_none
    simp only [List.mem_append, List.mem_cons, List.not_mem_nil, or_false, not_or] at slash ⊢
    exact ⟨⟨slash.1, absent⟩, slash.2, ⟨token, absent'⟩, other⟩
  have second : strchr 32 (47 :: name ++ 32 :: (ascii "TULIP2P/" ++ version ++ ascii "\r\n")) =
      some (47 :: name).length :=
    strchr_append (by simpa using blank) _
  rw [line, parseRequestLine, space]
  dsimp only
  rw [List.take_left, List.drop_left, List.drop_one, List.tail_cons,
    delimiters 63 (by decide) question (by decide) question' (by decide),
    delimiters 61 (by decide) equals (by decide) equals' (by decide), second]
  dsimp only
  rw [List.take_succ_cons, List.take_left, List.drop_succ_cons, ← List.drop_drop, List.drop_left, List.drop_one,
    List.tail_cons, parseVersion_token _ clean']
  rfl

theorem resourceOf_blank (name : List UInt8) : resourceOf (32 :: 47 :: name) = resourceOf (47 :: name) := by
  have slash : ((47 :: name).reverse.takeWhile (· ≠ 47)).length ≠ (47 :: name).reverse.length := by
    intro whole
    have all := List.takeWhile_eq_self_iff.mp ((List.takeWhile_prefix _).eq_of_length whole)
    have first := all 47 (by simp)
    simp at first
  rw [resourceOf, List.reverse_cons, List.takeWhile_append, if_neg slash, resourceOf]

theorem Tulip2pServer.handleClientRequest_blank (s : Tulip2pServer) (address : SockAddr) (method name : List UInt8) :
    s.handleClientRequest ⟨address, ⟨method, 32 :: 47 :: name⟩⟩ =
      s.handleClientRequest ⟨address, ⟨method, 47 :: name⟩⟩ := by
  simp only [Tulip2pServer.handleClientRequest, Request.resource, resourceOf_blank, Request.id]

theorem Documented.line_clean {r : Documented} (plain : r.Plain) : 0 ∉ r.line ∧ 13 ∉ r.line := by
  have absent (c : UInt8) (other : c = 0 ∨ c = 13) (text : List UInt8) (clean : Clean text) : c ∉ text := by
    obtain ⟨zero, ret, _⟩ := clean_notMem clean
    rcases other with rfl | rfl
    · exact zero
    · exact ret
  have all (c : UInt8) (other : c = 0 ∨ c = 13) : c ∉ r.line := by
    cases r with
    | ping version =>
      have front : c ∉ ascii "PING " ++ ascii "TULIP2P/" := by
        rcases other with rfl | rfl <;> decide
      rw [Documented.line, List.mem_append, not_or]
      exact ⟨front, absent c other version plain⟩
    | request method name version =>
      have marks : c ∉ [(32 : UInt8), 47] ∧ c ∉ ascii "TULIP2P/" := by
        rcases other with rfl | rfl <;> decide
      have methods := absent c other _ method.clean
      have names := absent c other name plain.1
      have versions := absent c other version plain.2
      simp only [Documented.line, List.mem_append, List.mem_cons, List.not_mem_nil, or_false, not_or] at marks ⊢
      exact ⟨⟨⟨methods, marks.1.1, marks.1.2, names⟩, marks.1.1, marks.2⟩, versions⟩
  exact ⟨all 0 (.inl rfl), all 13 (.inr rfl)⟩

/-- No request is recovered. A plain one that fits is refused when it is a `PING`; any other goes to its handler with
the last part of its path, though its path has a blank in front and its version what is left of the token. -/
theorem documented_never (r : Documented) (behind more : List UInt8) :
    ¬ r.Recovered behind more ∧
      (r.Plain → r.line.length + 2 < 1024 → ∀ (s : Tulip2pServer) (address : SockAddr),
        s.handleDatagram behind address (r.line ++ ascii "\r\n" ++ more) =
          if r.header.method = ascii "PING" then (s, [])
          else s.handleClientRequest ⟨address, r.header.toTulip2pHeader⟩) := by
  constructor
  · rintro ⟨header, accepted, _, path, _⟩
    obtain ⟨text, blank⟩ := parseTulip2pHeader_blank accepted
    rw [blank] at path
    cases r with
    | ping version => cases path
    | request method name version => exact absurd (List.cons.inj path).1 (by decide)
  · intro plain short s address
    obtain ⟨unterminated, unended⟩ := Documented.line_clean plain
    rw [Tulip2pServer.handleDatagram, parseTulip2pHeader_line short unended unterminated]
    cases r with
    | ping version =>
      rw [parseRequestLine_ping plain, if_neg (by decide)]
      rfl
    | request method name version =>
      have text : method.text ≠ ascii "PING" := by
        cases method <;> decide
      have other : (Documented.request method name version).header.method ≠ ascii "PING" := text
      rw [parseRequestLine_request method plain.1 plain.2, if_pos rfl, if_neg other]
      exact Tulip2pServer.handleClientRequest_blank s address method.text name

/-- `QUERY /a.pdf TULIP2P/2016.2.21`. -/
theorem documented_refuted :
    ¬ Documented.Recovered (.request .query (ascii "a.pdf") (ascii "2016.2.21")) [] [] := by
  rintro ⟨header, accepted, _, path, _⟩
  obtain ⟨text, blank⟩ := parseTulip2pHeader_blank accepted
  rw [blank] at path
  exact absurd (List.cons.inj path).1 (by decide)

end LiveStreaming.Tulip2p
