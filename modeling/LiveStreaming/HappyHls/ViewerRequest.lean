import LiveStreaming.HappyHls.StreamerRequest
import LiveStreaming.Streamer.BackSource
import Mathlib.Algebra.BigOperators.Group.Finset.Basic
import Mathlib.Algebra.Order.BigOperators.Group.Finset

/-!
# Requests made inside the system

`do_the_backing_source_request` and `generate_viewer_request` write a viewer's request for the parser of
another streamer. Neither writes a `?`, and `parse_simple_rosehttp_header` looks for the arguments behind
the first one: a request of theirs has one only inside a value, and then too few are left behind it.
-/

namespace LiveStreaming.Streamer
open Library Library.CString BackSource

/-- `request` is accepted and read as it was meant. -/
structure Recovers (behind request channel type token : List UInt8) : Prop where
  accepted : (parseSimpleRosehttpHeader behind request).1 = ok
  method : (parseSimpleRosehttpHeader behind request).2.method = ascii "GET"
  channel : urlArg (parseSimpleRosehttpHeader behind request).2 "channel" = channel
  type : urlArg (parseSimpleRosehttpHeader behind request).2 "type" = type
  token : urlArg (parseSimpleRosehttpHeader behind request).2 "token" = token

/-- The same, whatever lies behind `requestLine`. -/
def ReadBack (request channel type token : List UInt8) : Prop := ∀ behind, Recovers behind request channel type token

/-- The line fills `requestLine` to its end, and the scan finds a `?` in what lies behind it. -/
def ForeignMark (behind request : List UInt8) : Prop :=
  strstr (ascii "\r\n") request = some 1022 ∧ 63 ∈ cString behind

/-- The question marks in the values of the three arguments. -/
def marks (args : Pool (List UInt8) (List UInt8)) : Nat :=
  ∑ key ∈ {ascii "channel", ascii "type", ascii "token"}, ((args.lookup key).getD []).count 63

theorem marks_urlArg (header : SimpleRosehttpHeader) :
    marks header.urlArgs = (urlArg header "channel").count 63 + (urlArg header "type").count 63 +
      (urlArg header "token").count 63 := by
  have channel : ascii "channel" ∉ ({ascii "type", ascii "token"} : Finset (List UInt8)) := by decide
  have type : ascii "type" ∉ ({ascii "token"} : Finset (List UInt8)) := by decide
  rw [marks, Finset.sum_insert channel, Finset.sum_insert type, Finset.sum_singleton, ← Nat.add_assoc]
  rfl

theorem insertArg_count_le (args : Pool (List UInt8) (List UInt8)) (key value key' : List UInt8) :
    (((insertArg args key value).lookup key').getD []).count 63 ≤
      ((args.lookup key').getD []).count 63 + if key' = key then value.count 63 else 0 := by
  unfold insertArg
  split
  · omega
  · by_cases same : key' = key
    · rw [same, AList.lookup_insert, if_pos rfl]
      simp
    · rw [AList.lookup_insert_ne same]
      omega

theorem marks_insertArg_le (args : Pool (List UInt8) (List UInt8)) (key value : List UInt8) :
    marks (insertArg args key value) ≤ marks args + value.count 63 := by
  have added : (∑ key' ∈ {ascii "channel", ascii "type", ascii "token"}, if key' = key then value.count 63 else 0) ≤
      value.count 63 := by
    rw [Finset.sum_ite_eq']
    split <;> omega
  have each := Finset.sum_le_sum fun key' (_ : key' ∈ ({ascii "channel", ascii "type", ascii "token"} : Finset _)) =>
    insertArg_count_le args key value key'
  rw [Finset.sum_add_distrib] at each
  exact each.trans (Nat.add_le_add_left added _)

theorem parseUrlArgs_marks_le (args : Pool (List UInt8) (List UInt8)) (prevPos : List UInt8) :
    marks (parseUrlArgs args prevPos).2.1 ≤ marks args + prevPos.count 63 := by
  have after (s afterKey : List UInt8) (separated : skipSeparator (s.dropWhile isKeyByte) = some afterKey) :
      (afterKey.takeWhile isValueByte).count 63 + (afterKey.dropWhile isValueByte).count 63 ≤ s.count 63 := by
    rw [← List.count_append, List.takeWhile_append_dropWhile]
    exact ((skipSeparator_suffix separated).trans (List.dropWhile_suffix _)).sublist.count_le _
  fun_induction parseUrlArgs args prevPos with
  | case1 args => exact Nat.le_add_right _ _
  | case2 args b tail stuck => exact Nat.le_add_right _ _
  | case3 args b tail key afterKey separated args' ended =>
    have text := after _ _ separated
    have inserted : marks args' ≤ _ := marks_insertArg_le args key (afterKey.takeWhile isValueByte)
    dsimp only
    omega
  | case4 args b tail key afterKey separated args' rest ended =>
    have text := after _ _ separated
    have inserted : marks args' ≤ _ := marks_insertArg_le args key (afterKey.takeWhile isValueByte)
    dsimp only
    omega
  | case5 args b tail key afterKey separated args' c rest more ended ih =>
    have text := after _ _ separated
    have inserted : marks args' ≤ _ := marks_insertArg_le args key (afterKey.takeWhile isValueByte)
    rw [ended] at text
    have behind : rest.count 63 ≤ (c :: rest).count 63 := (List.sublist_cons_self c rest).count_le _
    omega

theorem strchr_split {c : UInt8} {s : List UInt8} {i : Nat} (found : strchr c s = some i) :
    s = s.take i ++ c :: s.drop (i + 1) := by
  obtain ⟨inside, equal, _⟩ := List.findIdx?_eq_some_iff_getElem.mp found
  rw [beq_iff_eq] at equal
  rw [← equal, List.cons_getElem_drop_succ, List.take_append_drop]

theorem parseRequestLine_marks {header : SimpleRosehttpHeader} (empty : header.urlArgs = ∅) (requestLine : List UInt8) :
    (parseRequestLine header requestLine).2.urlArgs = ∅ ∨
      marks (parseRequestLine header requestLine).2.urlArgs < requestLine.count 63 := by
  unfold parseRequestLine
  split
  · exact .inl empty
  · next blank _ =>
    dsimp only
    split
    · next mark found =>
      right
      have collected := parseUrlArgs_marks_le header.urlArgs ((requestLine.drop blank).drop (mark + 2))
      have none : marks header.urlArgs = 0 := by
        rw [empty]
        rfl
      have fewer : ((requestLine.drop blank).drop (mark + 2)).count 63 < requestLine.count 63 := by
        have split := congrArg (List.count 63) (strchr_split found)
        rw [List.count_append, List.count_cons_self, List.drop_drop] at split
        have suffix := ((List.drop_sublist 1 _).trans (List.drop_sublist blank requestLine)).count_le 63
        rw [show mark + 2 = 1 + (mark + 1) by omega, ← List.drop_drop]
        rw [← List.drop_drop] at split
        omega
      have bound := (none ▸ collected).trans_lt (by omega : 0 + _ < requestLine.count 63)
      split
      · rw [parseHttpVersion_urlArgs]
        exact bound
      · exact bound
    · left
      split
      · exact empty
      · split
        · exact empty
        · rw [parseHttpVersion_urlArgs]
          exact empty

theorem parseSimpleRosehttpHeader_marks {behind request : List UInt8} (own : ¬ ForeignMark behind request) :
    (parseSimpleRosehttpHeader behind request).2.urlArgs = ∅ ∨
      marks (parseSimpleRosehttpHeader behind request).2.urlArgs < request.count 63 := by
  unfold parseSimpleRosehttpHeader
  dsimp only
  split
  · exact .inl rfl
  · split
    · exact .inl rfl
    · next pos found =>
      split
      · exact .inl rfl
      · have line : (request.take (pos + 2)).count 63 ≤ request.count 63 := (List.take_sublist _ _).count_le _
        split
        · next full =>
          have last : pos = 1022 := by
            rw [List.length_take] at full
            omega
          have absent : 63 ∉ cString behind := fun foreign => own ⟨last ▸ found, foreign⟩
          have scanned := @parseRequestLine_marks ⟨[], [], ∅, []⟩ rfl (request.take (pos + 2) ++ cString behind)
          rw [List.count_append, List.count_eq_zero_of_not_mem absent] at scanned
          exact scanned.imp_right fun fewer => by omega
        · exact (@parseRequestLine_marks ⟨[], [], ∅, []⟩ rfl (request.take (pos + 2))).imp_right fun fewer => by omega

/-- A request whose question marks all lie in the three values is not read back. -/
theorem Recovers.foreignMark {behind request channel type token : List UInt8}
    (recovers : Recovers behind request channel type token) (named : channel ≠ [])
    (inside : request.count 63 ≤ channel.count 63 + type.count 63 + token.count 63) : ForeignMark behind request := by
  by_contra own
  rcases parseSimpleRosehttpHeader_marks own with empty | fewer
  · have missing : urlArg (parseSimpleRosehttpHeader behind request).2 "channel" = [] := by
      rw [urlArg, empty]
      rfl
    exact named (recovers.channel.symm.trans missing)
  · rw [marks_urlArg, recovers.channel, recovers.type, recovers.token] at fewer
    omega

theorem admittedChannel_named {behind request channel : List UInt8}
    (admitted : admittedChannel behind request = some channel) :
    urlArg (parseSimpleRosehttpHeader behind (cString request)).2 "channel" = channel ∧ channel ≠ [] := by
  unfold admittedChannel at admitted
  dsimp only at admitted
  split at admitted
  · cases admitted
  · split at admitted
    · cases admitted
    · next valid =>
      obtain rfl := Option.some.inj admitted
      rw [List.isEmpty_iff, not_or] at valid
      exact ⟨rfl, valid.1⟩

theorem notMem_take_strchr {c : UInt8} {s : List UInt8} {i : Nat} (found : strchr c s = some i) : c ∉ s.take i := by
  obtain ⟨inside, _, first⟩ := List.findIdx?_eq_some_iff_getElem.mp found
  intro member
  obtain ⟨j, short, equal⟩ := List.mem_take_iff_getElem.mp member
  have early : j < i := by omega
  exact first j early (beq_iff_eq.mpr equal)

theorem mem_of_strchr_none {c : UInt8} {s : List UInt8} (absent : strchr c s = none) : c ∉ s := by
  intro member
  simpa using List.findIdx?_eq_none_iff.mp absent c member

theorem parseHttpVersion_serverPath (header : SimpleRosehttpHeader) (prevPos : List UInt8) :
    (parseHttpVersion header prevPos).2.serverPath = header.serverPath := by
  unfold parseHttpVersion
  split
  · rfl
  · dsimp only
    split <;> rfl

theorem parseRequestLine_serverPath {header : SimpleRosehttpHeader} (empty : header.serverPath = [])
    (requestLine : List UInt8) : 63 ∉ (parseRequestLine header requestLine).2.serverPath := by
  have none : 63 ∉ header.serverPath := by simp [empty]
  have path (blank i : Nat) (found : strchr 32 requestLine = some blank)
      (absent : 63 ∉ ((requestLine.drop blank).drop 1).take i) : 63 ∉ (requestLine.drop blank).take (i + 1) := by
    have first : requestLine.drop blank = 32 :: (requestLine.drop blank).drop 1 := by
      obtain ⟨inside, equal, _⟩ := List.findIdx?_eq_some_iff_getElem.mp found
      rw [List.drop_drop, ← beq_iff_eq.mp equal, List.cons_getElem_drop_succ]
    rw [first, List.take_succ_cons, List.mem_cons, not_or]
    exact ⟨by decide, absent⟩
  unfold parseRequestLine
  split
  · exact none
  · next blank found =>
    dsimp only
    split
    · next mark marked =>
      split
      · rw [parseHttpVersion_serverPath]
        exact path blank mark found (notMem_take_strchr marked)
      · exact path blank mark found (notMem_take_strchr marked)
    · next unmarked =>
      split
      · exact none
      · split
        · exact none
        · next second _ =>
          rw [parseHttpVersion_serverPath]
          exact path blank second found fun member => mem_of_strchr_none unmarked (List.mem_of_mem_take member)

theorem parseSimpleRosehttpHeader_serverPath (behind request : List UInt8) :
    63 ∉ (parseSimpleRosehttpHeader behind request).2.serverPath := by
  have none : (63 : UInt8) ∉ ([] : List UInt8) := List.not_mem_nil
  unfold parseSimpleRosehttpHeader
  dsimp only
  split
  · exact none
  · split
    · exact none
    · split
      · exact none
      · exact parseRequestLine_serverPath rfl _

theorem count_imitatedRequest {header : SimpleRosehttpHeader} (path : 63 ∉ header.serverPath) :
    (cString (imitatedRequest header)).count 63 ≤ (urlArg header "channel").count 63 + (urlArg header "type").count 63 +
      (urlArg header "token").count 63 := by
  have whole : (cString (imitatedRequest header)).count 63 ≤ (imitatedRequest header).count 63 :=
    (List.takeWhile_sublist _).count_le _
  have texts : (ascii "GET ").count 63 = 0 ∧ (ascii "/").count 63 = 0 ∧ (ascii "channel=").count 63 = 0 ∧
      (ascii "&type=").count 63 = 0 ∧ (ascii "&token=").count 63 = 0 ∧
      (ascii " HTTP/1.1\r\n\r\n").count 63 = 0 := by decide
  apply whole.trans
  simp only [imitatedRequest, List.count_append, List.count_eq_zero_of_not_mem path, texts]
  omega

end LiveStreaming.Streamer

namespace LiveStreaming.HappyHls
open Library Library.CString Streamer BackSource

def generateViewerRequest (streamerRequest : StreamerRequest) : List UInt8 :=
  ascii "GET swwy/channel=" ++ (streamerRequest.channel ++ ascii "&") ++
    (ascii "type=flv&token=" ++ streamerRequest.token ++ ascii " HTTP/1.1\r\n\r\n")

theorem count_generateViewerRequest (streamerRequest : StreamerRequest) :
    (generateViewerRequest streamerRequest).count 63 =
      streamerRequest.channel.count 63 + (ascii "flv").count 63 + streamerRequest.token.count 63 := by
  have texts : (ascii "GET swwy/channel=").count 63 = 0 ∧ (ascii "&").count 63 = 0 ∧
      (ascii "type=flv&token=").count 63 = 0 ∧ (ascii " HTTP/1.1\r\n\r\n").count 63 = 0 ∧
      (ascii "flv").count 63 = 0 := by decide
  simp only [generateViewerRequest, List.count_append, texts]
  omega

/-- No request of either program is read back by the parser that admitted its channel. Where the line fills
`requestLine`, the scan may run into a question mark that is not the request's. -/
theorem generated_requests_unread {memory request channel : List UInt8}
    (admitted : admittedChannel memory request = some channel) (streamerRequest : StreamerRequest)
    (sameChannel : streamerRequest.channel = channel)
    (sameToken : streamerRequest.token = urlArg (parseSimpleRosehttpHeader memory (cString request)).2 "token") :
    let header := (parseSimpleRosehttpHeader memory (cString request)).2
    let backing := cString (imitatedRequest header)
    let viewer := generateViewerRequest streamerRequest
    ¬ ReadBack backing channel (urlArg header "type") (urlArg header "token") ∧
      ¬ ReadBack viewer channel (ascii "flv") (urlArg header "token") ∧
      (∀ behind, Recovers behind backing channel (urlArg header "type") (urlArg header "token") →
        ForeignMark behind backing) ∧
      ∀ behind, Recovers behind viewer channel (ascii "flv") (urlArg header "token") → ForeignMark behind viewer := by
  intro header backing viewer
  have named : urlArg header "channel" = channel ∧ channel ≠ [] := admittedChannel_named admitted
  have backing_foreign (behind : List UInt8)
      (recovers : Recovers behind backing channel (urlArg header "type") (urlArg header "token")) :
      ForeignMark behind backing := by
    apply recovers.foreignMark named.2
    rw [← named.1]
    exact count_imitatedRequest (parseSimpleRosehttpHeader_serverPath memory (cString request))
  have viewer_foreign (behind : List UInt8)
      (recovers : Recovers behind viewer channel (ascii "flv") (urlArg header "token")) :
      ForeignMark behind viewer := by
    apply recovers.foreignMark named.2
    rw [← sameChannel, ← sameToken]
    exact (count_generateViewerRequest streamerRequest).le
  have nothing (request : List UInt8) : ¬ ForeignMark [] request := fun foreign => List.not_mem_nil foreign.2
  exact ⟨fun all => nothing _ (backing_foreign [] (all [])), fun all => nothing _ (viewer_foreign [] (all [])),
    backing_foreign, viewer_foreign⟩

def viewerSample : List UInt8 := ascii "GET /live?channel=7&type=flv&token=k&src=10.0.0.1 HTTP/1.1\r\n\r\n"

theorem generated_requests_unread_sample :
    let header := (parseSimpleRosehttpHeader [] (cString viewerSample)).2
    let backing := cString (imitatedRequest header)
    let viewer := generateViewerRequest ⟨[], [], ascii "7", ascii "k", 0⟩
    ¬ ReadBack backing (ascii "7") (urlArg header "type") (urlArg header "token") ∧
      ¬ ReadBack viewer (ascii "7") (ascii "flv") (urlArg header "token") ∧
      (∀ behind, Recovers behind backing (ascii "7") (urlArg header "type") (urlArg header "token") →
        ForeignMark behind backing) ∧
      ∀ behind, Recovers behind viewer (ascii "7") (ascii "flv") (urlArg header "token") →
        ForeignMark behind viewer := by
  have admitted : admittedChannel [] viewerSample = some (ascii "7") := by decide +kernel
  exact generated_requests_unread admitted ⟨[], [], ascii "7", ascii "k", 0⟩ rfl (by decide +kernel)

/-- The streamer admits the sample, and answers both requests made from it with a format error. -/
theorem generated_requests_refused :
    admittedChannel [] viewerSample = some (ascii "7") ∧
      (parseSimpleRosehttpHeader [] (cString (imitatedRequest
        (parseSimpleRosehttpHeader [] (cString viewerSample)).2))).1 = streamFormatError ∧
      (parseSimpleRosehttpHeader [] (generateViewerRequest ⟨[], [], ascii "7", ascii "k", 0⟩)).1 = streamFormatError ∧
      ¬ ∀ request channel, admittedChannel [] request = some channel →
        let header := (parseSimpleRosehttpHeader [] (cString request)).2
        Recovers [] (cString (imitatedRequest header)) channel (urlArg header "type") (urlArg header "token") ∧
          Recovers [] (generateViewerRequest ⟨[], [], channel, urlArg header "token", 0⟩) channel (ascii "flv")
            (urlArg header "token") := by
  have admitted : admittedChannel [] viewerSample = some (ascii "7") := by decide +kernel
  have backing : (parseSimpleRosehttpHeader [] (cString (imitatedRequest
      (parseSimpleRosehttpHeader [] (cString viewerSample)).2))).1 = streamFormatError := by decide +kernel
  refine ⟨admitted, backing, by decide, fun all => ?_⟩
  have accepted := (all _ _ admitted).1.accepted
  rw [backing] at accepted
  exact absurd accepted (by decide)

end LiveStreaming.HappyHls
