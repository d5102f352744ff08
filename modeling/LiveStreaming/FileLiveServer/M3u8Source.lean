import LiveStreaming.Library.CString
import LiveStreaming.Library.RoundRobin
import LiveStreaming.Library.Transition
import LiveStreaming.Streamer.ChannelRequest
import LiveStreaming.Streamer.RoseHttp

/-!
# Recorded channels as live ones

A thread reads playlists from a directory, round after round, and moves each that it knows one segment on. A
request is answered with four segments from there on. At the end of a source the position starts again.
-/

namespace LiveStreaming.FileLiveServer
open Library Library.CString Library.TextLines Streamer

/-- The entries of `SERVER_CONFIG.server` that the server reads. -/
structure ServerConfig where
  mediaType : List UInt8
  mediaSourceDomain : List UInt8
  ngxRoot : List UInt8

structure M3u8 where
  header : List UInt8
  tsUrlPool : List (List UInt8)
  pos : Nat
  deriving DecidableEq

def m3u8Header : List UInt8 := ascii "#EXTM3U\r\n#EXT-X-VERSION:3\r\n"

def isTargetDuration (line : List UInt8) : Bool := (strstr (ascii "#EXT-X-TARGETDURATION:") line).isSome

def isExtinf (line : List UInt8) : Bool := (ascii "#EXTINF:").isPrefixOf line

def absUrl (config : ServerConfig) (line : List UInt8) : List UInt8 :=
  ascii "http://" ++ config.mediaSourceDomain ++ ascii "/" ++ line

/-- The loop over the lines of a source. -/
def readM3u8 (config : ServerConfig) : M3u8 → List (List UInt8) → M3u8
  | m3u8, [] => m3u8
  | m3u8, line :: lines =>
    let m3u8 := if isTargetDuration line then { m3u8 with header := m3u8.header ++ line } else m3u8
    if isExtinf line then
      match lines with
      | [] => m3u8
      | url :: lines =>
        if (ascii "#EXT").isPrefixOf url then readM3u8 config m3u8 lines
        else readM3u8 config { m3u8 with tsUrlPool := m3u8.tsUrlPool ++ [line ++ absUrl config url] } lines
    else readM3u8 config m3u8 lines

structure Playlist where
  header : List UInt8
  mediaSequence : Nat
  tsUrls : List (List UInt8)
  deriving DecidableEq

/-- What a request comes to. A `fault` is an index outside the list, a division by zero or an `int` that
overflows. -/
inductive Reply where
  | status (code : Nat)
  | closed
  | playlist (p : Playlist)
  | fault
  deriving DecidableEq

structure Served where
  client : Nat
  source : List UInt8
  tsUrlPool : List (List UInt8)
  reply : Reply

/-- `gM3u8Pool`, the round of `obtainM3u8Source` that is going on, and what has been served. -/
structure Server where
  pool : Pool (List UInt8) M3u8
  count : Nat
  served : List Served
  crashed : Bool

def started : Server := ⟨∅, 0, [], false⟩

inductive Action where
  | opendir
  | readdir (name content : List UInt8)
  | request (client : Nat) (behind : List UInt8) (received : Option (List UInt8))

def isMedia (config : ServerConfig) (name : List UInt8) : Bool :=
  (strstr (if config.mediaType = [] then ascii "m3u8" else config.mediaType) name).isSome

/-- An entry that `obtainM3u8Source` comes to. With the fifth new playlist it leaves its loop. -/
def obtainM3u8Source (config : ServerConfig) (s : Server) (name content : List UInt8) : Server :=
  if s.count = 5 ∨ isMedia config name = false then s
  else
    match s.pool.lookup name with
    | none =>
      { s with
        pool := s.pool.insert name (readM3u8 config ⟨m3u8Header, [], 0⟩ (fgetsLines 1024 content))
        count := s.count + 1 }
    | some m3u8 =>
      if m3u8.tsUrlPool = [] then { s with crashed := true }
      else { s with pool := s.pool.insert name { m3u8 with pos := (m3u8.pos + 1) % m3u8.tsUrlPool.length } }

def serve (m3u8 : M3u8) : Reply :=
  let tsUrlPos := toInt m3u8.pos
  if tsUrlPos < 0 ∨ 2147483647 < tsUrlPos + 3 then .fault
  else
    match m3u8.tsUrlPool[tsUrlPos.toNat]? with
    | none => .fault
    | some tsUrl =>
      let next := fun i => m3u8.tsUrlPool.getD ((tsUrlPos.toNat + i) % m3u8.tsUrlPool.length) []
      .playlist ⟨m3u8.header, tsUrlPos.toNat, [tsUrl, next 1, next 2, next 3]⟩

/-- Behind the last `/`. -/
def requestedSource (serverPath : List UInt8) : List UInt8 := (serverPath.reverse.takeWhile (· != 47)).reverse

/-- The source that a request asks for, where its header can be read and parsed. -/
def askedSource (behind : List UInt8) (received : Option (List UInt8)) : Option (List UInt8) :=
  received.bind fun request =>
    let parsed := parseSimpleRosehttpHeader behind (cString request)
    if parsed.1 = ok then some (requestedSource parsed.2.serverPath) else none

def refusal (behind : List UInt8) (received : Option (List UInt8)) : Reply :=
  match received with
  | none => .status 400
  | some request =>
    if (parseSimpleRosehttpHeader behind (cString request)).1 = streamFormatError then .status 400 else .closed

def requestCallback (s : Server) (client : Nat) (behind : List UInt8) (received : Option (List UInt8)) : Served :=
  match askedSource behind received with
  | none => ⟨client, [], [], refusal behind received⟩
  | some source =>
    match s.pool.lookup source with
    -- the connection is closed before the status is written to it
    | none => ⟨client, source, [], .closed⟩
    | some m3u8 => ⟨client, source, m3u8.tsUrlPool, serve m3u8⟩

def step (config : ServerConfig) (s : Server) (action : Action) : Option Server :=
  if s.crashed then none
  else
    match action with
    | .opendir => some { s with count := 0 }
    | .readdir name content => some (obtainM3u8Source config s name content)
    | .request client behind received =>
      let served := requestCallback s client behind received
      some { s with served := s.served ++ [served], crashed := decide (served.reply = .fault) }

/-- Segments at places of their own, each behind the one before it; behind the last comes the first again. -/
def Consecutive (tsUrlPool listed : List (List UInt8)) : Prop :=
  ∃ first < tsUrlPool.length, listed.length ≤ tsUrlPool.length ∧ listed = (tsUrlPool.rotate first).take listed.length

structure Sound (served : List Served) : Prop where
  faultless : ∀ r ∈ served, r.reply ≠ .fault
  consecutive : ∀ r ∈ served, ∀ p, r.reply = .playlist p → Consecutive r.tsUrlPool p.tsUrls
  ordered : served.Pairwise fun a b => a.client = b.client → a.source = b.source →
    ∀ p q, a.reply = .playlist p → b.reply = .playlist q → p.mediaSequence ≤ q.mediaSequence

/-- A channel is asked for while it has four segments at least and a position that an `int` holds, and is not
moved on from its last segment. -/
def Allowed (config : ServerConfig) (s : Server) : Action → Prop
  | .opendir => True
  | .readdir name _ =>
    s.count ≠ 5 ∧ isMedia config name = true → ∀ m3u8 ∈ s.pool.lookup name, m3u8.pos + 1 < m3u8.tsUrlPool.length
  | .request _ behind received => ∀ source ∈ askedSource behind received, ∀ m3u8 ∈ s.pool.lookup source,
    4 ≤ m3u8.tsUrlPool.length ∧ m3u8.pos + 3 < 2147483648

theorem readM3u8_pos (config : ServerConfig) (m3u8 : M3u8) (lines : List (List UInt8)) :
    (readM3u8 config m3u8 lines).pos = m3u8.pos := by
  fun_induction readM3u8 config m3u8 lines with
  | case1 m3u8 => rfl
  | case2 m3u8 line m3u8' extinf =>
    unfold m3u8'
    split <;> rfl
  | case3 m3u8 line m3u8' extinf url lines tag ih =>
    rw [ih]
    unfold m3u8'
    split <;> rfl
  | case4 m3u8 line m3u8' extinf url lines segment ih =>
    rw [ih]
    unfold m3u8'
    split <;> rfl
  | case5 m3u8 line lines m3u8' other ih =>
    rw [ih]
    unfold m3u8'
    split <;> rfl

theorem toInt_pos {pos : Nat} (small : pos + 3 < 2147483648) : toInt pos = pos := toInt_of_lt (by omega)

/-- The window that is served from a position within the list. -/
theorem serve_playlist {m3u8 : M3u8} (inside : m3u8.pos < m3u8.tsUrlPool.length) (four : 4 ≤ m3u8.tsUrlPool.length)
    (small : m3u8.pos + 3 < 2147483648) :
    ∃ p, serve m3u8 = .playlist p ∧ p.mediaSequence = m3u8.pos ∧ Consecutive m3u8.tsUrlPool p.tsUrls := by
  unfold serve
  dsimp only
  rw [toInt_pos small, if_neg (by omega), Int.toNat_natCast, List.getElem?_eq_getElem inside]
  refine ⟨_, rfl, rfl, m3u8.pos, inside, four, ?_⟩
  refine Eq.trans ?_ (RoundRobin.take_rotate four m3u8.pos []).symm
  have first : m3u8.tsUrlPool[m3u8.pos] = m3u8.tsUrlPool.getD ((m3u8.pos + 0) % m3u8.tsUrlPool.length) [] := by
    rw [Nat.add_zero, Nat.mod_eq_of_lt inside, List.getD_eq_getElem?_getD, List.getElem?_eq_getElem inside,
      Option.getD_some]
  rw [first]
  rfl

/-- What a run of allowed steps keeps. No client has been served a channel from behind its position. -/
structure Kept (s : Server) : Prop where
  inside : ∀ name, ∀ m3u8 ∈ s.pool.lookup name, m3u8.tsUrlPool = [] ∨ m3u8.pos < m3u8.tsUrlPool.length
  behind : ∀ r ∈ s.served, ∀ p, r.reply = .playlist p → ∃ m3u8 ∈ s.pool.lookup r.source, p.mediaSequence ≤ m3u8.pos
  sound : Sound s.served

theorem started_kept : Kept started := by
  refine ⟨?_, ?_, ?_, ?_, .nil⟩
  · intro name m3u8 member
    cases member
  all_goals
    intro r member
    cases member

variable {config : ServerConfig} {s : Server}

theorem obtainM3u8Source_kept {name content : List UInt8} (kept : Kept s)
    (allowed : Allowed config s (.readdir name content)) : Kept (obtainM3u8Source config s name content) := by
  obtain ⟨inside, behind, sound⟩ := id kept
  unfold obtainM3u8Source
  split
  · exact kept
  · next going =>
    rw [not_or, Bool.not_eq_false] at going
    have allowed := allowed going
    split
    · next absent =>
      refine ⟨?_, ?_, sound⟩
      · intro other m3u8 member
        by_cases same : other = name
        · subst same
          rw [AList.lookup_insert] at member
          obtain rfl := Option.some.inj member
          rw [readM3u8_pos]
          exact or_iff_not_imp_left.mpr List.length_pos_of_ne_nil
        · rw [AList.lookup_insert_ne same] at member
          exact inside other m3u8 member
      · intro r member p playlist
        obtain ⟨m3u8, found, before⟩ := behind r member p playlist
        have other : r.source ≠ name := by
          intro same
          rw [same, absent] at found
          cases found
        exact ⟨m3u8, by rwa [AList.lookup_insert_ne other], before⟩
    · next m3u8 present =>
      have further := allowed m3u8 present
      split
      · next empty =>
        rw [empty] at further
        exact absurd further (Nat.not_lt_zero _)
      · rw [Nat.mod_eq_of_lt further]
        refine ⟨?_, ?_, sound⟩
        · intro other m3u8' member
          by_cases same : other = name
          · subst same
            rw [AList.lookup_insert] at member
            obtain rfl := Option.some.inj member
            exact .inr further
          · rw [AList.lookup_insert_ne same] at member
            exact inside other m3u8' member
        · intro r member p playlist
          obtain ⟨m3u8', found, before⟩ := behind r member p playlist
          by_cases same : r.source = name
          · rw [same, present] at found
            obtain rfl := Option.some.inj found
            exact ⟨_, by rw [same]; exact AList.lookup_insert _, Nat.le_succ_of_le before⟩
          · exact ⟨m3u8', by rwa [AList.lookup_insert_ne same], before⟩

/-- A reply that is not from a channel is no playlist and no fault. -/
theorem refusal_plain (behind : List UInt8) (received : Option (List UInt8)) :
    refusal behind received ≠ .fault ∧ ∀ p, refusal behind received ≠ .playlist p := by
  unfold refusal
  split
  · exact ⟨Reply.noConfusion, fun _ => Reply.noConfusion⟩
  · split <;> exact ⟨Reply.noConfusion, fun _ => Reply.noConfusion⟩

/-- A request that is allowed: a refusal, or a playlist from the channel's position. -/
theorem requestCallback_allowed {client : Nat} {behind : List UInt8} {received : Option (List UInt8)} (kept : Kept s)
    (allowed : Allowed config s (.request client behind received)) :
    (requestCallback s client behind received).reply ≠ .fault ∧
      ∀ p, (requestCallback s client behind received).reply = .playlist p →
        Consecutive (requestCallback s client behind received).tsUrlPool p.tsUrls ∧
          ∃ m3u8 ∈ s.pool.lookup (requestCallback s client behind received).source, p.mediaSequence = m3u8.pos := by
  cases asked : askedSource behind received with
  | none =>
    have call : requestCallback s client behind received = ⟨client, [], [], refusal behind received⟩ := by
      simp only [requestCallback, asked]
    obtain ⟨fault, playlist⟩ := refusal_plain behind received
    rw [call]
    exact ⟨fault, fun p served => absurd served (playlist p)⟩
  | some source =>
    cases present : s.pool.lookup source with
    | none =>
      have call : requestCallback s client behind received = ⟨client, source, [], .closed⟩ := by
        simp only [requestCallback, asked, present]
      rw [call]
      exact ⟨Reply.noConfusion, fun p served => Reply.noConfusion served⟩
    | some m3u8 =>
      obtain ⟨four, small⟩ := allowed source asked m3u8 present
      have inside : m3u8.pos < m3u8.tsUrlPool.length := by
        refine (kept.inside source m3u8 present).resolve_left ?_
        intro empty
        rw [empty] at four
        cases four
      obtain ⟨p, served, sequence, consecutive⟩ := serve_playlist inside four small
      have call : requestCallback s client behind received = ⟨client, source, m3u8.tsUrlPool, .playlist p⟩ := by
        simp only [requestCallback, asked, present, served]
      rw [call]
      refine ⟨Reply.noConfusion, fun q same => ?_⟩
      obtain rfl := Reply.playlist.inj same
      exact ⟨consecutive, m3u8, present, sequence⟩

theorem request_kept {client : Nat} {behind : List UInt8} {received : Option (List UInt8)} (kept : Kept s)
    (allowed : Allowed config s (.request client behind received)) (crashed : Bool) :
    Kept { s with served := s.served ++ [requestCallback s client behind received], crashed := crashed } := by
  obtain ⟨faultless, playlist⟩ := requestCallback_allowed kept allowed
  obtain ⟨inside, before, sound⟩ := kept
  refine ⟨inside, ?_, ?_, ?_, ?_⟩
  · intro r member p served
    rcases List.mem_append.mp member with old | new
    · exact before r old p served
    · obtain rfl := List.mem_singleton.mp new
      obtain ⟨_, m3u8, present, sequence⟩ := playlist p served
      exact ⟨m3u8, present, sequence.le⟩
  · intro r member
    rcases List.mem_append.mp member with old | new
    · exact sound.faultless r old
    · obtain rfl := List.mem_singleton.mp new
      exact faultless
  · intro r member p served
    rcases List.mem_append.mp member with old | new
    · exact sound.consecutive r old p served
    · obtain rfl := List.mem_singleton.mp new
      exact (playlist p served).1
  · refine List.pairwise_append.mpr ⟨sound.ordered, List.pairwise_singleton _ _, ?_⟩
    intro a old b new _ source p q first second
    obtain rfl := List.mem_singleton.mp new
    obtain ⟨m3u8, present, earlier⟩ := before a old p first
    obtain ⟨_, m3u8', present', sequence⟩ := playlist q second
    rw [source] at present
    obtain rfl := Option.mem_unique present present'
    rw [sequence]
    exact earlier

theorem step_kept {s' : Server} {action : Action} (kept : Kept s) (allowed : Allowed config s action)
    (next : step config s action = some s') : Kept s' := by
  unfold step at next
  split at next
  · cases next
  · cases action with
    | opendir =>
      obtain rfl := Option.some.inj next
      exact ⟨kept.inside, kept.behind, kept.sound⟩
    | readdir name content =>
      obtain rfl := Option.some.inj next
      exact obtainM3u8Source_kept kept allowed
    | request client behind received =>
      obtain rfl := Option.some.inj next
      exact request_kept kept allowed _

/-- A run of allowed steps serves live windows: none faults, each lists segments in a row, and no client goes
back. -/
theorem requestCallback_sound (config : ServerConfig) {s : Server}
    (run : Transition.Reach (step config) (Allowed config) started s) : Sound s.served :=
  (run.invariant started_kept fun _ _ _ => step_kept).sound

def sampleConfig : ServerConfig := ⟨[], ascii "cdn", ascii "/hls"⟩

def sampleName : List UInt8 := ascii "a.m3u8"

/-- A source of `n` segments. -/
def sampleSource (n : Nat) : List UInt8 := (List.replicate n (ascii "#EXTINF:9,\na.ts\n")).flatten

def sampleRequest : Action := .request 0 [] (some (ascii "GET /a.m3u8 HTTP/1.1\r\n\r\n"))

/-- The server when it has read the source. -/
def sampleServer (n : Nat) : Server :=
  obtainM3u8Source sampleConfig { started with count := 0 } sampleName (sampleSource n)

theorem requestCallback_sound_sample :
    ∃ s, step sampleConfig (sampleServer 5) sampleRequest = some s ∧ s.served.length = 1 ∧ Sound s.served := by
  have opened : Transition.Reach (step sampleConfig) (Allowed sampleConfig) started { started with count := 0 } :=
    .tail (e := .opendir) .refl trivial rfl
  have first : Allowed sampleConfig { started with count := 0 } (.readdir sampleName (sampleSource 5)) := by
    rintro - m3u8 member
    cases member
  have asked : askedSource [] (some (ascii "GET /a.m3u8 HTTP/1.1\r\n\r\n")) = some sampleName := by decide
  have wide : ∀ m3u8 ∈ (sampleServer 5).pool.lookup sampleName,
      4 ≤ m3u8.tsUrlPool.length ∧ m3u8.pos + 3 < 2147483648 := by decide +kernel
  have second : Allowed sampleConfig (sampleServer 5) sampleRequest := by
    intro source member
    obtain rfl := Option.mem_unique member asked
    exact wide
  refine ⟨_, rfl, rfl, requestCallback_sound sampleConfig (.tail (e := sampleRequest) ?_ second rfl)⟩
  exact .tail (e := .readdir sampleName (sampleSource 5)) opened first rfl

def sampleRound : List Action := [.opendir, .readdir sampleName []]

/-- The replies behind some rounds and requests. -/
def sampleReplies (n : Nat) (actions : List Action) : Option (List Reply) :=
  (Transition.exec (step sampleConfig) (sampleServer n) actions).map fun s => s.served.map Served.reply

def mediaSequence : Reply → Option Nat
  | .playlist p => some p.mediaSequence
  | _ => none

/-- A source without a segment, one with a single segment, and the end of a source of four. -/
theorem live_window_breaks :
    sampleReplies 0 [sampleRequest] = some [.fault] ∧
      sampleReplies 1 [sampleRequest] =
        some [.playlist ⟨m3u8Header, 0, List.replicate 4 (ascii "#EXTINF:9,\nhttp://cdn/a.ts\n")⟩] ∧
      (sampleReplies 4 (sampleRound ++ sampleRound ++ sampleRound ++ [sampleRequest] ++ sampleRound ++
        [sampleRequest])).map (List.map mediaSequence) = some [some 3, some 0] ∧
      ¬ ∀ config s, Transition.Reach (step config) (fun _ _ => True) started s → Sound s.served := by
  refine ⟨by decide +kernel, by decide +kernel, by decide +kernel, fun all => ?_⟩
  have faults : sampleReplies 0 [sampleRequest] = some [.fault] := by decide +kernel
  obtain ⟨s, ran, replies⟩ := Option.map_eq_some_iff.mp faults
  have opened : Transition.Reach (step sampleConfig) (fun _ _ => True) started { started with count := 0 } :=
    .tail (e := .opendir) .refl trivial rfl
  have read : Transition.Reach (step sampleConfig) (fun _ _ => True) started (sampleServer 0) :=
    .tail (e := .readdir sampleName (sampleSource 0)) opened trivial rfl
  have sound := all sampleConfig s (Transition.reach_of_exec read (fun _ _ _ => trivial) ran)
  have member : Reply.fault ∈ s.served.map Served.reply := by
    rw [replies]
    exact List.mem_singleton_self _
  obtain ⟨r, served, fault⟩ := List.mem_map.mp member
  exact sound.faultless r served fault

end LiveStreaming.FileLiveServer
