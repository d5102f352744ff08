import LiveStreaming.Streamer.BackSourcePool
import LiveStreaming.Streamer.RoseHttp

/-!
# Answering a request

`receive_request_cb` reads one request and gives it to `do_camera_request` or `do_viewer_request`, which
may pass it on to `do_the_backing_source_request`. Every exit answers and closes on its own, in the
function called or in its caller, and the watcher of the request is stopped in any case.
-/

namespace LiveStreaming.Streamer
open Library Library.CString BackSource

def bufferSize : Nat := 1024

/-- What becomes of the descriptor of a request: a status is sent on it, it is closed, or it is given to
a work thread or put into a pool of viewers. -/
inductive Deed where
  | reply (status : Nat)
  | close
  | handOver
  deriving DecidableEq

def Deed.isReply : Deed → Bool
  | .reply _ => true
  | .close | .handOver => false

/-- The pools of the work threads. Of a camera its channel and the descriptors of its viewers matter. -/
structure Hosting where
  viewersLimit : Nat
  channelsLimit : Nat
  cameraInfoPool : Nat → OrderedMap (List UInt8) (Finset Nat)
  backSource : BackSource

/-- What one call meets: `memory` is what `request` holds before it is read into, `behind` what lies behind
`requestLine`, `localFd` is `none` where `tcp_connect` fails, `roundRobin` is the worker whose turn it is,
`pending` the flag of the worker that is asked, and `allocated` says whether `new` gives memory. -/
structure RequestCall where
  c : Nat
  requestFd : Nat
  evError : Bool
  memory : Nat → UInt8
  socket : List (Socket.ReadEvent UInt8)
  reads : Nat
  behind : List UInt8
  localFd : Option Nat
  roundRobin : Nat
  pending : Bool
  allocated : Bool

namespace RequestCall

def header (call : RequestCall) : HeaderRead := readRosehttpHeader bufferSize call.memory call.socket call.reads

/-- The request as a C string, where one has been received. -/
def request (call : RequestCall) : Option (List UInt8) :=
  match call.header.control with
  | .returned ret =>
    if call.evError ∨ ret ≤ 0 then none else some (cString ((List.range ret.toNat).map call.header.memory))
  | _ => none

end RequestCall

namespace Hosting

def start (viewersLimit channelsLimit workers : Nat) : Hosting :=
  ⟨viewersLimit, channelsLimit, fun _ => .empty, BackSource.start workers⟩

def setCamera (s : Hosting) (worker : Nat) (channel : List UInt8) (viewers : Finset Nat) : Hosting :=
  { s with cameraInfoPool := Function.update s.cameraInfoPool worker ((s.cameraInfoPool worker).set channel viewers) }

def cameraAlreadyIn (s : Hosting) (channel : List UInt8) : Bool :=
  (List.range s.backSource.workers).any fun worker => ((s.cameraInfoPool worker).find channel).isSome

/-- The loop of `do_viewer_request`: the first worker with a camera of the channel, and its viewers. -/
def findCamera (s : Hosting) (channel : List UInt8) : Option (Nat × Finset Nat) :=
  (List.range s.backSource.workers).findSome? fun worker =>
    ((s.cameraInfoPool worker).find channel).map fun viewers => (worker, viewers)

/-- Every channel with `is_camera`. -/
def getChannelList (s : Hosting) : List (List UInt8 × Bool) :=
  (List.range s.backSource.workers).flatMap fun worker =>
    (s.cameraInfoPool worker).entries.map (fun e => (e.1, true)) ++
      (s.backSource.resourceInfoPool worker).entries.map fun e => (e.1, false)

def doCameraRequest (s : Hosting) (call : RequestCall) (channel : List UInt8) : Bool × List Deed × Hosting :=
  if s.cameraAlreadyIn channel then (false, [.reply 400, .close], s)
  else if call.pending then (false, [], s)
  else if ¬ call.allocated then (false, [], s)
  else if ((s.cameraInfoPool call.roundRobin).find channel).isSome then (false, [], s)
  else (true, [.handOver], s.setCamera call.roundRobin channel ∅)

/-- The set into which `do_the_backing_source_request` puts the descriptor. -/
def relayPool (s : BackSource) (call : RequestCall) (channel : List UInt8) (pools : BackSource) : Finset Nat :=
  pools.socketfdPool ((s.resourceAlreadyIn channel).getD call.roundRobin) channel

def doViewerRequest (s : Hosting) (call : RequestCall) (header : SimpleRosehttpHeader) : Bool × List Deed × Hosting :=
  let channel := urlArg header "channel"
  if channel = [] then (false, [], s)
  else
    match s.findCamera channel with
    | some (worker, viewers) =>
      if viewers.card > s.viewersLimit then (false, [.reply 503, .close], s)
      else if call.requestFd ∈ viewers then (false, [.reply 500, .close], s)
      else if ¬ call.allocated then (false, [], s)
      else (true, [.handOver], s.setCamera worker channel (insert call.requestFd viewers))
    | none =>
      if urlArg header "src" = [] then (false, [.reply 404, .close], s)
      else if s.getChannelList.length > s.channelsLimit then (false, [.reply 503, .close], s)
      else
        match s.backSource.doTheBackingSourceRequest call.c header call.requestFd call.localFd call.roundRobin
          call.pending with
        | (done, backSource) =>
          if done then (true, [.handOver], { s with backSource })
          else
            -- the set keeps the descriptor when the request fails after the insertion
            let kept := call.requestFd ∈ relayPool s.backSource call channel backSource ∧
              call.requestFd ∉ relayPool s.backSource call channel s.backSource
            (false, (if kept then [.handOver] else []) ++ [.reply 500, .close],
              { s with backSource := { backSource with opened := backSource.opened.erase call.requestFd } })

/-- What `receive_request_cb` does with a request it has received. -/
def answerRequest (s : Hosting) (call : RequestCall) (request : List UInt8) : List Deed × Hosting :=
  let parsed := parseSimpleRosehttpHeader call.behind request
  if parsed.1 = streamFormatError then ([.reply 400], s)
  else
    let channel := urlArg parsed.2 "channel"
    let method := parsed.2.method
    if channel.isEmpty ∨ channel.length > maxChannelSize ∨ (method ≠ ascii "POST" ∧ method ≠ ascii "GET") then
      ([.reply 400, .close], s)
    else if method = ascii "POST" then
      if s.getChannelList.length > s.channelsLimit then ([.reply 503, .close], s)
      else
        match s.doCameraRequest call channel with
        | (true, deeds, s) => (deeds, s)
        | (false, deeds, s) => (deeds ++ [.reply 500, .close], s)
    else
      (s.doViewerRequest call parsed.2).2

/-- `none` while `read_rosehttp_header` has not returned. -/
def receiveRequestCb (s : Hosting) (call : RequestCall) : Option (List Deed × Hosting) :=
  if call.evError then some ([.reply 500, .close], s)
  else
    match call.header.control, call.request with
    | .returned _, some request => some (s.answerRequest call request)
    | .returned _, none => some ([.reply 400, .close], s)
    | _, _ => none

end Hosting

/-- At most one answer, and then one owner or one `close`. -/
structure Settled (deeds : List Deed) : Prop where
  answered : (deeds.filter Deed.isReply).length ≤ 1
  once : deeds.count .close + deeds.count .handOver = 1

namespace Hosting

/-- The channel a camera offers is new. -/
def OrderlyCamera (s : Hosting) (channel : List UInt8) : Prop :=
  s.getChannelList.length ≤ s.channelsLimit → s.cameraAlreadyIn channel = false

/-- A viewer of a camera finds memory, and a viewer whose channel is relayed already finds the worker
without a pending event, with a connection that the set of the channel does not have yet. -/
structure OrderlyViewer (s : Hosting) (call : RequestCall) (header : SimpleRosehttpHeader) : Prop where
  watching : ∀ worker viewers, s.findCamera (urlArg header "channel") = some (worker, viewers) →
    viewers.card ≤ s.viewersLimit → call.requestFd ∉ viewers → call.allocated
  relayed : ∀ worker, s.findCamera (urlArg header "channel") = none → urlArg header "src" ≠ [] →
    s.getChannelList.length ≤ s.channelsLimit → s.backSource.resourceAlreadyIn (urlArg header "channel") = some worker →
    call.requestFd ∉ s.backSource.socketfdPool worker (urlArg header "channel") → ∀ localFd ∈ call.localFd,
      localFd ∉ insert call.requestFd (s.backSource.socketfdPool worker (urlArg header "channel")) ∧
        call.pending = false

/-- The line parses, and the branch that is taken is one of those that settle the descriptor. -/
def OrderlyParsed (s : Hosting) (call : RequestCall) (parsed : Int × SimpleRosehttpHeader) : Prop :=
  parsed.1 ≠ streamFormatError ∧
    (urlArg parsed.2 "channel" ≠ [] → (urlArg parsed.2 "channel").length ≤ maxChannelSize →
      (parsed.2.method = ascii "POST" → s.OrderlyCamera (urlArg parsed.2 "channel")) ∧
        (parsed.2.method = ascii "GET" → s.OrderlyViewer call parsed.2))

def Orderly (s : Hosting) (call : RequestCall) : Prop :=
  ∀ request, call.request = some request → s.OrderlyParsed call (parseSimpleRosehttpHeader call.behind request)

end Hosting

variable {s : Hosting} {call : RequestCall}

theorem settled_reply_close (status : Nat) : Settled [.reply status, .close] where
  answered := Nat.le_refl 1
  once := by simp

theorem settled_handOver : Settled [.handOver] := ⟨by decide, by decide⟩

theorem not_settled_nil : ¬ Settled [] := fun settled => absurd settled.once (by decide)

theorem not_settled_reply (status : Nat) : ¬ Settled [.reply status] := by
  rintro ⟨_, once⟩
  simp at once

theorem not_settled_twice (first second : Nat) : ¬ Settled [.reply first, .close, .reply second, .close] := by
  rintro ⟨answered, _⟩
  exact absurd answered (Nat.not_succ_le_self 1)

theorem not_settled_kept (status : Nat) : ¬ Settled [.handOver, .reply status, .close] := by
  rintro ⟨_, once⟩
  simp at once

namespace Hosting

theorem answerCamera_settled {channel : List UInt8} {done : Bool} {deeds : List Deed} {s' : Hosting}
    (answered : s.doCameraRequest call channel = (done, deeds, s')) :
    Settled (if done then deeds else deeds ++ [.reply 500, .close]) ↔ s.cameraAlreadyIn channel = false := by
  unfold doCameraRequest at answered
  split at answered
  · next taken =>
    obtain ⟨rfl, rfl, rfl⟩ : _ ∧ _ ∧ _ := by simpa using answered
    simp [taken, not_settled_twice]
  · next free =>
    rw [Bool.not_eq_true] at free
    refine iff_of_true ?_ free
    split at answered
    · obtain ⟨rfl, rfl, rfl⟩ : _ ∧ _ ∧ _ := by simpa using answered
      exact settled_reply_close 500
    · split at answered
      · obtain ⟨rfl, rfl, rfl⟩ : _ ∧ _ ∧ _ := by simpa using answered
        exact settled_reply_close 500
      · split at answered
        · obtain ⟨rfl, rfl, rfl⟩ : _ ∧ _ ∧ _ := by simpa using answered
          exact settled_reply_close 500
        · obtain ⟨rfl, rfl, rfl⟩ : _ ∧ _ ∧ _ := by simpa using answered
          exact settled_handOver

/-- What `do_the_backing_source_request` does to the sets: nothing, or the two descriptors are in a set of
their own or have joined the one that the channel has. -/
inductive Relayed (s : BackSource) (call : RequestCall) (channel : List UInt8) (done : Bool) (pools : BackSource) :
    Prop where
  | refused (unconnected : call.localFd = none ∨ s.resourceAlreadyIn channel = none) (failed : done = false)
      (same : pools.resourceInfoPool = s.resourceInfoPool)
  | opened (localFd : Nat) (connected : call.localFd = some localFd) (fresh : s.resourceAlreadyIn channel = none)
      (started : done = true)
      (own : pools.resourceInfoPool =
        (s.setResource call.roundRobin channel {call.requestFd, localFd}).resourceInfoPool)
  | joined (localFd worker : Nat) (connected : call.localFd = some localFd)
      (has : s.resourceAlreadyIn channel = some worker)
      (started : done = decide (call.requestFd ∉ s.socketfdPool worker channel ∧
        localFd ∉ insert call.requestFd (s.socketfdPool worker channel) ∧ call.pending = false))
      (shared : pools.resourceInfoPool = (s.setResource worker channel
        (insert localFd (insert call.requestFd (s.socketfdPool worker channel)))).resourceInfoPool)

theorem doTheBackingSourceRequest_relayed {b pools : BackSource} {header : SimpleRosehttpHeader}
    (sourced : urlArg header "src" ≠ []) (named : urlArg header "channel" ≠ []) {done : Bool}
    (relayed : b.doTheBackingSourceRequest call.c header call.requestFd call.localFd call.roundRobin call.pending =
      (done, pools)) : Relayed b call (urlArg header "channel") done pools := by
  unfold doTheBackingSourceRequest at relayed
  rw [if_neg (by simp [sourced, named])] at relayed
  split at relayed
  · next refused =>
    obtain ⟨rfl, rfl⟩ := Prod.mk.inj relayed
    exact .refused (.inl refused) rfl rfl
  · next localFd connected =>
    dsimp only at relayed
    split at relayed
    · next fresh =>
      split at relayed
      · obtain ⟨rfl, rfl⟩ := Prod.mk.inj relayed
        exact .refused (.inr fresh) rfl rfl
      · obtain ⟨rfl, rfl⟩ := Prod.mk.inj relayed
        exact .opened localFd connected fresh rfl rfl
    · next worker has =>
      split at relayed
      · next known =>
        obtain ⟨rfl, rfl⟩ := Prod.mk.inj relayed
        refine .joined localFd worker connected has ?_ rfl
        exact (decide_eq_false fun free => known.elim free.1 free.2.1).symm
      · next free =>
        obtain ⟨stale, known⟩ := not_or.mp free
        split at relayed
        · next pending =>
          obtain ⟨rfl, rfl⟩ := Prod.mk.inj relayed
          refine .joined localFd worker connected has ?_ rfl
          exact (decide_eq_false fun clear => absurd (clear.2.2.symm.trans pending) (by decide)).symm
        · next clear =>
          obtain ⟨rfl, rfl⟩ := Prod.mk.inj relayed
          refine .joined localFd worker connected has ?_ rfl
          exact (decide_eq_true ⟨stale, known, Bool.eq_false_iff.mpr clear⟩).symm

theorem socketfdPool_congr {b pools : BackSource} (same : pools.resourceInfoPool = b.resourceInfoPool) (worker : Nat)
    (channel : List UInt8) : pools.socketfdPool worker channel = b.socketfdPool worker channel := by
  unfold socketfdPool
  rw [same]

theorem relay_settled {b pools : BackSource} {channel : List UInt8} {done : Bool}
    (relayed : Relayed b call channel done pools) :
    Settled (if done then [.handOver] else
      (if call.requestFd ∈ relayPool b call channel pools ∧ call.requestFd ∉ relayPool b call channel b then [.handOver]
        else []) ++ [.reply 500, .close]) ↔
      ∀ worker, b.resourceAlreadyIn channel = some worker → call.requestFd ∉ b.socketfdPool worker channel →
        ∀ localFd ∈ call.localFd, localFd ∉ insert call.requestFd (b.socketfdPool worker channel) ∧
          call.pending = false := by
  cases relayed with
  | refused unconnected failed same =>
    have kept : relayPool b call channel pools = relayPool b call channel b := socketfdPool_congr same _ _
    rw [failed, if_neg Bool.false_ne_true, kept, if_neg fun entered => entered.2 entered.1]
    refine iff_of_true (settled_reply_close 500) fun worker has _ localFd connected => ?_
    rcases unconnected with none | none
    · simp [none] at connected
    · simp [none] at has
  | opened localFd _ fresh started own =>
    rw [started, if_pos rfl]
    exact iff_of_true settled_handOver fun worker has => by simp [fresh] at has
  | joined localFd worker connected has started shared =>
    have before : relayPool b call channel b = b.socketfdPool worker channel := by
      rw [relayPool, has, Option.getD_some]
    have after : relayPool b call channel pools = insert localFd
      (insert call.requestFd (b.socketfdPool worker channel)) := by
      rw [relayPool, has, Option.getD_some, socketfdPool_congr shared, socketfdPool_setResource, if_pos ⟨rfl, rfl⟩]
    have enters : call.requestFd ∈ insert localFd (insert call.requestFd (b.socketfdPool worker channel)) :=
      Finset.mem_insert_of_mem (Finset.mem_insert_self _ _)
    rw [started, before, after, connected]
    by_cases stale : call.requestFd ∈ b.socketfdPool worker channel
    · rw [decide_eq_false fun free => free.1 stale, if_neg Bool.false_ne_true, if_neg fun entered => entered.2 stale]
      refine iff_of_true (settled_reply_close 500) fun other known free => ?_
      obtain rfl := Option.some.inj (has.symm.trans known)
      exact absurd stale free
    · by_cases free : localFd ∉ insert call.requestFd (b.socketfdPool worker channel) ∧ call.pending = false
      · rw [decide_eq_true ⟨stale, free⟩, if_pos rfl]
        refine iff_of_true settled_handOver fun other known _ fd same => ?_
        obtain rfl := Option.some.inj (has.symm.trans known)
        obtain rfl := Option.some.inj same
        exact free
      · rw [decide_eq_false fun all => free all.2, if_neg Bool.false_ne_true, if_pos ⟨enters, stale⟩]
        exact iff_of_false (not_settled_kept 500) fun orderly => free (orderly worker has stale localFd rfl)

theorem doViewerRequest_settled {header : SimpleRosehttpHeader} (named : urlArg header "channel" ≠ []) :
    Settled (s.doViewerRequest call header).2.1 ↔ s.OrderlyViewer call header := by
  unfold doViewerRequest
  dsimp only
  rw [if_neg named]
  split
  · next worker viewers found =>
    have only : s.OrderlyViewer call header ↔
        (viewers.card ≤ s.viewersLimit → call.requestFd ∉ viewers → call.allocated) := by
      constructor
      · exact fun orderly => orderly.watching worker viewers found
      · refine fun allocated => ⟨fun w v known => ?_, fun _ absent => ?_⟩
        · obtain ⟨rfl, rfl⟩ := Prod.mk.inj (Option.some.inj (found.symm.trans known))
          exact allocated
        · rw [found] at absent
          cases absent
    rw [only]
    split
    · next full => exact iff_of_true (settled_reply_close 503) fun room => absurd full (Nat.not_lt.mpr room)
    · next room =>
      split
      · next taken => exact iff_of_true (settled_reply_close 500) fun _ free => absurd taken free
      · next free =>
        split
        · next failed =>
          exact iff_of_false not_settled_nil fun allocated => failed (allocated (Nat.not_lt.mp room) free)
        · next allocated => exact iff_of_true settled_handOver fun _ _ => not_not.mp allocated
  · next absent =>
    have only : s.OrderlyViewer call header ↔ (urlArg header "src" ≠ [] → s.getChannelList.length ≤ s.channelsLimit →
        ∀ worker, s.backSource.resourceAlreadyIn (urlArg header "channel") = some worker →
          call.requestFd ∉ s.backSource.socketfdPool worker (urlArg header "channel") → ∀ localFd ∈ call.localFd,
            localFd ∉ insert call.requestFd (s.backSource.socketfdPool worker (urlArg header "channel")) ∧
              call.pending = false) := by
      constructor
      · exact fun orderly sourced room worker => orderly.relayed worker absent sourced room
      · refine fun relayed => ⟨fun w v found => ?_, fun worker _ sourced room => relayed sourced room worker⟩
        rw [absent] at found
        cases found
    rw [only]
    split
    · next sourceless => exact iff_of_true (settled_reply_close 404) fun sourced => absurd sourceless sourced
    · next sourced =>
      split
      · next full => exact iff_of_true (settled_reply_close 503) fun _ room => absurd full (Nat.not_lt.mpr room)
      · next room =>
        generalize asked : s.backSource.doTheBackingSourceRequest call.c header call.requestFd call.localFd
          call.roundRobin call.pending = result
        obtain ⟨done, pools⟩ := result
        have settled := relay_settled (doTheBackingSourceRequest_relayed sourced named asked)
        rw [imp_iff_right sourced, imp_iff_right (Nat.not_lt.mp room), ← settled]
        cases done <;> rfl

theorem answerRequest_settled (request : List UInt8) : Settled (s.answerRequest call request).1 ↔
    s.OrderlyParsed call (parseSimpleRosehttpHeader call.behind request) := by
  unfold answerRequest OrderlyParsed
  dsimp only
  generalize parseSimpleRosehttpHeader call.behind request = parsed
  split
  · next format => exact iff_of_false (not_settled_reply 400) fun orderly => orderly.1 format
  · next format =>
    rw [and_iff_right format]
    split
    · next bad =>
      refine iff_of_true (settled_reply_close 400) fun named short => ?_
      rcases bad with unnamed | long | other
      · exact absurd (List.isEmpty_iff.mp unnamed) named
      · exact absurd long (Nat.not_lt.mpr short)
      · exact ⟨fun post => absurd post other.1, fun get => absurd get other.2⟩
    · next good =>
      simp only [not_or, not_and_or, not_not, List.isEmpty_iff] at good
      obtain ⟨named, short, method⟩ := good
      rw [imp_iff_right named, imp_iff_right (Nat.not_lt.mp short)]
      split
      · next post =>
        have notGet : parsed.2.method ≠ ascii "GET" := by
          rw [post]
          decide
        rw [imp_iff_right post, and_iff_left fun get => absurd get notGet]
        unfold OrderlyCamera
        split
        · next full => exact iff_of_true (settled_reply_close 503) fun room => absurd full (Nat.not_lt.mpr room)
        · next room =>
          rw [imp_iff_right (Nat.not_lt.mp room)]
          split
          · next deeds s' answered => exact answerCamera_settled answered
          · next deeds s' answered => exact answerCamera_settled answered
      · next notPost =>
        rw [imp_iff_right (method.resolve_left notPost), and_iff_right fun post => absurd post notPost]
        exact doViewerRequest_settled named

/-- Which calls settle the descriptor of their request. -/
theorem receiveRequestCb_settled {deeds : List Deed} {s' : Hosting}
    (returned : s.receiveRequestCb call = some (deeds, s')) : Settled deeds ↔ s.Orderly call := by
  have unread (none : call.request = none) : s.Orderly call := by
    intro request received
    rw [none] at received
    cases received
  unfold receiveRequestCb at returned
  split at returned
  · next failed =>
    obtain ⟨rfl, rfl⟩ := Prod.mk.inj (Option.some.inj returned)
    refine iff_of_true (settled_reply_close 500) (unread ?_)
    unfold RequestCall.request
    split
    · rw [if_pos (.inl failed)]
    · rfl
  · split at returned
    · next ret request _ received =>
      have answer := @answerRequest_settled s call request
      rw [Option.some.inj returned] at answer
      rw [answer]
      refine ⟨fun orderly other same => ?_, fun orderly => orderly request received⟩
      rwa [← Option.some.inj (received.symm.trans same)]
    · next none =>
      obtain ⟨rfl, rfl⟩ := Prod.mk.inj (Option.some.inj returned)
      exact iff_of_true (settled_reply_close 400) (unread none)
    · cases returned

def sampleCall (text : String) : RequestCall where
  c := 0
  requestFd := 9
  evError := false
  memory := fun _ => 0
  socket := match ascii text with
    | [] => []
    | b :: bs => [.data b bs]
  reads := text.length
  behind := []
  localFd := none
  roundRobin := 0
  pending := false
  allocated := true

def cameraOffer : RequestCall := sampleCall "POST /live?channel=7 HTTP/1.1\r\n\r\n"

theorem receiveRequestCb_settled_sample :
    ∃ deeds s', (start 2 2 1).receiveRequestCb cameraOffer = some (deeds, s') ∧
      (Settled deeds ↔ (start 2 2 1).Orderly cameraOffer) := by
  have returned : ((start 2 2 1).receiveRequestCb cameraOffer).isSome := by decide
  obtain ⟨⟨deeds, s'⟩, equal⟩ := Option.isSome_iff_exists.mp returned
  exact ⟨deeds, s', equal, receiveRequestCb_settled equal⟩

/-- A line without a blank is answered and left open; the second camera of a channel is answered and closed
twice. -/
theorem requests_not_settled :
    ((start 2 2 1).receiveRequestCb (sampleCall "x\r\n\r\n")).map Prod.fst = some [.reply 400] ∧
      (((start 2 2 1).setCamera 0 (ascii "7") ∅).receiveRequestCb cameraOffer).map Prod.fst =
        some [.reply 400, .close, .reply 500, .close] ∧
      ¬ ∀ (s : Hosting) call deeds s', s.receiveRequestCb call = some (deeds, s') → Settled deeds := by
  have unclosed : ((start 2 2 1).receiveRequestCb (sampleCall "x\r\n\r\n")).map Prod.fst = some [.reply 400] := by
    decide
  refine ⟨unclosed, by decide +kernel, fun settled => ?_⟩
  obtain ⟨⟨deeds, s'⟩, returned, rfl⟩ := Option.map_eq_some_iff.mp unclosed
  exact not_settled_reply 400 (settled _ _ _ _ returned)

end Hosting

end LiveStreaming.Streamer
