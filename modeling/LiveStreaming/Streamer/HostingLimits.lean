import LiveStreaming.Library.Transition
import LiveStreaming.Streamer.ReceiveRequest

/-!
# The limits of channels and viewers

Cameras, their viewers and relayed viewers come through `receive_request_cb` and leave through callbacks of
the work threads. The two limits are tested with `>` before something is added, and a viewer that joins a
relayed channel is not counted at all.
-/

namespace LiveStreaming.Streamer
open Library Library.CString BackSource

namespace Hosting

def eraseCamera (s : Hosting) (worker : Nat) (channel : List UInt8) : Hosting :=
  { s with cameraInfoPool := Function.update s.cameraInfoPool worker ((s.cameraInfoPool worker).erase channel) }

/-- `get_channel_viewers`, with what it finds in one worker. -/
def getChannelViewers (s : Hosting) (channel : List UInt8) : Nat :=
  ((List.range s.backSource.workers).findSome? fun worker =>
    (((s.cameraInfoPool worker).find channel).map Finset.card).or
      (((s.backSource.resourceInfoPool worker).find channel).map fun fds => fds.card / 2)).getD 0

/-- `deleteCamera` and `deleteViewer` stand for `delete_camera` (or `ERASE_CAMERA`) and `delete_viewer`. -/
inductive Event where
  | request (call : RequestCall)
  | deleteCamera (worker : Nat) (channel : List UInt8)
  | deleteViewer (worker : Nat) (channel : List UInt8) (fd : Nat)
  | asyncRead (c : Nat)
  | send (c : Nat) (socket : List Socket.WriteEvent)
  | pull (c : Nat) (socket : List (Socket.ReadEvent UInt8))
  | push (c : Nat) (socket : List Socket.WriteEvent)

def relay (s : Hosting) (e : BackSource.Event) : Option Hosting :=
  (BackSource.step s.backSource e).map fun backSource => { s with backSource }

/-- A request comes on a descriptor that is not open, and so does the connection made for it. -/
def step (s : Hosting) : Event → Option Hosting
  | .request call =>
    if (s.backSource.connections call.c).isNone ∧ call.requestFd ∉ s.backSource.opened ∧
        (∀ fd ∈ call.localFd, fd ∉ s.backSource.opened ∧ fd ≠ call.requestFd) ∧
        call.roundRobin < s.backSource.workers then
      (s.receiveRequestCb call).map Prod.snd
    else none
  | .deleteCamera worker channel => some (s.eraseCamera worker channel)
  | .deleteViewer worker channel fd =>
    ((s.cameraInfoPool worker).find channel).map fun viewers => s.setCamera worker channel (viewers.erase fd)
  | .asyncRead c => s.relay (.asyncRead c)
  | .send c socket => s.relay (.send c socket)
  | .pull c socket => s.relay (.pull c socket)
  | .push c socket => s.relay (.push c socket)

/-- No limit is exceeded, in no worker. -/
structure Limited (s : Hosting) : Prop where
  channels : s.getChannelList.length ≤ s.channelsLimit
  viewers : ∀ worker channel viewers, (s.cameraInfoPool worker).find channel = some viewers →
    viewers.card ≤ s.viewersLimit
  relayed : ∀ worker channel, (s.backSource.socketfdPool worker channel).card / 2 ≤ s.viewersLimit

/-- What is admitted is below its limit, not at it, and a viewer joins a relayed channel below the limit. -/
structure BelowLimits (s : Hosting) (call : RequestCall) (header : SimpleRosehttpHeader) : Prop where
  camera : header.method = ascii "POST" → s.cameraAlreadyIn (urlArg header "channel") = false →
    s.getChannelList.length ≠ s.channelsLimit
  watching : ∀ worker viewers, header.method = ascii "GET" →
    s.findCamera (urlArg header "channel") = some (worker, viewers) → viewers.card ≠ s.viewersLimit
  opening : header.method = ascii "GET" → s.findCamera (urlArg header "channel") = none → urlArg header "src" ≠ [] →
    call.localFd ≠ none → s.backSource.resourceAlreadyIn (urlArg header "channel") = none →
      s.getChannelList.length ≠ s.channelsLimit ∧ 0 < s.viewersLimit
  joining : ∀ worker, header.method = ascii "GET" → s.findCamera (urlArg header "channel") = none →
    urlArg header "src" ≠ [] → call.localFd ≠ none →
    s.backSource.resourceAlreadyIn (urlArg header "channel") = some worker →
      (s.backSource.socketfdPool worker (urlArg header "channel")).card / 2 < s.viewersLimit

def Modest (s : Hosting) : Event → Prop
  | .request call => ∀ request, call.request = some request →
      s.BelowLimits call (parseSimpleRosehttpHeader call.behind request).2
  | _ => True

variable {s s' : Hosting}

theorem length_getChannelList (s : Hosting) : s.getChannelList.length =
    ∑ worker ∈ Finset.range s.backSource.workers,
      ((s.cameraInfoPool worker).entries.length + (s.backSource.resourceInfoPool worker).entries.length) := by
  rw [getChannelList, List.length_flatMap, ← List.toFinset_range, List.sum_toFinset _ List.nodup_range]
  simp

theorem length_getChannelList_le {worker d : Nat} (workers : s'.backSource.workers = s.backSource.workers)
    (grows : ∀ w, (s'.cameraInfoPool w).entries.length + (s'.backSource.resourceInfoPool w).entries.length ≤
      (s.cameraInfoPool w).entries.length + (s.backSource.resourceInfoPool w).entries.length + if w =
        worker then d else 0) :
    s'.getChannelList.length ≤ s.getChannelList.length + d := by
  rw [length_getChannelList, length_getChannelList, workers]
  refine (Finset.sum_le_sum fun w _ => grows w).trans ?_
  rw [Finset.sum_add_distrib, Finset.sum_ite_eq']
  split <;> omega

theorem length_update_camera {worker d : Nat} {pool : OrderedMap (List UInt8) (Finset Nat)}
    (grows : pool.entries.length ≤ (s.cameraInfoPool worker).entries.length + d) :
    ({ s with cameraInfoPool := Function.update s.cameraInfoPool worker pool } : Hosting).getChannelList.length ≤
      s.getChannelList.length + d := by
  refine @length_getChannelList_le s _ worker d rfl fun w => ?_
  by_cases same : w = worker
  · subst same
    simp only [Function.update_self, if_true]
    omega
  · simp only [Function.update_of_ne same, same, if_false]
    omega

theorem length_update_resource {worker d : Nat} {b : BackSource} (workers : b.workers = s.backSource.workers)
    {pool : OrderedMap (List UInt8) (Finset Nat)}
    (pools : b.resourceInfoPool = Function.update s.backSource.resourceInfoPool worker pool)
    (grows : pool.entries.length ≤ (s.backSource.resourceInfoPool worker).entries.length + d) :
    ({ s with backSource := b } : Hosting).getChannelList.length ≤ s.getChannelList.length + d := by
  refine @length_getChannelList_le s _ worker d workers fun w => ?_
  dsimp only
  rw [pools]
  by_cases same : w = worker
  · subst same
    simp only [Function.update_self, if_true]
    omega
  · simp only [Function.update_of_ne same, same, if_false]
    omega

theorem find_setCamera (s : Hosting) (worker w : Nat) (channel ch : List UInt8) (viewers : Finset Nat) :
    ((s.setCamera worker channel viewers).cameraInfoPool w).find ch =
      if w = worker ∧ ch = channel then some viewers else (s.cameraInfoPool w).find ch := by
  unfold setCamera
  dsimp only
  by_cases same : w = worker
  · subst same
    rw [Function.update_self, OrderedMap.find_set]
    by_cases same : ch = channel
    · simp [same]
    · simp [same]
  · rw [Function.update_of_ne same]
    simp [same]

/-! ### Callbacks that only take away -/

structure Shrinks (b b' : BackSource) : Prop where
  workers : b'.workers = b.workers
  entries : ∀ worker, (b'.resourceInfoPool worker).entries.length ≤ (b.resourceInfoPool worker).entries.length
  sets : ∀ worker channel, b'.socketfdPool worker channel ⊆ b.socketfdPool worker channel

variable {b b' : BackSource}

theorem shrinks_same (workers : b'.workers = b.workers) (pools : b'.resourceInfoPool = b.resourceInfoPool) :
    Shrinks b b' where
  workers
  entries worker := by rw [pools]
  sets worker channel := by rw [socketfdPool_congr pools]

theorem shrinks_erase {worker : Nat} {channel : List UInt8} (workers : b'.workers = b.workers)
    (pools : b'.resourceInfoPool = (b.eraseResource worker channel).resourceInfoPool) : Shrinks b b' where
  workers
  entries w := by
    rw [pools, eraseResource]
    by_cases same : w = worker
    · subst same
      simpa only [Function.update_self] using OrderedMap.length_erase_le _ _
    · simp only [Function.update_of_ne same, le_refl]
  sets w ch := by
    rw [socketfdPool_congr pools, socketfdPool_eraseResource]
    split
    · exact Finset.empty_subset _
    · exact Finset.Subset.refl _

theorem shrinks_set {worker : Nat} {channel : List UInt8} {fds fds' : Finset Nat} (workers : b'.workers = b.workers)
    (found : (b.resourceInfoPool worker).find channel = some fds) (fewer : fds' ⊆ fds)
    (pools : b'.resourceInfoPool = (b.setResource worker channel fds').resourceInfoPool) : Shrinks b b' where
  workers
  entries w := by
    rw [pools, setResource]
    by_cases same : w = worker
    · subst same
      simpa only [Function.update_self] using OrderedMap.length_set_of_find found fds'
    · simp only [Function.update_of_ne same, le_refl]
  sets w ch := by
    rw [socketfdPool_congr pools, socketfdPool_setResource]
    split
    · next same =>
      rw [same.1, same.2, socketfdPool, found, Option.getD_some]
      exact fewer
    · exact Finset.Subset.refl _

theorem find_of_item {worker fd : Nat} {channel : List UInt8} {fds : Finset Nat}
    (item : b.getBackingResourceItem worker fd = some (channel, fds)) :
    (b.resourceInfoPool worker).find channel = some fds :=
  OrderedMap.mem_entries.mp (List.mem_of_find?_eq_some item)

theorem sendBackingResourceCb_shrinks {c : Nat} {conn : Connection} {request : List UInt8}
    {socket : List Socket.WriteEvent} : Shrinks b (b.sendBackingResourceCb c conn request socket) := by
  unfold sendBackingResourceCb
  split
  · exact shrinks_same rfl rfl
  · split
    · exact shrinks_same rfl rfl
    · split
      · dsimp only
        split
        · exact shrinks_same rfl rfl
        · exact shrinks_same rfl rfl
      · split
        · exact shrinks_same rfl rfl
        · exact shrinks_erase rfl rfl

theorem pullStreamCb_shrinks {c : Nat} {conn : Connection} {socket : List (Socket.ReadEvent UInt8)}
    (returned : b.pullStreamCb c conn socket = some b') : Shrinks b b' := by
  unfold pullStreamCb at returned
  split at returned
  · split at returned
    · obtain rfl := Option.some.inj returned
      exact shrinks_same rfl rfl
    · next channel fds item =>
      obtain rfl := Option.some.inj returned
      split
      · exact shrinks_erase rfl rfl
      · exact shrinks_set rfl (find_of_item item) (Finset.erase_subset _ _) rfl
  · obtain ⟨received, _, rfl⟩ := Option.map_eq_some_iff.mp returned
    dsimp only
    split
    · split
      · exact shrinks_same rfl rfl
      · exact shrinks_erase rfl rfl
    · exact shrinks_same rfl rfl

theorem pushStreamCb_shrinks {c : Nat} {conn : Connection} {socket : List Socket.WriteEvent} :
    Shrinks b (b.pushStreamCb c conn socket) := by
  unfold pushStreamCb
  split
  · split
    · exact shrinks_same rfl rfl
    · split
      · exact shrinks_same rfl rfl
      · dsimp only
        split
        · split
          · exact shrinks_same rfl rfl
          · next item => exact shrinks_set rfl (find_of_item item) (Finset.erase_subset _ _) rfl
        · split
          · exact shrinks_same rfl rfl
          · exact shrinks_same rfl rfl
  · exact shrinks_same rfl rfl

theorem Limited.shrinks (limited : Limited s) (shrinks : Shrinks s.backSource b) :
    Limited { s with backSource := b } where
  channels := by
    refine (@length_getChannelList_le s _ 0 0 shrinks.workers fun w => ?_).trans limited.channels
    have fewer := shrinks.entries w
    dsimp only
    split <;> omega
  viewers := limited.viewers
  relayed worker channel :=
    (Nat.div_le_div_right (Finset.card_le_card (shrinks.sets worker channel))).trans (limited.relayed worker channel)

theorem relay_limited {e : BackSource.Event} (limited : Limited s)
    (callback : ∀ c header requestFd localFd roundRobin pending,
      e ≠ .request c header requestFd localFd roundRobin pending)
    (next : s.relay e = some s') : Limited s' := by
  obtain ⟨b, stepped, rfl⟩ := Option.map_eq_some_iff.mp next
  apply limited.shrinks
  unfold BackSource.step at stepped
  split at stepped
  · cases stepped
  · cases e with
    | request c header requestFd localFd roundRobin pending => exact absurd rfl (callback _ _ _ _ _ _)
    | asyncRead c =>
      obtain ⟨conn, _, stepped⟩ := Option.bind_eq_some_iff.mp stepped
      split at stepped
      · obtain rfl := Option.some.inj stepped
        exact shrinks_same rfl rfl
      · cases stepped
    | send c socket =>
      obtain ⟨conn, _, stepped⟩ := Option.bind_eq_some_iff.mp stepped
      split at stepped
      · cases stepped
      · obtain ⟨request, _, rfl⟩ := Option.map_eq_some_iff.mp stepped
        exact sendBackingResourceCb_shrinks
    | pull c socket =>
      obtain ⟨conn, _, stepped⟩ := Option.bind_eq_some_iff.mp stepped
      split at stepped
      · exact pullStreamCb_shrinks stepped
      · cases stepped
    | push c socket =>
      obtain ⟨conn, _, stepped⟩ := Option.bind_eq_some_iff.mp stepped
      split at stepped
      · obtain rfl := Option.some.inj stepped
        exact pushStreamCb_shrinks
      · cases stepped

/-! ### Requests -/

theorem Limited.setCamera {worker : Nat} {channel : List UInt8} {viewers : Finset Nat} (limited : Limited s)
    (room : (s.setCamera worker channel viewers).getChannelList.length ≤ s.channelsLimit)
    (few : viewers.card ≤ s.viewersLimit) : Limited (s.setCamera worker channel viewers) where
  channels := room
  viewers w ch found known := by
    rw [find_setCamera] at known
    split at known
    · obtain rfl := Option.some.inj known
      exact few
    · exact limited.viewers w ch found known
  relayed := limited.relayed

theorem length_setCamera_known {worker : Nat} {channel : List UInt8} {viewers : Finset Nat}
    (known : (s.cameraInfoPool worker).find channel = some viewers) (viewers' : Finset Nat) :
    (s.setCamera worker channel viewers').getChannelList.length ≤ s.getChannelList.length :=
  @length_update_camera s worker 0 _ (OrderedMap.length_set_of_find known viewers')

theorem doCameraRequest_limited {call : RequestCall} {channel : List UInt8} {done : Bool} {deeds : List Deed}
    (limited : Limited s) (below : s.cameraAlreadyIn channel = false → s.getChannelList.length ≠ s.channelsLimit)
    (answered : s.doCameraRequest call channel = (done, deeds, s')) : Limited s' := by
  unfold doCameraRequest at answered
  split at answered
  · obtain ⟨_, rest⟩ := Prod.mk.inj answered
    obtain ⟨_, rfl⟩ := Prod.mk.inj rest
    exact limited
  · next free =>
    rw [Bool.not_eq_true] at free
    have room := below free
    have channels := limited.channels
    have grown : (s.setCamera call.roundRobin channel ∅).getChannelList.length ≤ s.getChannelList.length + 1 :=
      length_update_camera (OrderedMap.length_set_le _ channel ∅)
    have admitted : Limited (s.setCamera call.roundRobin channel ∅) :=
      limited.setCamera (by omega) (by simp)
    split at answered
    · obtain ⟨_, rest⟩ := Prod.mk.inj answered
      obtain ⟨_, rfl⟩ := Prod.mk.inj rest
      exact limited
    · split at answered
      · obtain ⟨_, rest⟩ := Prod.mk.inj answered
        obtain ⟨_, rfl⟩ := Prod.mk.inj rest
        exact limited
      · split at answered
        · obtain ⟨_, rest⟩ := Prod.mk.inj answered
          obtain ⟨_, rfl⟩ := Prod.mk.inj rest
          exact limited
        · obtain ⟨_, rest⟩ := Prod.mk.inj answered
          obtain ⟨_, rfl⟩ := Prod.mk.inj rest
          exact admitted

theorem relayed_limited {call : RequestCall} {channel : List UInt8} {done : Bool} {pools : BackSource}
    (limited : Limited s) (workers : pools.workers = s.backSource.workers)
    (opening : s.backSource.resourceAlreadyIn channel = none → call.localFd ≠ none →
      s.getChannelList.length ≠ s.channelsLimit ∧ 0 < s.viewersLimit)
    (joining : ∀ worker, s.backSource.resourceAlreadyIn channel = some worker → call.localFd ≠ none →
      (s.backSource.socketfdPool worker channel).card / 2 < s.viewersLimit)
    (relayed : Relayed s.backSource call channel done pools) : Limited { s with backSource := pools } := by
  cases relayed with
  | refused unconnected failed same => exact limited.shrinks (shrinks_same workers same)
  | opened localFd connected fresh started own =>
    obtain ⟨below, some_viewer⟩ := opening fresh (by simp [connected])
    have channels := limited.channels
    refine ⟨?_, limited.viewers, fun worker ch => ?_⟩
    · have grown := length_update_resource workers own (OrderedMap.length_set_le _ channel _)
      dsimp only
      omega
    · rw [socketfdPool_congr own, socketfdPool_setResource]
      split
      · have two := Finset.card_le_two (a := call.requestFd) (b := localFd)
        dsimp only
        omega
      · exact limited.relayed worker ch
  | joined localFd worker connected has started shared =>
    have below := joining worker has (by simp [connected])
    refine ⟨?_, limited.viewers, fun w ch => ?_⟩
    · have held : ((s.backSource.resourceInfoPool worker).find channel).isSome := by
        unfold resourceAlreadyIn at has
        simpa using List.find?_some has
      obtain ⟨fds, known⟩ := Option.isSome_iff_exists.mp held
      exact (@length_update_resource s worker 0 pools workers _ shared
        (OrderedMap.length_set_of_find known _)).trans limited.channels
    · rw [socketfdPool_congr shared, socketfdPool_setResource]
      split
      · have first := Finset.card_insert_le call.requestFd (s.backSource.socketfdPool worker channel)
        have second := Finset.card_insert_le localFd (insert call.requestFd (s.backSource.socketfdPool worker channel))
        dsimp only
        omega
      · exact limited.relayed w ch

theorem doTheBackingSourceRequest_workers (b : BackSource) (c : Nat) (header : SimpleRosehttpHeader) (requestFd : Nat)
    (localFd : Option Nat) (roundRobin : Nat) (pending : Bool) :
    (b.doTheBackingSourceRequest c header requestFd localFd roundRobin pending).2.workers = b.workers := by
  unfold doTheBackingSourceRequest
  dsimp only
  split
  · rfl
  · split
    · rfl
    · split
      · split <;> rfl
      · split
        · rfl
        · split <;> rfl

theorem doViewerRequest_limited {call : RequestCall} {header : SimpleRosehttpHeader} (limited : Limited s)
    (get : header.method = ascii "GET") (below : s.BelowLimits call header) :
    Limited (s.doViewerRequest call header).2.2 := by
  unfold doViewerRequest
  dsimp only
  split
  · exact limited
  · next named =>
    split
    · next worker viewers found =>
      have other := below.watching worker viewers get found
      have known : (s.cameraInfoPool worker).find (urlArg header "channel") = some viewers := by
        obtain ⟨w, _, mapped⟩ := List.exists_of_findSome?_eq_some found
        obtain ⟨v, known, same⟩ := Option.map_eq_some_iff.mp mapped
        obtain ⟨rfl, rfl⟩ := Prod.mk.inj same
        exact known
      split
      · exact limited
      · split
        · exact limited
        · split
          · exact limited
          · apply limited.setCamera ((length_setCamera_known known _).trans limited.channels)
            have one := Finset.card_insert_le call.requestFd viewers
            omega
    · next absent =>
      split
      · exact limited
      · next sourced =>
        split
        · exact limited
        · have workers := doTheBackingSourceRequest_workers s.backSource call.c header call.requestFd call.localFd
            call.roundRobin call.pending
          generalize asked : s.backSource.doTheBackingSourceRequest call.c header call.requestFd call.localFd
            call.roundRobin call.pending = result at workers
          obtain ⟨done, pools⟩ := result
          have relayed := relayed_limited limited workers
            (fun fresh connected => below.opening get absent sourced connected fresh)
            (fun worker has connected => below.joining worker get absent sourced connected has)
            (doTheBackingSourceRequest_relayed sourced named asked)
          cases done with
          | true => exact relayed
          | false => exact ⟨relayed.channels, relayed.viewers, relayed.relayed⟩

theorem answerRequest_limited {call : RequestCall} {request : List UInt8} (limited : Limited s)
    (below : s.BelowLimits call (parseSimpleRosehttpHeader call.behind request).2) :
    Limited (s.answerRequest call request).2 := by
  unfold answerRequest
  dsimp only
  generalize parseSimpleRosehttpHeader call.behind request = parsed at below
  split
  · exact limited
  · split
    · exact limited
    · next good =>
      split
      · next post =>
        split
        · exact limited
        · split
          · next answered => exact doCameraRequest_limited limited (below.camera post) answered
          · next answered => exact doCameraRequest_limited limited (below.camera post) answered
      · next notPost =>
        simp only [not_or, not_and_or, not_not] at good
        exact doViewerRequest_limited limited (good.2.2.resolve_left notPost) below

theorem receiveRequestCb_limited {call : RequestCall} (limited : Limited s) (modest : s.Modest (.request call))
    (next : (s.receiveRequestCb call).map Prod.snd = some s') : Limited s' := by
  obtain ⟨⟨deeds, _⟩, returned, rfl⟩ := Option.map_eq_some_iff.mp next
  unfold receiveRequestCb at returned
  split at returned
  · obtain ⟨_, rfl⟩ := Prod.mk.inj (Option.some.inj returned)
    exact limited
  · split at returned
    · next request _ received =>
      have answered := answerRequest_limited limited (modest request received)
      rwa [Option.some.inj returned] at answered
    · obtain ⟨_, rfl⟩ := Prod.mk.inj (Option.some.inj returned)
      exact limited
    · cases returned

theorem step_limited {e : Event} (limited : Limited s) (modest : s.Modest e) (next : s.step e = some s') :
    Limited s' := by
  cases e with
  | request call =>
    rw [step] at next
    split at next
    · exact receiveRequestCb_limited limited modest next
    · cases next
  | deleteCamera worker channel =>
    obtain rfl := Option.some.inj next
    refine ⟨?_, fun w ch viewers known => ?_, limited.relayed⟩
    · exact (@length_update_camera s worker 0 _ (OrderedMap.length_erase_le _ channel)).trans limited.channels
    · unfold eraseCamera at known
      dsimp only at known
      by_cases same : w = worker
      · rw [same, Function.update_self, OrderedMap.find_erase] at known
        split at known
        · cases known
        · exact limited.viewers worker ch viewers known
      · rw [Function.update_of_ne same] at known
        exact limited.viewers w ch viewers known
  | deleteViewer worker channel fd =>
    obtain ⟨viewers, known, rfl⟩ := Option.map_eq_some_iff.mp next
    apply limited.setCamera ((length_setCamera_known known _).trans limited.channels)
    exact (Finset.card_le_card (Finset.erase_subset _ _)).trans (limited.viewers worker channel viewers known)
  | asyncRead c => exact relay_limited limited (by simp) next
  | send c socket => exact relay_limited limited (by simp) next
  | pull c socket => exact relay_limited limited (by simp) next
  | push c socket => exact relay_limited limited (by simp) next

theorem start_limited (viewersLimit channelsLimit workers : Nat) :
    Limited (start viewersLimit channelsLimit workers) where
  channels := by
    rw [length_getChannelList]
    simp [start, BackSource.start, OrderedMap.empty]
  viewers worker channel viewers known := by simp [start] at known
  relayed worker channel := by simp [start, BackSource.start, socketfdPool]

theorem Limited.getChannelViewers_le (limited : Limited s) (channel : List UInt8) :
    s.getChannelViewers channel ≤ s.viewersLimit := by
  unfold getChannelViewers
  cases found : (List.range s.backSource.workers).findSome? fun worker =>
    (((s.cameraInfoPool worker).find channel).map Finset.card).or
      (((s.backSource.resourceInfoPool worker).find channel).map fun fds => fds.card / 2) with
  | none => exact Nat.zero_le _
  | some count =>
    obtain ⟨worker, _, counted⟩ := List.exists_of_findSome?_eq_some found
    rw [Option.or_eq_some_iff] at counted
    rcases counted with local_count | ⟨_, relayed_count⟩
    · obtain ⟨viewers, known, rfl⟩ := Option.map_eq_some_iff.mp local_count
      exact limited.viewers worker channel viewers known
    · obtain ⟨fds, known, rfl⟩ := Option.map_eq_some_iff.mp relayed_count
      have bound := limited.relayed worker channel
      rwa [socketfdPool, known, Option.getD_some] at bound

/-- In a run whose requests all stay below the limits, no state exceeds them. -/
theorem hosting_limited {viewersLimit channelsLimit workers : Nat}
    (run : Transition.Reach step Modest (start viewersLimit channelsLimit workers) s) :
    Limited s ∧ ∀ channel, s.getChannelViewers channel ≤ s.viewersLimit := by
  have limited := run.invariant (start_limited viewersLimit channelsLimit workers) fun _ _ _ => step_limited
  exact ⟨limited, limited.getChannelViewers_le⟩

theorem hosting_limited_sample : ∃ s : Hosting, s.getChannelList.length = 1 ∧
    (Limited s ∧ ∀ channel, s.getChannelViewers channel ≤ s.viewersLimit) := by
  have ran : (Transition.exec step (start 2 2 1) [.request cameraOffer, .deleteCamera 0 (ascii "8")]).map
      (fun s => s.getChannelList.length) = some 1 := by decide +kernel
  obtain ⟨s, executed, hosted⟩ := Option.map_eq_some_iff.mp ran
  obtain ⟨s₁, first, rest⟩ := Option.bind_eq_some_iff.mp executed
  obtain ⟨s₂, second, done⟩ := Option.bind_eq_some_iff.mp rest
  obtain rfl := Option.some.inj done
  have modest : (start 2 2 1).Modest (.request cameraOffer) := by
    intro request received
    have empty : (start 2 2 1).getChannelList.length = 0 := by decide
    have nowhere channel : (start 2 2 1).findCamera channel = none := rfl
    have post : (cameraOffer.request.map fun request =>
        (parseSimpleRosehttpHeader cameraOffer.behind request).2.method) = some (ascii "POST") := by decide +kernel
    rw [received, Option.map_some] at post
    have notGet : ascii "POST" ≠ ascii "GET" := by decide
    refine ⟨fun _ _ => by rw [empty]; decide, fun _ _ get => ?_, fun get => ?_, fun _ get => ?_⟩
    · exact absurd ((Option.some.inj post).symm.trans get) notGet
    · exact absurd ((Option.some.inj post).symm.trans get) notGet
    · exact absurd ((Option.some.inj post).symm.trans get) notGet
  have free : s₁.Modest (.deleteCamera 0 (ascii "8")) := trivial
  exact ⟨s₂, hosted, hosting_limited (.tail (.tail .refl modest first) free second)⟩

def viewerCall (c requestFd localFd : Nat) : RequestCall :=
  { sampleCall "GET /live?channel=7&src=10.0.0.1 HTTP/1.1\r\n\r\n" with c, requestFd, localFd := some localFd }

/-- With limits of one, two channels are hosted, and one channel is relayed to three viewers. -/
theorem limits_exceeded :
    (Transition.exec step (start 1 1 1)
        [.request cameraOffer, .request (sampleCall "POST /live?channel=8 HTTP/1.1\r\n\r\n")]).map
        (fun s => (s.getChannelList.length, s.channelsLimit)) = some (2, 1) ∧
      (Transition.exec step (start 1 1 1)
        [.request (viewerCall 0 10 11), .request (viewerCall 1 12 13), .request (viewerCall 2 14 15)]).map
        (fun s => (s.getChannelViewers (ascii "7"), s.viewersLimit)) = some (3, 1) ∧
      ¬ ∀ (viewersLimit channelsLimit workers : Nat) (s : Hosting),
        Transition.Reach step (fun _ _ => True) (start viewersLimit channelsLimit workers) s → Limited s := by
  have hosted : (Transition.exec step (start 1 1 1)
      [.request cameraOffer, .request (sampleCall "POST /live?channel=8 HTTP/1.1\r\n\r\n")]).map
      (fun s => (s.getChannelList.length, s.channelsLimit)) = some (2, 1) := by decide +kernel
  refine ⟨hosted, by decide +kernel, fun limited => ?_⟩
  obtain ⟨s, executed, counts⟩ := Option.map_eq_some_iff.mp hosted
  obtain ⟨two, one⟩ := Prod.mk.inj counts
  have bound := (limited 1 1 1 s (Transition.reach_of_exec .refl (fun _ _ _ => trivial) executed)).channels
  omega

end Hosting

end LiveStreaming.Streamer
