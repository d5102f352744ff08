import LiveStreaming.Streamer.BackSourcePool

/-!
# Descriptors over whole runs

What each callback does to the descriptors, and from it what holds in every state that an orderly run
reaches.
-/

namespace LiveStreaming.Streamer.BackSource
open Library

variable {s s' : BackSource} {c : Nat} {conn conn' : Connection}

theorem Inv.untouched (inv : Inv s) (known : s.connections c = some conn)
    (connections : s'.connections = Function.update s.connections c (some conn'))
    (pools : s'.resourceInfoPool = s.resourceInfoPool) (opened : s'.opened = s.opened) (closes : s'.closes = s.closes)
    (noFault : s'.fault = s.fault)
    (same : conn'.worker = conn.worker ∧ conn'.channel = conn.channel ∧ conn'.clientFd = conn.clientFd ∧
      conn'.requestFd = conn.requestFd)
    (held : conn'.held = conn.held) (viewer : conn'.pushFd = conn.pushFd)
    (pushing : conn'.pushing → conn'.stage = .relaying ∧ conn'.pushFd ≠ none ∧ conn'.data ≠ none) : Inv s' := by
  refine @Inv.releases s s' c conn conn' ∅ inv known
    ⟨connections, fun worker channel => ?_, ?_, ?_, noFault, same, ?_, Finset.empty_subset _, .inl viewer, pushing⟩
  · unfold socketfdPool
    rw [pools, Finset.sdiff_empty, ite_self]
  · rw [opened, Finset.sdiff_empty]
  · rw [closes, Finset.sort_empty, List.map_nil, List.append_nil]
  · rw [held, Finset.sdiff_empty]

theorem Inv.recounted (inv : Inv s) (connections : s'.connections = s.connections)
    (pools : s'.resourceInfoPool = s.resourceInfoPool) (opened : s'.opened = s.opened) (closes : s'.closes = s.closes)
    (noFault : s'.fault = s.fault) : Inv s' := by
  cases s
  cases s'
  dsimp only at connections pools opened closes noFault
  subst connections pools opened closes noFault
  exact ⟨fun c conn known => ⟨(inv.holding c conn known).distinct, (inv.holding c conn known).viewer,
    (inv.holding c conn known).pushing, (inv.holding c conn known).open_, (inv.holding c conn known).closed⟩,
    inv.owner, inv.apart, inv.own, inv.noFault⟩

/-! ### A new connection -/

theorem waiting_held (worker : Nat) (header : SimpleRosehttpHeader) (requestFd localFd fd : Nat) :
    fd ∈ (waiting worker header requestFd localFd).held ↔ fd = localFd ∨ fd = requestFd := by
  simp [waiting, Connection.held]

theorem Inv.join (inv : Inv s) {worker requestFd localFd : Nat} {header : SimpleRosehttpHeader}
    (new : s.connections c = none) (request : requestFd ∉ s.opened) (client : localFd ∉ s.opened)
    (distinct : localFd ≠ requestFd)
    (connections : s'.connections = Function.update s.connections c (some (waiting worker header requestFd localFd)))
    (pools : ∀ w channel, s'.socketfdPool w channel = if w = worker ∧ channel = urlArg header "channel" then
      insert localFd (insert requestFd (s.socketfdPool w channel)) else s.socketfdPool w channel)
    (opened : s'.opened = insert localFd (insert requestFd s.opened)) (closes : s'.closes = s.closes)
    (noFault : s'.fault = s.fault) : Inv s' := by
  have after : ∀ d other, s'.connections d = some other →
      d = c ∧ other = waiting worker header requestFd localFd ∨ d ≠ c ∧ s.connections d = some other := by
    intro d other found
    rw [connections, Function.update_apply] at found
    split at found
    · next mine => exact .inl ⟨mine, (Option.some.inj found).symm⟩
    · next different => exact .inr ⟨different, found⟩
  have kept : ∀ d other, s.connections d = some other → s'.connections d = some other := by
    intro d other found
    rw [connections, Function.update_of_ne, found]
    rintro rfl
    rw [new] at found
    cases found
  have old_open : ∀ d other fd, s.connections d = some other → fd ∈ other.held → ¬ (fd = localFd ∨ fd = requestFd) := by
    intro d other fd found held either
    have open_ := ((inv.holding d other found).open_ fd held).1
    rcases either with rfl | rfl
    · exact client open_
    · exact request open_
  refine ⟨?_, ?_, ?_, ?_, noFault.trans inv.noFault⟩
  · intro d other found
    rcases after d other found with ⟨rfl, rfl⟩ | ⟨_, found⟩
    · refine ⟨distinct, fun fd known => (Option.some.inj known).symm, fun no => (by cases no), fun fd held => ?_,
        fun fd mine => ?_⟩
      · rw [opened, pools, if_pos ⟨rfl, rfl⟩]
        rcases (waiting_held worker header requestFd localFd fd).mp held with rfl | rfl <;> simp
      · rw [if_pos ((waiting_held worker header requestFd localFd fd).mpr mine), closes]
        refine List.count_eq_zero_of_not_mem fun closed => ?_
        obtain ⟨other, found, _⟩ := inv.own d fd closed
        rw [new] at found
        cases found
    · have holding := inv.holding d other found
      refine ⟨holding.distinct, holding.viewer, holding.pushing, fun fd held => ?_, fun fd mine => ?_⟩
      · obtain ⟨open_, inside⟩ := holding.open_ fd held
        rw [opened, pools]
        refine ⟨Finset.mem_insert_of_mem (Finset.mem_insert_of_mem open_), ?_⟩
        split
        · exact Finset.mem_insert_of_mem (Finset.mem_insert_of_mem inside)
        · exact inside
      · rw [closes]
        exact holding.closed fd mine
  · intro w channel fd inside
    rw [pools] at inside
    by_cases mine : (w = worker ∧ channel = urlArg header "channel") ∧ (fd = localFd ∨ fd = requestFd)
    · obtain ⟨⟨rfl, rfl⟩, either⟩ := mine
      exact ⟨c, waiting w header requestFd localFd, by rw [connections, Function.update_self], rfl, rfl,
        (waiting_held w header requestFd localFd fd).mpr either⟩
    · have before : fd ∈ s.socketfdPool w channel := by
        split at inside
        · next here =>
          rw [Finset.mem_insert, Finset.mem_insert, ← or_assoc] at inside
          exact inside.resolve_left fun either => mine ⟨here, either⟩
        · exact inside
      obtain ⟨d, other, found, rest⟩ := inv.owner w channel fd before
      exact ⟨d, other, kept d other found, rest⟩
  · intro d e one two fd found found' held held'
    rcases after d one found with ⟨rfl, rfl⟩ | ⟨_, found⟩
    · rcases after e two found' with ⟨rfl, _⟩ | ⟨_, found'⟩
      · rfl
      · exact (old_open e two fd found' held' ((waiting_held worker header requestFd localFd fd).mp held)).elim
    · rcases after e two found' with ⟨rfl, rfl⟩ | ⟨_, found'⟩
      · exact (old_open d one fd found held ((waiting_held worker header requestFd localFd fd).mp held')).elim
      · exact inv.apart d e one two fd found found' held held'
  · intro d fd closed
    rw [closes] at closed
    obtain ⟨other, found, mine⟩ := inv.own d fd closed
    exact ⟨other, kept d other found, mine⟩

theorem Inv.pool_opened (inv : Inv s) {worker fd : Nat} {channel : List UInt8}
    (inside : fd ∈ s.socketfdPool worker channel) : fd ∈ s.opened := by
  obtain ⟨c, conn, found, _, _, held⟩ := inv.owner worker channel fd inside
  exact ((inv.holding c conn found).open_ fd held).1

theorem doViewerRequest_inv (inv : Inv s) {header : SimpleRosehttpHeader} {requestFd roundRobin : Nat}
    {localFd : Option Nat} {pending : Bool} (new : s.connections c = none) (request : requestFd ∉ s.opened)
    (client : ∀ fd ∈ localFd, fd ∉ s.opened ∧ fd ≠ requestFd) (worker : roundRobin < s.workers)
    (orderly : Orderly s (.request c header requestFd localFd roundRobin pending)) :
    Inv (s.doViewerRequest c header requestFd localFd roundRobin pending) := by
  have refused : Inv { s with opened := s.opened.erase requestFd } :=
    inv.recounted rfl rfl (Finset.erase_eq_of_notMem request) rfl rfl
  unfold doViewerRequest doTheBackingSourceRequest
  dsimp only
  by_cases empty : urlArg header "src" = [] ∨ urlArg header "channel" = []
  · rw [if_pos empty]
    exact refused
  rw [if_neg empty]
  cases localFd with
  | none => exact refused
  | some localFd =>
    obtain ⟨client, distinct⟩ := client localFd rfl
    have joined : ∀ w fds,
        (∀ w' channel, (s.setResource w (urlArg header "channel") fds).socketfdPool w' channel =
          if w' = w ∧ channel = urlArg header "channel" then insert localFd
            (insert requestFd (s.socketfdPool w' channel))
          else s.socketfdPool w' channel) →
        Inv (({ s with opened := insert localFd (insert requestFd s.opened) }.setResource w (urlArg header "channel")
          fds).handOver c w header requestFd localFd) :=
      fun w fds pools => inv.join new request client distinct rfl pools rfl rfl rfl
    dsimp only
    have same : ∀ s₁ : BackSource, { s₁ with opened := insert localFd (insert requestFd s₁.opened) }.resourceAlreadyIn
        (urlArg header "channel") = s₁.resourceAlreadyIn (urlArg header "channel") := fun _ => rfl
    rw [same]
    cases already : s.resourceAlreadyIn (urlArg header "channel") with
    | none =>
      dsimp only
      rw [if_neg distinct]
      have absent : (s.resourceInfoPool roundRobin).find (urlArg header "channel") = none := by
        have all := List.find?_eq_none.mp already roundRobin (List.mem_range.mpr worker)
        simpa using all
      refine joined roundRobin _ fun w channel => ?_
      rw [socketfdPool_setResource]
      split
      · next here =>
        obtain ⟨rfl, rfl⟩ := here
        rw [socketfdPool, absent, Finset.pair_comm]
        rfl
      · rfl
    | some w =>
      dsimp only
      have notThere : ¬ (requestFd ∈ s.socketfdPool w (urlArg header "channel") ∨
          localFd ∈ insert requestFd (s.socketfdPool w (urlArg header "channel"))) := by
        rintro (there | there)
        · exact request (inv.pool_opened there)
        · rcases Finset.mem_insert.mp there with same | there
          · exact distinct same
          · exact client (inv.pool_opened there)
      have seen : pending = false := by
        refine Bool.eq_false_iff.mpr fun seen => ?_
        have none_ := orderly (fun no => empty (.inl no)) (Option.some_ne_none localFd) seen
        rw [already] at none_
        cases none_
      rw [show ((s.resourceInfoPool w).find (urlArg header "channel")).getD ∅ =
        s.socketfdPool w (urlArg header "channel") from rfl, if_neg notThere, seen]
      refine joined w _ fun w' channel => ?_
      rw [socketfdPool_setResource]
      split
      · next here =>
        obtain ⟨rfl, rfl⟩ := here
        rfl
      · rfl

/-! ### The callbacks -/

theorem sendBackingResourceCb_inv (inv : Inv s) (known : s.connections c = some conn) {request : List UInt8}
    (text : conn.request = some request) {socket : List Socket.WriteEvent} (orderly : Orderly s (.send c socket)) :
    Inv (s.sendBackingResourceCb c conn request socket) := by
  have stopped : ∀ s₁ : BackSource, Inv s₁ → s₁.connections c = some conn → Inv (s₁.stopSending c conn) := by
    intro s₁ inv known
    exact @Inv.untouched s₁ (s₁.stopSending c conn) c conn { conn with request := none } inv known rfl rfl rfl rfl rfl
      ⟨rfl, rfl, rfl, rfl⟩ rfl rfl (inv.holding c conn known).pushing
  obtain ⟨small, sends⟩ := orderly conn request known text
  unfold sendBackingResourceCb
  split
  · exact stopped s inv known
  · next more =>
    rw [if_neg (by omega)]
    split
    · next n _ =>
      have counted : Inv { s with requestBytes := s.requestBytes + n } := inv.recounted rfl rfl rfl rfl rfl
      dsimp only
      split
      · exact stopped _ counted known
      · exact counted
    · next failed => exact absurd failed (sends (by omega))

theorem viewerGone_inv (inv : Inv s) (known : s.connections c = some conn) (running : conn.stage = .relaying)
    (viewer : conn.pushFd = none) {fds : Finset Nat}
    (fds_eq : fds = (s.socketfdPool conn.worker conn.channel).erase conn.clientFd) :
    Inv ((if fds = ∅ then (s.close c conn.clientFd).eraseResource conn.worker conn.channel
      else (s.close c conn.clientFd).setResource conn.worker conn.channel fds).setConnection c
        { conn with stage := .ended }) := by
  have all : conn.held = {conn.clientFd} := by
    rw [Connection.held, if_neg (by rw [running]; decide), viewer]
    rfl
  have pools : ∀ w ch, (s.close c conn.clientFd).socketfdPool w ch = s.socketfdPool w ch := fun _ _ => rfl
  have taken : ∀ w ch, (if fds = ∅ then (s.close c conn.clientFd).eraseResource conn.worker conn.channel
      else (s.close c conn.clientFd).setResource conn.worker conn.channel fds).socketfdPool w ch =
      if w = conn.worker ∧ ch = conn.channel then fds else s.socketfdPool w ch := by
    intro w ch
    split
    · next empty => rw [socketfdPool_eraseResource, pools, empty]
    · rw [socketfdPool_setResource, pools]
  refine @Inv.releases s _ c conn { conn with stage := .ended } {conn.clientFd} inv known
    ⟨?_, fun worker channel => (taken worker channel).trans ?_, ?_, ?_, ?_, ⟨rfl, rfl, rfl, rfl⟩, ?_, ?_, .inl rfl, ?_⟩
  · split <;> rfl
  · split
    · next here =>
      obtain ⟨rfl, rfl⟩ := here
      rw [Finset.sdiff_singleton_eq_erase, fds_eq]
    · rfl
  · rw [Finset.sdiff_singleton_eq_erase]
    split <;> rfl
  · rw [Finset.sort_singleton]
    split <;> rfl
  · split <;> rfl
  · rw [all, sdiff_self]
    rfl
  · rw [all]
  · intro active
    exact absurd viewer ((inv.holding c conn known).pushing active).2.1

/-- `DELETE_RESOURCE` for a connection that is the only one of its channel. -/
theorem deleteResource_inv (inv : Inv s) (known : s.connections c = some conn) (running : conn.stage = .relaying)
    (viewer : conn.pushFd ≠ none)
    (own : ∀ fd ∈ s.socketfdPool conn.worker conn.channel, fd = conn.clientFd ∨ fd = conn.requestFd)
    (pulled : List UInt8) :
    Inv (s.deleteResource c { conn with pulled } conn.channel (s.socketfdPool conn.worker conn.channel)) := by
  have holding := inv.holding c conn known
  have going : conn.stage ≠ .ended := by
    rw [running]
    decide
  -- the set of the channel is just what this connection holds
  have whole : s.socketfdPool conn.worker conn.channel = conn.held := by
    ext fd
    refine ⟨fun inside => ?_, fun held => (holding.open_ fd held).2⟩
    rcases own fd inside with rfl | rfl
    · exact client_held going
    · exact holding.request_held.mpr fun gone => gone.elim going viewer
  refine @Inv.releases s _ c conn { conn with stage := .ended, pushing := false, data := none, pulled }
    conn.held inv known
    ⟨rfl, fun worker channel => ?_, by rw [← whole]; rfl, by rw [← whole]; rfl, rfl, ⟨rfl, rfl, rfl, rfl⟩, ?_,
      subset_rfl, .inl rfl, fun no => (by cases no)⟩
  · have erased : ∀ w ch, (s.deleteResource c { conn with pulled } conn.channel
        (s.socketfdPool conn.worker conn.channel)).socketfdPool w ch =
        (s.eraseResource conn.worker conn.channel).socketfdPool w ch := fun _ _ => rfl
    rw [erased, socketfdPool_eraseResource]
    split
    · next here =>
      obtain ⟨rfl, rfl⟩ := here
      rw [whole, sdiff_self]
      rfl
    · rfl
  · rw [sdiff_self]
    rfl

theorem pullStreamCb_inv (inv : Inv s) (known : s.connections c = some conn) (running : conn.stage = .relaying)
    {socket : List (Socket.ReadEvent UInt8)} (orderly : Orderly s (.pull c socket))
    (next : s.pullStreamCb c conn socket = some s') : Inv s' := by
  have found := inv.found known (client_held (by rw [running]; decide))
  unfold pullStreamCb at next
  split at next
  · next viewer =>
    rw [found] at next
    obtain rfl := Option.some.inj next
    exact viewerGone_inv inv known running viewer rfl
  · next fd viewer =>
    have there : conn.pushFd ≠ none := by
      rw [viewer]
      exact Option.some_ne_none fd
    obtain ⟨received, read, rfl⟩ := Option.map_eq_some_iff.mp next
    dsimp only
    split
    · next stopped =>
      rw [found]
      exact deleteResource_inv inv known running there (orderly conn received known there read stopped) _
    · exact @Inv.untouched s _ c conn
        { conn with
          pulled := conn.pulled ++ received.stored, data := some ⟨received.stored, received.ret⟩, pushing := true }
        inv known rfl rfl rfl rfl rfl ⟨rfl, rfl, rfl, rfl⟩ rfl rfl
        fun _ => ⟨running, there, Option.some_ne_none _⟩

theorem viewerOff_inv (inv : Inv s) (known : s.connections c = some conn) (running : conn.stage = .relaying)
    (viewer : conn.pushFd = some conn.requestFd) (sent : List UInt8) :
    Inv (((s.setResource conn.worker conn.channel ((s.socketfdPool conn.worker conn.channel).erase
      conn.requestFd)).close c
      conn.requestFd).setConnection c { conn with sent, data := none, pushFd := none, pushing := false }) := by
  have going : conn.stage ≠ .ended := by
    rw [running]
    decide
  have all : conn.held = {conn.clientFd, conn.requestFd} := by
    rw [Connection.held, if_neg going, viewer]
    rfl
  have distinct := (inv.holding c conn known).distinct
  have pools : ∀ (s₁ : BackSource) conn' fd w ch,
      ((s₁.close c fd).setConnection c conn').socketfdPool w ch = s₁.socketfdPool w ch := fun _ _ _ _ _ => rfl
  refine @Inv.releases s _ c conn { conn with sent, data := none, pushFd := none, pushing := false }
    {conn.requestFd} inv
    known ⟨rfl, fun worker channel => ?_, (Finset.sdiff_singleton_eq_erase _ _).symm,
      by rw [Finset.sort_singleton]; rfl,
      rfl, ⟨rfl, rfl, rfl, rfl⟩, ?_, by rw [all]; simp, .inr rfl, fun no => (by cases no)⟩
  · rw [pools, socketfdPool_setResource]
    split
    · next here =>
      obtain ⟨rfl, rfl⟩ := here
      rw [Finset.sdiff_singleton_eq_erase]
    · rfl
  · rw [all, Connection.held, if_neg going, Finset.sdiff_singleton_eq_erase, Finset.pair_comm,
      Finset.erase_insert (by simpa using distinct.symm)]
    rfl

theorem pushStreamCb_inv (inv : Inv s) (known : s.connections c = some conn) (active : conn.pushing)
    {socket : List Socket.WriteEvent} (orderly : Orderly s (.push c socket)) : Inv (s.pushStreamCb c conn socket) := by
  have holding := inv.holding c conn known
  obtain ⟨running, viewer_, block_⟩ := holding.pushing active
  have stopped : ∀ (s₁ : BackSource) (sent : List UInt8), Inv s₁ → s₁.connections c = some conn →
      Inv (s₁.stopPushing c { conn with sent }) := by
    intro s₁ sent inv known
    exact @Inv.untouched s₁ (s₁.stopPushing c { conn with sent }) c conn
      { conn with sent, data := none, pushing := false } inv known rfl rfl rfl rfl rfl ⟨rfl, rfl, rfl, rfl⟩ rfl rfl
      fun no => by cases no
  unfold pushStreamCb
  split
  · next data fd block viewer =>
    obtain rfl := holding.viewer fd viewer
    have small := orderly conn data known block
    split
    · exact stopped s conn.sent inv known
    · next more =>
      rw [if_neg (by omega)]
      dsimp only
      split
      · have held := holding.request_held.mpr fun gone =>
          gone.elim (by rw [running]; exact fun no => by cases no) viewer_
        rw [inv.found known held]
        exact viewerOff_inv inv known running viewer _
      · next n _ =>
        have counted : Inv { s with totalBytes := s.totalBytes + n } := inv.recounted rfl rfl rfl rfl rfl
        split
        · exact stopped _ _ counted known
        · exact @Inv.untouched _ _ c conn
            { conn with sent := conn.sent ++ (writeSpecifySize (data.stream.drop s.totalBytes) socket).taken }
            counted known rfl rfl rfl rfl rfl ⟨rfl, rfl, rfl, rfl⟩ rfl rfl holding.pushing
  · next absent =>
    obtain ⟨fd, viewer⟩ := Option.ne_none_iff_exists'.mp viewer_
    obtain ⟨data, block⟩ := Option.ne_none_iff_exists'.mp block_
    exact (absent data fd block viewer).elim

theorem step_inv {e : Event} (inv : Inv s) (orderly : Orderly s e) (next : step s e = some s') : Inv s' := by
  unfold step at next
  rw [if_neg (by rw [inv.noFault]; decide)] at next
  cases e with
  | request c header requestFd localFd roundRobin pending =>
    dsimp only at next
    split at next
    · next ready =>
      obtain ⟨new, request, client, worker⟩ := ready
      obtain rfl := Option.some.inj next
      exact doViewerRequest_inv inv (Option.isNone_iff_eq_none.mp new) request client worker orderly
    · cases next
  | asyncRead c =>
    obtain ⟨conn, known, next⟩ := Option.bind_eq_some_iff.mp next
    split at next
    · next waiting =>
      obtain rfl := Option.some.inj next
      have holding := inv.holding c conn known
      refine @Inv.untouched s _ c conn { conn with stage := .relaying } inv known rfl rfl rfl rfl rfl
        ⟨rfl, rfl, rfl, rfl⟩ ?_ rfl fun active => ⟨rfl, (holding.pushing active).2⟩
      rw [Connection.held, Connection.held, waiting]
      rfl
    · cases next
  | send c socket =>
    obtain ⟨conn, known, next⟩ := Option.bind_eq_some_iff.mp next
    split at next
    · cases next
    · obtain ⟨request, text, rfl⟩ := Option.map_eq_some_iff.mp next
      exact sendBackingResourceCb_inv inv known text orderly
  | pull c socket =>
    obtain ⟨conn, known, next⟩ := Option.bind_eq_some_iff.mp next
    split at next
    · next running => exact pullStreamCb_inv inv known running orderly next
    · cases next
  | push c socket =>
    obtain ⟨conn, known, next⟩ := Option.bind_eq_some_iff.mp next
    split at next
    · next active =>
      obtain rfl := Option.some.inj next
      exact pushStreamCb_inv inv known active orderly
    · cases next

theorem start_inv (workers : Nat) : Inv (start workers) where
  holding := fun c conn found => by cases found
  owner := fun worker channel fd inside => by cases inside
  apart := fun c d conn other fd found => by cases found
  own := fun c fd closed => by cases closed
  noFault := rfl

/-- In every orderly run the started watchers have open descriptors of their channel, and the descriptors
of a connection that goes away are closed once, and no others. -/
theorem backSource_served {workers : Nat} (run : Transition.Reach step Orderly (start workers) s) : Served s :=
  (run.invariant (start_inv workers) fun _ _ _ inv orderly next => step_inv inv orderly next).served

theorem backSource_served_sample : ∃ s conn, Served s ∧ s.connections 0 = some conn ∧ conn.stage = .ended ∧
    s.opened = ∅ := by
  have served := @backSource_served _ 1 <|
    .tail (e := .pull 0 [.eof]) (.tail (e := .asyncRead 0)
      (.tail (e := .request 0 sampleHeader 10 (some 11) 0 false) .refl (fun _ _ no => by cases no) rfl) trivial rfl)
    (fun conn received known _ _ _ => by
      obtain rfl := Option.some.inj known
      decide) rfl
  exact ⟨_, _, served, rfl, rfl, rfl⟩

/-- Two viewers have asked for the same channel, and the other server ends the stream of viewer 0. -/
def sharedChannel : List Event :=
  opening ++ [.request 1 sampleHeader 12 (some 13) 0 false, .asyncRead 1, .pull 0 [.eof]]

theorem channel_closed_for_all :
    ¬ ∀ s, Transition.Reach step (fun _ _ => True) (start 1) s → Served s := by
  intro served
  obtain ⟨s, ran, conn, known, running, client, opened⟩ : ∃ s, Transition.exec step (start 1) sharedChannel = some s ∧
      ∃ conn, s.connections 1 = some conn ∧ conn.stage = .relaying ∧ conn.clientFd = 13 ∧ s.opened = ∅ :=
    ⟨_, rfl, _, rfl, rfl, rfl, rfl⟩
  have watching := (served s (Transition.reach_of_exec .refl (fun _ _ _ => trivial) ran)).pulling 1 conn known running
  rw [client, opened] at watching
  cases watching.1

end LiveStreaming.Streamer.BackSource
