import LiveStreaming.Streamer.BackSource
import Mathlib.Data.Finset.Option

/-!
# The descriptors of the back sources

Every connection holds its descriptors until its callbacks close them, and the set of a channel has what
the connections of the channel hold.
-/

namespace LiveStreaming.Streamer.BackSource
open Library

def socketfdPool (s : BackSource) (worker : Nat) (channel : List UInt8) : Finset Nat :=
  ((s.resourceInfoPool worker).find channel).getD ∅

/-- Started watchers have open descriptors from the set of their channel. A callback closes none but the
descriptors of its own connection, the viewer's once when the viewer or the connection has gone and the
other server's once when the connection has ended. -/
structure Served (s : BackSource) : Prop where
  pulling : ∀ c conn, s.connections c = some conn → conn.stage = .relaying →
    conn.clientFd ∈ s.opened ∧ conn.clientFd ∈ s.socketfdPool conn.worker conn.channel
  pushing : ∀ c conn, s.connections c = some conn → conn.pushing →
    conn.pushFd = some conn.requestFd ∧ conn.requestFd ∈ s.opened ∧
      conn.requestFd ∈ s.socketfdPool conn.worker conn.channel
  own : ∀ c fd, (c, fd) ∈ s.closes → ∃ conn, s.connections c = some conn ∧ (fd = conn.clientFd ∨ fd = conn.requestFd)
  once : ∀ c conn, s.connections c = some conn →
    s.closes.count (c, conn.clientFd) = (if conn.stage = .ended then 1 else 0) ∧
      s.closes.count (c, conn.requestFd) = if conn.stage = .ended ∨ conn.pushFd = none then 1 else 0
  noFault : s.fault = false

/-- The other server ends the stream only where its connection is the only one of the channel, sending it
the request does not fail, a request does not find the flag of the worker set that has the channel, and
neither shared counter is beyond what there is to send. -/
def Orderly (s : BackSource) : Event → Prop
  | .request _ header _ localFd _ pending => urlArg header "src" ≠ [] → localFd ≠ none → pending = true →
      s.resourceAlreadyIn (urlArg header "channel") = none
  | .asyncRead _ => True
  | .send c socket => ∀ conn request, s.connections c = some conn → conn.request = some request →
      s.requestBytes ≤ request.length ∧
        (s.requestBytes < request.length → (writeSpecifySize (request.drop s.requestBytes) socket).ret ≠ none)
  | .pull c socket => ∀ conn received, s.connections c = some conn → conn.pushFd ≠ none →
      readSpecifySize tagDataSize socket = some received → received.ret = 0 →
        ∀ fd ∈ s.socketfdPool conn.worker conn.channel, fd = conn.clientFd ∨ fd = conn.requestFd
  | .push c _ => ∀ conn data, s.connections c = some conn → conn.data = some data → s.totalBytes ≤ data.receivedBytes

/-- The descriptors that the callbacks of a connection have still to close. -/
def Connection.held (conn : Connection) : Finset Nat :=
  if conn.stage = .ended then ∅ else insert conn.clientFd conn.pushFd.toFinset

/-- What there is to say about one connection. -/
structure Holding (s : BackSource) (c : Nat) (conn : Connection) : Prop where
  distinct : conn.clientFd ≠ conn.requestFd
  viewer : ∀ fd, conn.pushFd = some fd → fd = conn.requestFd
  pushing : conn.pushing → conn.stage = .relaying ∧ conn.pushFd ≠ none ∧ conn.data ≠ none
  open_ : ∀ fd ∈ conn.held, fd ∈ s.opened ∧ fd ∈ s.socketfdPool conn.worker conn.channel
  closed : ∀ fd, fd = conn.clientFd ∨ fd = conn.requestFd →
    s.closes.count (c, fd) = if fd ∈ conn.held then 0 else 1

structure Inv (s : BackSource) : Prop where
  holding : ∀ c conn, s.connections c = some conn → Holding s c conn
  owner : ∀ worker channel fd, fd ∈ s.socketfdPool worker channel →
    ∃ c conn, s.connections c = some conn ∧ conn.worker = worker ∧ conn.channel = channel ∧ fd ∈ conn.held
  apart : ∀ c d conn other fd, s.connections c = some conn → s.connections d = some other → fd ∈ conn.held →
    fd ∈ other.held → c = d
  own : ∀ c fd, (c, fd) ∈ s.closes → ∃ conn, s.connections c = some conn ∧ (fd = conn.clientFd ∨ fd = conn.requestFd)
  noFault : s.fault = false

variable {s s' : BackSource} {c : Nat} {conn conn' : Connection}

/-! ### Connections and what they hold -/

theorem client_held (going : conn.stage ≠ .ended) : conn.clientFd ∈ conn.held := by
  unfold Connection.held
  rw [if_neg going]
  exact Finset.mem_insert_self _ _

theorem Holding.request_held (holding : Holding s c conn) :
    conn.requestFd ∈ conn.held ↔ ¬ (conn.stage = .ended ∨ conn.pushFd = none) := by
  unfold Connection.held
  by_cases ended : conn.stage = .ended
  · simp [ended]
  · cases viewer : conn.pushFd with
    | none => simp [ended, holding.distinct.symm]
    | some fd =>
      obtain rfl := holding.viewer fd viewer
      simp [ended]

theorem Holding.held_own (holding : Holding s c conn) {fd : Nat} (held : fd ∈ conn.held) :
    fd = conn.clientFd ∨ fd = conn.requestFd := by
  unfold Connection.held at held
  split at held
  · cases held
  · rcases Finset.mem_insert.mp held with client | request
    · exact .inl client
    · exact .inr (holding.viewer fd (Option.mem_toFinset.mp request))

theorem Inv.served (inv : Inv s) : Served s where
  pulling := by
    intro c conn known running
    exact (inv.holding c conn known).open_ _ (client_held (by rw [running]; decide))
  pushing := by
    intro c conn known active
    have holding := inv.holding c conn known
    obtain ⟨running, viewer, _⟩ := holding.pushing active
    have held : conn.requestFd ∈ conn.held := holding.request_held.mpr fun gone => by
      rcases gone with ended | gone
      · rw [running] at ended
        cases ended
      · exact viewer gone
    obtain ⟨fd, known⟩ := Option.ne_none_iff_exists'.mp viewer
    exact ⟨by rw [known, holding.viewer fd known], holding.open_ _ held⟩
  own := inv.own
  once := by
    intro c conn known
    have holding := inv.holding c conn known
    refine ⟨?_, ?_⟩
    · rw [holding.closed _ (.inl rfl)]
      by_cases ended : conn.stage = .ended
      · rw [if_pos ended, if_neg (by simp [Connection.held, ended])]
      · rw [if_neg ended, if_pos (client_held ended)]
    · rw [holding.closed _ (.inr rfl)]
      by_cases gone : conn.stage = .ended ∨ conn.pushFd = none
      · rw [if_pos gone, if_neg fun held => holding.request_held.mp held gone]
      · rw [if_neg gone, if_pos (holding.request_held.mpr gone)]
  noFault := inv.noFault

/-! ### The sets of the channels -/

theorem socketfdPool_setResource (s : BackSource) (worker w : Nat) (channel ch : List UInt8) (fds : Finset Nat) :
    (s.setResource worker channel fds).socketfdPool w ch =
      if w = worker ∧ ch = channel then fds else s.socketfdPool w ch := by
  unfold socketfdPool setResource
  dsimp only
  by_cases same : w = worker
  · subst same
    rw [Function.update_self, OrderedMap.find_set]
    by_cases same : ch = channel
    · simp [same]
    · simp [same]
  · rw [Function.update_of_ne same]
    simp [same]

theorem socketfdPool_eraseResource (s : BackSource) (worker w : Nat) (channel ch : List UInt8) :
    (s.eraseResource worker channel).socketfdPool w ch =
      if w = worker ∧ ch = channel then ∅ else s.socketfdPool w ch := by
  unfold socketfdPool eraseResource
  dsimp only
  by_cases same : w = worker
  · subst same
    rw [Function.update_self, OrderedMap.find_erase]
    by_cases same : ch = channel
    · simp [same]
    · simp [same]
  · rw [Function.update_of_ne same]
    simp [same]

theorem Inv.found (inv : Inv s) (known : s.connections c = some conn) {fd : Nat} (held : fd ∈ conn.held) :
    s.getBackingResourceItem conn.worker fd = some (conn.channel, s.socketfdPool conn.worker conn.channel) := by
  have inside := ((inv.holding c conn known).open_ fd held).2
  have member : ∃ fds, (conn.channel, fds) ∈ (s.resourceInfoPool conn.worker).entries ∧ fd ∈ fds := by
    unfold socketfdPool at inside
    cases found : (s.resourceInfoPool conn.worker).find conn.channel with
    | none =>
      rw [found] at inside
      cases inside
    | some fds =>
      rw [found] at inside
      exact ⟨fds, OrderedMap.mem_entries.mpr found, inside⟩
  obtain ⟨fds, entry, has⟩ := member
  unfold getBackingResourceItem
  obtain ⟨⟨channel, fds'⟩, first⟩ := Option.isSome_iff_exists.mp
    (List.find?_isSome.mpr ⟨_, entry, decide_eq_true has⟩ :
      ((s.resourceInfoPool conn.worker).entries.find? fun e => fd ∈ e.2).isSome)
  have pool : (s.resourceInfoPool conn.worker).find channel = some fds' :=
    OrderedMap.mem_entries.mp (List.mem_of_find?_eq_some first)
  have value : s.socketfdPool conn.worker channel = fds' := by rw [socketfdPool, pool]; rfl
  have has' : fd ∈ fds' := by simpa using List.find?_some first
  obtain ⟨d, other, also, _, same, held'⟩ := inv.owner conn.worker channel fd (value ▸ has')
  obtain rfl := inv.apart c d conn other fd known also held held'
  obtain rfl := Option.some.inj (known.symm.trans also)
  rw [first, ← value, ← same]

/-! ### A connection lets go of descriptors -/

/-- A callback of the connection has closed `gone` and taken it out of the set of the channel. -/
structure Releases (s s' : BackSource) (c : Nat) (conn conn' : Connection) (gone : Finset Nat) : Prop where
  connections : s'.connections = Function.update s.connections c (some conn')
  pools : ∀ worker channel, s'.socketfdPool worker channel =
    if worker = conn.worker ∧ channel = conn.channel then s.socketfdPool worker channel \ gone
    else s.socketfdPool worker channel
  opened : s'.opened = s.opened \ gone
  closes : s'.closes = s.closes ++ (gone.sort (· ≤ ·)).map fun fd => (c, fd)
  noFault : s'.fault = s.fault
  same : conn'.worker = conn.worker ∧ conn'.channel = conn.channel ∧ conn'.clientFd = conn.clientFd ∧
    conn'.requestFd = conn.requestFd
  held : conn'.held = conn.held \ gone
  subset : gone ⊆ conn.held
  viewer : conn'.pushFd = conn.pushFd ∨ conn'.pushFd = none
  pushing : conn'.pushing → conn'.stage = .relaying ∧ conn'.pushFd ≠ none ∧ conn'.data ≠ none

section
variable {gone : Finset Nat}

theorem Releases.count (releases : Releases s s' c conn conn' gone) (d fd : Nat) :
    s'.closes.count (d, fd) = s.closes.count (d, fd) + if d = c ∧ fd ∈ gone then 1 else 0 := by
  rw [releases.closes, List.count_append]
  congr 1
  by_cases mine : d = c
  · subst mine
    have injective : Function.Injective fun fd : Nat => (d, fd) := fun a b same => (Prod.mk.inj same).2
    rw [List.count_map_of_injective _ _ injective fd]
    by_cases inside : fd ∈ gone
    · rw [if_pos ⟨rfl, inside⟩]
      exact List.count_eq_one_of_mem (Finset.sort_nodup gone _) ((Finset.mem_sort _).mpr inside)
    · rw [if_neg fun both => inside both.2]
      exact List.count_eq_zero_of_not_mem fun member => inside ((Finset.mem_sort _).mp member)
  · rw [if_neg fun both => mine both.1]
    apply List.count_eq_zero_of_not_mem
    simp [Ne.symm mine]

theorem Releases.frame (releases : Releases s s' c conn conn' gone) (inv : Inv s) (known : s.connections c = some conn)
    {d : Nat} {other : Connection} (different : d ≠ c) (also : s.connections d = some other) : Holding s' d other := by
  have holding := inv.holding d other also
  refine ⟨holding.distinct, holding.viewer, holding.pushing, ?_, ?_⟩
  · intro fd held
    have kept : fd ∉ gone := fun inside =>
      different (inv.apart d c other conn fd also known held (releases.subset inside))
    obtain ⟨opened, inside⟩ := holding.open_ fd held
    rw [releases.opened, releases.pools]
    refine ⟨Finset.mem_sdiff.mpr ⟨opened, kept⟩, ?_⟩
    split
    · exact Finset.mem_sdiff.mpr ⟨inside, kept⟩
    · exact inside
  · intro fd mine
    rw [releases.count, if_neg fun both => different both.1]
    exact holding.closed fd mine

theorem Releases.keeps (releases : Releases s s' c conn conn' gone) (inv : Inv s)
    (known : s.connections c = some conn) :
    Holding s' c conn' := by
  have holding := inv.holding c conn known
  obtain ⟨worker, channel, client, request⟩ := releases.same
  refine ⟨?_, ?_, releases.pushing, ?_, ?_⟩
  · rw [client, request]
    exact holding.distinct
  · intro fd viewer
    rw [request]
    rcases releases.viewer with same | none_
    · exact holding.viewer fd (same ▸ viewer)
    · rw [none_] at viewer
      cases viewer
  · intro fd held
    rw [releases.held] at held
    obtain ⟨held, kept⟩ := Finset.mem_sdiff.mp held
    obtain ⟨opened, inside⟩ := holding.open_ fd held
    rw [releases.opened, releases.pools, worker, channel, if_pos ⟨rfl, rfl⟩]
    exact ⟨Finset.mem_sdiff.mpr ⟨opened, kept⟩, Finset.mem_sdiff.mpr ⟨inside, kept⟩⟩
  · intro fd mine
    rw [client, request] at mine
    rw [releases.count, holding.closed fd mine, releases.held]
    by_cases inside : fd ∈ gone
    · rw [if_pos (releases.subset inside), if_pos ⟨rfl, inside⟩, if_neg fun both => (Finset.mem_sdiff.mp both).2 inside]
    · simp [inside]

theorem Inv.releases (inv : Inv s) (known : s.connections c = some conn) (releases : Releases s s' c conn conn' gone) :
    Inv s' := by
  obtain ⟨worker_, channel_, client, request⟩ := releases.same
  have after : ∀ d other, s'.connections d = some other →
    d = c ∧ other = conn' ∨ d ≠ c ∧ s.connections d = some other := by
    intro d other found
    rw [releases.connections, Function.update_apply] at found
    split at found
    · next mine => exact .inl ⟨mine, (Option.some.inj found).symm⟩
    · next different => exact .inr ⟨different, found⟩
  have held_before : ∀ d other, s'.connections d = some other → ∀ fd ∈ other.held,
      ∃ before, s.connections d = some before ∧ fd ∈ before.held := by
    intro d other found fd held
    rcases after d other found with ⟨rfl, rfl⟩ | ⟨_, found⟩
    · rw [releases.held] at held
      exact ⟨conn, known, (Finset.mem_sdiff.mp held).1⟩
    · exact ⟨other, found, held⟩
  have kept : ∀ d before, s.connections d = some before → ∃ other, s'.connections d = some other ∧
      other.worker = before.worker ∧ other.channel = before.channel ∧ other.clientFd = before.clientFd ∧
      other.requestFd = before.requestFd ∧ ∀ fd ∈ before.held, fd ∉ gone → fd ∈ other.held := by
    intro d before found
    rw [releases.connections, Function.update_apply]
    by_cases mine : d = c
    · subst mine
      obtain rfl := Option.some.inj (found.symm.trans known)
      rw [if_pos rfl]
      refine ⟨conn', rfl, worker_, channel_, client, request, fun fd held out => ?_⟩
      rw [releases.held]
      exact Finset.mem_sdiff.mpr ⟨held, out⟩
    · rw [if_neg mine]
      exact ⟨before, found, rfl, rfl, rfl, rfl, fun _ held _ => held⟩
  refine ⟨?_, ?_, ?_, ?_, releases.noFault.trans inv.noFault⟩
  · intro d other found
    rcases after d other found with ⟨rfl, rfl⟩ | ⟨different, found⟩
    · exact releases.keeps inv known
    · exact releases.frame inv known different found
  · intro worker channel fd inside
    rw [releases.pools] at inside
    have before : fd ∈ s.socketfdPool worker channel := by
      split at inside
      · exact (Finset.mem_sdiff.mp inside).1
      · exact inside
    obtain ⟨d, owner, found, worker', channel', held⟩ := inv.owner worker channel fd before
    obtain ⟨other, found', worker'', channel'', _, _, still⟩ := kept d owner found
    refine ⟨d, other, found', worker''.trans worker', channel''.trans channel', still fd held fun out => ?_⟩
    obtain rfl := inv.apart d c owner conn fd found known held (releases.subset out)
    obtain rfl := Option.some.inj (found.symm.trans known)
    rw [if_pos ⟨worker'.symm, channel'.symm⟩] at inside
    exact (Finset.mem_sdiff.mp inside).2 out
  · intro d e one two fd found found' held held'
    obtain ⟨before, found, held⟩ := held_before d one found fd held
    obtain ⟨before', found', held'⟩ := held_before e two found' fd held'
    exact inv.apart d e before before' fd found found' held held'
  · intro d fd closed
    rw [releases.closes] at closed
    have old : ∃ before, s.connections d = some before ∧ (fd = before.clientFd ∨ fd = before.requestFd) := by
      rcases List.mem_append.mp closed with closed | closed
      · exact inv.own d fd closed
      · obtain ⟨fd', inside, same⟩ := List.mem_map.mp closed
        obtain ⟨rfl, rfl⟩ := Prod.mk.inj same
        exact ⟨conn, known, (inv.holding _ conn known).held_own (releases.subset ((Finset.mem_sort _).mp inside))⟩
    obtain ⟨before, found, mine⟩ := old
    obtain ⟨other, found', _, _, client', request', _⟩ := kept d before found
    exact ⟨other, found', by rw [client', request']; exact mine⟩

end

end LiveStreaming.Streamer.BackSource
