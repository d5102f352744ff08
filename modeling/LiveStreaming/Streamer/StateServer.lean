import LiveStreaming.Library.Binary64
import LiveStreaming.Streamer.ChannelRequest
import LiveStreaming.Streamer.ChannelSet
import LiveStreaming.Streamer.HostingLimits

/-!
# The report of the state server

`send_system_info_cb` reports what is hosted as JSON. The name of a channel becomes the end of a dotted path and an
entry of an array, and is escaped in neither.
-/

namespace LiveStreaming.Streamer
open Library Library.CString Library.Json Library.JsonString Library.JsonNumber

/-- The address of the peer, where it is known. -/
inductive PeerIp where
  | unknown
  | address (a b c d : UInt8)

def PeerIp.text : PeerIp → List UInt8
  | .unknown => ascii "unknown ip"
  | .address a b c d => [46].intercalate ([a, b, c, d].map fun b => decimal b.toNat)

structure ChannelPool where
  channel : List UInt8
  ip : PeerIp
  isCamera : Bool

structure NetInfo where
  receivedBytes : Nat
  receivedPackets : Nat
  transmitedBytes : Nat
  transmitedPackets : Nat

/-- What `system_info` tells. The figures are negative, and `netOccupy` is `none`, where they cannot be read. -/
structure SystemInfo where
  cpuOccupy : Double
  memOccupy : Double
  netOccupy : Option NetInfo

def Double.isNegative : Double → Bool
  | .finite q => decide (q < 0)
  | .infinite negative => negative
  | .nan _ => false

/-- An `unsigned long` as a `double`. -/
def Double.ofNat (n : Nat) : Double := .finite (Binary64.nearest n)

/-- A `size_t` as an `int` as a `double`. -/
def Double.ofInt32 (n : Nat) : Double := .finite (Int.bmod n (2 ^ 32))

namespace Hosting

/-- What `get_channel_list` returns, where `ip` tells the address of each entry. -/
def channelPool (s : Hosting) (ip : Nat → PeerIp) : List ChannelPool :=
  s.getChannelList.mapIdx fun i e => ⟨e.1, ip i, e.2⟩

def getAllOnlineViewers (s : Hosting) : Nat :=
  ((List.range s.backSource.workers).map fun worker =>
    ((s.cameraInfoPool worker).entries.map fun e => e.2.card).sum +
      ((s.backSource.resourceInfoPool worker).entries.map fun e => e.2.card / 2).sum).sum

end Hosting

/-- An entry of `cameras.set` or `resources.set`. -/
def ChannelPool.listing (pool : ChannelPool) : List UInt8 := 123 :: (pool.channel ++ 58 :: (pool.ip.text ++ [125]))

section
variable (strtod : List UInt8 → Double × Nat) (s : Hosting)

/-- The members that are set before the loop over the channels. -/
def systemFigures (cpuOccupy memOccupy : Double) (net : NetInfo) (channels : Nat) : Members :=
  let root := jsonObjectSetValue [] (ascii "Company") (.string (ascii "SWWY"))
  let root := jsonObjectSetValue root (ascii "Author") (.string (ascii "ChenZhengQiang"))
  let root := jsonObjectSetValue root (ascii "Date") (.string (ascii "2015/5/12"))
  let root := jsonObjectSetValue root (ascii "Version") (.string (ascii "v1.7.1"))
  let root := jsonObjectSetValue root (ascii "cpu_occupy") (jsonValueInitNumber cpuOccupy)
  let root := jsonObjectSetValue root (ascii "mem_occupy") (jsonValueInitNumber memOccupy)
  let number name value root := jsonObjectDotsetValue root (ascii name) (some (jsonValueInitNumber value))
  let root := number "net.received_bytes" (.ofNat net.receivedBytes) root
  let root := number "net.transmited_bytes" (.ofNat net.transmitedBytes) root
  let root := number "net.received_packets" (.ofNat net.receivedPackets) root
  let root := number "net.transmited_packets" (.ofNat net.transmitedPackets) root
  let root := number "viewers.total" (.ofInt32 s.getAllOnlineViewers) root
  number "channels.total" (.ofInt32 channels) root

/-- The number of viewers of a channel, in `channels.viewers`. -/
def setChannelViewers (root : Members) (pool : ChannelPool) : Members :=
  jsonObjectDotsetValue root (cString (ascii "channels.viewers." ++ pool.channel))
    (some (jsonValueInitNumber (.ofNat (s.getChannelViewers pool.channel))))

def systemInfoObject (cpuOccupy memOccupy : Double) (net : NetInfo) (pools : List ChannelPool) : Members :=
  let cameras := pools.filter ChannelPool.isCamera
  let resources := pools.filter fun pool => !pool.isCamera
  let root := systemFigures s cpuOccupy memOccupy net pools.length
  let root := pools.foldl (setChannelViewers s) root
  let root := jsonObjectDotsetValue root (ascii "channels.set")
    (jsonParseString strtod (listText (pools.map ChannelPool.channel)))
  let root := jsonObjectDotsetValue root (ascii "cameras.total")
    (some (jsonValueInitNumber (.finite cameras.length)))
  let root := jsonObjectDotsetValue root (ascii "cameras.set")
    (jsonParseString strtod (listText (cameras.map ChannelPool.listing)))
  let root := jsonObjectDotsetValue root (ascii "resources.total")
    (some (jsonValueInitNumber (.finite resources.length)))
  jsonObjectDotsetValue root (ascii "resources.set")
    (jsonParseString strtod (listText (resources.map ChannelPool.listing)))

def serverError : List UInt8 := ascii "\x7b\"code\":10006,\"message\":\"server error\"\x7d"

/-- The JSON text that is sent behind the header. -/
def sendSystemInfoCb (info : SystemInfo) (ip : Nat → PeerIp) : List UInt8 :=
  match info.netOccupy with
  | none => serverError
  | some net =>
    if info.cpuOccupy.isNegative ∨ info.memOccupy.isNegative then serverError
    else jsonSerializeToString
      (.object (systemInfoObject strtod s info.cpuOccupy info.memOccupy net (s.channelPool ip)))

end

/-- The text is JSON, its `channels.set` holds each channel, and `channels.viewers` gives each the number of its
viewers. -/
def Reports (s : Hosting) (text : List UInt8) : Prop :=
  ∃ v, read text = some v ∧
    (∃ items, at? [ascii "channels", ascii "set"] v = some (.array items) ∧
      ∀ e ∈ s.getChannelList, .string e.1 ∈ items) ∧
    ∀ e ∈ s.getChannelList, ∃ n, at? [ascii "channels", ascii "viewers", e.1] v = some (.number n) ∧
      n.value = some (s.getChannelViewers e.1 : ℚ)

/-- Every channel has come with a request that `receive_request_cb` admits. -/
def Hosting.Admitted (s : Hosting) : Prop :=
  ∀ e ∈ s.getChannelList, ∃ behind request, admittedChannel behind request = some e.1

/-- A figure that is there and is a number. -/
def Double.Known (d : Double) : Prop := ∃ q, d = .finite q ∧ 0 ≤ q

/-- A name that stays as it is in a path, and as it is between quotes. -/
structure Reportable (channel : List UInt8) : Prop where
  clean : Clean channel
  no_dot : 46 ∉ channel
  whole : utf8 channel = true

/-- When the report is right. -/
structure ReportFits (info : SystemInfo) (s : Hosting) : Prop where
  cpu : info.cpuOccupy.Known
  mem : info.memOccupy.Known
  net : info.netOccupy.isSome
  names : ∀ e ∈ s.getChannelList, Reportable e.1
  viewers : ∀ e ∈ s.getChannelList, Binary64.nearest (s.getChannelViewers e.1) = s.getChannelViewers e.1
  distinct : (s.getChannelList.map Prod.fst).toFinset.card ≤ objectMaxCapacity
  listed : s.getChannelList.length < arrayMaxCapacity

/-! ### The members of the report -/

theorem dotset_pair_new {root : Members} {path name sub : List UInt8} (split : path.splitOn 46 = [name, sub])
    (absent : name ∉ root.map Prod.fst) (room : root.length < objectMaxCapacity) (value : Json) :
    jsonObjectDotsetValue root path (some value) = root ++ [(name, .object [(sub, value)])] := by
  rw [jsonObjectDotsetValue, Option.elim_some, split, setAt_new absent room,
    setAt_singleton_new (by simp) (by simp [objectMaxCapacity]), List.nil_append]

theorem dotset_pair {before after inner : Members} {path name sub : List UInt8} (split : path.splitOn 46 = [name, sub])
    (absent : name ∉ before.map Prod.fst) (absent' : sub ∉ inner.map Prod.fst)
    (room : inner.length < objectMaxCapacity) (value : Option Json) :
    jsonObjectDotsetValue (before ++ (name, .object inner) :: after) path value =
      before ++ (name, .object (inner ++ (value.map (sub, ·)).toList)) :: after := by
  cases value with
  | none => simp [jsonObjectDotsetValue]
  | some value =>
    rw [jsonObjectDotsetValue, Option.elim_some, split, setAt_object absent, setAt_singleton_new absent' room]
    rfl

theorem dotset_listing {root : Members} {path path' name : List UInt8} (split : path.splitOn 46 = [name, ascii "total"])
    (split' : path'.splitOn 46 = [name, ascii "set"]) (absent : name ∉ root.map Prod.fst)
    (room : root.length < objectMaxCapacity) (total : Json) (set : Option Json) :
    jsonObjectDotsetValue (jsonObjectDotsetValue root path (some total)) path' set =
      root ++ [(name, .object ((ascii "total", total) :: (set.map (ascii "set", ·)).toList))] := by
  have other : ascii "set" ∉ [ascii "total"] := by decide
  rw [dotset_pair_new split absent room]
  exact @dotset_pair root [] [(ascii "total", total)] path' name _ split' absent other (by simp [objectMaxCapacity]) set

/-- The members before `channels`. -/
def heading (cpuOccupy memOccupy : Double) (net : NetInfo) (viewers : Nat) : Members :=
  [(ascii "Company", .string (ascii "SWWY")), (ascii "Author", .string (ascii "ChenZhengQiang")),
    (ascii "Date", .string (ascii "2015/5/12")), (ascii "Version", .string (ascii "v1.7.1")),
    (ascii "cpu_occupy", jsonValueInitNumber cpuOccupy), (ascii "mem_occupy", jsonValueInitNumber memOccupy),
    (ascii "net", .object [(ascii "received_bytes", jsonValueInitNumber (.ofNat net.receivedBytes)),
      (ascii "transmited_bytes", jsonValueInitNumber (.ofNat net.transmitedBytes)),
      (ascii "received_packets", jsonValueInitNumber (.ofNat net.receivedPackets)),
      (ascii "transmited_packets", jsonValueInitNumber (.ofNat net.transmitedPackets))]),
    (ascii "viewers", .object [(ascii "total", jsonValueInitNumber (.ofInt32 viewers))])]

def headingNames : List (List UInt8) := ["Company", "Author", "Date", "Version", "cpu_occupy", "mem_occupy", "net",
  "viewers"].map ascii

variable {strtod : List UInt8 → Double × Nat} {s : Hosting} {cpuOccupy memOccupy : Double} {net : NetInfo}

theorem map_heading (viewers : Nat) : (heading cpuOccupy memOccupy net viewers).map Prod.fst = headingNames := rfl

theorem systemFigures_eq (channels : Nat) : systemFigures s cpuOccupy memOccupy net channels =
    heading cpuOccupy memOccupy net s.getAllOnlineViewers ++
      [(ascii "channels", .object [(ascii "total", jsonValueInitNumber (.ofInt32 channels))])] := by
  have few : ∀ members : Members, members.length ≤ 8 → members.length < objectMaxCapacity := by
    intro members few
    exact few.trans_lt (by decide)
  have set : ∀ (names : List (List UInt8)) (members : Members) (name : String) (value : Json),
    members.map Prod.fst = names →
      ascii name ∉ names → members.length ≤ 8 →
      jsonObjectSetValue members (ascii name) value = members ++ [(ascii name, value)] := by
    intro names members name value same absent length
    exact jsonObjectSetValue_new (same ▸ absent) (few members length)
  have group : ∀ (names : List (List UInt8)) (members : Members) (path name sub : String) (value : Json),
      members.map Prod.fst = names → (ascii path).splitOn 46 = [ascii name, ascii sub] → ascii name ∉ names →
      members.length ≤ 8 → jsonObjectDotsetValue members (ascii path) (some value) =
        members ++ [(ascii name, .object [(ascii sub, value)])] := by
    intro names members path name sub value same split absent length
    exact dotset_pair_new split (same ▸ absent) (few members length) value
  have more : ∀ (names subs : List (List UInt8)) (members inner : Members) (path name sub : String) (value : Json),
      members.map Prod.fst = names → inner.map Prod.fst = subs → (ascii path).splitOn 46 = [ascii name, ascii sub] →
      ascii name ∉ names → ascii sub ∉ subs → inner.length ≤ 8 →
      jsonObjectDotsetValue (members ++ [(ascii name, .object inner)]) (ascii path) (some value) =
        members ++ [(ascii name, .object (inner ++ [(ascii sub, value)]))] := by
    intro names subs members inner path name sub value same same' split absent absent' length
    exact dotset_pair split (same ▸ absent) (same' ▸ absent') (few inner length) (some value)
  simp only [systemFigures]
  rw [set [] [] "Company" _ rfl (by decide) (by decide),
    set (headingNames.take 1) _ "Author" _ rfl (by decide) (by simp),
    set (headingNames.take 2) _ "Date" _ rfl (by decide) (by simp),
    set (headingNames.take 3) _ "Version" _ rfl (by decide) (by simp),
    set (headingNames.take 4) _ "cpu_occupy" _ rfl (by decide) (by simp),
    set (headingNames.take 5) _ "mem_occupy" _ rfl (by decide) (by simp),
    group (headingNames.take 6) _ "net.received_bytes" "net" "received_bytes" _ rfl (by decide)
      (by decide) (by simp),
    more (headingNames.take 6) (["received_bytes"].map ascii) _ _ "net.transmited_bytes" "net" "transmited_bytes" _ rfl
      rfl (by decide) (by decide) (by decide) (by simp),
    more (headingNames.take 6) (["received_bytes", "transmited_bytes"].map ascii) _ _ "net.received_packets" "net"
      "received_packets" _ rfl rfl (by decide) (by decide) (by decide) (by simp),
    more (headingNames.take 6) (["received_bytes", "transmited_bytes", "received_packets"].map ascii) _ _
      "net.transmited_packets" "net" "transmited_packets" _ rfl rfl (by decide) (by decide)
      (by decide) (by simp),
    group (headingNames.take 7) _ "viewers.total" "viewers" "total" _ rfl (by decide) (by decide)
      (by simp),
    group headingNames _ "channels.total" "channels" "total" _ rfl (by decide) (by decide) (by simp)]
  rfl

def viewersNumber (s : Hosting) (channel : List UInt8) : Json :=
  jsonValueInitNumber (.ofNat (s.getChannelViewers channel))

/-- The members of `channels.viewers`. -/
def channelViewers (s : Hosting) (channels : List (List UInt8)) : Members :=
  channels.foldl (fun members channel => setAt (channel.splitOn 46) (viewersNumber s channel) members) []

theorem setChannelViewers_eq {pool : ChannelPool} (unterminated : 0 ∉ pool.channel) (root : Members) :
    setChannelViewers s root pool = setAt (ascii "channels" :: ascii "viewers" :: pool.channel.splitOn 46)
      (viewersNumber s pool.channel) root := by
  have whole : cString (ascii "channels.viewers." ++ pool.channel) = ascii "channels.viewers." ++ pool.channel := by
    apply cString_eq
    rw [List.mem_append, not_or]
    exact ⟨by decide, unterminated⟩
  have dots : ascii "channels.viewers." ++ pool.channel =
      ascii "channels" ++ 46 :: (ascii "viewers" ++ 46 :: pool.channel) := by
    rw [show ascii "channels.viewers." = ascii "channels" ++ 46 :: (ascii "viewers" ++ [46]) by decide]
    simp only [List.append_assoc, List.cons_append, List.nil_append]
  rw [setChannelViewers, whole, dots, jsonObjectDotsetValue, Option.elim_some,
    List.splitOn_append_cons_self_of_not_mem (by decide),
    List.splitOn_append_cons_self_of_not_mem (by decide)]
  rfl

theorem foldl_setChannelViewers {pools : List ChannelPool} (unterminated : ∀ pool ∈ pools, 0 ∉ pool.channel)
    {before : Members} (absent : ascii "channels" ∉ before.map Prod.fst) (total : Json) :
    pools.foldl (setChannelViewers s) (before ++ [(ascii "channels", .object [(ascii "total", total)])]) =
      before ++ [(ascii "channels", .object ((ascii "total", total) :: if pools = [] then [] else
        [(ascii "viewers", .object (channelViewers s (pools.map ChannelPool.channel)))]))] := by
  cases pools with
  | nil => rfl
  | cons pool pools =>
    rw [List.forall_mem_cons] at unterminated
    have set : ∀ (xs : List ChannelPool), (∀ pool ∈ xs, 0 ∉ pool.channel) →
      ∀ root, xs.foldl (setChannelViewers s) root =
        xs.foldl (fun root pool => setAt (ascii "channels" :: ascii "viewers" :: pool.channel.splitOn 46)
          (viewersNumber s pool.channel) root) root := by
      intro xs unterminated root
      apply List.foldl_ext
      intro root pool member
      exact setChannelViewers_eq (unterminated pool member) root
    have fresh : ascii "viewers" ∉ [ascii "total"] := by decide
    have outer := @foldl_setAt_object before [] [(ascii "total", total)] (ascii "channels") ChannelPool (pool :: pools)
      (fun pool => ascii "viewers" :: pool.channel.splitOn 46) (fun pool => viewersNumber s pool.channel)
        (by simp) absent
    have inner := @foldl_setAt_object [(ascii "total", total)] []
      (setAt (pool.channel.splitOn 46) (viewersNumber s pool.channel) [])
      (ascii "viewers") ChannelPool pools (fun pool => pool.channel.splitOn 46)
        (fun pool => viewersNumber s pool.channel)
      (by simp) fresh
    obtain ⟨next, rest, split⟩ := List.exists_cons_of_ne_nil (List.splitOn_ne_nil 46 pool.channel)
    have first : setAt (ascii "viewers" :: pool.channel.splitOn 46) (viewersNumber s pool.channel)
        [(ascii "total", total)] = [(ascii "total", total)] ++
          [(ascii "viewers", .object (setAt (pool.channel.splitOn 46) (viewersNumber s pool.channel) []))] := by
      rw [split]
      exact setAt_new fresh (by simp [objectMaxCapacity])
    rw [set _ (List.forall_mem_cons.mpr unterminated), outer, List.foldl_cons, first, inner,
      if_neg (List.cons_ne_nil _ _),
      channelViewers, List.foldl_map, List.foldl_cons]
    rfl

/-- The members of `channels` with the array `set`. -/
def channelsMember (s : Hosting) (channels : List (List UInt8)) (set : Option Json) : Members :=
  (ascii "total", jsonValueInitNumber (.ofInt32 channels.length)) ::
    ((if channels = [] then [] else [(ascii "viewers", .object (channelViewers s channels))]) ++
      (set.map (ascii "set", ·)).toList)

/-- The members of `cameras` or `resources`. -/
def listingMember (strtod : List UInt8 → Double × Nat) (pools : List ChannelPool) : Members :=
  (ascii "total", jsonValueInitNumber (.finite pools.length)) ::
    ((jsonParseString strtod (listText (pools.map ChannelPool.listing))).map (ascii "set", ·)).toList

theorem systemInfoObject_eq {pools : List ChannelPool} (unterminated : ∀ pool ∈ pools, 0 ∉ pool.channel) :
    systemInfoObject strtod s cpuOccupy memOccupy net pools =
      heading cpuOccupy memOccupy net s.getAllOnlineViewers ++
        [(ascii "channels", .object (channelsMember s (pools.map ChannelPool.channel)
            (jsonParseString strtod (listText (pools.map ChannelPool.channel))))),
          (ascii "cameras", .object (listingMember strtod (pools.filter ChannelPool.isCamera))),
          (ascii "resources", .object (listingMember strtod (pools.filter fun pool => !pool.isCamera)))] := by
  have sub : ascii "set" ∉ ((ascii "total", jsonValueInitNumber (.ofInt32 pools.length)) :: if pools = [] then [] else
      [(ascii "viewers", .object (channelViewers s (pools.map ChannelPool.channel)))]).map Prod.fst := by
    have names : ascii "set" ∉ [ascii "total", ascii "viewers"] := by decide
    split
    · exact fun member => names (List.mem_cons.mpr (.inl (List.mem_singleton.mp member)))
    · exact names
  have channels : ascii "channels" ∉ (heading cpuOccupy memOccupy net s.getAllOnlineViewers).map Prod.fst := by
    rw [map_heading]
    decide
  have names : ∀ members name, ascii name ∉ headingNames ++ members.map Prod.fst →
      ascii name ∉ (heading cpuOccupy memOccupy net s.getAllOnlineViewers ++ members).map Prod.fst := by
    intro members name absent
    rwa [List.map_append, map_heading]
  have cameras : ascii "cameras" ∉ headingNames ++ [ascii "channels"] := by decide
  have resources : ascii "resources" ∉ headingNames ++ [ascii "channels", ascii "cameras"] := by decide
  simp only [systemInfoObject]
  rw [systemFigures_eq, foldl_setChannelViewers unterminated channels,
    dotset_pair (by decide) channels sub (by split <;> simp [objectMaxCapacity]),
    dotset_listing (by decide) (by decide) (names _ _ cameras) (by simp [heading, objectMaxCapacity]),
    List.append_assoc,
    dotset_listing (by decide) (by decide) (names _ _ resources) (by simp [heading, objectMaxCapacity])]
  simp only [channelsMember, listingMember, List.length_map, List.map_eq_nil_iff, List.append_assoc, List.cons_append,
    List.nil_append]

/-! ### The numbers of viewers -/

theorem notMem_head_splitOn {c : UInt8} {s p : List UInt8} {rest : List (List UInt8)}
    (split : s.splitOn c = p :: rest) :
    c ∉ p := by
  induction s generalizing p rest with
  | nil =>
    rw [List.splitOn_nil] at split
    obtain ⟨rfl, _⟩ := List.cons_eq_cons.mp split
    simp
  | cons b s ih =>
    rw [List.splitOn_cons_eq_if_modifyHead] at split
    split at split
    · obtain ⟨rfl, _⟩ := List.cons_eq_cons.mp split
      simp
    · next other =>
      obtain ⟨p', rest', later⟩ := List.exists_cons_of_ne_nil (List.splitOn_ne_nil c s)
      rw [later, List.modifyHead_cons] at split
      obtain ⟨rfl, _⟩ := List.cons_eq_cons.mp split
      rw [List.mem_cons, not_or]
      exact ⟨fun same => other (by simp [same]), ih later⟩

/-- No member has a dot in its name, and there are not too many of them. -/
structure Dotless (members : Members) : Prop where
  names : ∀ name ∈ members.map Prod.fst, 46 ∉ name
  few : members.length ≤ objectMaxCapacity

theorem Dotless.setAt {members : Members} (dotless : Dotless members) (channel : List UInt8) (value : Json) :
    Dotless (setAt (channel.splitOn 46) value members) := by
  obtain ⟨p, rest, split⟩ := List.exists_cons_of_ne_nil (List.splitOn_ne_nil 46 channel)
  rw [split]
  rcases setAt_names p rest value members with same | ⟨_, room, same⟩
  · have length := congrArg List.length same
    rw [List.length_map, List.length_map] at length
    exact ⟨same ▸ dotless.names, length ▸ dotless.few⟩
  · have length := congrArg List.length same
    rw [List.length_map, List.length_append, List.length_map, List.length_singleton] at length
    refine ⟨?_, by omega⟩
    intro name member
    rw [same, List.mem_append, List.mem_singleton] at member
    rcases member with member | rfl
    · exact dotless.names name member
    · exact notMem_head_splitOn split

theorem channelViewers_dotless (channels : List (List UInt8)) : Dotless (channelViewers s channels) := by
  have run : ∀ members, Dotless members → Dotless (channels.foldl
      (fun members channel => setAt (channel.splitOn 46) (viewersNumber s channel) members) members) := by
    induction channels with
    | nil => exact fun _ dotless => dotless
    | cons channel channels ih => exact fun members dotless => ih _ (dotless.setAt channel _)
  exact run [] ⟨by simp, Nat.zero_le _⟩

/-- Each channel that is done has the number of its viewers, and no other name has one. -/
structure Tallied (s : Hosting) (done : List (List UInt8)) (members : Members) : Prop where
  only : ∀ m ∈ members, m.1 ∈ done ∧ m.2 = viewersNumber s m.1
  nodup : (members.map Prod.fst).Nodup
  found : ∀ channel ∈ done, find channel members = some (viewersNumber s channel)

theorem mem_overwriteMember {name : List UInt8} {value : Json} {members : Members} {m : List UInt8 × Json}
    (member : m ∈ overwriteMember name value members) : m = (name, value) ∨ m ∈ members := by
  induction members with
  | nil => simp [overwriteMember] at member
  | cons m' members ih =>
    rw [overwriteMember] at member
    split at member
    · exact (List.mem_cons.mp member).imp_right (List.mem_cons_of_mem m')
    · rcases List.mem_cons.mp member with rfl | member
      · exact .inr List.mem_cons_self
      · exact (ih member).imp_right (List.mem_cons_of_mem m')

theorem Tallied.setAt {done : List (List UInt8)} {members : Members} (tallied : Tallied s done members)
    {channel : List UInt8} (room : (done ++ [channel]).toFinset.card ≤ objectMaxCapacity) :
    Tallied s (done ++ [channel]) (setAt [channel] (viewersNumber s channel) members) := by
  have place : channel ∈ members.map Prod.fst ∨ members.length < objectMaxCapacity := by
    by_cases known : channel ∈ members.map Prod.fst
    · exact .inl known
    · have within : (members.map Prod.fst ++ [channel]).toFinset ⊆ (done ++ [channel]).toFinset := by
        intro name member
        rw [List.mem_toFinset, List.mem_append] at member ⊢
        apply member.imp_left
        intro member
        obtain ⟨m, inside, rfl⟩ := List.mem_map.mp member
        exact (tallied.only m inside).1
      have nodup : (members.map Prod.fst ++ [channel]).Nodup := by
        rw [List.nodup_append]
        refine ⟨tallied.nodup, List.nodup_singleton channel, ?_⟩
        intro name member name' same
        obtain rfl := List.mem_singleton.mp same
        rintro rfl
        exact known member
      have count := Finset.card_le_card within
      rw [List.toFinset_card_of_nodup nodup, List.length_append, List.length_map, List.length_singleton] at count
      exact .inr (by omega)
  have found : ∀ name, find name (Streamer.setAt [channel] (viewersNumber s channel) members) =
      if name = channel then some (viewersNumber s channel) else find name members := find_setAt_singleton place
  refine ⟨?_, ?_, ?_⟩
  · intro m member
    have either : m = (channel, viewersNumber s channel) ∨ m ∈ members := by
      rw [Streamer.setAt, jsonObjectSetValue] at member
      split at member
      · exact mem_overwriteMember member
      · unfold jsonObjectAdd at member
        split at member
        · exact .inr member
        · rw [Option.getD_some, List.mem_append, List.mem_singleton] at member
          exact member.symm
    rw [List.mem_append, List.mem_singleton]
    rcases either with rfl | old
    · exact ⟨.inr rfl, rfl⟩
    · exact ⟨.inl (tallied.only m old).1, (tallied.only m old).2⟩
  · rcases setAt_names channel [] (viewersNumber s channel) members with
      same | ⟨absent, _, same⟩
    · rw [same]
      exact tallied.nodup
    · rw [same, List.nodup_append]
      refine ⟨tallied.nodup, List.nodup_singleton channel, ?_⟩
      intro name member name' same
      obtain rfl := List.mem_singleton.mp same
      rintro rfl
      exact absent member
  · intro name member
    rw [found]
    split
    · next same => rw [same]
    · next other =>
      rw [List.mem_append, List.mem_singleton] at member
      exact tallied.found name (member.resolve_right other)

theorem channelViewers_tallied {channels : List (List UInt8)} (no_dot : ∀ channel ∈ channels, 46 ∉ channel)
    (few : channels.toFinset.card ≤ objectMaxCapacity) : Tallied s channels (channelViewers s channels) := by
  have run : ∀ done members, Tallied s done members → (done ++ channels).toFinset.card ≤ objectMaxCapacity →
      Tallied s (done ++ channels) (channels.foldl
        (fun members channel => setAt (channel.splitOn 46) (viewersNumber s channel) members) members) := by
    clear few
    induction channels with
    | nil =>
      intro done members tallied _
      rwa [List.append_nil]
    | cons channel channels ih =>
      intro done members tallied few
      rw [List.forall_mem_cons] at no_dot
      have split : done ++ channel :: channels = done ++ [channel] ++ channels := by simp
      rw [split] at few ⊢
      have here : (done ++ [channel]).toFinset.card ≤ objectMaxCapacity := by
        apply le_trans (Finset.card_le_card ?_) few
        rw [List.toFinset_append (l := done ++ [channel])]
        exact Finset.subset_union_left
      rw [List.foldl_cons, List.splitOn_eq_singleton no_dot.1]
      exact ih no_dot.2 _ _ (tallied.setAt here) few
  exact run [] [] ⟨by simp, List.nodup_nil, by simp⟩ few

end LiveStreaming.Streamer
