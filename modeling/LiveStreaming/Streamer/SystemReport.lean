import LiveStreaming.Streamer.StateServer

/-!
# When the report of the state server is right

The report is what its members make of it: it is read exactly when each string is written well and each figure is a
number, and it is right exactly when moreover no name is taken apart on its way into it.
-/

namespace LiveStreaming.Streamer
open Library Library.CString Library.Json Library.JsonString Library.JsonNumber

variable {strtod : List UInt8 → Double × Nat} {s : Hosting} {cpuOccupy memOccupy : Double} {net : NetInfo}

/-! ### What is written well -/

theorem readable_finite (depth : Nat) (q : ℚ) : Readable serializeChar (depth + 1) (jsonValueInitNumber (.finite q)) :=
  evaluate_finite q

theorem finite_of_readable {depth : Nat} {d : Double}
    (readable : Readable serializeChar depth (jsonValueInitNumber d)) :
    ∃ q, d = .finite q := by
  cases depth with
  | zero => exact readable.elim
  | succ depth =>
    have value : (evaluate (serializeNumber d)).isSome := readable
    cases d with
    | finite q => exact ⟨q, rfl⟩
    | infinite negative =>
      have none : ∀ negative, (evaluate (serializeNumber (.infinite negative))).isSome = false := by decide
      rw [none] at value
      simp at value
    | nan negative =>
      have none : ∀ negative, (evaluate (serializeNumber (.nan negative))).isSome = false := by decide
      rw [none] at value
      simp at value

theorem Clean.writable {text : List UInt8} (clean : Clean text) (whole : utf8 text = true) :
    Writable Streamer.serializeChar text := by
  refine ⟨?_, fun c member _ => clean.printable c member⟩
  rwa [clean.flatMap]

theorem byte_of_text {ip : PeerIp} {b : UInt8} (member : b ∈ ip.text) : 32 ≤ b ∧ b < 0x80 ∧ b ≠ 34 ∧ b ≠ 92 := by
  cases ip with
  | unknown =>
    have all : ∀ b ∈ ascii "unknown ip", 32 ≤ b ∧ b < 0x80 ∧ b ≠ 34 ∧ b ≠ 92 := by decide +kernel
    exact all b member
  | address a b' c d =>
    have digit : isDigit b = true ∨ b = 46 := by
      simp only [PeerIp.text, List.map_cons, List.map_nil, List.intercalate_cons_cons, List.intercalate_singleton,
        List.mem_append, List.mem_singleton] at member
      rcases member with (digit | dot) | (digit | dot) | (digit | dot) | digit
      · exact .inl (isDigit_decimal digit)
      · exact .inr dot
      · exact .inl (isDigit_decimal digit)
      · exact .inr dot
      · exact .inl (isDigit_decimal digit)
      · exact .inr dot
      · exact .inl (isDigit_decimal digit)
    rcases digit with digit | rfl
    · rw [isDigit, decide_eq_true_iff] at digit
      have above : 32 ≤ b := UInt8.le_trans (by decide) digit.1
      have below : b < 0x80 := UInt8.lt_of_le_of_lt digit.2 (by decide)
      refine ⟨above, below, ?_, ?_⟩
      · rintro rfl
        exact absurd digit.1 (by decide)
      · rintro rfl
        exact absurd digit.2 (by decide)
    · decide

theorem Reportable.listing {pool : ChannelPool} (reportable : Reportable pool.channel) :
    Clean pool.listing ∧ utf8 pool.listing = true := by
  have byte : ∀ b ∈ pool.listing, b ∈ pool.channel ∨ (32 ≤ b ∧ b < 0x80 ∧ b ≠ 34 ∧ b ≠ 92) := by
    intro b member
    simp only [ChannelPool.listing, List.mem_cons, List.mem_append, List.not_mem_nil, or_false] at member
    rcases member with rfl | channel | rfl | ip | rfl
    · exact .inr (by decide)
    · exact .inl channel
    · exact .inr (by decide)
    · exact .inr (byte_of_text ip)
    · exact .inr (by decide)
  have ascii : ∀ b ∈ 58 :: (pool.ip.text ++ [125]), b < 0x80 := by
    intro b member
    rw [List.mem_cons, List.mem_append, List.mem_singleton] at member
    rcases member with rfl | ip | rfl
    · decide
    · exact (byte_of_text ip).2.1
    · decide
  refine ⟨⟨?_, ?_, ?_⟩, ?_⟩
  · intro quote
    rcases byte 34 quote with channel | ⟨_, _, other, _⟩
    · exact reportable.clean.no_quote channel
    · exact other rfl
  · intro backslash
    rcases byte 92 backslash with channel | ⟨_, _, _, other⟩
    · exact reportable.clean.no_backslash channel
    · exact other rfl
  · intro b member
    rcases byte b member with channel | ⟨printable, _⟩
    · exact reportable.clean.printable b channel
    · exact printable
  · have brace : utf8 [123] = true := by decide
    rw [ChannelPool.listing, ← List.singleton_append, utf8_append brace, utf8_append reportable.whole, utf8_ascii ascii]

theorem map_channelPool (ip : Nat → PeerIp) :
    (s.channelPool ip).map ChannelPool.channel = s.getChannelList.map Prod.fst := by
  apply List.ext_getElem
  · simp [Hosting.channelPool]
  · intro i _ _
    simp [Hosting.channelPool]

section
variable {pools : List ChannelPool} (unterminated : ∀ pool ∈ pools, 0 ∉ pool.channel)
include unterminated

theorem at_channels (path : List (List UInt8)) :
    at? (ascii "channels" :: path) (.object (systemInfoObject strtod s cpuOccupy memOccupy net pools)) =
      at? path (.object (channelsMember s (pools.map ChannelPool.channel)
        (jsonParseString strtod (listText (pools.map ChannelPool.channel))))) := by
  have absent : ascii "channels" ∉ (heading cpuOccupy memOccupy net s.getAllOnlineViewers).map Prod.fst := by
    rw [map_heading]
    decide
  rw [at?, systemInfoObject_eq unterminated, find_append_cons absent, Option.bind_some]

/-- What the array `set` of the report is. -/
theorem at_set : at? [ascii "channels", ascii "set"]
    (.object (systemInfoObject strtod s cpuOccupy memOccupy net pools)) =
      jsonParseString strtod (listText (pools.map ChannelPool.channel)) := by
  have other : ascii "set" ≠ ascii "total" ∧ ascii "set" ≠ ascii "viewers" := by decide
  rw [at_channels unterminated, at?, channelsMember, find_cons, if_neg other.1]
  have rest : ∀ set : Option Json, ((find (ascii "set") (set.map (ascii "set", ·)).toList).bind (at? [])) = set := by
    intro set
    cases set with
    | none => rfl
    | some v => simp [find_cons, at?]
  split
  · exact rest _
  · rw [List.singleton_append, find_cons, if_neg other.2]
    exact rest _

theorem at_viewers {pool : ChannelPool} (member : pool ∈ pools) (channel : List UInt8) :
    at? [ascii "channels", ascii "viewers", channel]
      (.object (systemInfoObject strtod s cpuOccupy memOccupy net pools)) =
        find channel (channelViewers s (pools.map ChannelPool.channel)) := by
  have other : ascii "viewers" ≠ ascii "total" := by decide
  have some : pools.map ChannelPool.channel ≠ [] := by
    rw [ne_eq, List.map_eq_nil_iff]
    exact List.ne_nil_of_mem member
  rw [at_channels unterminated, at?, channelsMember, find_cons, if_neg other, if_neg some, List.singleton_append,
    find_cons, if_pos rfl, Option.bind_some, at?]
  cases find channel (channelViewers s (pools.map ChannelPool.channel)) with
  | none => rfl
  | some v => rfl

end

theorem serverError_unreported : ¬ Reports s serverError := by
  have none : ((read serverError).bind (at? [ascii "channels", ascii "set"])).isNone = true := by decide
  rintro ⟨v, read, ⟨items, set, _⟩, _⟩
  rw [read, Option.bind_some, set] at none
  simp at none

/-- The report in terms of what it is made of. -/
theorem reports_iff (ip : Nat → PeerIp) (unterminated : ∀ e ∈ s.getChannelList, 0 ∉ e.1) :
    Reports s (jsonSerializeToString (.object (systemInfoObject strtod s cpuOccupy memOccupy net (s.channelPool ip)))) ↔
      (∃ depth, Readable serializeChar depth
        (.object (systemInfoObject strtod s cpuOccupy memOccupy net (s.channelPool ip)))) ∧
      (∃ items, jsonParseString strtod (listText (s.getChannelList.map Prod.fst)) = some (.array items) ∧
        ∀ e ∈ s.getChannelList, .string e.1 ∈ items) ∧
      ∀ e ∈ s.getChannelList, ∃ n, find e.1 (channelViewers s (s.getChannelList.map Prod.fst)) = some (.number n) ∧
        n.value = some (s.getChannelViewers e.1 : ℚ) := by
  have pools : ∀ pool ∈ s.channelPool ip, 0 ∉ pool.channel := by
    intro pool member
    have channel : pool.channel ∈ s.getChannelList.map Prod.fst := by
      rw [← map_channelPool ip]
      exact List.mem_map_of_mem member
    obtain ⟨e, inside, same⟩ := List.mem_map.mp channel
    rw [← same]
    exact unterminated e inside
  have viewers : ∀ e ∈ s.getChannelList, at? [ascii "channels", ascii "viewers", e.1]
      (.object (systemInfoObject strtod s cpuOccupy memOccupy net (s.channelPool ip))) =
        find e.1 (channelViewers s (s.getChannelList.map Prod.fst)) := by
    intro e member
    have channel : e.1 ∈ (s.channelPool ip).map ChannelPool.channel := by
      rw [map_channelPool]
      exact List.mem_map_of_mem member
    obtain ⟨pool, inside, _⟩ := List.mem_map.mp channel
    rw [at_viewers pools inside, map_channelPool]
  simp only [Reports, jsonSerializeToString, read_write escapes_serializeChar]
  constructor
  · rintro ⟨v, ⟨readable, rfl⟩, set, numbers⟩
    rw [at_set pools, map_channelPool] at set
    refine ⟨readable, set, ?_⟩
    intro e member
    rw [← viewers e member]
    exact numbers e member
  · rintro ⟨readable, set, numbers⟩
    refine ⟨_, ⟨readable, rfl⟩, ?_, ?_⟩
    · rw [at_set pools, map_channelPool]
      exact set
    · intro e member
      rw [viewers e member]
      exact numbers e member

theorem viewersNumber_value {channel : List UInt8} {n : Numeral} (same : viewersNumber s channel = .number n) :
    n.value = some (s.getChannelViewers channel : ℚ) ↔
      Binary64.nearest (s.getChannelViewers channel) = s.getChannelViewers channel := by
  obtain rfl := Json.number.inj same
  obtain ⟨k, whole⟩ := Binary64.nearest_natCast_whole (s.getChannelViewers channel)
  rw [Numeral.value, Double.ofNat, whole, evaluate_natCast, Option.some.injEq]

theorem numbers_fit {channels : List (List UInt8)}
    (numbers : ∀ channel ∈ channels, ∃ n, find channel (channelViewers s channels) = some (.number n) ∧
      n.value = some (s.getChannelViewers channel : ℚ)) :
    (∀ channel ∈ channels, 46 ∉ channel) ∧ channels.toFinset.card ≤ objectMaxCapacity ∧
      ∀ channel ∈ channels, Binary64.nearest (s.getChannelViewers channel) = s.getChannelViewers channel := by
  have dotless := @channelViewers_dotless s channels
  have known : ∀ channel ∈ channels, channel ∈ (channelViewers s channels).map Prod.fst := by
    intro channel member
    obtain ⟨n, found, _⟩ := numbers channel member
    exact List.mem_map.mpr ⟨_, mem_of_find found, rfl⟩
  have no_dot : ∀ channel ∈ channels, 46 ∉ channel := fun channel member => dotless.names channel (known channel member)
  have few : channels.toFinset.card ≤ objectMaxCapacity := by
    calc channels.toFinset.card ≤ ((channelViewers s channels).map Prod.fst).toFinset.card :=
          Finset.card_le_card fun channel member => List.mem_toFinset.mpr (known channel (List.mem_toFinset.mp member))
      _ ≤ ((channelViewers s channels).map Prod.fst).length := List.toFinset_card_le _
      _ ≤ objectMaxCapacity := by
        rw [List.length_map]
        exact dotless.few
  refine ⟨no_dot, few, ?_⟩
  intro channel member
  obtain ⟨n, found, value⟩ := numbers channel member
  rw [(channelViewers_tallied no_dot few).found channel member] at found
  exact (viewersNumber_value (Option.some.inj found)).mp value

/-- The strings of the report that no channel has a part in. -/
def fixedTexts : List (List UInt8) := headingNames ++ ["channels", "cameras", "resources", "total", "set", "viewers",
  "received_bytes", "transmited_bytes", "received_packets", "transmited_packets", "SWWY", "ChenZhengQiang", "2015/5/12",
  "v1.7.1"].map ascii

theorem byte_of_fixed {text : List UInt8} (fixed : text ∈ fixedTexts) {b : UInt8} (member : b ∈ text) :
    32 ≤ b ∧ b < 0x80 ∧ b ≠ 34 ∧ b ≠ 92 := by
  have all : (fixedTexts.all fun text => text.all fun b => 32 ≤ b ∧ b < 0x80 ∧ b ≠ 34 ∧ b ≠ 92) = true := by
    decide
  exact of_decide_eq_true (List.all_eq_true.mp (List.all_eq_true.mp all text fixed) b member)

theorem writable_fixed : ∀ text ∈ fixedTexts, Writable serializeChar text := by
  intro text fixed
  apply Clean.writable
  · exact ⟨fun quote => (byte_of_fixed fixed quote).2.2.1 rfl,
      fun backslash => (byte_of_fixed fixed backslash).2.2.2 rfl,
      fun b member => (byte_of_fixed fixed member).1⟩
  · exact utf8_ascii fun b member => (byte_of_fixed fixed member).2.1

theorem readable_set {entries : List (List UInt8)} (written : ∀ e ∈ entries, Clean e ∧ utf8 e = true) (depth : Nat) :
    ∀ m ∈ ((jsonParseString strtod (listText entries)).map (ascii "set", ·)).toList,
      Writable serializeChar m.1 ∧ Readable serializeChar (depth + 2) m.2 := by
  rw [jsonParseString_clean fun e member => (written e member).1]
  split
  · intro m member
    obtain rfl : (ascii "set", .array ((entries ++ [[]]).map Json.string)) = m := by simpa [eq_comm] using member
    refine ⟨writable_fixed (ascii "set") (by decide), ?_⟩
    intro v inside
    obtain ⟨e, member, rfl⟩ := List.mem_map.mp inside
    rw [List.mem_append, List.mem_singleton] at member
    rcases member with member | rfl
    · exact (written e member).1.writable (written e member).2
    · exact clean_nil.writable rfl
  · simp

theorem readable_listing {pools : List ChannelPool}
    (reportable : ∀ pool ∈ pools, Reportable pool.channel) (depth : Nat) :
    Readable serializeChar (depth + 3) (.object (listingMember strtod pools)) := by
  intro m member
  rw [listingMember, List.mem_cons] at member
  rcases member with rfl | member
  · exact ⟨writable_fixed (ascii "total") (by decide), readable_finite _ _⟩
  · refine readable_set ?_ depth m member
    intro e inside
    obtain ⟨pool, member, rfl⟩ := List.mem_map.mp inside
    exact (reportable pool member).listing

theorem readable_channels {channels : List (List UInt8)} (reportable : ∀ channel ∈ channels, Reportable channel)
    (few : channels.toFinset.card ≤ objectMaxCapacity) (depth : Nat) : Readable serializeChar (depth + 3)
      (.object (channelsMember s channels (jsonParseString strtod (listText channels)))) := by
  have tallied := @channelViewers_tallied s channels (fun channel member => (reportable channel member).no_dot) few
  intro m member
  rw [channelsMember, List.mem_cons, List.mem_append] at member
  rcases member with rfl | viewers | set
  · exact ⟨writable_fixed (ascii "total") (by decide), readable_finite _ _⟩
  · split at viewers
    · simp at viewers
    · obtain rfl := List.mem_singleton.mp viewers
      refine ⟨writable_fixed (ascii "viewers") (by decide), ?_⟩
      intro m' inside
      obtain ⟨hosted, number⟩ := tallied.only m' inside
      rw [number]
      exact ⟨(reportable _ hosted).clean.writable (reportable _ hosted).whole, readable_finite _ _⟩
  · exact readable_set (fun e inside => ⟨(reportable e inside).clean, (reportable e inside).whole⟩) depth m set

theorem readable_heading (cpu mem : ℚ) (viewers depth : Nat) : ∀ m ∈ heading (.finite cpu) (.finite mem) net viewers,
    Writable serializeChar m.1 ∧ Readable serializeChar (depth + 2) m.2 := by
  have number : ∀ name ∈ fixedTexts, ∀ q depth, Writable serializeChar name ∧
      Readable serializeChar (depth + 1) (jsonValueInitNumber (.finite q)) :=
    fun name member q depth => ⟨writable_fixed name member, readable_finite depth q⟩
  have text : ∀ name ∈ fixedTexts, ∀ value ∈ fixedTexts, Writable serializeChar name ∧
      Readable serializeChar (depth + 2) (.string value) :=
    fun name member value member' => ⟨writable_fixed name member, writable_fixed value member'⟩
  intro m member
  simp only [heading, List.mem_cons, List.not_mem_nil, or_false] at member
  rcases member with rfl | rfl | rfl | rfl | rfl | rfl | rfl | rfl
  · exact text (ascii "Company") (by decide) (ascii "SWWY") (by decide)
  · exact text (ascii "Author") (by decide) (ascii "ChenZhengQiang") (by decide)
  · exact text (ascii "Date") (by decide) (ascii "2015/5/12") (by decide)
  · exact text (ascii "Version") (by decide) (ascii "v1.7.1") (by decide)
  · exact number (ascii "cpu_occupy") (by decide) cpu _
  · exact number (ascii "mem_occupy") (by decide) mem _
  · refine ⟨writable_fixed (ascii "net") (by decide), ?_⟩
    intro m member
    simp only [List.mem_cons, List.not_mem_nil, or_false] at member
    rcases member with rfl | rfl | rfl | rfl
    · exact number (ascii "received_bytes") (by decide) _ _
    · exact number (ascii "transmited_bytes") (by decide) _ _
    · exact number (ascii "received_packets") (by decide) _ _
    · exact number (ascii "transmited_packets") (by decide) _ _
  · refine ⟨writable_fixed (ascii "viewers") (by decide), ?_⟩
    intro m member
    obtain rfl := List.mem_singleton.mp member
    exact number (ascii "total") (by decide) _ _

/-- Everything in the report is written well where nothing is to be escaped and the figures are numbers. -/
theorem systemInfoObject_readable {pools : List ChannelPool} (reportable : ∀ pool ∈ pools, Reportable pool.channel)
    (few : (pools.map ChannelPool.channel).toFinset.card ≤ objectMaxCapacity) (cpu mem : ℚ) :
    Readable serializeChar 4 (.object (systemInfoObject strtod s (.finite cpu) (.finite mem) net pools)) := by
  have unterminated : ∀ pool ∈ pools, 0 ∉ pool.channel := fun pool member => (reportable pool member).clean.zero_notMem
  have channels : ∀ channel ∈ pools.map ChannelPool.channel, Reportable channel := by
    intro channel member
    obtain ⟨pool, inside, rfl⟩ := List.mem_map.mp member
    exact reportable pool inside
  have cameras := fun keep : ChannelPool → Bool => @readable_listing strtod (pools.filter keep)
    (fun pool member => reportable pool (List.mem_of_mem_filter member)) 0
  intro m member
  rw [systemInfoObject_eq unterminated, List.mem_append] at member
  rcases member with figure | member
  · exact readable_heading cpu mem _ 1 m figure
  · simp only [List.mem_cons, List.not_mem_nil, or_false] at member
    rcases member with rfl | rfl | rfl
    · exact ⟨writable_fixed (ascii "channels") (by decide), readable_channels channels few 0⟩
    · exact ⟨writable_fixed (ascii "cameras") (by decide), cameras _⟩
    · exact ⟨writable_fixed (ascii "resources") (by decide), cameras _⟩

theorem reports_of_fits {info : SystemInfo} (ip : Nat → PeerIp) (fits : ReportFits info s) :
    Reports s (sendSystemInfoCb strtod s info ip) := by
  obtain ⟨cpu, known, positive⟩ := fits.cpu
  obtain ⟨mem, known', positive'⟩ := fits.mem
  obtain ⟨net, told⟩ := Option.isSome_iff_exists.mp fits.net
  have there : ¬ (info.cpuOccupy.isNegative = true ∨ info.memOccupy.isNegative = true) := by
    rw [known, known', Double.isNegative, Double.isNegative, decide_eq_true_eq, decide_eq_true_eq,
      not_or, not_lt, not_lt]
    exact ⟨positive, positive'⟩
  have names : ∀ channel ∈ s.getChannelList.map Prod.fst, Reportable channel := by
    intro channel member
    obtain ⟨e, inside, rfl⟩ := List.mem_map.mp member
    exact fits.names e inside
  have pools : ∀ pool ∈ s.channelPool ip, Reportable pool.channel := by
    intro pool member
    apply names
    rw [← map_channelPool ip]
    exact List.mem_map_of_mem member
  have tallied := channelViewers_tallied (s := s) (fun channel member => (names channel member).no_dot) fits.distinct
  rw [sendSystemInfoCb, told]
  simp only
  rw [if_neg there, known, known', reports_iff ip fun e member => (fits.names e member).clean.zero_notMem]
  refine ⟨⟨4, systemInfoObject_readable pools ?_ cpu mem⟩,
    ⟨(s.getChannelList.map Prod.fst ++ [[]]).map Json.string, ?_, ?_⟩, ?_⟩
  · rw [map_channelPool]
    exact fits.distinct
  · rw [jsonParseString_clean fun channel member => (names channel member).clean, List.length_map, if_pos fits.listed]
  · intro e member
    exact List.mem_map_of_mem (List.mem_append_left _ (List.mem_map_of_mem member))
  · intro e member
    have found := tallied.found e.1 (List.mem_map_of_mem member)
    exact ⟨_, found, (viewersNumber_value rfl).mpr (fits.viewers e member)⟩

theorem Clean.whole_of_readable {channel : List UInt8} (clean : Clean channel) {depth : Nat} {items : List Json}
    (written : Readable Streamer.serializeChar depth (.array items)) (string : .string channel ∈ items) :
    utf8 channel = true := by
  cases depth with
  | zero => exact written.elim
  | succ depth =>
    have item := written (.string channel) string
    cases depth with
    | zero => exact item.elim
    | succ depth =>
      have writable : Writable Streamer.serializeChar channel := item
      rw [Writable, clean.flatMap] at writable
      exact writable.1

/-- A figure that is written well is a number. -/
theorem known_of_readable {depth : Nat} {members : Members} (readable : Readable serializeChar depth (.object members))
    {name : List UInt8} {d : Double} (member : (name, jsonValueInitNumber d) ∈ members)
    (positive : d.isNegative = false) :
    d.Known := by
  cases depth with
  | zero => exact readable.elim
  | succ depth =>
    obtain ⟨q, rfl⟩ := finite_of_readable (readable _ member).2
    exact ⟨q, rfl, not_lt.mp (of_decide_eq_false positive)⟩

theorem fits_of_reports {info : SystemInfo} {ip : Nat → PeerIp} (unterminated : ∀ e ∈ s.getChannelList, 0 ∉ e.1)
    (reports : Reports s (sendSystemInfoCb strtod s info ip)) : ReportFits info s := by
  unfold sendSystemInfoCb at reports
  split at reports
  · exact absurd reports serverError_unreported
  · next net told =>
    split at reports
    · exact absurd reports serverError_unreported
    · next there =>
      rw [reports_iff ip unterminated] at reports
      obtain ⟨⟨depth, readable⟩, ⟨items, set, all⟩, numbers⟩ := reports
      have hosted : ∀ {P : List UInt8 → Prop}, (∀ e ∈ s.getChannelList, P e.1) →
          ∀ channel ∈ s.getChannelList.map Prod.fst, P channel := by
        intro P holds channel member
        obtain ⟨e, inside, rfl⟩ := List.mem_map.mp member
        exact holds e inside
      have pools : ∀ pool ∈ s.channelPool ip, 0 ∉ pool.channel := by
        intro pool member
        apply hosted (P := (0 ∉ ·)) unterminated
        rw [← map_channelPool ip]
        exact List.mem_map_of_mem member
      obtain ⟨no_dot, few, counted⟩ := numbers_fit (hosted numbers)
      have clean := clean_of_strings (hosted (P := (0 ∉ ·)) unterminated) set (hosted all)
      have array : at? [ascii "channels", ascii "set"] (.object (systemInfoObject strtod s info.cpuOccupy info.memOccupy
          net (s.channelPool ip))) = some (.array items) := by
        rw [at_set pools, map_channelPool, set]
      obtain ⟨depth', written⟩ := readable.at? array
      have listed : s.getChannelList.length < arrayMaxCapacity := by
        rw [jsonParseString_clean clean, List.length_map] at set
        split at set
        · assumption
        · simp at set
      have figure : ∀ name d, (name, jsonValueInitNumber d) ∈ heading info.cpuOccupy info.memOccupy net
          s.getAllOnlineViewers → d.isNegative = false → d.Known := by
        intro name d member positive
        have there : (name, jsonValueInitNumber d) ∈
            systemInfoObject strtod s info.cpuOccupy info.memOccupy net (s.channelPool ip) := by
          rw [systemInfoObject_eq pools]
          exact List.mem_append_left _ member
        exact known_of_readable readable there positive
      rw [not_or, Bool.not_eq_true, Bool.not_eq_true] at there
      exact {
        cpu := figure (ascii "cpu_occupy") _ (by simp [heading]) there.1
        mem := figure (ascii "mem_occupy") _ (by simp [heading]) there.2
        net := by rw [told]; rfl
        names := fun e member => by
          have channel : e.1 ∈ s.getChannelList.map Prod.fst := List.mem_map_of_mem member
          exact ⟨clean _ channel, no_dot _ channel, (clean _ channel).whole_of_readable written (all e member)⟩
        viewers := fun e member => counted _ (List.mem_map_of_mem member)
        distinct := few
        listed := listed }

/-- The report is right exactly when it fits. -/
theorem systemInfo_reported_iff (strtod : List UInt8 → Double × Nat) (info : SystemInfo)
    (ip : Nat → PeerIp) {s : Hosting}
    (admitted : s.Admitted) : Reports s (sendSystemInfoCb strtod s info ip) ↔ ReportFits info s := by
  have unterminated : ∀ e ∈ s.getChannelList, 0 ∉ e.1 := by
    intro e member
    obtain ⟨behind, request, passed⟩ := admitted e member
    exact (admittedChannel_spec passed).2.1
  exact ⟨fits_of_reports unterminated, reports_of_fits ip⟩

/-- One camera with two viewers. -/
def sampleHosting (channel : String) : Hosting := (Hosting.start 10 10 1).setCamera 0 (ascii channel) {3, 4}

def sampleInfo : SystemInfo := ⟨.finite 5, .finite 40, some ⟨10, 1, 20, 2⟩⟩

/-- No number is read. -/
def sampleStrtod (_ : List UInt8) : Double × Nat := (.finite 0, 0)

def sampleReport (channel : String) : List UInt8 :=
  sendSystemInfoCb sampleStrtod (sampleHosting channel) sampleInfo fun _ => .address 10 0 0 1

theorem systemInfo_reported_iff_sample : Reports (sampleHosting "live") (sampleReport "live") := by
  have hosted : (sampleHosting "live").getChannelList = [(ascii "live", true)] := by decide
  have viewers : (sampleHosting "live").getChannelViewers (ascii "live") = 2 := by decide
  have request : admittedChannel [] (ascii "POST /live?channel=live HTTP/1.1\r\n\r\n") = some (ascii "live") := by
    decide +kernel
  have admitted : (sampleHosting "live").Admitted := by
    rw [Hosting.Admitted, hosted, List.forall_mem_singleton]
    exact ⟨_, _, request⟩
  apply (systemInfo_reported_iff sampleStrtod sampleInfo (fun _ => .address 10 0 0 1) admitted).mpr
  constructor
  · exact ⟨5, rfl, by norm_num⟩
  · exact ⟨40, rfl, by norm_num⟩
  · rfl
  · rw [hosted, List.forall_mem_singleton]
    exact ⟨⟨by decide, by decide, by decide +kernel⟩, by decide, by decide⟩
  · rw [hosted, List.forall_mem_singleton, viewers]
    exact Binary64.nearest_natCast (by norm_num)
  · rw [hosted]
    decide
  · rw [hosted]
    decide

/-- A name with a dot is no member of `channels.viewers`, and a name with a quote leaves `channels.set` out. -/
theorem names_spliced :
    (sampleHosting "a.b").getChannelList = [(ascii "a.b", true)] ∧
      admittedChannel [] (ascii "POST /live?channel=a.b HTTP/1.1\r\n\r\n") = some (ascii "a.b") ∧
      ¬ Reports (sampleHosting "a.b") (sampleReport "a.b") ∧
      (sampleHosting "a\"b").getChannelList = [(ascii "a\"b", true)] ∧
      admittedChannel [] (ascii "POST /live?channel=a\"b HTTP/1.1\r\n\r\n") = some (ascii "a\"b") ∧
      ¬ Reports (sampleHosting "a\"b") (sampleReport "a\"b") := by
  have dotted : (sampleHosting "a.b").getChannelList = [(ascii "a.b", true)] := by decide
  have nested : ((read (sampleReport "a.b")).bind (at? [ascii "channels", ascii "viewers", ascii "a.b"])).isNone =
    true := by
    decide +kernel
  have unread : ((read (sampleReport "a\"b")).bind (at? [ascii "channels", ascii "set"])).isNone = true := by
    decide +kernel
  refine ⟨dotted, by decide +kernel, ?_, by decide, by decide +kernel, ?_⟩
  · rintro ⟨v, read, _, numbers⟩
    obtain ⟨n, found, _⟩ := numbers (ascii "a.b", true) (by rw [dotted]; exact List.mem_singleton_self _)
    rw [read, Option.bind_some, found] at nested
    simp at nested
  · rintro ⟨v, read, ⟨items, set, _⟩, _⟩
    rw [read, Option.bind_some, set] at unread
    simp at unread

end LiveStreaming.Streamer
