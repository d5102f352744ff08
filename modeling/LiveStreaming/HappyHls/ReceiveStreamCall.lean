import LiveStreaming.HappyHls.ReceiveStream

/-!
# One call for the only stream

What a call of `receive_stream_cb` does for the stream that the static variables are about, part by part.
-/

namespace LiveStreaming.HappyHls.ReceiveStream
open Library Streamer EarlyExit

variable {stream : Stream} {channel taken stored sofar : List UInt8} {viewer : Viewer} {setting : Setting} {c c' : Call}

/-! ### Where a stream has been read to -/

/-- The parts that a viewer holds are the bytes that were taken, one part behind the other. -/
structure Parts (stream : Stream) (viewer : Viewer) (taken : List UInt8) : Prop where
  bytes : taken = stream.reply ++ (viewer.flvHeader ++
    (viewer.previousTagSize ++ (viewer.flvTagHeader ++ viewer.flvTagData)))
  header : viewer.flvHeader.length ≤ flvHeaderSize
  size : viewer.previousTagSize.length ≤ previousTagSize
  tagHeader : viewer.flvTagHeader.length ≤ tagHeaderSize
  data : viewer.flvTagData.length ≤ flvDataSize viewer.flvTagHeader
  noSize : viewer.flvHeader.length < flvHeaderSize → viewer.previousTagSize = []
  noHeader : viewer.previousTagSize.length < previousTagSize → viewer.flvTagHeader = []
  noData : viewer.flvTagHeader.length < tagHeaderSize → viewer.flvTagData = []

def Whole (viewer : Viewer) : Prop :=
  viewer.flvTagHeader.length = tagHeaderSize ∧ viewer.flvTagData.length = flvDataSize viewer.flvTagHeader

namespace Parts

theorem withHeader (parts : Parts stream viewer taken) (short : viewer.flvHeader.length < flvHeaderSize)
    (fits : (viewer.flvHeader ++ stored).length ≤ flvHeaderSize) :
    Parts stream { viewer with flvHeader := viewer.flvHeader ++ stored } (taken ++ stored) := by
  have size := parts.noSize short
  have tagHeader := parts.noHeader (by rw [size]; decide)
  have data := parts.noData (by rw [tagHeader]; decide)
  refine ⟨?_, fits, parts.size, parts.tagHeader, parts.data, fun _ => size, parts.noHeader, parts.noData⟩
  dsimp only
  rw [parts.bytes, size, tagHeader, data]
  simp only [List.append_nil, List.append_assoc]

theorem withSize (parts : Parts stream viewer taken) (short : viewer.previousTagSize.length < previousTagSize)
    (before : viewer.flvHeader.length = flvHeaderSize)
    (fits : (viewer.previousTagSize ++ stored).length ≤ previousTagSize) :
    Parts stream { viewer with previousTagSize := viewer.previousTagSize ++ stored } (taken ++ stored) := by
  have tagHeader := parts.noHeader short
  have data := parts.noData (by rw [tagHeader]; decide)
  refine ⟨?_, parts.header, fits, parts.tagHeader, parts.data, fun less => ?_, fun _ => tagHeader, parts.noData⟩
  · dsimp only
    rw [parts.bytes, tagHeader, data]
    simp only [List.append_nil, List.append_assoc]
  · exact absurd before (Nat.ne_of_lt less)

theorem withTagHeader (parts : Parts stream viewer taken) (short : viewer.flvTagHeader.length < tagHeaderSize)
    (before : viewer.previousTagSize.length = previousTagSize)
    (fits : (viewer.flvTagHeader ++ stored).length ≤ tagHeaderSize) :
    Parts stream { viewer with flvTagHeader := viewer.flvTagHeader ++ stored } (taken ++ stored) := by
  have data := parts.noData short
  refine ⟨?_, parts.header, parts.size, fits, ?_, parts.noSize, fun less => ?_, fun _ => data⟩
  · dsimp only
    rw [parts.bytes, data]
    simp only [List.append_nil, List.append_assoc]
  · dsimp only
    rw [data]
    exact Nat.zero_le _
  · exact absurd before (Nat.ne_of_lt less)

theorem withData (parts : Parts stream viewer taken) (before : viewer.flvTagHeader.length = tagHeaderSize)
    (fits : (viewer.flvTagData ++ stored).length ≤ flvDataSize viewer.flvTagHeader) :
    Parts stream { viewer with flvTagData := viewer.flvTagData ++ stored } (taken ++ stored) := by
  refine ⟨?_, parts.header, parts.size, parts.tagHeader, fits, parts.noSize, parts.noHeader, fun less => ?_⟩
  · dsimp only
    rw [parts.bytes]
    simp only [List.append_assoc]
  · exact absurd before (Nat.ne_of_lt less)

theorem first_tag (parts : Parts stream viewer taken) (inside : taken <+: stream.bytes)
    (read : viewer.flvTagHeader.length = tagHeaderSize) :
    ∃ tag rest, stream.tags = tag :: rest ∧ viewer.flvHeader = stream.flvHeader ∧
      viewer.previousTagSize = tag.previousTagSize ∧ viewer.flvTagHeader = tag.header ∧
      viewer.flvTagData <+: tag.data ++ rest.flatMap FlvTag.bytes := by
  have size : viewer.previousTagSize.length = previousTagSize := by
    refine Nat.le_antisymm parts.size (Nat.le_of_not_lt fun less => ?_)
    rw [parts.noHeader less] at read
    exact absurd read (by decide)
  have header : viewer.flvHeader.length = flvHeaderSize := by
    refine Nat.le_antisymm parts.header (Nat.le_of_not_lt fun less => ?_)
    rw [parts.noSize less] at size
    exact absurd size (by decide)
  rw [parts.bytes, Stream.bytes, Stream.opening, List.append_assoc, List.prefix_append_right_inj] at inside
  obtain ⟨opening, tags⟩ := prefix_split inside (header.trans stream.flvHeader_length.symm)
  cases all : stream.tags with
  | nil =>
    rw [all, List.flatMap_nil, List.prefix_nil, List.append_eq_nil_iff] at tags
    rw [tags.1] at size
    exact absurd size (by decide)
  | cons tag rest =>
    rw [all, List.flatMap_cons, FlvTag.bytes, List.append_assoc, List.append_assoc] at tags
    obtain ⟨same, tags⟩ := prefix_split tags (size.trans tag.previousTagSize_length.symm)
    obtain ⟨same', tags⟩ := prefix_split tags (read.trans tag.header_length.symm)
    exact ⟨tag, rest, rfl, opening, same, same', tags⟩

theorem complete_eq_zero (parts : Parts stream viewer taken) (inside : taken <+: stream.bytes) (part : ¬ Whole viewer) :
    complete stream.tags (taken.length - stream.opening.length) = 0 := by
  have opening : stream.opening.length = stream.reply.length + flvHeaderSize := by
    rw [Stream.opening, List.length_append, stream.flvHeader_length]
  have length := congrArg List.length parts.bytes
  simp only [List.length_append] at length
  have header := parts.header
  have size := parts.size
  have tagHeader := parts.tagHeader
  cases all : stream.tags with
  | nil => rfl
  | cons tag rest =>
    rw [complete, if_neg]
    rw [tag.length_bytes]
    unfold previousTagSize at size
    by_cases read : viewer.flvTagHeader.length = tagHeaderSize
    · obtain ⟨tag', rest', all', _, _, same, _⟩ := parts.first_tag inside read
      obtain ⟨rfl, rfl⟩ := List.cons.inj (all.symm.trans all')
      have data := parts.data
      have less : viewer.flvTagData.length ≠ flvDataSize viewer.flvTagHeader := fun full => part ⟨read, full⟩
      rw [same] at data less
      rw [tag.data_length]
      rw [read] at length
      unfold tagHeaderSize at length
      omega
    · have none_ := parts.noData (Nat.lt_of_le_of_ne tagHeader read)
      rw [none_, List.length_nil] at length
      unfold tagHeaderSize at tagHeader read
      omega

theorem whole_tag (parts : Parts stream viewer taken) (inside : taken <+: stream.bytes) (whole : Whole viewer) :
    ∃ tag rest, stream.tags = tag :: rest ∧ viewer.flvTagHeader = tag.header ∧ viewer.flvTagData = tag.data ∧
      viewer.previousTagSize ++ viewer.flvTagHeader ++ viewer.flvTagData = tag.bytes ∧
      taken = stream.opening ++ tag.bytes := by
  obtain ⟨tag, rest, all, opening, size, header, data⟩ := parts.first_tag inside whole.1
  have same : viewer.flvTagData = tag.data := by
    have length : viewer.flvTagData.length = tag.data.length := by rw [whole.2, header, tag.data_length]
    rw [← List.append_nil viewer.flvTagData] at data
    exact (prefix_split data length).1
  refine ⟨tag, rest, all, header, same, ?_, ?_⟩
  · rw [size, header, same, FlvTag.bytes]
  · rw [parts.bytes, opening, size, header, same, Stream.opening, FlvTag.bytes]
    simp only [List.append_assoc]

end Parts

/-! ### What holds between the parts of a call -/

/-- The bytes taken and those that are coming. A call that starts with `limit` bytes within its reach and `stops`
ends before it has no more of them later. -/
structure Within (stream : Stream) (limit stops : Nat) (taken : List UInt8)
    (socket : List (Socket.ReadEvent UInt8)) : Prop where
  inside : taken ++ Socket.incoming socket <+: stream.bytes
  limit : taken.length + (Socket.incoming socket).length = limit
  stops : Socket.stops socket ≤ stops

/-- The files are those of the channel, with frames of its stream. -/
structure Owned (stream : Stream) (channel : List UInt8) (tsFiles : List TsFile) (playlists : Files) : Prop where
  files : ∀ file ∈ tsFiles, file.directory = directoryOf channel ∧
    ∀ frame ∈ file.frames, frame ∈ framesOf .start stream.tags
  playlist : OwnPlaylist channel playlists

/-- The header of the stream is still to come. -/
structure Opening (c : Call) : Prop where
  statics : c.statics = { Statics.start with readHttpReplyFirst := false }
  tsFiles : c.tsFiles = []
  playlists : c.playlists = fun _ => none
  short : c.viewer.flvHeader.length < flvHeaderSize
  urls : c.viewer.tsUrlsPool = []

/-- The header has been read, and the static variables are about the channel. -/
structure Prepared (channel : List UInt8) (c : Call) : Prop where
  header : c.viewer.flvHeader.length = flvHeaderSize
  theFirst : c.statics.theFirst = false
  config : c.statics.m3u8Config.For channel
  decoder : c.statics.decoder = .start
  aac : c.statics.aacEsQueue = []
  avc : c.statics.avcEsQueue = []
  h264Pts : c.statics.segments.h264Pts = 0
  listed : c.statics.initFirst = false → c.playlists (playlistOf channel) ≠ none
  urls : ∀ url ∈ c.viewer.tsUrlsPool, IsUrlOf channel url

structure Running (channel : List UInt8) (c : Call) : Prop extends Prepared channel c where
  handler : c.statics.ftsHandler = .opened
  tsFiles : c.tsFiles ≠ []

structure Kept (stream : Stream) (channel : List UInt8) (fd : Nat) (c : Call) : Prop where
  watcher : c.viewer.fd = fd
  parts : Parts stream c.viewer c.taken
  sized : c.viewer.flvTagHeader.length = tagHeaderSize →
    c.viewer.flvTagDataTotalBytes = flvDataSize c.viewer.flvTagHeader
  handled : c.handled = []
  first : c.statics.readHttpReplyFirst = false
  owned : Owned stream channel c.tsFiles c.playlists

structure Course (stream : Stream) (channel : List UInt8) (fd : Nat)
    (c : Call) : Prop extends Kept stream channel fd c where
  ready : Opening c ∨ Running channel c

/-- The channel has been deleted before its first tag was there. -/
structure Left (stream : Stream) (channel : List UInt8) (c : Call) : Prop where
  handled : c.handled = []
  none_ : complete stream.tags (c.taken.length - stream.opening.length) = 0
  first : c.statics.readHttpReplyFirst = false
  handler : c.statics.ftsHandler ≠ .closed
  owned : Owned stream channel c.tsFiles c.playlists

/-- The only tag of the stream has been handled. -/
structure Finished (stream : Stream) (channel : List UInt8) (c : Call) : Prop where
  only : ∃ tag, stream.tags = [tag] ∧ c.handled = [tag.bytes]
  taken : c.taken = stream.bytes
  first : c.statics.readHttpReplyFirst = false
  owned : Owned stream channel c.tsFiles c.playlists

def Ended (stream : Stream) (channel : List UInt8) (fd : Nat) (stops : Nat) : CallEnd → Prop
  | .hangs => True
  | .outside => False
  | .deleted c => Left stream channel c ∧ Socket.stops c.socket < stops
  | .returns c => Course stream channel fd c ∧ c.viewer.flvHeader ≠ [] ∧ ¬ Whole c.viewer ∧ c.taken <+: stream.bytes
  | .stops c => Finished stream channel c

variable {limit stops total fd : Nat} {socket rest : List (Socket.ReadEvent UInt8)}
  {store : Viewer → List UInt8 → Viewer}

theorem Within.taken_prefix (within : Within stream limit stops taken socket) : taken <+: stream.bytes :=
  (List.prefix_append _ _).trans within.inside

theorem Course.handler (course : Course stream channel fd c) : c.statics.ftsHandler ≠ .closed := by
  rcases course.ready with opening | running
  · rw [opening.statics]
    decide
  · rw [running.handler]
    decide

/-! ### The parts of a call -/

/-- What a read took off the socket. -/
structure Took (socket : List (Socket.ReadEvent UInt8)) (stored : List UInt8)
    (rest : List (Socket.ReadEvent UInt8)) : Prop where
  stream : Socket.incoming socket = stored ++ Socket.incoming rest
  stops : Socket.stops rest ≤ Socket.stops socket

theorem Within.took (within : Within stream limit stops taken socket) (took : Took socket stored rest) :
    Within stream limit stops (taken ++ stored) rest where
  inside := by
    rw [List.append_assoc, ← took.stream]
    exact within.inside
  limit := by
    have length := congrArg List.length took.stream
    rw [List.length_append] at length ⊢
    have all := within.limit
    omega
  stops := took.stops.trans within.stops

/-- A part is read to its end, or the call returns in the middle of it, or the stream is at its end. -/
theorem readRest_ends (short : sofar.length < total) (c : Call) (store : Viewer → List UInt8 → Viewer) :
    Ends
      (fun e => e = .hangs ∨
        (∃ stored rest, e = .deleted (c.took stored rest) ∧ Took c.socket stored rest ∧
          Socket.stops rest < Socket.stops c.socket ∧ (sofar ++ stored).length < total) ∨
        ∃ stored rest, e = .returns { c.took stored rest with viewer := store c.viewer (sofar ++ stored) } ∧
          Took c.socket stored rest ∧ stored ≠ [] ∧ (sofar ++ stored).length < total)
      (fun c' => ∃ stored rest, c' = { c.took stored rest with viewer := store c.viewer (sofar ++ stored) } ∧
        Took c.socket stored rest ∧ (sofar ++ stored).length = total)
      (c.readRest total sofar store) := by
  have asked : 0 < total - sofar.length := by omega
  unfold Call.readRest
  split
  · exact .inl rfl
  · next r read =>
    obtain ⟨stream, stored⟩ := readSpecifySize_spec asked read
    obtain ⟨stops, told⟩ := readSpecifySize_stops asked read
    have length : (sofar ++ r.stored).length = sofar.length + r.stored.length := List.length_append
    dsimp only
    split
    · next nothing =>
      have less := (stored.resolve_right fun some_ => absurd some_.2.1 (by omega)).2
      exact .inr (.inl ⟨r.stored, r.socket, rfl, ⟨stream, stops⟩, told nothing, by omega⟩)
    · next some_ =>
      obtain ⟨ret, positive, fits⟩ := stored.resolve_left fun nothing => some_ nothing.1
      have filled : r.stored ≠ [] := List.length_pos_iff.mp (by omega)
      split
      · next full => exact ⟨r.stored, r.socket, rfl, ⟨stream, stops⟩, full⟩
      · next part => exact .inr (.inr ⟨r.stored, r.socket, rfl, ⟨stream, stops⟩, filled, by omega⟩)

theorem readRest_course (short : sofar.length < total) (course : Course stream channel fd c)
    (within : Within stream limit stops c.taken c.socket)
    (grows : ∀ stored, (sofar ++ stored).length ≤ total →
      Parts stream (store c.viewer (sofar ++ stored)) (c.taken ++ stored))
    (part : ∀ stored, (sofar ++ stored).length < total → ¬ Whole (store c.viewer (sofar ++ stored)))
    (returns : ∀ stored rest, stored ≠ [] → (sofar ++ stored).length < total →
      Course stream channel fd { c.took stored rest with viewer := store c.viewer (sofar ++ stored) } ∧
        (store c.viewer (sofar ++ stored)).flvHeader ≠ []) :
    Ends (Ended stream channel fd stops)
      (fun c' => ∃ stored rest, c' = { c.took stored rest with viewer := store c.viewer (sofar ++ stored) } ∧
        (sofar ++ stored).length = total ∧ Within stream limit stops (c.taken ++ stored) rest)
      (c.readRest total sofar store) := by
  refine (readRest_ends short c store).mono ?_ ?_
  · rintro e (rfl | ⟨stored, rest, rfl, took, told, less⟩ | ⟨stored, rest, rfl, took, filled, less⟩)
    · exact True.intro
    · have after := within.took took
      have none_ := (grows stored (Nat.le_of_lt less)).complete_eq_zero after.taken_prefix (part stored less)
      exact ⟨⟨course.handled, none_, course.first, course.handler, course.owned⟩, Nat.lt_of_lt_of_le told within.stops⟩
    · have after := within.took took
      obtain ⟨on, begun⟩ := returns stored rest filled less
      exact ⟨on, begun, part stored less, after.taken_prefix⟩
  · rintro c' ⟨stored, rest, rfl, took, full⟩
    exact ⟨stored, rest, rfl, full, within.took took⟩

/-- A call that goes on behind the header. -/
structure Going (stream : Stream) (channel : List UInt8) (fd : Nat) (limit stops : Nat) (c : Call) : Prop where
  kept : Kept stream channel fd c
  running : Running channel c
  within : Within stream limit stops c.taken c.socket

theorem Going.course (going : Going stream channel fd limit stops c) : Course stream channel fd c :=
  ⟨going.kept, .inr going.running⟩

theorem Parts.withUrls (parts : Parts stream viewer taken) (tsUrlsPool : List (List UInt8)) :
    Parts stream { viewer with tsUrlsPool } taken :=
  ⟨parts.bytes, parts.header, parts.size, parts.tagHeader, parts.data, parts.noSize, parts.noHeader, parts.noData⟩

theorem createTs_for (config : c.statics.m3u8Config.For channel) :
    c.createTs = { c with
      statics := { c.statics with ftsHandler := .opened }
      tsFiles := ⟨directoryOf channel, tsUrl channel c.statics.m3u8Config.mediaCurSequence, []⟩ :: c.tsFiles
      viewer := { c.viewer with tsUrlsPool := c.viewer.tsUrlsPool ++
        [tsUrl channel c.statics.m3u8Config.mediaCurSequence] } } := by
  unfold Call.createTs
  rw [createTsFile_for config, config.directory]

theorem Kept.createTs (kept : Kept stream channel fd c) (config : c.statics.m3u8Config.For channel) :
    Kept stream channel fd c.createTs := by
  rw [createTs_for config]
  refine ⟨kept.watcher, kept.parts.withUrls _, kept.sized, kept.handled, kept.first, fun file member => ?_,
    kept.owned.playlist⟩
  rcases List.mem_cons.mp member with rfl | member
  · exact ⟨rfl, fun frame none_ => absurd none_ List.not_mem_nil⟩
  · exact kept.owned.files file member

theorem Prepared.createTs (prepared : Prepared channel c) : Running channel c.createTs := by
  rw [createTs_for prepared.config]
  refine ⟨⟨prepared.header, prepared.theFirst, prepared.config, prepared.decoder, prepared.aac, prepared.avc,
    prepared.h264Pts, prepared.listed, fun url member => ?_⟩, rfl, List.cons_ne_nil _ _⟩
  rcases List.mem_append.mp member with before | new
  · exact prepared.urls url before
  · exact ⟨_, List.mem_singleton.mp new⟩

theorem Going.of_createTs (kept : Kept stream channel fd c) (prepared : Prepared channel c)
    (within : Within stream limit stops c.taken c.socket) : Going stream channel fd limit stops c.createTs where
  kept := kept.createTs prepared.config
  running := prepared.createTs
  within := by
    rw [createTs_for prepared.config]
    exact within

theorem readFlvHeader_ends {D : Prop} (course : Course stream channel fd c) (named : channel ≠ [])
    (within : Within stream limit stops c.taken c.socket) (divided : Divided c.statics setting → D) :
    Ends (Ended stream channel fd stops)
      (fun c' => Going stream channel fd limit stops c' ∧ (Divided c'.statics setting → D))
      (c.readFlvHeader setting channel) := by
  unfold Call.readFlvHeader
  split
  · next first =>
    rcases course.ready with opening | running
    · have size := course.parts.noSize first.2
      have tagHeader := course.parts.noHeader (by rw [size]; decide)
      have noHeader : ¬ c.viewer.flvTagHeader.length = tagHeaderSize := by
        rw [tagHeader]
        decide
      refine Ends.bind (readRest_course first.2 course within ?_ ?_ ?_) ?_
      · exact fun stored fits => course.parts.withHeader first.2 fits
      · exact fun _ _ whole => noHeader whole.1
      · intro stored rest filled less
        have kept : Kept stream channel fd { c.took stored rest with
            viewer := { c.viewer with flvHeader := c.viewer.flvHeader ++ stored } } :=
          ⟨course.watcher, course.parts.withHeader first.2 (Nat.le_of_lt less), fun full =>
            absurd full noHeader, course.handled,
            course.first, course.owned⟩
        refine ⟨⟨kept, .inl ⟨opening.statics, opening.tsFiles, opening.playlists, less, opening.urls⟩⟩, ?_⟩
        exact fun empty => filled (List.append_eq_nil_iff.mp empty).2
      · rintro c' ⟨stored, rest, rfl, full, after⟩
        have config : M3u8Config.For ⟨directoryOf channel, channel, setting.timestamp, 1, 15, 4, 3⟩ channel :=
          ⟨rfl, rfl, named, setting.started⟩
        have statics := opening.statics
        refine ⟨Going.of_createTs ?_ ?_ after, fun later => divided (.inr ?_)⟩
        · exact ⟨course.watcher, course.parts.withHeader first.2 (Nat.le_of_eq full), fun read =>
            absurd read noHeader, course.handled,
            course.first, course.owned⟩
        · refine ⟨full, rfl, config, ?_, ?_, ?_, ?_, fun listed => ?_, fun url member => ?_⟩
          · show c.statics.decoder = .start
            rw [statics]
            rfl
          · show c.statics.aacEsQueue = []
            rw [statics]
            rfl
          · show c.statics.avcEsQueue = []
            rw [statics]
            rfl
          · show c.statics.segments.h264Pts = 0
            rw [statics]
            rfl
          · change c.statics.initFirst = false at listed
            rw [statics] at listed
            cases listed
          · change url ∈ c.viewer.tsUrlsPool at member
            rw [opening.urls] at member
            cases member
        · rw [if_pos first.1]
          unfold Call.firstSegment at later
          rw [createTs_for config] at later
          rcases later with marked | due
          · change c.statics.firstCreateTs = true at marked
            rw [statics] at marked
            cases marked
          · exact due
    · rw [running.theFirst] at first
      cases first.1
  · next later =>
    rcases course.ready with opening | running
    · refine absurd ⟨?_, opening.short⟩ later
      rw [opening.statics]
      rfl
    · exact ⟨⟨course.toKept, running, within⟩, divided⟩

theorem addTsUrl_going (going : Going stream channel fd limit stops c)
    (there : c.playlists (playlistOf channel) ≠ none) :
    ∃ c', c.addTsUrl = .ok c' ∧ Going stream channel fd limit stops c' ∧ c'.playlists (playlistOf channel) ≠ none := by
  obtain ⟨kept, running, within⟩ := going
  obtain ⟨pool, playlists, added, own, listed, urls⟩ :=
    addTsUrl2M3u8File_own running.config kept.owned.playlist there running.urls
  unfold Call.addTsUrl
  rw [added]
  refine ⟨_, rfl, ⟨?_, ?_, within⟩, listed⟩
  · exact ⟨kept.watcher, kept.parts.withUrls pool, kept.sized, kept.handled, kept.first, kept.owned.files, own⟩
  · exact ⟨⟨running.header, running.theFirst, running.config, running.decoder, running.aac, running.avc,
      running.h264Pts, fun _ => listed, urls⟩, running.handler, running.tsFiles⟩

theorem createPlaylist_going (going : Going stream channel fd limit stops c) :
    ∃ c', c.createPlaylist = .ok c' ∧ Going stream channel fd limit stops c' ∧
      c'.playlists (playlistOf channel) ≠ none := by
  obtain ⟨kept, running, within⟩ := going
  unfold Call.createPlaylist
  split
  · obtain ⟨own, listed⟩ := createM3u8File_own running.config kept.owned.playlist
    refine addTsUrl_going ⟨?_, ?_, within⟩ listed
    · exact ⟨kept.watcher, kept.parts, kept.sized, kept.handled, kept.first, kept.owned.files, own⟩
    · exact ⟨⟨running.header, running.theFirst, running.config, running.decoder, running.aac, running.avc,
        running.h264Pts, fun _ => listed, running.urls⟩, running.handler, running.tsFiles⟩
  · next made => exact ⟨c, rfl, ⟨kept, running, within⟩, running.listed (Bool.eq_false_iff.mpr made)⟩

theorem nextSegment_going (going : Going stream channel fd limit stops c)
    (there : c.playlists (playlistOf channel) ≠ none) :
    ∃ c', c.nextSegment setting = .ok c' ∧ Going stream channel fd limit stops c' := by
  obtain ⟨kept, running, within⟩ := going
  have config : M3u8Config.For { c.statics.m3u8Config with
      timestamp := setting.now
      mediaCurSequence := c.statics.m3u8Config.mediaCurSequence + 1 } channel :=
    ⟨running.config.directory, running.config.name, running.config.named, setting.started.trans_le setting.ordered⟩
  unfold Call.nextSegment
  rw [if_neg (not_not_intro running.handler)]
  obtain ⟨c', added, going', _⟩ := addTsUrl_going (Going.of_createTs (c := { c with statics := { c.statics with
      prev := setting.now
      m3u8Config := { c.statics.m3u8Config with
        timestamp := setting.now
        mediaCurSequence := c.statics.m3u8Config.mediaCurSequence + 1 }
      firstCreateTs := true
      segments := c.statics.segments.createTsFile } })
    ⟨kept.watcher, kept.parts, kept.sized, kept.handled, kept.first, kept.owned⟩
    ⟨running.header, running.theFirst, config, running.decoder, running.aac, running.avc, rfl,
      running.listed, running.urls⟩
    within) (by
      rw [createTs_for config]
      exact there)
  exact ⟨c', added, going'⟩

theorem changeSegment_ends {D : Prop} (going : Going stream channel fd limit stops c)
    (divided : Divided c.statics setting → D) :
    Ends (Ended stream channel fd stops)
      (fun c' => Going stream channel fd limit stops c' ∧ (c'.statics.firstCreateTs → D))
      (c.changeSegment setting) := by
  unfold Call.changeSegment
  split
  · next due =>
    obtain ⟨c₁, made, going₁, there⟩ := createPlaylist_going going
    obtain ⟨c₂, next_, going₂⟩ := nextSegment_going going₁ there
    rw [made]
    show Ends _ _ (c₁.nextSegment setting)
    rw [next_]
    refine ⟨going₂, fun _ => divided (.inr ?_)⟩
    rw [if_neg (by rw [going.running.theFirst]; decide)]
    exact due
  · exact ⟨going, fun marked => divided (.inl marked)⟩

/-! ### The parts of a tag -/

theorem Running.withViewer (running : Running channel c) (header : viewer.flvHeader = c.viewer.flvHeader)
    (urls : viewer.tsUrlsPool = c.viewer.tsUrlsPool) (stored : List UInt8) (rest : List (Socket.ReadEvent UInt8)) :
    Running channel { c.took stored rest with viewer } where
  header := (congrArg List.length header).trans running.header
  theFirst := running.theFirst
  config := running.config
  decoder := running.decoder
  aac := running.aac
  avc := running.avc
  h264Pts := running.h264Pts
  listed := running.listed
  urls := fun url member => running.urls url (urls ▸ member)
  handler := running.handler
  tsFiles := running.tsFiles

theorem readRest_going (short : sofar.length < total) (going : Going stream channel fd limit stops c)
    (same : ∀ bytes, (store c.viewer bytes).flvHeader = c.viewer.flvHeader ∧
      (store c.viewer bytes).tsUrlsPool = c.viewer.tsUrlsPool)
    (grows : ∀ stored, (sofar ++ stored).length ≤ total →
      Parts stream (store c.viewer (sofar ++ stored)) (c.taken ++ stored))
    (part : ∀ stored, (sofar ++ stored).length < total → ¬ Whole (store c.viewer (sofar ++ stored)))
    (kept : ∀ stored rest, (sofar ++ stored).length < total →
      Kept stream channel fd { c.took stored rest with viewer := store c.viewer (sofar ++ stored) }) :
    Ends (Ended stream channel fd stops)
      (fun c' => ∃ stored rest, c' = { c.took stored rest with viewer := store c.viewer (sofar ++ stored) } ∧
        (sofar ++ stored).length = total ∧ Within stream limit stops (c.taken ++ stored) rest ∧ Running channel c')
      (c.readRest total sofar store) := by
  have running : ∀ stored rest, Running channel { c.took stored rest with
      viewer := store c.viewer (sofar ++ stored) } :=
    fun stored rest => going.running.withViewer (same _).1 (same _).2 stored rest
  refine (readRest_course short going.course going.within grows part ?_).mono (fun _ ended => ended) ?_
  · intro stored rest _ less
    refine ⟨⟨kept stored rest less, .inr (running stored rest)⟩, fun empty => ?_⟩
    have length := going.running.header
    rw [← (same (sofar ++ stored)).1, empty] at length
    exact absurd length (by decide)
  · rintro c' ⟨stored, rest, rfl, full, after⟩
    exact ⟨stored, rest, rfl, full, after, running stored rest⟩

theorem readPreviousTagSize_ends {D : Prop} (going : Going stream channel fd limit stops c)
    (divided : c.statics.firstCreateTs → D) :
    Ends (Ended stream channel fd stops)
      (fun c' => Going stream channel fd limit stops c' ∧ (c'.statics.firstCreateTs → D) ∧
        c'.viewer.previousTagSize.length = previousTagSize)
      c.readPreviousTagSize := by
  have kept := going.kept
  unfold Call.readPreviousTagSize
  split
  · next short =>
    have noHeader : ¬ c.viewer.flvTagHeader.length = tagHeaderSize := by
      rw [kept.parts.noHeader short]
      decide
    have grows := fun stored => @Parts.withSize stream c.taken stored c.viewer kept.parts short going.running.header
    refine (readRest_going short going (fun _ => ⟨rfl, rfl⟩) grows (fun _ _ whole => noHeader whole.1) ?_).mono
      (fun _ ended => ended) ?_
    · exact fun stored rest less => ⟨kept.watcher, grows stored (Nat.le_of_lt less), kept.sized, kept.handled,
        kept.first, kept.owned⟩
    · rintro c' ⟨stored, rest, rfl, full, after, running⟩
      exact ⟨⟨⟨kept.watcher, grows stored (Nat.le_of_eq full), kept.sized, kept.handled, kept.first, kept.owned⟩,
        running, after⟩,
        divided, full⟩
  · next read => exact ⟨going, divided, Nat.le_antisymm kept.parts.size (Nat.le_of_not_lt read)⟩

theorem readTagHeader_ends {D : Prop} (going : Going stream channel fd limit stops c)
    (divided : c.statics.firstCreateTs → D)
    (before : c.viewer.previousTagSize.length = previousTagSize) :
    Ends (Ended stream channel fd stops)
      (fun c' => Going stream channel fd limit stops c' ∧ (c'.statics.firstCreateTs → D) ∧
        c'.viewer.flvTagHeader.length = tagHeaderSize)
      c.readTagHeader := by
  have kept := going.kept
  unfold Call.readTagHeader
  split
  · next short =>
    have grows := fun stored => @Parts.withTagHeader stream c.taken stored c.viewer kept.parts short before
    refine (readRest_going short going (fun _ => ⟨rfl, rfl⟩) grows ?_ ?_).bind ?_
    · exact fun _ less whole => absurd whole.1 (Nat.ne_of_lt less)
    · exact fun stored rest less =>
        ⟨kept.watcher, grows stored (Nat.le_of_lt less), fun full =>
          absurd full (Nat.ne_of_lt less), kept.handled, kept.first, kept.owned⟩
    · rintro c' ⟨stored, rest, rfl, full, after, running⟩
      have parts := grows stored (Nat.le_of_eq full)
      refine ⟨⟨⟨kept.watcher, ⟨parts.bytes, parts.header, parts.size, parts.tagHeader, parts.data,
        parts.noSize, parts.noHeader,
        parts.noData⟩, fun _ => rfl, kept.handled, kept.first, kept.owned⟩, ?_, after⟩, divided, full⟩
      exact ⟨⟨running.header, running.theFirst, running.config, running.decoder, running.aac, running.avc,
        running.h264Pts, running.listed, running.urls⟩, running.handler, running.tsFiles⟩
  · next read => exact ⟨going, divided, Nat.le_antisymm kept.parts.tagHeader (Nat.le_of_not_lt read)⟩

theorem readTagData_ends {D : Prop} (going : Going stream channel fd limit stops c)
    (divided : c.statics.firstCreateTs → D)
    (before : c.viewer.flvTagHeader.length = tagHeaderSize) :
    Ends (Ended stream channel fd stops)
      (fun c' => Going stream channel fd limit stops c' ∧ (c'.statics.firstCreateTs → D) ∧ Whole c'.viewer)
      c.readTagData := by
  have kept := going.kept
  have size := kept.sized before
  unfold Call.readTagData
  split
  · next part =>
    have short : c.viewer.flvTagData.length < c.viewer.flvTagDataTotalBytes := by
      rw [size] at part ⊢
      exact Nat.lt_of_le_of_ne kept.parts.data part
    have grows := fun stored => @Parts.withData stream c.taken stored c.viewer kept.parts before
    rw [← size] at grows
    refine (readRest_going short going (fun _ => ⟨rfl, rfl⟩) grows ?_ ?_).mono (fun _ ended => ended) ?_
    · exact fun stored less whole => absurd (whole.2.trans size.symm) (Nat.ne_of_lt less)
    · exact fun stored rest less => ⟨kept.watcher, grows stored (Nat.le_of_lt less), kept.sized, kept.handled,
        kept.first, kept.owned⟩
    · rintro c' ⟨stored, rest, rfl, full, after, running⟩
      exact ⟨⟨⟨kept.watcher, grows stored (Nat.le_of_eq full), kept.sized, kept.handled, kept.first, kept.owned⟩,
        running, after⟩,
        divided, before, full.trans size⟩
  · next read => exact ⟨going, divided, before, (not_not.mp read).trans size⟩

/-! ### The tag -/

structure Handled (stream : Stream) (channel : List UInt8) (c : Call) : Prop where
  finished : Finished stream channel c
  handler : c.statics.ftsHandler = .opened
  tsFiles : c.tsFiles ≠ []
  h264Pts : c.statics.segments.h264Pts = 0
  avc : ∀ frame ∈ c.statics.avcEsQueue, frame.frameBuffer ∈ framesOf .start stream.tags

theorem handleTag_ends {D : Prop} (going : Going stream channel fd limit stops c)
    (divided : c.statics.firstCreateTs → D)
    (whole : Whole c.viewer)
    (last : ∀ tag rest, stream.tags = tag :: rest → stream.opening.length + tag.bytes.length ≤ limit →
      rest = [] ∧ tag.Fits ∧ (D → tag.IsPicture)) :
    Ends (Ended stream channel fd stops)
      (fun c' => Handled stream channel c' ∧ (c'.statics.firstCreateTs → c'.statics.avcEsQueue ≠ []))
      c.handleTag := by
  obtain ⟨kept, running, within⟩ := going
  obtain ⟨tag, rest, all, header, data, bytes, taken⟩ := kept.parts.whole_tag within.taken_prefix whole
  have reached : stream.opening.length + tag.bytes.length ≤ limit := by
    have length := congrArg List.length taken
    rw [List.length_append] at length
    have limited := within.limit
    omega
  obtain ⟨rfl, fits, picture⟩ := last tag rest all reached
  obtain ⟨d, frames, handled, filled⟩ := handleTag_fits fits
  unfold Call.handleTag
  rw [running.decoder, header, data, handled]
  have avc : ∀ frame ∈ frames.avc, frame.frameBuffer ∈ framesOf .start stream.tags := by
    intro frame member
    rw [all]
    exact mem_framesOf handled (List.mem_append_right _ member)
  refine ⟨⟨⟨⟨tag, all, ?_⟩, ?_, kept.first, kept.owned⟩, running.handler, running.tsFiles, running.h264Pts, ?_⟩,
    fun marked => ?_⟩
  · dsimp only
    rw [kept.handled, ← header, ← data, bytes, List.nil_append]
  · dsimp only
    rw [taken, Stream.bytes, all, List.flatMap_singleton]
  · dsimp only
    rw [running.avc, List.nil_append]
    exact avc
  · dsimp only
    rw [running.avc, List.nil_append]
    exact filled (picture (divided marked))

theorem awaitKeyFrame_ends (handled : Handled stream channel c)
    (filled : c.statics.firstCreateTs → c.statics.avcEsQueue ≠ []) :
    Ends (Ended stream channel fd stops) (Handled stream channel) (c.awaitKeyFrame setting) := by
  obtain ⟨finished, handler, tsFiles, h264Pts, avc⟩ := handled
  have same : ∀ statics : Statics, statics.readHttpReplyFirst = c.statics.readHttpReplyFirst →
      Finished stream channel { c with statics } := fun statics first =>
    ⟨finished.only, finished.taken, first.trans finished.first, finished.owned⟩
  unfold Call.awaitKeyFrame
  split
  · next marked =>
    split
    · next empty => exact filled marked empty
    · next frame rest queue =>
      split
      · exact ⟨same _ rfl, handler, tsFiles, rfl, avc⟩
      · refine ⟨same _ rfl, handler, tsFiles, h264Pts, fun later member => avc later ?_⟩
        rw [queue]
        exact List.mem_cons_of_mem _ member
  · exact ⟨finished, handler, tsFiles, h264Pts, avc⟩

theorem writeH264_runs (segments : Segments) (frame : List UInt8) (pes : TsPes) (head tail : TsAdaptationField) :
    ∃ segments', segments.writeH264 frame pes head tail = some segments' := by
  by_cases empty : frame = []
  · subst empty
    exact ⟨segments, rfl⟩
  · obtain ⟨muxer, ran⟩ := writeH264_eq segments empty pes head tail
    exact ⟨_, ran⟩

theorem wrote_ends {frame : List UInt8} (segments : Segments) (finished : Finished stream channel c)
    (handler : c.statics.ftsHandler = .opened) (tsFiles : c.tsFiles ≠ []) (own : frame ∈ framesOf .start stream.tags) :
    Ends (Ended stream channel fd stops) (Finished stream channel) (c.wrote frame segments) := by
  unfold Call.wrote
  split
  · exact ⟨finished.only, finished.taken, finished.first, finished.owned⟩
  · split
    · next empty => exact tsFiles empty
    · next file files known =>
      refine ⟨finished.only, finished.taken, finished.first, fun other member => ?_, finished.owned.playlist⟩
      have before := finished.owned.files
      rw [known] at before
      rcases List.mem_cons.mp member with rfl | member
      · obtain ⟨directory, frames⟩ := before file List.mem_cons_self
        refine ⟨directory, fun other member => ?_⟩
        rcases List.mem_append.mp member with old | new
        · exact frames other old
        · rw [List.mem_singleton.mp new]
          exact own
      · exact before other (List.mem_cons_of_mem _ member)

theorem writeFrame_ends (handled : Handled stream channel c) :
    Ends (Ended stream channel fd stops) (Finished stream channel) (c.writeFrame setting) := by
  obtain ⟨finished, handler, tsFiles, h264Pts, avc⟩ := handled
  have noAudio : ¬ c.statics.segments.aacPts < c.statics.segments.h264Pts := by
    rw [h264Pts]
    exact UInt64.not_lt.mpr UInt64.zero_le
  unfold Call.writeFrame
  split
  · exact finished
  · dsimp only
    split
    · next empty => cases empty
    · next frame rest _ queue =>
      obtain ⟨segments, ran⟩ := writeH264_runs c.statics.segments frame.frameBuffer setting.pes
        setting.head setting.tail
      rw [ran]
      refine wrote_ends segments ⟨finished.only, finished.taken, finished.first, finished.owned⟩ handler
        tsFiles (avc frame ?_)
      rw [queue]
      exact List.mem_cons_self
    · exact finished

/-! ### The call -/

/-- The body of the callback behind the reply. -/
def Call.behindReply (setting : Setting) (channel : List UInt8) (c : Call) : Except CallEnd Call := do
  let c ← c.readFlvHeader setting channel
  let c ← c.changeSegment setting
  let c ← c.readPreviousTagSize
  let c ← c.readTagHeader
  let c ← c.readTagData
  let c ← c.handleTag
  let c ← c.awaitKeyFrame setting
  c.writeFrame setting

theorem behindReply_ends {D : Prop} (course : Course stream channel fd c) (named : channel ≠ [])
    (within : Within stream limit stops c.taken c.socket) (divided : Divided c.statics setting → D)
    (last : ∀ tag rest, stream.tags = tag :: rest → stream.opening.length + tag.bytes.length ≤ limit →
      rest = [] ∧ tag.Fits ∧ (D → tag.IsPicture)) :
    Ends (Ended stream channel fd stops) (Finished stream channel) (c.behindReply setting channel) := by
  refine (readFlvHeader_ends course named within divided).bind fun c ⟨going, divided⟩ => ?_
  refine (changeSegment_ends going divided).bind fun c ⟨going, divided⟩ => ?_
  refine (readPreviousTagSize_ends going divided).bind fun c ⟨going, divided, size⟩ => ?_
  refine (readTagHeader_ends going divided size).bind fun c ⟨going, divided, header⟩ => ?_
  refine (readTagData_ends going divided header).bind fun c ⟨going, divided, whole⟩ => ?_
  refine (handleTag_ends going divided whole last).bind fun c ⟨handled, filled⟩ => ?_
  exact (awaitKeyFrame_ends handled filled).bind fun c handled => writeFrame_ends handled

/-- A body that is left at its end stops the watcher. -/
def Call.leave : Except CallEnd Call → CallEnd
  | .error ended => ended
  | .ok c => .stops c.finish

theorem receiveStreamCb_eq (setting : Setting) (channel : List UInt8) (c : Call) :
    receiveStreamCb setting channel c = Call.leave
      (c.readReply setting >>= fun c => c.behindReply setting channel) := rfl

theorem leave_ended {body : Except CallEnd Call} (ends : Ends (Ended stream channel fd stops)
    (Finished stream channel) body) :
    Ended stream channel fd stops (Call.leave body) := by
  cases body with
  | error ended => exact ends
  | ok c => exact ⟨ends.only, ends.taken, ends.first, ends.owned⟩

theorem receiveStreamCb_course {D : Prop} (course : Course stream channel fd c) (named : channel ≠ [])
    (within : Within stream limit stops c.taken c.socket) (divided : Divided c.statics setting → D)
    (last : ∀ tag rest, stream.tags = tag :: rest → stream.opening.length + tag.bytes.length ≤ limit →
      rest = [] ∧ tag.Fits ∧ (D → tag.IsPicture)) :
    Ended stream channel fd stops (receiveStreamCb setting channel c) := by
  have replied : c.readReply setting = .ok c := by
    unfold Call.readReply
    rw [if_neg]
    rintro ⟨_, unread⟩
    rw [course.first] at unread
    cases unread
  rw [receiveStreamCb_eq, replied]
  exact leave_ended (behindReply_ends course named within divided last)

theorem Parts.replied (stream : Stream) (fd : Nat) : Parts stream (.start fd) stream.reply where
  bytes := (List.append_nil _).symm
  header := Nat.zero_le _
  size := Nat.zero_le _
  tagHeader := Nat.zero_le _
  data := Nat.zero_le _
  noSize := fun _ => rfl
  noHeader := fun _ => rfl
  noData := fun _ => rfl

/-- The first call of all that gets past a reply, or one that meets the end of its stream before. -/
theorem receiveStreamCb_first {D : Prop} {playlists : Files} (named : channel ≠ [])
    (nothing : playlists = fun _ => none) (within : Within stream limit stops [] socket)
    (prompt : (∀ gone ∈ setting.header.elapsed, gone < 20) ∧ Unbroken stream.reply setting.header.junk socket)
    (divided : Divided .start setting → D)
    (last : ∀ tag rest, stream.tags = tag :: rest → stream.opening.length + tag.bytes.length ≤ limit →
      rest = [] ∧ tag.Fits ∧ (D → tag.IsPicture)) :
    Ended stream channel fd stops (receiveStreamCb setting channel ⟨.start, [], playlists, .start fd, socket, [], []⟩) ∨
      ∃ stored rest, receiveStreamCb setting channel ⟨.start, [], playlists, .start fd, socket, [], []⟩ =
          .deleted ⟨.start, [], playlists, .start fd, rest, stored, []⟩ ∧
        Socket.stops rest < stops ∧ stored.length < stream.reply.length := by
  rw [receiveStreamCb_eq]
  unfold Call.readReply
  rw [if_pos ⟨rfl, rfl⟩]
  dsimp only
  cases read : readHttpHeader 1024 setting.header socket with
  | none => exact .inl True.intro
  | some r =>
    have inside : Socket.incoming socket <+: stream.reply ++
      (stream.flvHeader ++ stream.tags.flatMap FlvTag.bytes) := by
      rw [← List.append_assoc]
      exact within.inside
    rcases readHttpHeader_reply stream.replied stream.reply_length inside prompt.1 prompt.2 read with
      ⟨ret, stored, later, same⟩ | ⟨ret, told, taken, stored, later, less⟩
    · have filled := List.length_pos_of_ne_nil stream.replied.ne_nil
      rw [List.nil_append] at ret stored
      refine .inl ?_
      dsimp only
      rw [if_neg (by omega), stored]
      refine leave_ended (behindReply_ends ⟨⟨rfl, Parts.replied stream fd, fun full => ?_, rfl, rfl, ?_⟩, .inl ?_⟩ named
        (within.took ⟨later, Nat.le_of_eq same⟩) divided last)
      · cases full
      · refine ⟨fun file none_ => absurd none_ List.not_mem_nil, fun path pieces known => ?_⟩
        change playlists path = some pieces at known
        rw [nothing] at known
        cases known
      · exact ⟨rfl, rfl, nothing, (show 0 < flvHeaderSize by decide), rfl⟩
    · refine .inr ⟨taken, r.socket, ?_, Nat.lt_of_lt_of_le told within.stops, less⟩
      dsimp only
      rw [if_pos (by omega), stored]
      rfl

end LiveStreaming.HappyHls.ReceiveStream
