import LiveStreaming.HappyHls.TagCalls
import Mathlib.Algebra.Ring.Nat
import Mathlib.Data.List.Range

/-!
# The window of the playlist

The playlist is made when the first segment of a channel ends, and changed whenever a segment does: up to the third
segment a line is put behind it, and from then on it is written anew with the last three names of the pool.
-/

namespace LiveStreaming.HappyHls.ReceiveStream
open Library EarlyExit CString Streamer

/-! ### The texts -/

/-- The number that a playlist starts with where `last` is the newest segment. -/
def mediaSequence (last : Nat) : Nat := max 1 (last - 2)

/-- The numbers of the segments that are listed. -/
def window (last : Nat) : List Nat := List.range' (mediaSequence last) (last + 1 - mediaSequence last)

def playlistHead (sequence : Nat) : List UInt8 :=
  ascii "#EXTM3U\n#EXT-X-TARGETDURATION:15\n#EXT-X-VERSION:3\n#EXT-X-MEDIA-SEQUENCE:" ++ ascii (toString sequence) ++
    ascii "\n"

def playlistEntry (channel : List UInt8) (sequence : Nat) : List UInt8 :=
  ascii "#EXTINF:15,\n" ++ tsUrl channel sequence ++ ascii "\n"

/-- A playlist of the segments from one number to another. -/
def playlistText (channel : List UInt8) (first last : Nat) : List UInt8 :=
  playlistHead first ++ (List.range' first (last + 1 - first)).flatMap (playlistEntry channel)

theorem window_one : window 1 = [1] := rfl

theorem mem_window {last n : Nat} (some_ : 1 ≤ last) :
    n ∈ window last ↔ mediaSequence last ≤ n ∧ n ≤ last := by
  unfold window
  rw [List.mem_range'_1]
  unfold mediaSequence
  omega

theorem mediaSequence_bounds {last : Nat} (some_ : 1 ≤ last) :
    1 ≤ mediaSequence last ∧ mediaSequence last ≤ last ∧ last < mediaSequence last + 3 := by
  unfold mediaSequence
  omega

/-- Up to the third segment the window only gets longer. -/
theorem window_few {last : Nat} (some_ : 1 ≤ last) (few : last < 3) :
    window (last + 1) = window last ++ [last + 1] := by
  have first : mediaSequence last = 1 := by
    unfold mediaSequence
    omega
  have still : mediaSequence (last + 1) = 1 := by
    unfold mediaSequence
    omega
  rw [window, window, first, still, Nat.add_sub_cancel, Nat.add_sub_cancel, List.range'_concat]
  rw [Nat.one_mul, Nat.add_comm 1 last]

/-- From then on it moves. -/
theorem window_many {last : Nat} (many : 3 ≤ last) : window (last + 1) = (window last ++ [last + 1]).tail := by
  obtain ⟨n, rfl⟩ := Nat.exists_eq_add_of_le' many
  have first : mediaSequence (n + 3) = n + 1 := by
    unfold mediaSequence
    omega
  have next : mediaSequence (n + 3 + 1) = n + 2 := by
    unfold mediaSequence
    omega
  have three : n + 3 + 1 - (n + 1) = 3 := by omega
  have three' : n + 3 + 1 + 1 - (n + 2) = 3 := by omega
  rw [window, window, first, next, three, three']
  rfl

theorem length_window {last : Nat} (some_ : 1 ≤ last) : (window last).length = min 3 last := by
  unfold window
  rw [List.length_range']
  unfold mediaSequence
  omega

/-- The settings that every playlist is made with. -/
structure Standard (m3u8Config : M3u8Config) (channel : List UInt8) : Prop extends m3u8Config.For channel where
  targetDuration : m3u8Config.targetDuration = 15
  totalTsUrls : m3u8Config.totalTsUrls = 4
  version : m3u8Config.version = 3
  first : 1 ≤ m3u8Config.mediaCurSequence

variable {channel : List UInt8} {m3u8Config : M3u8Config}

theorem length_digits {n : Nat} (small : n < 2 ^ 63) : (ascii (toString n)).length ≤ 19 := by
  have digits : (Nat.toDigits 10 n).length ≤ 19 :=
    (Nat.length_toDigits_le_iff (by decide) (by decide)).mpr (Nat.lt_of_lt_of_le small (by decide))
  rw [ascii, List.length_map]
  exact Nat.toList_repr (n := n) ▸ digits

/-- The number in the head is that of the first segment in the window. -/
theorem headSequence (last : Nat) : (if 3 < last then last - 4 + 2 else 1) = mediaSequence last := by
  unfold mediaSequence
  split <;> omega

theorem m3u8Head_eq (standard : Standard m3u8Config channel) :
    m3u8Head m3u8Config = truncate 199 (playlistHead (mediaSequence m3u8Config.mediaCurSequence)) := by
  rw [m3u8Head, standard.targetDuration, standard.totalTsUrls, standard.version, headSequence]
  rfl

theorem extInf_eq (standard : Standard m3u8Config channel) (n : Nat) :
    extInf m3u8Config (tsUrl channel n) = truncate 99 (playlistEntry channel n) := by
  rw [extInf, standard.targetDuration]
  rfl

/-- The pieces of a playlist, as far as they fit the buffers. -/
def playlistPieces (channel : List UInt8) (last : Nat) : List (List UInt8) :=
  truncate 199 (playlistHead (mediaSequence last)) :: (window last).map fun n => truncate 99 (playlistEntry channel n)

/-- They fit, as the name is short and the counter is not past what is printed of it. -/
theorem playlistPieces_flatten (short : channel.length ≤ 32) {last : Nat} (some_ : 1 ≤ last) (small : last < 2 ^ 63) :
    (playlistPieces channel last).flatten = playlistText channel (mediaSequence last) last := by
  have bounds := mediaSequence_bounds some_
  have head : truncate 199 (playlistHead (mediaSequence last)) = playlistHead (mediaSequence last) := by
    have digits := length_digits (n := mediaSequence last) (by omega)
    refine truncate_eq ?_
    rw [playlistHead, List.length_append, List.length_append]
    change 72 + _ + 1 < 199
    omega
  have entries : (window last).map (fun n => truncate 99 (playlistEntry channel n)) =
      (window last).map (playlistEntry channel) := by
    refine List.map_congr_left fun n member => truncate_eq ?_
    have digits := length_digits (n := n) (by
      have inside := (mem_window some_).mp member
      omega)
    rw [playlistEntry, tsUrl]
    simp only [List.length_append]
    change 12 + (channel.length + 1 + _ + 3) + 1 < 99
    omega
  rw [playlistPieces, head, entries, List.flatten_cons, playlistText, List.flatMap_def]
  rfl

/-! ### What a change of the segment does to the playlist -/

variable {files : Files} {last : Nat}

/-- A window that has not been full gets its newest line behind it. -/
theorem addTsUrl2M3u8File_few (standard : Standard m3u8Config channel)
    {pool pieces : List (List UInt8)} {n : Nat} (few : pool.length < 3)
    (known : files (playlistOf channel) = some pieces) :
    ∃ files', addTsUrl2M3u8File (pool ++ [tsUrl channel n]) m3u8Config files =
      some (pool ++ [tsUrl channel n], files') ∧
      files' (playlistOf channel) = some (pieces ++ [truncate 99 (playlistEntry channel n)]) := by
  have old : m3u8Config.path ++ m3u8Config.channel ++ ascii ".m3u8" = playlistOf channel := by
    rw [standard.directory, standard.name, playlistOf]
  have room : (pool ++ [tsUrl channel n]).length < m3u8Config.totalTsUrls := by
    rw [List.length_append, standard.totalTsUrls]
    exact Nat.succ_lt_succ few
  have newest : (pool ++ [tsUrl channel n]).getLastD [] = tsUrl channel n := by
    rw [List.getLastD_eq_getLast?, List.getLast?_concat, Option.getD_some]
  refine ⟨Function.update files (playlistOf channel) (some (pieces ++ [truncate 99 (playlistEntry channel n)])), ?_,
    Function.update_self _ _ _⟩
  rw [addTsUrl2M3u8File, if_neg (List.append_ne_nil_of_right_ne_nil _ (List.cons_ne_nil _ _)), old]
  dsimp only
  rw [if_pos room, known, newest, extInf_eq standard]
  rfl

/-- A full one is written anew without its oldest line. -/
theorem addTsUrl2M3u8File_many (standard : Standard m3u8Config channel)
    {numbers : List Nat} (many : 4 ≤ numbers.length) (files : Files) :
    ∃ files', addTsUrl2M3u8File (numbers.map (tsUrl channel)) m3u8Config files =
        some (numbers.tail.map (tsUrl channel), files') ∧
      files' (playlistOf channel) = some (truncate 199 (playlistHead (mediaSequence m3u8Config.mediaCurSequence)) ::
        numbers.tail.map fun n => truncate 99 (playlistEntry channel n)) := by
  have old : m3u8Config.path ++ m3u8Config.channel ++ ascii ".m3u8" = playlistOf channel := by
    rw [standard.directory, standard.name, playlistOf]
  have filled : numbers.map (tsUrl channel) ≠ [] := by
    intro empty
    rw [List.map_eq_nil_iff.mp empty] at many
    exact absurd many (by decide)
  have full : ¬ (numbers.map (tsUrl channel)).length < m3u8Config.totalTsUrls := by
    rw [List.length_map, standard.totalTsUrls]
    omega
  have lines : (numbers.tail.map (tsUrl channel)).map (extInf m3u8Config) =
      numbers.tail.map fun n => truncate 99 (playlistEntry channel n) := by
    rw [List.map_map]
    exact List.map_congr_left fun n _ => extInf_eq standard n
  rw [addTsUrl2M3u8File, if_neg filled, old]
  dsimp only
  rw [if_neg full, createM3u8File_for standard.toFor]
  dsimp only
  rw [Function.update_self, Option.map_some, ← List.map_tail, lines, m3u8Head_eq standard]
  exact ⟨_, rfl, Function.update_self _ _ _⟩

/-- The line of the next segment moves the window on. -/
theorem addTsUrl2M3u8File_next (standard : Standard m3u8Config channel) (some_ : 1 ≤ last)
    (next : m3u8Config.mediaCurSequence = last + 1)
    (known : files (playlistOf channel) = some (playlistPieces channel last)) :
    ∃ files', addTsUrl2M3u8File ((window last).map (tsUrl channel) ++ [tsUrl channel (last + 1)]) m3u8Config files =
        some ((window (last + 1)).map (tsUrl channel), files') ∧
      files' (playlistOf channel) = some (playlistPieces channel (last + 1)) := by
  have length := length_window some_
  by_cases few : last < 3
  · have same : mediaSequence (last + 1) = mediaSequence last := by
      unfold mediaSequence
      omega
    obtain ⟨files', ran, now⟩ := addTsUrl2M3u8File_few (n := last + 1) standard
      (by rw [List.length_map]; omega : ((window last).map (tsUrl channel)).length < 3) known
    refine ⟨files', ?_, ?_⟩
    · rw [ran, window_few some_ few, List.map_append]
      rfl
    · rw [now, playlistPieces, playlistPieces, same, window_few some_ few, List.map_append]
      rfl
  · have many := Nat.not_lt.mp few
    obtain ⟨files', ran, now⟩ := @addTsUrl2M3u8File_many channel _ standard (window last ++ [last + 1])
      (by rw [List.length_append, length]; change 4 ≤ min 3 last + 1; omega) files
    refine ⟨files', ?_, ?_⟩
    · rw [List.map_append] at ran
      rw [window_many many]
      exact ran
    · rw [now, next, playlistPieces, window_many many]

/-! ### The state of a channel -/

/-- The first segment of the channel has been opened. Its segments are numbered from one on, the latest first, and the
pool has the names that are listed, or will be when the first segment ends. -/
structure Playing (channel : List UInt8) (before : Files) (c : Call) : Prop where
  standard : Standard c.statics.m3u8Config channel
  begun : c.statics.theFirst = false
  opened : c.statics.ftsHandler = .opened
  urls : c.tsFiles.map TsFile.url = (List.range' 1 c.statics.m3u8Config.mediaCurSequence).reverse.map (tsUrl channel)
  pool : c.viewer.tsUrlsPool = (window c.statics.m3u8Config.mediaCurSequence).map (tsUrl channel)
  unlisted : c.statics.initFirst = true → c.statics.m3u8Config.mediaCurSequence = 1 ∧ c.playlists = before
  listed : c.statics.initFirst = false →
    c.playlists (playlistOf channel) = some (playlistPieces channel c.statics.m3u8Config.mediaCurSequence)

/-- A part of a call that does not end the segment: at most the frames of the latest one are others. -/
structure SameWindow (c c' : Call) : Prop where
  m3u8Config : c'.statics.m3u8Config = c.statics.m3u8Config
  theFirst : c'.statics.theFirst = c.statics.theFirst
  initFirst : c'.statics.initFirst = c.statics.initFirst
  ftsHandler : c'.statics.ftsHandler = c.statics.ftsHandler
  pool : c'.viewer.tsUrlsPool = c.viewer.tsUrlsPool
  playlists : c'.playlists = c.playlists
  urls : c'.tsFiles.map TsFile.url = c.tsFiles.map TsFile.url
  earlier : c'.tsFiles.tail = c.tsFiles.tail

variable {setting : Setting} {before : Files} {c c' : Call}

theorem SameWindow.refl (c : Call) : SameWindow c c := ⟨rfl, rfl, rfl, rfl, rfl, rfl, rfl, rfl⟩

theorem SameWindow.trans {c₁ c₂ c₃ : Call} (first : SameWindow c₁ c₂) (second : SameWindow c₂ c₃) :
    SameWindow c₁ c₃ where
  m3u8Config := second.m3u8Config.trans first.m3u8Config
  theFirst := second.theFirst.trans first.theFirst
  initFirst := second.initFirst.trans first.initFirst
  ftsHandler := second.ftsHandler.trans first.ftsHandler
  pool := second.pool.trans first.pool
  playlists := second.playlists.trans first.playlists
  urls := second.urls.trans first.urls
  earlier := second.earlier.trans first.earlier

theorem Playing.same (playing : Playing channel before c) (same : SameWindow c c') : Playing channel before c' where
  standard := same.m3u8Config ▸ playing.standard
  begun := same.theFirst.trans playing.begun
  opened := same.ftsHandler.trans playing.opened
  urls := by rw [same.urls, same.m3u8Config, playing.urls]
  pool := by rw [same.pool, same.m3u8Config, playing.pool]
  unlisted := by
    rw [same.initFirst, same.m3u8Config, same.playlists]
    exact playing.unlisted
  listed := by
    rw [same.initFirst, same.m3u8Config, same.playlists]
    exact playing.listed

theorem Reads.sameWindow (reads : Reads c c') : SameWindow c c' where
  m3u8Config := by rw [reads.statics]
  theFirst := by rw [reads.statics]
  initFirst := by rw [reads.statics]
  ftsHandler := by rw [reads.statics]
  pool := reads.tsUrlsPool
  playlists := reads.playlists
  urls := by rw [reads.tsFiles]
  earlier := by rw [reads.tsFiles]

theorem wrote_sameWindow {frame : List UInt8} {segments : Segments} (wrote : c.wrote frame segments = .ok c') :
    SameWindow c c' := by
  rcases (wrote_straight c frame segments).of_ok wrote with ⟨_, rfl⟩ | ⟨_, _, file, files, known, rfl⟩
  · exact ⟨rfl, rfl, rfl, rfl, rfl, rfl, rfl, rfl⟩
  · refine ⟨rfl, rfl, rfl, rfl, rfl, rfl, ?_, ?_⟩
    · rw [known]
      rfl
    · rw [known]
      rfl

/-- What a call does with a tag leaves the window as it is. -/
theorem muxTag_sameWindow (muxed : c.muxTag setting = .ok c') : SameWindow c c' := by
  obtain ⟨c₁, handled, muxed⟩ := bind_ok muxed
  obtain ⟨c₂, awaited, wrote⟩ := bind_ok muxed
  have first : SameWindow c c₁ := by
    obtain ⟨decoder, frames, _, rfl⟩ := (handleTag_straight c).of_ok handled
    exact ⟨rfl, rfl, rfl, rfl, rfl, rfl, rfl, rfl⟩
  have second : SameWindow c₁ c₂ := by
    rcases (awaitKeyFrame_straight c₁).of_ok awaited with ⟨_, rfl⟩ | ⟨_, frame, rest, _, rfl | rfl⟩
    · exact .refl _
    · exact ⟨rfl, rfl, rfl, rfl, rfl, rfl, rfl, rfl⟩
    · exact ⟨rfl, rfl, rfl, rfl, rfl, rfl, rfl, rfl⟩
  have third : SameWindow c₂ c' := by
    rcases (writeFrame_straight c₂).of_ok wrote with ⟨_, rfl⟩ | ⟨_, ⟨frame, rest, segments, _, _, _, wrote⟩ |
      ⟨frame, rest, segments, _, _, _, wrote⟩ | ⟨_, _, rfl⟩⟩
    · exact .refl _
    · have same := wrote_sameWindow wrote
      exact ⟨same.1, same.2, same.3, same.4, same.5, same.6, same.7, same.8⟩
    · have same := wrote_sameWindow wrote
      exact ⟨same.1, same.2, same.3, same.4, same.5, same.6, same.7, same.8⟩
    · exact .refl _
  exact (first.trans second).trans third

theorem createTs_playing (standard : Standard c.statics.m3u8Config channel) : c.createTs = { c with
    statics := { c.statics with ftsHandler := .opened }
    tsFiles := ⟨c.statics.m3u8Config.path, tsUrl channel c.statics.m3u8Config.mediaCurSequence, []⟩ :: c.tsFiles
    viewer := { c.viewer with
      tsUrlsPool := c.viewer.tsUrlsPool ++ [tsUrl channel c.statics.m3u8Config.mediaCurSequence] } } := by
  rw [Call.createTs, createTsFile_for standard.toFor]

/-- When the first segment ends, it is listed. -/
theorem createPlaylist_playing (playing : Playing channel before c) :
    ∃ c', c.createPlaylist = .ok c' ∧ Playing channel before c' ∧
    c'.statics.initFirst = false ∧ c'.statics.m3u8Config = c.statics.m3u8Config ∧ c'.tsFiles = c.tsFiles := by
  cases first : c.statics.initFirst with
  | false => exact ⟨c, if_neg (by rw [first]; exact Bool.false_ne_true), playing, first, rfl, rfl⟩
  | true =>
    have one := (playing.unlisted first).1
    have pool := playing.pool
    rw [one, window_one] at pool
    have made : (createM3u8File c.statics.m3u8Config false c.playlists).2 (playlistOf channel) =
        some [truncate 199 (playlistHead 1)] := by
      rw [createM3u8File_for playing.standard.toFor, m3u8Head_eq playing.standard, one]
      exact Function.update_self _ _ _
    obtain ⟨files, ran, now⟩ := @addTsUrl2M3u8File_few _ _ _ playing.standard [] _ 1 (by decide) made
    refine ⟨{ c with
      statics := { c.statics with initFirst := false, firstCreateTs := true }
      playlists := files }, ?_, ?_, rfl, rfl, rfl⟩
    · rw [Call.createPlaylist, if_pos first, Call.addTsUrl]
      dsimp only
      rw [pool, show [1].map (tsUrl channel) = [] ++ [tsUrl channel 1] from rfl, ran]
      dsimp only
      rw [show ([] ++ [tsUrl channel 1]) = c.viewer.tsUrlsPool from pool.symm]
    · refine ⟨playing.standard, playing.begun, playing.opened, playing.urls, playing.pool, Bool.noConfusion,
        fun _ => ?_⟩
      dsimp only
      rw [now, one]
      rfl

/-- The next segment is opened, and listed at once. -/
theorem nextSegment_playing (playing : Playing channel before c) (listed : c.statics.initFirst = false) :
    ∃ c', c.nextSegment setting = .ok c' ∧ Playing channel before c' ∧
      c'.statics.m3u8Config.mediaCurSequence = c.statics.m3u8Config.mediaCurSequence + 1 ∧
      c'.tsFiles.tail = c.tsFiles ∧ c'.statics.initFirst = false := by
  have standard : Standard { c.statics.m3u8Config with
      timestamp := setting.now
      mediaCurSequence := c.statics.m3u8Config.mediaCurSequence + 1 } channel :=
    { directory := playing.standard.directory
      name := playing.standard.name
      named := playing.standard.named
      timed := Nat.lt_of_lt_of_le setting.started setting.ordered
      targetDuration := playing.standard.targetDuration
      totalTsUrls := playing.standard.totalTsUrls
      version := playing.standard.version
      first := Nat.le_add_left 1 _ }
  obtain ⟨files, ran, now⟩ := addTsUrl2M3u8File_next standard playing.standard.first rfl (playing.listed listed)
  have opening := createTs_playing (c := { c with statics := { c.statics with
    prev := setting.now
    m3u8Config := { c.statics.m3u8Config with
      timestamp := setting.now
      mediaCurSequence := c.statics.m3u8Config.mediaCurSequence + 1 }
    firstCreateTs := true
    segments := c.statics.segments.createTsFile } }) standard
  refine ⟨{ c with
    statics := { c.statics with
      prev := setting.now
      m3u8Config := { c.statics.m3u8Config with
        timestamp := setting.now
        mediaCurSequence := c.statics.m3u8Config.mediaCurSequence + 1 }
      firstCreateTs := true
      segments := c.statics.segments.createTsFile
      ftsHandler := .opened }
    tsFiles := ⟨c.statics.m3u8Config.path, tsUrl channel (c.statics.m3u8Config.mediaCurSequence + 1), []⟩ :: c.tsFiles
    playlists := files
    viewer := { c.viewer with
      tsUrlsPool := (window (c.statics.m3u8Config.mediaCurSequence + 1)).map (tsUrl channel) } }, ?_, ?_, rfl, rfl,
        listed⟩
  · rw [Call.nextSegment, if_neg (not_not.mpr playing.opened), opening, Call.addTsUrl]
    dsimp only
    rw [playing.pool, ran]
  · refine ⟨standard, playing.begun, rfl, ?_, rfl, fun first => ?_, fun _ => now⟩
    · dsimp only
      rw [List.map_cons, playing.urls, List.range'_1_concat, List.reverse_append, Nat.add_comm 1]
      rfl
    · rw [show c.statics.initFirst = true from first] at listed
      cases listed

/-- A call either leaves the segment as it is or goes on to the next. -/
theorem changeSegment_playing (playing : Playing channel before c) :
    Straight (fun c' => c' = c ∨ Playing channel before c' ∧
      c'.statics.m3u8Config.mediaCurSequence = c.statics.m3u8Config.mediaCurSequence + 1 ∧
      c'.tsFiles.tail = c.tsFiles ∧ c'.statics.initFirst = false) (c.changeSegment setting) := by
  rw [Call.changeSegment]
  split
  · obtain ⟨c₁, made, playing₁, listed, config, tsFiles⟩ := createPlaylist_playing playing
    obtain ⟨c₂, ran, playing₂, next, earlier, still⟩ := @nextSegment_playing _ setting _ _ playing₁ listed
    rw [made]
    change Straight _ (c₁.nextSegment setting)
    rw [ran]
    exact .inr ⟨playing₂, by rw [next, config], earlier.trans tsFiles, still⟩
  · exact .inl rfl

/-! ### The calls of the callback -/

/-- `c'` comes later than `c`: the segments that were not the latest are as they were. -/
structure Later (c c' : Call) : Prop where
  sequence : c.statics.m3u8Config.mediaCurSequence ≤ c'.statics.m3u8Config.mediaCurSequence
  earlier : c.tsFiles.tail <:+ c'.tsFiles.tail
  listed : c.statics.initFirst = false → c'.statics.initFirst = false

theorem Later.refl (c : Call) : Later c c := ⟨Nat.le_refl _, List.suffix_refl _, id⟩

theorem Later.trans {c₁ c₂ c₃ : Call} (first : Later c₁ c₂) (second : Later c₂ c₃) : Later c₁ c₃ :=
  ⟨Nat.le_trans first.sequence second.sequence, first.earlier.trans second.earlier,
    fun listed => second.listed (first.listed listed)⟩

theorem SameWindow.later (same : SameWindow c c') : Later c c' :=
  ⟨Nat.le_of_eq (by rw [same.m3u8Config]), same.earlier ▸ List.suffix_refl _, same.initFirst.trans⟩

/-- Nothing has been written. -/
structure Blank (before : Files) (c : Call) : Prop where
  theFirst : c.statics.theFirst = true
  initFirst : c.statics.initFirst = true
  sequence : c.statics.m3u8Config.mediaCurSequence = 0
  tsFiles : c.tsFiles = []
  pool : c.viewer.tsUrlsPool = []
  playlists : c.playlists = before

/-- Nor has the header of the stream been read. -/
structure Unopened (before : Files) (c : Call) : Prop extends Blank before c where
  header : c.viewer.flvHeader.length < flvHeaderSize

/-- What is asked of a call that returns. -/
def Returned (next : Call → Prop) : CallEnd → Prop
  | .returns c => next c
  | .stops c => next c
  | _ => True

theorem readReply_unopened (unopened : Unopened before c) :
    Ends (Returned fun _ => False) (Unopened before) (c.readReply setting) := by
  rw [Call.readReply]
  split
  · cases readHttpHeader 1024 setting.header c.socket with
    | none => trivial
    | some r =>
      dsimp only
      split
      · trivial
      · exact ⟨⟨unopened.theFirst, unopened.initFirst, unopened.sequence, unopened.tsFiles, unopened.pool,
          unopened.playlists⟩, unopened.header⟩
  · exact unopened

theorem firstSegment_playing (blank : Blank before c) (named : channel ≠ []) :
    Playing channel before (c.firstSegment setting channel) := by
  have standard : Standard ⟨directoryOf channel, channel, setting.timestamp, 1, 15, 4, 3⟩ channel :=
    { directory := rfl
      name := rfl
      named
      timed := setting.started
      targetDuration := rfl
      totalTsUrls := rfl
      version := rfl
      first := Nat.le_refl 1 }
  rw [Call.firstSegment, createTs_playing standard]
  refine ⟨standard, rfl, rfl, ?_, ?_, fun _ => ⟨rfl, blank.playlists⟩, fun listed => ?_⟩
  · dsimp only
    rw [blank.tsFiles]
    rfl
  · dsimp only
    rw [blank.pool]
    rfl
  · exact absurd (blank.initFirst.symm.trans (show c.statics.initFirst = false from listed)) Bool.noConfusion

/-- The first segment is opened when the header is there. -/
theorem readFlvHeader_unopened (unopened : Unopened before c) (named : channel ≠ []) :
    Ends (Returned (Unopened before)) (Playing channel before) (c.readFlvHeader setting channel) := by
  have asked : 0 < flvHeaderSize - c.viewer.flvHeader.length := Nat.sub_pos_of_lt unopened.header
  rw [Call.readFlvHeader, if_pos ⟨unopened.theFirst, unopened.header⟩]
  refine Ends.bind (show Ends _ (Blank before) _ from ?_) fun c' blank => firstSegment_playing blank named
  rw [Call.readRest]
  cases received : readSpecifySize (flvHeaderSize - c.viewer.flvHeader.length) c.socket with
  | none => trivial
  | some r =>
    have blank : Blank before { c.took r.stored r.socket with
        viewer := { c.viewer with flvHeader := c.viewer.flvHeader ++ r.stored } } :=
      ⟨unopened.theFirst, unopened.initFirst, unopened.sequence, unopened.tsFiles, unopened.pool, unopened.playlists⟩
    dsimp only
    split
    · trivial
    · split
      · exact blank
      · next part =>
        have bound := (readSpecifySize_spec asked received).2
        have header := unopened.header
        rw [List.length_append] at part
        refine ⟨blank, ?_⟩
        show (c.viewer.flvHeader ++ r.stored).length < flvHeaderSize
        rw [List.length_append]
        omega

/-- What a call does once the first segment has been opened. -/
theorem behindHeader_playing (playing : Playing channel before c) :
    Ends (Returned fun c' => Playing channel before c' ∧ Later c c') (fun c' => Playing channel before c' ∧ Later c c')
      (c.changeSegment setting >>= fun c => c.readTag >>= fun c => c.muxTag setting) := by
  have astray {next : Call → Prop} : ∀ ended, ended = CallEnd.outside → Returned next ended := by
    rintro _ rfl
    trivial
  refine ((changeSegment_playing playing).mono astray fun _ changed => changed).bind fun c₁ changed => ?_
  have started : Playing channel before c₁ ∧ Later c c₁ := by
    rcases changed with rfl | ⟨playing, next, earlier, listed⟩
    · exact ⟨playing, .refl _⟩
    · refine ⟨playing, Nat.le_of_lt (next ▸ Nat.lt_succ_self _), ?_, fun _ => listed⟩
      rw [earlier]
      exact List.tail_suffix _
  have still {c₂ : Call} (same : SameWindow c₁ c₂) : Playing channel before c₂ ∧ Later c c₂ :=
    ⟨started.1.same same, started.2.trans same.later⟩
  refine ((readTag_reads c₁).mono (fun ended left => ?_) fun _ reads => reads).bind fun c₂ reads => ?_
  · cases ended with
    | returns c' => exact still left.sameWindow
    | stops c' => exact left.elim
    | _ => trivial
  · refine (muxTag_straight c₂).exact.mono astray fun c₃ muxed => ?_
    exact still (reads.sameWindow.trans (muxTag_sameWindow muxed))

/-- What is known of a channel after any of its calls. -/
def Follows (channel : List UInt8) (before : Files) (c : Call) : Prop :=
  Unopened before c ∨ Playing channel before c

theorem Returned.mono {next next' : Call → Prop} (on : ∀ c, next c → next' c) :
    ∀ ended, Returned next ended → Returned next' ended := by
  intro ended left
  cases ended with
  | returns c => exact on c left
  | stops c => exact on c left
  | _ => trivial

/-- Anything is later than a call before which nothing has been written. -/
theorem Blank.later (blank : Blank before c) (c' : Call) : Later c c' :=
  ⟨by rw [blank.sequence]; exact Nat.zero_le _, by rw [blank.tsFiles]; exact List.nil_suffix,
    fun listed => absurd (blank.initFirst.symm.trans listed) Bool.noConfusion⟩

theorem body_follows (follows : Follows channel before c) (named : channel ≠ []) :
    Ends (Returned fun c' => Follows channel before c' ∧ Later c c') (fun c' => Playing channel before c' ∧ Later c c')
      (c.readReply setting >>= fun c => c.readFlvHeader setting channel >>= fun c =>
        c.changeSegment setting >>= fun c => c.readTag >>= fun c => c.muxTag setting) := by
  have follow {c₁ : Call} : ∀ ended, Returned (fun c' => Playing channel before c' ∧ Later c₁ c') ended →
      Returned (fun c' => Follows channel before c' ∧ Later c₁ c') ended :=
    Returned.mono fun _ both => ⟨.inr both.1, both.2⟩
  rcases follows with unopened | playing
  · refine ((readReply_unopened unopened).mono (Returned.mono fun _ never => never.elim) fun _ on => on).bind ?_
    intro c₁ unopened₁
    refine ((readFlvHeader_unopened unopened₁ named).mono
      (Returned.mono fun c' still => ⟨.inl still, unopened.toBlank.later c'⟩) fun _ on => on).bind fun c₂ playing => ?_
    exact (behindHeader_playing playing).mono
      (Returned.mono fun c' both => ⟨.inr both.1, unopened.toBlank.later c'⟩)
      fun c' both => ⟨both.1, unopened.toBlank.later c'⟩
  · have closed : ∀ P : Prop, ¬ (c.statics.theFirst = true ∧ P) := by
      rintro P ⟨first, _⟩
      rw [playing.begun] at first
      cases first
    have replied : c.readReply setting = .ok c := if_neg (closed _)
    have headed : c.readFlvHeader setting channel = .ok c := if_neg (closed _)
    rw [replied]
    change Ends _ _ (c.readFlvHeader setting channel >>= _)
    rw [headed]
    exact (behindHeader_playing playing).mono follow fun _ on => on

theorem receiveStreamCb_follows (follows : Follows channel before c) (named : channel ≠ []) :
    Returned (fun c' => Follows channel before c' ∧ Later c c') (receiveStreamCb setting channel c) := by
  have body : receiveStreamCb setting channel c = Call.leave (c.readReply setting >>= fun c =>
      c.readFlvHeader setting channel >>= fun c =>
        c.changeSegment setting >>= fun c => c.readTag >>= fun c => c.muxTag setting) := by
    rw [receiveStreamCb_eq]
    unfold Call.behindReply Call.readTag Call.muxTag
    simp only [bind_assoc]
  have ends := @body_follows channel setting before c follows named
  rw [body]
  generalize (c.readReply setting >>= fun c => c.readFlvHeader setting channel >>= fun c =>
    c.changeSegment setting >>= fun c => c.readTag >>= fun c => c.muxTag setting) = run at ends
  cases run with
  | error ended => exact ends
  | ok c₃ =>
    have finished : SameWindow c₃ c₃.finish := ⟨rfl, rfl, rfl, rfl, rfl, rfl, rfl, rfl⟩
    exact ⟨.inr (ends.1.same finished), ends.2.trans finished.later⟩

/-- A call of the callback with what comes in, where it returns. -/
def callback (channel : List UInt8) (c : Call) (arrives : Setting × List (Socket.ReadEvent UInt8)) : Option Call :=
  match receiveStreamCb arrives.1 channel { c with socket := arrives.2 } with
  | .returns c => some c
  | .stops c => some c
  | _ => none

/-- A process before the first call for its only channel. -/
def Call.first (fd : Nat) (before : Files) : Call := ⟨.start, [], before, .start fd, [], [], []⟩

/-- The calls for one channel, whatever comes in. -/
abbrev Runs (channel : List UInt8) : Call → Call → Prop :=
  Transition.Reach (callback channel) fun _ _ => True

theorem callback_follows {arrives : Setting × List (Socket.ReadEvent UInt8)} (follows : Follows channel before c)
    (named : channel ≠ []) (next : callback channel c arrives = some c') :
    Follows channel before c' ∧ Later c c' := by
  have waiting : Follows channel before { c with socket := arrives.2 } := by
    rcases follows with unopened | playing
    · exact .inl ⟨⟨unopened.theFirst, unopened.initFirst, unopened.sequence, unopened.tsFiles, unopened.pool,
        unopened.playlists⟩, unopened.header⟩
    · exact .inr (playing.same ⟨rfl, rfl, rfl, rfl, rfl, rfl, rfl, rfl⟩)
  have returned := @receiveStreamCb_follows channel arrives.1 before _ waiting named
  rw [callback] at next
  generalize receiveStreamCb arrives.1 channel { c with socket := arrives.2 } = ended at returned next
  cases ended with
  | returns c₁ =>
    obtain rfl := Option.some.inj next
    exact ⟨returned.1, returned.2.sequence, returned.2.earlier, returned.2.listed⟩
  | stops c₁ =>
    obtain rfl := Option.some.inj next
    exact ⟨returned.1, returned.2.sequence, returned.2.earlier, returned.2.listed⟩
  | _ => cases next

theorem first_follows (channel : List UInt8) (fd : Nat) (before : Files) :
    Follows channel before (Call.first fd before) :=
  .inl ⟨⟨rfl, rfl, rfl, rfl, rfl, rfl⟩, (by decide : 0 < flvHeaderSize)⟩

theorem Runs.follows (follows : Follows channel before c) (named : channel ≠ []) (run : Runs channel c c') :
    Follows channel before c' ∧ Later c c' :=
  Transition.Reach.invariant (I := fun c' => Follows channel before c' ∧ Later c c') ⟨follows, .refl c⟩
    (fun _ _ _ kept _ next =>
      have step := callback_follows kept.1 named next
      ⟨step.1, kept.2.trans step.2⟩) run

/-! ### The playlist on disk -/

/-- The playlist lists the segments from `first` to the newest, which are no more than three, and starts with that
number. -/
structure Window (channel : List UInt8) (c : Call) (first : Nat) : Prop where
  text : ∃ pieces, c.playlists (playlistOf channel) = some pieces ∧
    pieces.flatten = playlistText channel first c.statics.m3u8Config.mediaCurSequence
  positive : 1 ≤ first
  some_ : first ≤ c.statics.m3u8Config.mediaCurSequence
  few : c.statics.m3u8Config.mediaCurSequence < first + 3
  newest : c.tsFiles.head?.map TsFile.url = some (tsUrl channel c.statics.m3u8Config.mediaCurSequence)

theorem Playing.all_urls (playing : Playing channel before c) : c.tsFiles.map TsFile.url =
    tsUrl channel c.statics.m3u8Config.mediaCurSequence ::
      (List.range' 1 (c.statics.m3u8Config.mediaCurSequence - 1)).reverse.map (tsUrl channel) := by
  obtain ⟨last, same⟩ := Nat.exists_eq_add_of_le' playing.standard.first
  rw [playing.urls, same, List.range'_1_concat, List.reverse_append, Nat.add_comm 1, Nat.add_sub_cancel]
  rfl

theorem Playing.head_url (playing : Playing channel before c) :
    c.tsFiles.head?.map TsFile.url = some (tsUrl channel c.statics.m3u8Config.mediaCurSequence) := by
  rw [← List.head?_map, playing.all_urls]
  rfl

theorem Playing.tail_urls (playing : Playing channel before c) : c.tsFiles.tail.map TsFile.url =
    (List.range' 1 (c.statics.m3u8Config.mediaCurSequence - 1)).reverse.map (tsUrl channel) := by
  rw [List.map_tail, playing.all_urls]
  rfl

theorem Playing.shows (playing : Playing channel before c) (listed : c.statics.initFirst = false)
    (short : channel.length ≤ 32) (counted : c.statics.m3u8Config.mediaCurSequence < 2 ^ 63) :
    Window channel c (mediaSequence c.statics.m3u8Config.mediaCurSequence) := by
  have bounds := mediaSequence_bounds playing.standard.first
  exact ⟨⟨_, playing.listed listed, playlistPieces_flatten short playing.standard.first counted⟩, bounds.1, bounds.2.1,
    bounds.2.2, playing.head_url⟩

def lateSetting : Setting := { sampleSetting with now := 200, later := 200, ordered := by decide }

/-- The header of a stream and the first byte behind it, and one more byte long after. -/
def sampleArrivals : List (Setting × List (Socket.ReadEvent UInt8)) :=
  [(sampleSetting, inPieces ((sampleStream [samplePicture]).opening ++ [0]) 10), (lateSetting, [.data 0 []])]

theorem sampleArrivals_run : ∃ c, Runs [97] (.first 7 fun _ => none) c ∧ c.statics.initFirst = false ∧
    c.statics.m3u8Config.mediaCurSequence = 2 ∧
    Transition.exec (callback [97]) (.first 7 fun _ => none) sampleArrivals = some c := by
  have ran : (Transition.exec (callback [97]) (.first 7 fun _ => none) sampleArrivals).map (fun c =>
      (c.statics.initFirst, c.statics.m3u8Config.mediaCurSequence)) = some (false, 2) := by decide
  obtain ⟨c, ran, seen⟩ := Option.map_eq_some_iff.mp ran
  obtain ⟨listed, second⟩ := Prod.mk.inj seen
  exact ⟨c, Transition.reach_of_exec .refl (fun _ _ _ => trivial) ran, listed, second, ran⟩

def Call.segment (channel : List UInt8) (c : Call) (n : Nat) : Option TsFile :=
  c.tsFiles.find? fun file => file.url = tsUrl channel n

/-- The lines of the playlist are those of these segments. -/
def Listing (channel : List UInt8) (c : Call) (numbers : List Nat) : Prop :=
  ∃ head, c.playlists (playlistOf channel) =
    some (head :: numbers.map fun n => extInf c.statics.m3u8Config (tsUrl channel n))

theorem tsUrl_inj {n m : Nat} (same : tsUrl channel n = tsUrl channel m) : n = m :=
  ascii_toString_inj (List.append_cancel_left (List.append_cancel_right same))

theorem Playing.listing (playing : Playing channel before c) (listed : c.statics.initFirst = false) :
    Listing channel c (window c.statics.m3u8Config.mediaCurSequence) := by
  have lines : (window c.statics.m3u8Config.mediaCurSequence).map
      (fun n => extInf c.statics.m3u8Config (tsUrl channel n))
      = (window c.statics.m3u8Config.mediaCurSequence).map fun n => truncate 99 (playlistEntry channel n) :=
    List.map_congr_left fun n _ => extInf_eq playing.standard n
  refine ⟨truncate 199 (playlistHead (mediaSequence c.statics.m3u8Config.mediaCurSequence)), ?_⟩
  rw [playing.listed listed, playlistPieces, lines]

theorem Playing.nodup (playing : Playing channel before c) : (c.tsFiles.map TsFile.url).Nodup := by
  rw [playing.urls]
  exact List.Nodup.map (fun _ _ => tsUrl_inj) (List.nodup_reverse.mpr (List.nodup_range' ..))

/-- No two segments have the same name. -/
theorem Playing.segment_of_mem (playing : Playing channel before c) {file : TsFile}
    (member : file ∈ c.tsFiles) {n : Nat} (url : file.url = tsUrl channel n) : c.segment channel n = some file := by
  have unique := playing.nodup
  rw [Call.segment]
  generalize c.tsFiles = files at member unique
  induction files with
  | nil => exact absurd member List.not_mem_nil
  | cons other files ih =>
    rw [List.map_cons, List.nodup_cons] at unique
    rcases List.mem_cons.mp member with rfl | later
    · rw [List.find?_cons, decide_eq_true url]
    · have apart : other.url ≠ tsUrl channel n := fun same =>
        unique.1 (List.mem_map.mpr ⟨file, later, url.trans same.symm⟩)
      rw [List.find?_cons, decide_eq_false apart]
      exact ih later unique.2

/-- The newest segment is listed when it is opened, and all others in the playlist have been closed: whatever comes
in later, they stay as they are. -/
theorem listed_closed {fd : Nat} (named : channel ≠ []) (run : Runs channel (.first fd before) c) :
    (c.statics.initFirst = true → c.playlists = before) ∧
    (c.statics.initFirst = false → ∃ numbers, Listing channel c numbers ∧ ∀ n ∈ numbers,
      (n = c.statics.m3u8Config.mediaCurSequence →
        c.statics.ftsHandler = .opened ∧ ∃ file, c.tsFiles.head? = some file ∧ c.segment channel n = some file) ∧
      (n ≠ c.statics.m3u8Config.mediaCurSequence → ∃ file ∈ c.tsFiles.tail, c.segment channel n = some file ∧
        ∀ c', Runs channel c c' → file ∈ c'.tsFiles.tail ∧ c'.segment channel n = some file)) := by
  have follows := (Runs.follows (first_follows channel fd before) named run).1
  rcases follows with unopened | playing
  · exact ⟨fun _ => unopened.playlists,
      fun listed => absurd (unopened.initFirst.symm.trans listed) Bool.noConfusion⟩
  · refine ⟨fun unlisted => (playing.unlisted unlisted).2, fun listed => ⟨_, playing.listing listed, ?_⟩⟩
    intro n member
    obtain ⟨low, high⟩ := (mem_window playing.standard.first).mp member
    obtain ⟨file, head, url⟩ := Option.map_eq_some_iff.mp playing.head_url
    refine ⟨?_, fun older => ?_⟩
    · rintro rfl
      exact ⟨playing.opened, file, head, playing.segment_of_mem (List.mem_of_head? head) url⟩
    · have positive := (mediaSequence_bounds playing.standard.first).1
      have inside : tsUrl channel n ∈ c.tsFiles.tail.map TsFile.url := by
        rw [playing.tail_urls]
        refine List.mem_map_of_mem (List.mem_reverse.mpr (List.mem_range'_1.mpr ?_))
        omega
      obtain ⟨file, earlier, url⟩ := List.mem_map.mp inside
      refine ⟨file, earlier, playing.segment_of_mem (List.mem_of_mem_tail earlier) url, fun c' later => ?_⟩
      obtain ⟨follows', later⟩ := Runs.follows (.inr playing) named later
      have still := later.earlier.mem earlier
      rcases follows' with unopened | playing'
      · exact absurd (unopened.initFirst.symm.trans (later.listed listed)) Bool.noConfusion
      · exact ⟨still, playing'.segment_of_mem (List.mem_of_mem_tail still) url⟩

theorem listed_closed_sample : ∃ c, c.statics.m3u8Config.mediaCurSequence = 2 ∧
    ∃ numbers, Listing [97] c numbers ∧ ∀ n ∈ numbers, n ≠ 2 → ∃ file, c.segment [97] n = some file := by
  obtain ⟨c, run, listed, second, _⟩ := sampleArrivals_run
  obtain ⟨numbers, listing, all⟩ := (@listed_closed [97] (fun _ => none) c 7 (List.cons_ne_nil 97 []) run).2 listed
  refine ⟨c, second, numbers, listing, fun n member older => ?_⟩
  obtain ⟨file, _, found, _⟩ := (all n member).2 (by rwa [second])
  exact ⟨file, found⟩

/-- The rest of a key frame, long after the second segment was opened and listed. -/
def sampleArrival₃ : Setting × List (Socket.ReadEvent UInt8) := (lateSetting, inPieces (samplePicture.bytes.drop 2) 5)

theorem listed_closed_refuted : ¬ ∀ c c' numbers, Runs [97] (.first 7 fun _ => none) c → Listing [97] c numbers →
    Runs [97] c c' → ∀ n ∈ numbers, c'.segment [97] n = c.segment [97] n := by
  intro closed
  obtain ⟨c, run, listed, second, ran⟩ := sampleArrivals_run
  have opened : (Transition.exec (callback [97]) (.first 7 fun _ => none) sampleArrivals).map (fun c =>
      (c.segment [97] 2).map TsFile.frames) = some (some []) := by decide
  have grown : (Transition.exec (callback [97]) (.first 7 fun _ => none) (sampleArrivals ++ [sampleArrival₃])).map
      (fun c => (c.segment [97] 2).map TsFile.frames) = some (some [[0, 0, 0, 1]]) := by decide
  rw [ran] at opened
  rw [Transition.exec_append, ran] at grown
  obtain ⟨c', ran', frames⟩ := Option.map_eq_some_iff.mp grown
  have later : Runs [97] c c' := Transition.reach_of_exec .refl (fun _ _ _ => trivial) ran'
  have listing : Listing [97] c [1, 2] := by
    rcases (Runs.follows (first_follows [97] 7 fun _ => none) (List.cons_ne_nil 97 []) run).1 with unopened | playing
    · exact absurd (unopened.initFirst.symm.trans listed) Bool.noConfusion
    · have listing := playing.listing listed
      rw [second] at listing
      exact listing
  have same := closed c c' [1, 2] run listing later 2 (List.mem_cons_of_mem 1 List.mem_cons_self)
  rw [same] at frames
  exact absurd (frames.symm.trans (Option.some.inj opened)) (by decide)

end LiveStreaming.HappyHls.ReceiveStream
