import Mathlib.Logic.Function.Basic
import LiveStreaming.Library.CString

/-!
# Segments and playlists

`m3u8.cpp`: the name of a segment, and the text file that lists the segments of a channel.
-/

namespace LiveStreaming.HappyHls
open Library.CString

structure M3u8Config where
  path : List UInt8
  channel : List UInt8
  timestamp : Nat
  mediaCurSequence : Nat
  targetDuration : Nat
  totalTsUrls : Nat
  version : Nat

/-- The text files with what has been put into them, piece by piece. -/
abbrev Files := List UInt8 → Option (List (List UInt8))

def tsUrl (channel : List UInt8) (sequence : Nat) : List UInt8 :=
  channel ++ ascii "_" ++ ascii (toString sequence) ++ ascii ".ts"

/-- `create_ts_file`, with the name of the file that it opens. -/
def createTsFile (m3u8Config : M3u8Config) : Option (List UInt8) :=
  if m3u8Config.path = [] ∨ m3u8Config.channel = [] then none
  else some (tsUrl m3u8Config.channel m3u8Config.mediaCurSequence)

def m3u8Head (m3u8Config : M3u8Config) : List UInt8 :=
  truncate 199 (ascii "#EXTM3U\n#EXT-X-TARGETDURATION:" ++ ascii (toString m3u8Config.targetDuration) ++
    ascii "\n#EXT-X-VERSION:" ++ ascii (toString m3u8Config.version) ++ ascii "\n#EXT-X-MEDIA-SEQUENCE:" ++
    ascii (toString (if 3 < m3u8Config.mediaCurSequence then m3u8Config.mediaCurSequence -
      m3u8Config.totalTsUrls + 2 else 1)) ++
    ascii "\n")

/-- It gives back `new_m3u8_file`, which stays empty where nothing is written. -/
def createM3u8File (m3u8Config : M3u8Config) (isTmp : Bool) (files : Files) : List UInt8 × Files :=
  if m3u8Config.path = [] ∨ m3u8Config.channel = [] ∨ m3u8Config.timestamp = 0 then ([], files)
  else
    let newM3u8File := m3u8Config.path ++ m3u8Config.channel ++ if isTmp then ascii "_new.m3u8" else ascii ".m3u8"
    (newM3u8File, Function.update files newM3u8File (some [m3u8Head m3u8Config]))

def extInf (m3u8Config : M3u8Config) (tsUrl : List UInt8) : List UInt8 :=
  truncate 99 (ascii "#EXTINF:" ++ ascii (toString m3u8Config.targetDuration) ++ ascii ",\n" ++ tsUrl ++ ascii "\n")

/-- `none` where it puts a line into a file that could not be opened. -/
def addTsUrl2M3u8File (tsUrlsPool : List (List UInt8)) (m3u8Config : M3u8Config) (files : Files) :
    Option (List (List UInt8) × Files) :=
  if tsUrlsPool = [] then some (tsUrlsPool, files)
  else
    let m3u8Old := m3u8Config.path ++ m3u8Config.channel ++ ascii ".m3u8"
    if tsUrlsPool.length < m3u8Config.totalTsUrls then
      (files m3u8Old).map fun lines =>
        (tsUrlsPool, Function.update files m3u8Old (some (lines ++ [extInf m3u8Config (tsUrlsPool.getLastD [])])))
    else
      let (newM3u8File, files) := createM3u8File m3u8Config true files
      let tsUrlsPool := tsUrlsPool.tail
      (files newM3u8File).map fun lines =>
        (tsUrlsPool, Function.update (Function.update files newM3u8File none) m3u8Old
          (some (lines ++ tsUrlsPool.map (extInf m3u8Config))))

/-! ### The files of a channel -/

def nginxRoot : List UInt8 := ascii "/share/"

def directoryOf (channel : List UInt8) : List UInt8 := nginxRoot ++ channel ++ ascii "/"

def playlistOf (channel : List UInt8) : List UInt8 := directoryOf channel ++ channel ++ ascii ".m3u8"

def IsUrlOf (channel url : List UInt8) : Prop := ∃ sequence, url = tsUrl channel sequence

/-- A piece of a playlist that names no segment but one of the channel. -/
def Lists (channel piece : List UInt8) : Prop :=
  (∃ config, piece = m3u8Head config) ∨ ∃ config url, IsUrlOf channel url ∧ piece = extInf config url

/-- There is no text file but the playlist of the channel. -/
def OwnPlaylist (channel : List UInt8) (files : Files) : Prop :=
  ∀ path pieces, files path = some pieces → path = playlistOf channel ∧ ∀ piece ∈ pieces, Lists channel piece

/-- The configuration that a channel has been given. -/
structure M3u8Config.For (m3u8Config : M3u8Config) (channel : List UInt8) : Prop where
  directory : m3u8Config.path = directoryOf channel
  name : m3u8Config.channel = channel
  named : channel ≠ []
  timed : 0 < m3u8Config.timestamp

variable {channel channel' : List UInt8} {m3u8Config : M3u8Config} {files : Files} {tsUrlsPool : List (List UInt8)}

theorem directoryOf_ne_nil (channel : List UInt8) : directoryOf channel ≠ [] := by
  unfold directoryOf
  intro empty
  exact absurd (List.append_eq_nil_iff.mp empty).2 (by decide)

theorem directoryOf_inj (same : directoryOf channel = directoryOf channel') : channel = channel' := by
  unfold directoryOf at same
  exact List.append_cancel_left (List.append_cancel_right same)

theorem playlistOf_inj (same : playlistOf channel = playlistOf channel') : channel = channel' := by
  have lengths := congrArg List.length same
  simp only [playlistOf, directoryOf, List.append_assoc] at same lengths
  simp only [List.length_append] at lengths
  exact (List.append_inj (List.append_cancel_left same) (by omega)).1

theorem createTsFile_for (config : m3u8Config.For channel) :
    createTsFile m3u8Config = some (tsUrl channel m3u8Config.mediaCurSequence) := by
  unfold createTsFile
  rw [config.directory, config.name, if_neg]
  rintro (empty | empty)
  · exact directoryOf_ne_nil channel empty
  · exact config.named empty

theorem createM3u8File_for (config : m3u8Config.For channel) (isTmp : Bool) (files : Files) :
    createM3u8File m3u8Config isTmp files =
      (directoryOf channel ++ channel ++ (if isTmp then ascii "_new.m3u8" else ascii ".m3u8"),
        Function.update files (directoryOf channel ++ channel ++ (if isTmp then ascii "_new.m3u8" else ascii ".m3u8"))
          (some [m3u8Head m3u8Config])) := by
  unfold createM3u8File
  rw [config.directory, config.name, if_neg]
  rintro (empty | empty | zero)
  · exact directoryOf_ne_nil channel empty
  · exact config.named empty
  · exact absurd zero (Nat.ne_of_gt config.timed)

theorem OwnPlaylist.update (own : OwnPlaylist channel files) {pieces : List (List UInt8)}
    (lists : ∀ piece ∈ pieces, Lists channel piece) :
    OwnPlaylist channel (Function.update files (playlistOf channel) (some pieces)) := by
  intro path found known
  rw [Function.update_apply] at known
  split at known
  · next here =>
    obtain rfl := Option.some.inj known
    exact ⟨here, lists⟩
  · exact own path found known

theorem OwnPlaylist.remove (own : OwnPlaylist channel files) (path : List UInt8) :
    OwnPlaylist channel (Function.update files path none) := by
  intro other pieces known
  rw [Function.update_apply] at known
  split at known
  · cases known
  · exact own other pieces known

theorem createM3u8File_own (config : m3u8Config.For channel) (own : OwnPlaylist channel files) :
    OwnPlaylist channel (createM3u8File m3u8Config false files).2 ∧
      (createM3u8File m3u8Config false files).2 (playlistOf channel) ≠ none := by
  rw [createM3u8File_for config]
  constructor
  · refine @OwnPlaylist.update channel files own [m3u8Head m3u8Config] fun piece member => .inl ⟨m3u8Config, ?_⟩
    exact List.mem_singleton.mp member
  · show Function.update files (playlistOf channel) _ _ ≠ none
    rw [Function.update_self]
    exact Option.some_ne_none _

theorem addTsUrl2M3u8File_own (config : m3u8Config.For channel) (own : OwnPlaylist channel files)
    (there : files (playlistOf channel) ≠ none) (urls : ∀ url ∈ tsUrlsPool, IsUrlOf channel url) :
    ∃ pool files', addTsUrl2M3u8File tsUrlsPool m3u8Config files = some (pool, files') ∧ OwnPlaylist channel files' ∧
      files' (playlistOf channel) ≠ none ∧ ∀ url ∈ pool, IsUrlOf channel url := by
  obtain ⟨lines, known⟩ := Option.ne_none_iff_exists'.mp there
  have head : Lists channel (m3u8Head m3u8Config) := .inl ⟨m3u8Config, rfl⟩
  have line : ∀ url, IsUrlOf channel url → Lists channel (extInf m3u8Config url) := fun url is =>
    .inr ⟨m3u8Config, url, is, rfl⟩
  unfold addTsUrl2M3u8File
  split
  · exact ⟨_, _, rfl, own, there, urls⟩
  · next filled =>
    have old : m3u8Config.path ++ m3u8Config.channel ++ ascii ".m3u8" = playlistOf channel := by
      rw [config.directory, config.name, playlistOf]
    have last : tsUrlsPool.getLastD [] ∈ tsUrlsPool := by
      rw [List.getLastD_eq_getLast?, List.getLast?_eq_some_getLast filled, Option.getD_some]
      exact List.getLast_mem filled
    rw [old]
    dsimp only
    split
    · rw [known]
      refine ⟨_, _, rfl, own.update fun piece member => ?_, ?_, urls⟩
      · rcases List.mem_append.mp member with before | new
        · exact (own _ _ known).2 piece before
        · rw [List.mem_singleton.mp new]
          exact line _ (urls _ last)
      · rw [Function.update_self]
        exact Option.some_ne_none _
    · rw [createM3u8File_for config]
      dsimp only
      rw [Function.update_self, Option.map_some]
      have rest : ∀ url ∈ tsUrlsPool.tail, IsUrlOf channel url :=
        fun url member => urls url (List.mem_of_mem_tail member)
      rw [Function.update_idem]
      refine ⟨_, _, rfl, (own.remove _).update fun piece member => ?_, ?_, rest⟩
      · rcases List.mem_append.mp member with new | later
        · rw [List.mem_singleton.mp new]
          exact head
        · obtain ⟨url, listed, rfl⟩ := List.mem_map.mp later
          exact line url (rest url listed)
      · rw [Function.update_self]
        exact Option.some_ne_none _

end LiveStreaming.HappyHls
