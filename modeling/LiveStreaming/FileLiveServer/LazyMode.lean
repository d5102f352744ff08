import LiveStreaming.FileLiveServer.M3u8Source
import Mathlib.Algebra.Ring.Int.Defs

/-!
# The lazy mode

In each cycle every playlist of a directory is opened, and whenever one of the new files can be written its
callback reads on: a line of the head, or six lines that it publishes as a playlist. One header, one sequence
number and one waiting time serve all files.
-/

namespace LiveStreaming.FileLiveServer
open Library Library.CString Library.TextLines Streamer

abbrev Line := List UInt8

/-- A file that was opened in a cycle, and the lines it has. -/
structure Opening where
  fileName : List UInt8
  lines : List Line

/-- A playlist that was renamed to the file of the channel. -/
structure Publication where
  opening : Nat
  tmpM3u8File : List UInt8
  fileName : List UInt8
  text : List UInt8

/-- What outlives a call of `writeCallback`, with the files opened so far, the lines that each has left where it
is not closed, the target-duration lines that were read, and what was published. -/
structure Lazy where
  m3u8Header : List UInt8
  waitTime : Int
  prevTime : Int
  mediaSequence : Nat
  tmpM3u8File : Option (List UInt8)
  openings : List Opening
  handler : Nat → Option (List Line)
  targets : List (Nat × Line)
  published : List Publication
  crashed : Bool

def lazyStarted : Lazy := ⟨m3u8Header, 0, 0, 0, none, [], fun _ => none, [], [], false⟩

/-- What a file has left to read; `none` where it is closed. -/
def Lazy.setHandler (s : Lazy) (opening : Nat) (next : Option (List Line)) : Lazy :=
  { s with handler := fun other => if other = opening then next else s.handler other }

inductive LazyAction where
  | cycle (entries : List (List UInt8 × Option (List UInt8)))
  | writable (opening : Nat) (elapsed : Int)

def isEndlist (line : Line) : Bool := (ascii "#EXT-X-ENDLIST").isPrefixOf line

def newMediaFile (config : ServerConfig) (name : List UInt8) : List UInt8 := config.ngxRoot ++ ascii "/" ++ name

/-- `TData` has room for a name of 49 bytes. -/
def fileNameSize : Nat := 50

def openFile (config : ServerConfig) (s : Lazy) (name content : List UInt8) : Lazy :=
  if fileNameSize ≤ (newMediaFile config name).length then { s with crashed := true }
  else
    let lines := fgetsLines 1024 content
    { s.setHandler s.openings.length (some lines) with
      openings := s.openings ++ [⟨newMediaFile config name, lines⟩] }

/-- The entries of the directory; one that cannot be opened has no content. -/
def directlyUpdateM3u8 (config : ServerConfig) (s : Lazy) (entries : List (List UInt8 × Option (List UInt8))) : Lazy :=
  entries.foldl (fun s entry =>
    if isMedia config entry.1 then (entry.2.map (openFile config s entry.1)).getD s else s) s

/-- What a line behind the first of a group adds to `tsItem`. -/
def tsLine (config : ServerConfig) (line : Line) : List UInt8 :=
  if isExtinf line then line else if isEndlist line then [] else absUrl config line

def mediaSequenceLine (mediaSequence : Int) : List UInt8 :=
  ascii "#EXT-X-MEDIA-SEQUENCE:" ++ ascii (toString mediaSequence) ++ ascii "\r\n"

/-- The `#EXTINF` line of a group and up to five lines behind it. -/
def publish (config : ServerConfig) (tsDuration : Line → Int) (s : Lazy) (opening : Nat)
    (tmpM3u8File fileName : List UInt8) (line : Line) (lines : List Line) : Lazy :=
  let group := lines.take 5
  let durations := (line :: group.filter isExtinf).map tsDuration
  let tsItem := line ++ group.flatMap (tsLine config)
  let text := s.m3u8Header ++ mediaSequenceLine (toInt s.mediaSequence) ++ tsItem
  { s.setHandler opening (if group.length = 5 then some (lines.drop 5) else none) with
    waitTime := durations.sum - 6770000
    mediaSequence := s.mediaSequence + 3
    published := s.published ++ [⟨opening, tmpM3u8File, fileName, text⟩] }

/-- A line of the head. -/
def readHead (s : Lazy) (opening : Nat) (line : Line) (lines : List Line) : Lazy :=
  let s := s.setHandler opening (some lines)
  if isEndlist line = false ∧ isTargetDuration line then
    { s with m3u8Header := s.m3u8Header ++ line, targets := s.targets ++ [(opening, line)] }
  else s

/-- `tsDuration` is what the code makes of the text behind the colon of an `#EXTINF` line. -/
def writeCallback (config : ServerConfig) (tsDuration : Line → Int) (s : Lazy) (opening : Nat) (file : Opening)
    (lines : List Line) (elapsed : Int) : Lazy :=
  if elapsed - s.prevTime < s.waitTime then s
  else
    let tmpM3u8File := s.tmpM3u8File.getD (file.fileName ++ ascii ".tmp")
    let s := { s with waitTime := 0, prevTime := elapsed, tmpM3u8File := some tmpM3u8File }
    match lines with
    | [] => s.setHandler opening none
    | line :: lines =>
      if isExtinf line then publish config tsDuration s opening tmpM3u8File file.fileName line lines
      else readHead s opening line lines

/-- A cycle begins when the files of the one before it are closed. -/
def lazyStep (config : ServerConfig) (tsDuration : Line → Int) (s : Lazy) (action : LazyAction) : Option Lazy :=
  if s.crashed then none
  else
    match action with
    | .cycle entries =>
      if ∀ opening < s.openings.length, s.handler opening = none then some (directlyUpdateM3u8 config s entries)
      else none
    | .writable opening elapsed => do
      let file ← s.openings[opening]?
      let lines ← s.handler opening
      return writeCallback config tsDuration s opening file lines elapsed

/-! ### Playlists and their segments -/

structure Segment where
  extinf : Line
  uri : Line

/-- A line that is neither a tag or a comment nor blank. -/
def isUri : Line → Bool
  | [] => false
  | b :: _ => b != 35 && b != 10 && b != 13

/-- A segment is a URI with the `#EXTINF` line before it. -/
def segmentsFrom : Option Line → List Line → List Segment
  | _, [] => []
  | extinf, line :: lines =>
    if isExtinf line then segmentsFrom (some line) lines
    else if isUri line then (extinf.map fun extinf => ⟨extinf, line⟩).toList ++ segmentsFrom none lines
    else segmentsFrom extinf lines

def segmentsOf (lines : List Line) : List Segment := segmentsFrom none lines

def Segment.text (config : ServerConfig) (segment : Segment) : List UInt8 :=
  segment.extinf ++ absUrl config segment.uri

/-- A playlist with the channel's target duration that lists at most three segments, from number `first` on. -/
def Shows (config : ServerConfig) (source : List Line) (first : Nat) (text : List UInt8)
    (segments : List Segment) : Prop :=
  segments.length ≤ 3 ∧ ∃ target ∈ source, isTargetDuration target = true ∧
    text = m3u8Header ++ target ++ mediaSequenceLine first ++ segments.flatMap (Segment.text config)

/-- Playlists that list segments one after another, from number `first` on. -/
inductive Covers (config : ServerConfig) (source : List Line) : Nat → List (List UInt8) → List Segment → Prop where
  | nil {first : Nat} : Covers config source first [] []
  | cons {first : Nat} {text : List UInt8} {texts : List (List UInt8)} {segments more : List Segment}
      (shows : Shows config source first text segments)
      (rest : Covers config source (first + segments.length) texts more) :
      Covers config source first (text :: texts) (segments ++ more)

def Lazy.texts (s : Lazy) (opening : Nat) : List (List UInt8) :=
  (s.published.filter fun p => p.opening = opening).map Publication.text

/-- The publications of a file list its segments in order, and all of them when it is closed. -/
structure Live (config : ServerConfig) (s : Lazy) (opening : Nat) (file : Opening) : Prop where
  named : ∀ p ∈ s.published, p.opening = opening → p.fileName = file.fileName
  covered : ∃ covered, Covers config file.lines 0 (s.texts opening) covered ∧ covered <+: segmentsOf file.lines ∧
    (s.handler opening = none → covered = segmentsOf file.lines)

/-- The group that begins with `line`: pairs but for end-of-list lines, three where more segments follow. -/
def Paired (line : Line) (lines : List Line) : Prop :=
  ∃ segments : List Segment, (∀ segment ∈ segments, isExtinf segment.extinf = true ∧ isUri segment.uri = true) ∧
    ((line :: lines.take 5).filter fun line => !isEndlist line) =
      segments.flatMap (fun segment => [segment.extinf, segment.uri]) ∧
    (segments.length = 3 ∨ segmentsOf (lines.drop 5) = [])

/-- A group is published while no other file has published, the only target-duration line read so far is the
file's own, and an `int` holds the number. -/
def LazyAllowed (config : ServerConfig) (s : Lazy) : LazyAction → Prop
  | .cycle entries => ∀ entry ∈ entries, isMedia config entry.1 = true → entry.2.isSome →
    (newMediaFile config entry.1).length < fileNameSize
  | .writable opening elapsed => ∀ line lines, s.handler opening = some (line :: lines) → isExtinf line = true →
    s.waitTime ≤ elapsed - s.prevTime →
      (∀ p ∈ s.published, p.opening = opening) ∧ (∃ target, s.targets = [(opening, target)]) ∧ Paired line lines ∧
        s.mediaSequence < 2147483648

/-! ### The lines of a group -/

variable {config : ServerConfig} {line : Line}

theorem isExtinf_tag (extinf : isExtinf line = true) : isUri line = false ∧ isEndlist line = false := by
  have head := List.isPrefixOf_iff_prefix.mp extinf
  constructor
  · obtain ⟨rest, rfl⟩ := head
    rfl
  · by_contra endlist
    have other := List.isPrefixOf_iff_prefix.mp (Bool.not_eq_false _ ▸ endlist)
    exact absurd (List.prefix_of_prefix_length_le head other (by decide)) (by decide)

theorem isEndlist_tag (endlist : isEndlist line = true) : isExtinf line = false ∧ isUri line = false := by
  constructor
  · by_contra extinf
    rw [Bool.not_eq_false] at extinf
    rw [(isExtinf_tag extinf).2] at endlist
    cases endlist
  · obtain ⟨rest, rfl⟩ := List.isPrefixOf_iff_prefix.mp endlist
    rfl

theorem isUri_plain (uri : isUri line = true) : isExtinf line = false ∧ isEndlist line = false := by
  constructor
  · by_contra extinf
    rw [Bool.not_eq_false] at extinf
    rw [(isExtinf_tag extinf).1] at uri
    cases uri
  · by_contra endlist
    rw [Bool.not_eq_false] at endlist
    rw [(isEndlist_tag endlist).2] at uri
    cases uri

/-- End-of-list lines make no segments. -/
theorem segmentsFrom_filter (extinf : Option Line) (lines rest : List Line) :
    segmentsFrom extinf (lines ++ rest) = segmentsFrom extinf (lines.filter (fun line => !isEndlist line) ++ rest) := by
  induction lines generalizing extinf with
  | nil => rfl
  | cons line lines ih =>
    cases endlist : isEndlist line with
    | true =>
      obtain ⟨other, tag⟩ := isEndlist_tag endlist
      rw [List.filter_cons_of_neg (by simp [endlist]), List.cons_append, segmentsFrom, if_neg (by simp [other]),
        if_neg (by simp [tag])]
      exact ih extinf
    | false =>
      rw [List.filter_cons_of_pos (by simp [endlist]), List.cons_append, List.cons_append, segmentsFrom, segmentsFrom,
        ih, ih, ih]

theorem segmentsFrom_pairs {segments : List Segment}
    (valid : ∀ segment ∈ segments, isExtinf segment.extinf = true ∧ isUri segment.uri = true) (rest : List Line) :
    segmentsFrom none (segments.flatMap (fun segment => [segment.extinf, segment.uri]) ++ rest) =
      segments ++ segmentsFrom none rest := by
  induction segments with
  | nil => rfl
  | cons segment segments ih =>
    obtain ⟨extinf, uri⟩ := valid segment List.mem_cons_self
    have plain := (isUri_plain uri).1
    rw [List.flatMap_cons, List.append_assoc, List.cons_append, List.cons_append, List.nil_append, segmentsFrom,
      if_pos extinf, segmentsFrom, if_neg (by simp [plain]), if_pos uri,
      ih fun segment member => valid segment (List.mem_cons_of_mem _ member)]
    rfl

theorem tsLine_pairs {segments : List Segment}
    (valid : ∀ segment ∈ segments, isExtinf segment.extinf = true ∧ isUri segment.uri = true) :
    (segments.flatMap fun segment => [segment.extinf, segment.uri]).flatMap (tsLine config) =
      segments.flatMap (Segment.text config) := by
  induction segments with
  | nil => rfl
  | cons segment segments ih =>
    obtain ⟨extinf, uri⟩ := valid segment List.mem_cons_self
    obtain ⟨plain, other⟩ := isUri_plain uri
    rw [List.flatMap_cons, List.flatMap_append, List.flatMap_cons, List.flatMap_cons, List.flatMap_cons,
      List.flatMap_nil, List.append_nil, ih fun segment member => valid segment (List.mem_cons_of_mem _ member)]
    simp only [tsLine, extinf, plain, other, if_true, Bool.false_eq_true, if_false, Segment.text]

theorem tsLine_filter (lines : List Line) :
    lines.flatMap (tsLine config) = (lines.filter fun line => !isEndlist line).flatMap (tsLine config) := by
  induction lines with
  | nil => rfl
  | cons line lines ih =>
    rw [List.flatMap_cons, ih]
    cases endlist : isEndlist line with
    | true =>
      have other := (isEndlist_tag endlist).1
      rw [List.filter_cons_of_neg (by simp [endlist])]
      simp [tsLine, other, endlist]
    | false =>
      rw [List.filter_cons_of_pos (by simp [endlist]), List.flatMap_cons]

/-- What a group that is paired comes to. -/
theorem Paired.group {lines : List Line} (paired : Paired line lines) (extinf : isExtinf line = true) :
    ∃ segments : List Segment, segments ≠ [] ∧ segments.length ≤ 3 ∧
      line ++ (lines.take 5).flatMap (tsLine config) = segments.flatMap (Segment.text config) ∧
      segmentsOf (line :: lines) = segments ++ segmentsOf (lines.drop 5) ∧
      (segments.length = 3 ∨ segmentsOf (lines.drop 5) = []) := by
  obtain ⟨segments, valid, group, full⟩ := paired
  refine ⟨segments, ?_, ?_, ?_, ?_, full⟩
  · rintro rfl
    rw [List.filter_cons_of_pos (by simp [(isExtinf_tag extinf).2])] at group
    cases group
  · have length := congrArg List.length group
    have most := List.length_filter_le (fun line => !isEndlist line) (line :: lines.take 5)
    rw [List.length_cons, List.length_take] at most
    rw [List.length_flatMap] at length
    simp at length
    omega
  · have first : line = tsLine config line := by rw [tsLine, if_pos extinf]
    calc line ++ (lines.take 5).flatMap (tsLine config)
        = (line :: lines.take 5).flatMap (tsLine config) := by rw [List.flatMap_cons, ← first]
      _ = segments.flatMap (Segment.text config) := by rw [tsLine_filter, group, tsLine_pairs valid]
  · have split : line :: lines = (line :: lines.take 5) ++ lines.drop 5 := by
      rw [List.cons_append, List.take_append_drop]
    rw [segmentsOf, split, segmentsFrom_filter, group, segmentsFrom_pairs valid]
    rfl

theorem Covers.snoc {source : List Line} {first : Nat} {texts : List (List UInt8)} {covered segments : List Segment}
    {text : List UInt8} (covers : Covers config source first texts covered)
    (shows : Shows config source (first + covered.length) text segments) :
    Covers config source first (texts ++ [text]) (covered ++ segments) := by
  induction covers with
  | nil =>
    have one := Covers.cons shows .nil
    rwa [List.append_nil] at one
  | cons before rest ih =>
    rw [List.length_append, ← Nat.add_assoc] at shows
    rw [List.append_assoc]
    exact .cons before (ih shows)

/-! ### What a run of allowed steps keeps -/

/-- The lines that a file still has, and the segments in them. -/
def Lazy.left (s : Lazy) (opening : Nat) : List Segment := segmentsOf ((s.handler opening).getD [])

/-- The segments of a file are those that were listed and those that it has left; each publication had three
where any are. -/
structure Progress (config : ServerConfig) (s : Lazy) (opening : Nat) (file : Opening) : Prop where
  named : ∀ p ∈ s.published, p.opening = opening → p.fileName = file.fileName
  lines : ∀ lines, s.handler opening = some lines → lines <:+ file.lines
  covered : ∃ covered, Covers config file.lines 0 (s.texts opening) covered ∧
    segmentsOf file.lines = covered ++ s.left opening ∧
    (covered.length = 3 * (s.texts opening).length ∨ s.left opening = [])

structure LazyKept (config : ServerConfig) (s : Lazy) : Prop where
  header : s.m3u8Header = m3u8Header ++ (s.targets.map Prod.snd).flatten
  sequence : s.mediaSequence = 3 * s.published.length
  targets : ∀ t ∈ s.targets, ∃ file, s.openings[t.1]? = some file ∧ t.2 ∈ file.lines ∧ isTargetDuration t.2 = true
  opened : ∀ p ∈ s.published, p.opening < s.openings.length
  progress : ∀ opening file, s.openings[opening]? = some file → Progress config s opening file

theorem lazyStarted_kept : LazyKept config lazyStarted := by
  refine ⟨rfl, rfl, ?_, ?_, ?_⟩
  · intro t member
    cases member
  · intro p member
    cases member
  · intro opening file member
    cases member

variable {s : Lazy} {opening : Nat} {file : Opening} {lines : List Line}

theorem left_setHandler (s : Lazy) (opening other : Nat) (next : Option (List Line)) :
    (s.setHandler opening next).left other = if other = opening then segmentsOf (next.getD []) else s.left other := by
  unfold Lazy.left Lazy.setHandler
  dsimp only
  split <;> rfl

/-- A file goes on to other lines with the same segments, or is closed. -/
theorem LazyKept.goesOn (kept : LazyKept config s) (found : s.openings[opening]? = some file)
    {next : Option (List Line)} (same : segmentsOf (next.getD []) = s.left opening)
    (suffix : ∀ lines, next = some lines → lines <:+ file.lines) : LazyKept config (s.setHandler opening next) := by
  obtain ⟨header, sequence, targets, opened, progress⟩ := kept
  refine ⟨header, sequence, targets, opened, fun other otherFile there => ?_⟩
  obtain ⟨named, otherLines, covered⟩ := progress other otherFile there
  have left : (s.setHandler opening next).left other = s.left other := by
    rw [left_setHandler]
    split
    · next this => rw [same, this]
    · rfl
  refine ⟨named, fun lines now => ?_, by rwa [left]⟩
  change (if other = opening then next else s.handler other) = some lines at now
  split at now
  · next this =>
    obtain rfl := Option.some.inj ((this ▸ found).symm.trans there)
    exact suffix lines now
  · exact otherLines lines now

theorem readHead_kept (kept : LazyKept config s) (found : s.openings[opening]? = some file)
    (handler : s.handler opening = some (line :: lines)) (other : isExtinf line = false) :
    LazyKept config (readHead s opening line lines) := by
  have suffix := (kept.progress opening file found).lines _ handler
  have same : segmentsOf ((some lines).getD []) = s.left opening := by
    rw [Lazy.left, handler, Option.getD_some, Option.getD_some, segmentsOf, segmentsOf, segmentsFrom,
      if_neg (by simp [other])]
    split <;> rfl
  have moved := kept.goesOn found same fun lines' now => by
    obtain rfl := Option.some.inj now
    exact (List.suffix_cons _ _).trans suffix
  unfold readHead
  dsimp only
  split
  · next target =>
    obtain ⟨header, sequence, targets, opened, progress⟩ := moved
    refine ⟨?_, sequence, ?_, opened, fun o f there => ?_⟩
    · dsimp only at header ⊢
      rw [header, List.map_append, List.flatten_append, List.append_assoc]
      simp
    · intro t member
      rcases List.mem_append.mp member with old | new
      · exact targets t old
      · obtain rfl := List.mem_singleton.mp new
        exact ⟨file, found, suffix.subset List.mem_cons_self, target.2⟩
    · obtain ⟨named, read, covered⟩ := progress o f there
      exact ⟨named, read, covered⟩
  · exact moved

variable {tsDuration : Line → Int}

theorem texts_publish (s : Lazy) (opening other : Nat) (tmpM3u8File fileName : List UInt8) (line : Line)
    (lines : List Line) :
    (publish config tsDuration s opening tmpM3u8File fileName line lines).texts other =
      s.texts other ++ if opening = other then
        [s.m3u8Header ++ mediaSequenceLine (toInt s.mediaSequence) ++ (line ++ (lines.take 5).flatMap (tsLine config))]
      else [] := by
  unfold publish Lazy.texts
  dsimp only
  rw [List.filter_append, List.map_append]
  congr 1
  by_cases this : opening = other
  · rw [if_pos this, List.filter_cons_of_pos (by simp [this])]
    rfl
  · rw [if_neg this, List.filter_cons_of_neg (by simp [this])]
    rfl

theorem left_publish (s : Lazy) (opening other : Nat) (tmpM3u8File fileName : List UInt8) (line : Line)
    (lines : List Line) :
    (publish config tsDuration s opening tmpM3u8File fileName line lines).left other =
      if other = opening then segmentsOf (lines.drop 5) else s.left other := by
  have same : (publish config tsDuration s opening tmpM3u8File fileName line lines).left other =
      (s.setHandler opening (if (lines.take 5).length = 5 then some (lines.drop 5) else none)).left other := rfl
  rw [same, left_setHandler]
  congr 1
  split
  · rfl
  · next short =>
    rw [List.length_take] at short
    rw [List.drop_of_length_le (by omega)]
    rfl

theorem publish_other {other : Nat} {otherFile : Opening} (progress : Progress config s other otherFile)
    (away : other ≠ opening) (tmpM3u8File fileName : List UInt8) :
    Progress config (publish config tsDuration s opening tmpM3u8File fileName line lines) other otherFile := by
  obtain ⟨named, otherLines, covered, covers, whole, number⟩ := progress
  refine ⟨?_, ?_, covered, ?_, ?_, ?_⟩
  · intro p member here
    rcases List.mem_append.mp member with old | new
    · exact named p old here
    · obtain rfl := List.mem_singleton.mp new
      exact absurd here.symm away
  · intro lines' now
    change (if other = opening then _ else s.handler other) = some lines' at now
    rw [if_neg away] at now
    exact otherLines lines' now
  · rw [texts_publish, if_neg (Ne.symm away), List.append_nil]
    exact covers
  · rw [left_publish, if_neg away]
    exact whole
  · rw [left_publish, if_neg away, texts_publish, if_neg (Ne.symm away), List.append_nil]
    exact number

/-- The only file that publishes, with the only target duration: its number is three for each publication. -/
theorem publish_own (kept : LazyKept config s) (found : s.openings[opening]? = some file)
    (handler : s.handler opening = some (line :: lines)) (extinf : isExtinf line = true)
    (alone : ∀ p ∈ s.published, p.opening = opening) (own : ∃ target, s.targets = [(opening, target)])
    (paired : Paired line lines) (small : s.mediaSequence < 2147483648) (tmpM3u8File : List UInt8) :
    Progress config (publish config tsDuration s opening tmpM3u8File file.fileName line lines) opening file := by
  obtain ⟨segments, some_segment, three, items, split, full⟩ := @Paired.group config line lines paired extinf
  obtain ⟨header, sequence, targets, _, progress⟩ := kept
  obtain ⟨target, own⟩ := own
  obtain ⟨named, otherLines, covered, covers, whole, number⟩ := progress opening file found
  have left : s.left opening = segments ++ segmentsOf (lines.drop 5) := by
    rw [Lazy.left, handler, Option.getD_some, split]
  have published : (s.texts opening).length = s.published.length := by
    rw [Lazy.texts, List.length_map, List.filter_eq_self.mpr fun p member => decide_eq_true (alone p member)]
  have index : covered.length = s.mediaSequence := by
    rw [sequence, ← published]
    refine number.resolve_right fun none => ?_
    rw [left] at none
    exact some_segment (List.append_eq_nil_iff.mp none).1
  refine ⟨?_, ?_, covered ++ segments, ?_, ?_, ?_⟩
  · intro p member _
    rcases List.mem_append.mp member with old | new
    · exact named p old (alone p old)
    · obtain rfl := List.mem_singleton.mp new
      rfl
  · intro lines' now
    change (if opening = opening then _ else _) = some lines' at now
    rw [if_pos rfl] at now
    split at now
    · obtain rfl := Option.some.inj now
      exact ((List.drop_suffix _ _).trans (List.suffix_cons _ _)).trans (otherLines _ handler)
    · cases now
  · rw [texts_publish, if_pos rfl, items]
    refine covers.snoc ⟨three, target, ?_⟩
    obtain ⟨f, there, member, tag⟩ := targets (opening, target) (own ▸ List.mem_singleton_self _)
    obtain rfl := Option.some.inj (found.symm.trans there)
    refine ⟨member, tag, ?_⟩
    rw [header, own, Nat.zero_add, index, toInt_of_lt small]
    simp
  · rw [left_publish, if_pos rfl, whole, left, List.append_assoc]
  · rw [left_publish, if_pos rfl]
    refine full.imp_left fun three => ?_
    rw [texts_publish, if_pos rfl, List.length_append, List.length_append, index, three, published, sequence]
    rfl

theorem publish_kept (kept : LazyKept config s) (found : s.openings[opening]? = some file)
    (handler : s.handler opening = some (line :: lines)) (extinf : isExtinf line = true)
    (alone : ∀ p ∈ s.published, p.opening = opening) (own : ∃ target, s.targets = [(opening, target)])
    (paired : Paired line lines) (small : s.mediaSequence < 2147483648) (tmpM3u8File : List UInt8) :
    LazyKept config (publish config tsDuration s opening tmpM3u8File file.fileName line lines) := by
  refine ⟨kept.header, ?_, kept.targets, ?_, fun other otherFile there => ?_⟩
  · change s.mediaSequence + 3 = 3 * (s.published ++ [_]).length
    rw [List.length_append, kept.sequence]
    rfl
  · intro p member
    rcases List.mem_append.mp member with old | new
    · exact kept.opened p old
    · obtain rfl := List.mem_singleton.mp new
      exact (List.getElem?_eq_some_iff.mp found).1
  · by_cases this : other = opening
    · subst this
      obtain rfl := Option.some.inj (found.symm.trans there)
      exact publish_own kept found handler extinf alone own paired small tmpM3u8File
    · exact publish_other (kept.progress other otherFile there) this tmpM3u8File file.fileName

theorem openFile_kept {name content : List UInt8} (kept : LazyKept config s)
    (fits : (newMediaFile config name).length < fileNameSize) : LazyKept config (openFile config s name content) := by
  obtain ⟨header, sequence, targets, opened, progress⟩ := kept
  have older {opening : Nat} {file : Opening} (found : s.openings[opening]? = some file) (new : Opening) :
      (s.openings ++ [new])[opening]? = some file := by
    rw [List.getElem?_append_left (List.getElem?_eq_some_iff.mp found).1, found]
  unfold openFile
  rw [if_neg (Nat.not_le.mpr fits)]
  dsimp only
  refine ⟨header, sequence, ?_, ?_, fun other otherFile there => ?_⟩
  · intro t member
    obtain ⟨file, found, known⟩ := targets t member
    exact ⟨file, older found _, known⟩
  · intro p member
    have := opened p member
    rw [List.length_append]
    exact Nat.lt_add_right _ this
  · have left := left_setHandler s s.openings.length other (some (fgetsLines 1024 content))
    change (s.openings ++ [_])[other]? = some otherFile at there
    by_cases old : other < s.openings.length
    · rw [List.getElem?_append_left old] at there
      obtain ⟨named, otherLines, covered⟩ := progress other otherFile there
      rw [if_neg (Nat.ne_of_lt old)] at left
      refine ⟨named, fun lines' now => ?_, ?_⟩
      · change (if other = s.openings.length then _ else s.handler other) = some lines' at now
        rw [if_neg (Nat.ne_of_lt old)] at now
        exact otherLines lines' now
      · rw [← left] at covered
        exact covered
    · have new : other = s.openings.length := by
        have := (List.getElem?_eq_some_iff.mp there).1
        rw [List.length_append, List.length_singleton] at this
        omega
      subst new
      rw [List.getElem?_concat_length] at there
      obtain rfl := Option.some.inj there
      rw [if_pos rfl] at left
      have none_yet : s.texts s.openings.length = [] := by
        rw [Lazy.texts, List.map_eq_nil_iff, List.filter_eq_nil_iff]
        intro p member
        have := opened p member
        simp
        omega
      refine ⟨fun p member here => ?_, fun lines' now => ?_, [], ?_, ?_, ?_⟩
      · have := opened p member
        omega
      · change (if s.openings.length = s.openings.length then _ else _) = some lines' at now
        rw [if_pos rfl] at now
        obtain rfl := Option.some.inj now
        exact List.suffix_refl _
      · change Covers config _ 0 (s.texts s.openings.length) []
        rw [none_yet]
        exact .nil
      · exact left.symm
      · left
        change 0 = 3 * (s.texts s.openings.length).length
        rw [none_yet]
        rfl

theorem directlyUpdateM3u8_kept {entries : List (List UInt8 × Option (List UInt8))} (kept : LazyKept config s)
    (fits : ∀ entry ∈ entries, isMedia config entry.1 = true → entry.2.isSome →
      (newMediaFile config entry.1).length < fileNameSize) :
    LazyKept config (directlyUpdateM3u8 config s entries) := by
  unfold directlyUpdateM3u8
  induction entries generalizing s with
  | nil => exact kept
  | cons entry entries ih =>
    refine ih ?_ fun other member => fits other (List.mem_cons_of_mem _ member)
    dsimp only
    split
    · next media =>
      cases content : entry.2 with
      | none => exact kept
      | some content' => exact openFile_kept kept (fits entry List.mem_cons_self media (by rw [content]; rfl))
    · exact kept

theorem writeCallback_kept {elapsed : Int} (kept : LazyKept config s) (found : s.openings[opening]? = some file)
    (handler : s.handler opening = some lines) (allowed : LazyAllowed config s (.writable opening elapsed)) :
    LazyKept config (writeCallback config tsDuration s opening file lines elapsed) := by
  unfold writeCallback
  split
  · exact kept
  · next due =>
    have timed (tmpM3u8File : List UInt8) :
        LazyKept config { s with waitTime := 0, prevTime := elapsed, tmpM3u8File := some tmpM3u8File } := by
      obtain ⟨header, sequence, targets, opened, progress⟩ := kept
      exact ⟨header, sequence, targets, opened, fun other otherFile there =>
        ⟨(progress other otherFile there).named, (progress other otherFile there).lines,
          (progress other otherFile there).covered⟩⟩
    cases lines with
    | nil =>
      refine (timed _).goesOn found ?_ fun lines' now => by cases now
      rw [Lazy.left]
      change _ = segmentsOf ((s.handler opening).getD [])
      rw [handler]
      rfl
    | cons line lines =>
      dsimp only
      split
      · next extinf =>
        obtain ⟨alone, own, paired, small⟩ := allowed line lines handler extinf (Int.not_lt.mp due)
        exact publish_kept (timed _) found handler extinf alone own paired small _
      · next other => exact readHead_kept (timed _) found handler (Bool.eq_false_iff.mpr other)

theorem lazyStep_kept {s' : Lazy} {action : LazyAction} (kept : LazyKept config s)
    (allowed : LazyAllowed config s action) (next : lazyStep config tsDuration s action = some s') :
    LazyKept config s' := by
  unfold lazyStep at next
  split at next
  · cases next
  · cases action with
    | cycle entries =>
      dsimp only at next
      split at next
      · obtain rfl := Option.some.inj next
        exact directlyUpdateM3u8_kept kept allowed
      · cases next
    | writable opening elapsed =>
      obtain ⟨file, found, next⟩ := Option.bind_eq_some_iff.mp next
      obtain ⟨lines, handler, next⟩ := Option.bind_eq_some_iff.mp next
      obtain rfl := Option.some.inj next
      exact writeCallback_kept kept found handler allowed

/-- In a run of allowed steps the playlists of every file are its own, in order and numbered. -/
theorem writeCallback_live (config : ServerConfig) (tsDuration : Line → Int) {s : Lazy}
    (run : Transition.Reach (lazyStep config tsDuration) (LazyAllowed config) lazyStarted s) :
    ∀ opening file, s.openings[opening]? = some file → Live config s opening file := by
  intro opening file found
  have kept : LazyKept config s := run.invariant lazyStarted_kept fun _ _ _ => lazyStep_kept
  obtain ⟨named, _, covered, covers, whole, _⟩ := kept.progress opening file found
  refine ⟨named, covered, covers, whole ▸ List.prefix_append _ _, fun closed => ?_⟩
  rw [whole, Lazy.left, closed]
  exact (List.append_nil _).symm

/-- A source with one segment. -/
def lazySource (targetDuration : String) : List Line :=
  [ascii "#EXTM3U\n", ascii targetDuration, ascii "#EXTINF:8,\n", ascii "a.ts\n", ascii "#EXT-X-ENDLIST\n"]

def lazyEntry (name targetDuration : String) : List UInt8 × Option (List UInt8) :=
  (ascii name, some (lazySource targetDuration).flatten)

/-- The state behind some actions that are all possible. -/
def lazySample (actions : List LazyAction) : Lazy :=
  (Transition.exec (lazyStep sampleConfig fun _ => 0) lazyStarted actions).getD lazyStarted

def lazyRead : List LazyAction :=
  [.cycle [lazyEntry "a.m3u8" "#EXT-X-TARGETDURATION:8\n"], .writable 0 0, .writable 0 0]

theorem writeCallback_live_sample : Live sampleConfig (lazySample (lazyRead ++ [.writable 0 0])) 0
    ⟨newMediaFile sampleConfig (ascii "a.m3u8"), lazySource "#EXT-X-TARGETDURATION:8\n"⟩ := by
  have first : Transition.Reach (lazyStep sampleConfig fun _ => 0) (LazyAllowed sampleConfig) lazyStarted
      (lazySample (lazyRead.take 1)) := by
    refine .tail (e := .cycle [lazyEntry "a.m3u8" "#EXT-X-TARGETDURATION:8\n"]) .refl ?_ ?_
    · intro entry member _ _
      obtain rfl := List.mem_singleton.mp member
      decide
    · rfl
  have head (n : Nat) (line : Line) (lines : List Line)
      (next : (lazySample (lazyRead.take n)).handler 0 = some (line :: lines)) (plain : isExtinf line = false) :
      LazyAllowed sampleConfig (lazySample (lazyRead.take n)) (.writable 0 0) := by
    intro line' lines' handler extinf
    obtain ⟨rfl, _⟩ := List.cons.inj (Option.some.inj (next.symm.trans handler))
    rw [plain] at extinf
    cases extinf
  have second : Transition.Reach (lazyStep sampleConfig fun _ => 0) (LazyAllowed sampleConfig) lazyStarted
      (lazySample (lazyRead.take 2)) :=
    .tail (e := .writable 0 0) first (head 1 _ _ (by rfl) (by rfl)) rfl
  have third : Transition.Reach (lazyStep sampleConfig fun _ => 0) (LazyAllowed sampleConfig) lazyStarted
      (lazySample lazyRead) :=
    .tail (e := .writable 0 0) second (head 2 _ _ (by rfl) (by rfl)) rfl
  have group : LazyAllowed sampleConfig (lazySample lazyRead) (.writable 0 0) := by
    intro line lines handler _ _
    have next : (lazySample lazyRead).handler 0 =
        some [ascii "#EXTINF:8,\n", ascii "a.ts\n", ascii "#EXT-X-ENDLIST\n"] := by rfl
    have unpublished : (lazySample lazyRead).published = [] := by rfl
    obtain ⟨rfl, rfl⟩ := List.cons.inj (Option.some.inj (next.symm.trans handler))
    refine ⟨fun p member => ?_, ⟨ascii "#EXT-X-TARGETDURATION:8\n", rfl⟩, ?_, by decide⟩
    · rw [unpublished] at member
      cases member
    · refine ⟨[⟨ascii "#EXTINF:8,\n", ascii "a.ts\n"⟩], fun segment member => ?_, by rfl, .inr (by rfl)⟩
      obtain rfl := List.mem_singleton.mp member
      exact ⟨by rfl, by rfl⟩
  exact writeCallback_live sampleConfig (fun _ => 0) (.tail (e := .writable 0 0) third group rfl) 0 _ rfl

/-- Two channels with target durations of their own, whose heads are read before the second publishes. -/
def lazyChannels : List LazyAction :=
  .cycle [lazyEntry "a.m3u8" "#EXT-X-TARGETDURATION:8\n", lazyEntry "b.m3u8" "#EXT-X-TARGETDURATION:9\n"] ::
    (List.replicate 3 (.writable 0 0) ++ List.replicate 3 (.writable 1 0))

theorem second_part {first a b c d e f g : List UInt8} (length : a.length = b.length)
    (same : first ++ a ++ c ++ d ++ e = first ++ b ++ f ++ g) : a = b := by
  rw [List.append_assoc, List.append_assoc, List.append_assoc, List.append_assoc, List.append_assoc] at same
  exact List.append_inj_left (List.append_cancel_left same) length

theorem channels_share_header :
    (lazySample lazyChannels).texts 1 = [m3u8Header ++ ascii "#EXT-X-TARGETDURATION:8\n" ++
      ascii "#EXT-X-TARGETDURATION:9\n" ++ mediaSequenceLine 3 ++ ascii "#EXTINF:8,\nhttp://cdn/a.ts\n"] ∧
    ¬ ∀ config tsDuration s, Transition.Reach (lazyStep config tsDuration) (fun _ _ => True) lazyStarted s →
      ∀ opening file, s.openings[opening]? = some file → Live config s opening file := by
  have texts : (lazySample lazyChannels).texts 1 = [m3u8Header ++ ascii "#EXT-X-TARGETDURATION:8\n" ++
      ascii "#EXT-X-TARGETDURATION:9\n" ++ mediaSequenceLine 3 ++ ascii "#EXTINF:8,\nhttp://cdn/a.ts\n"] := by
    decide
  refine ⟨texts, fun all => ?_⟩
  have run : Transition.exec (lazyStep sampleConfig fun _ => 0) lazyStarted lazyChannels =
      some (lazySample lazyChannels) := by rfl
  have live := all _ _ _ (Transition.reach_of_exec .refl (fun _ _ _ => trivial) run) 1
    ⟨newMediaFile sampleConfig (ascii "b.m3u8"), lazySource "#EXT-X-TARGETDURATION:9\n"⟩ (by rfl)
  obtain ⟨covered, covers, _⟩ := live.covered
  rw [texts] at covers
  cases covers with
  | cons shows rest =>
    obtain ⟨_, target, member, tag, text⟩ := shows
    have only : ∀ target ∈ lazySource "#EXT-X-TARGETDURATION:9\n", isTargetDuration target = true →
        target = ascii "#EXT-X-TARGETDURATION:9\n" := by decide
    obtain rfl := only target member tag
    have length : (ascii "#EXT-X-TARGETDURATION:8\n").length = (ascii "#EXT-X-TARGETDURATION:9\n").length := by
      decide
    exact absurd (second_part length text) (by decide)

end LiveStreaming.FileLiveServer
