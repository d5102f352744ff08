import LiveStreaming.Library.CString
import LiveStreaming.Library.OrderedMap

/-!
# The configuration file

`readConfig` goes through the lines of a file, with three flags for the section that it is in. Lines end with a carriage
return, which it takes off the values, and which it leaves in the usage text.
-/

namespace LiveStreaming.WebChat
open Library Library.CString Library.TextLines

structure ServerConfig where
  metaMap : OrderedMap (List UInt8) (List UInt8)
  serverMap : OrderedMap (List UInt8) (List UInt8)
  usage : List UInt8

/-- The local variables of the loop, and the configuration. -/
structure ConfigReading where
  isReadingMeta : Bool
  isReadingServer : Bool
  isReadingUsage : Bool
  serverConfig : ServerConfig

/-- `std::map::insert`, which leaves a key that is there as it is. -/
def insertPair (m : OrderedMap (List UInt8) (List UInt8)) (key value : List UInt8) :
    OrderedMap (List UInt8) (List UInt8) :=
  if (m.find key).isSome then m else m.set key value

def findLastOf (c : UInt8) (s : List UInt8) : Option Nat := (strchr c s.reverse).map (s.length - 1 - ·)

def readHeading (heading : List UInt8) (r : ConfigReading) : ConfigReading :=
  if heading = ascii "META" then
    let r :=
      if r.isReadingServer then { r with isReadingServer := false }
      else if r.isReadingUsage then { r with isReadingUsage := false }
      else r
    { r with isReadingMeta := true }
  else if heading = ascii "SERVER" then
    let r :=
      if r.isReadingMeta then { r with isReadingMeta := false }
      else if r.isReadingUsage then { r with isReadingUsage := false }
      else r
    { r with isReadingServer := true }
  else if heading = ascii "USAGE" then
    let r :=
      if r.isReadingMeta then { r with isReadingMeta := false }
      else if r.isReadingServer then { r with isReadingServer := false }
      else r
    { r with isReadingUsage := true }
  else r

/-- The last branch of the loop. -/
def readPlainLine (r : ConfigReading) (line : List UInt8) : ConfigReading :=
  if r.isReadingMeta || r.isReadingServer then
    match strchr 61 line with
    | none => r
    | some curPos =>
      let key := line.take curPos
      -- where nothing is behind the sign the difference wraps, and nothing is taken all the same
      let value := (line.drop (curPos + 1)).take (line.length - curPos - 2)
      if r.isReadingMeta then { r with serverConfig.metaMap := insertPair r.serverConfig.metaMap key value }
      else { r with serverConfig.serverMap := insertPair r.serverConfig.serverMap key value }
  else if r.isReadingUsage then { r with serverConfig.usage := r.serverConfig.usage ++ (line ++ [10, 13]) }
  else r

/-- One turn of the loop. `none` is `exit( EXIT_FAILURE )`. -/
def readLine (r : ConfigReading) (line : List UInt8) : Option ConfigReading :=
  match line with
  | [] => some r
  | c :: _ =>
    if c = 35 then some r
    else if c = 91 then
      match findLastOf 93 line with
      | none => none
      | some curPos => some (readHeading ((line.drop 1).take (curPos - 1)) r)
    else if c = 32 then none
    else some (readPlainLine r line)

/-- For a file that can be opened. -/
def readConfig (content : List UInt8) (serverConfig : ServerConfig) : Option ServerConfig := do
  let r ← (getlines content).foldlM readLine
    { isReadingMeta := false, isReadingServer := false, isReadingUsage := false,
      serverConfig := { serverConfig with usage := [13] } }
  some r.serverConfig

/-- As `main` passes it. -/
def emptyConfig : ServerConfig := { metaMap := .empty, serverMap := .empty, usage := [] }

/-! ### Configuration texts -/

inductive ConfigSection where
  | META
  | SERVER
  | USAGE
  deriving DecidableEq

/-- A line, with `text` for one that is none of the others. -/
inductive ConfigLine where
  | heading (which : ConfigSection)
  | comment (content : List UInt8)
  | blank
  | pair (key value : List UInt8)
  | text (content : List UInt8)

def ConfigSection.name : ConfigSection → List UInt8
  | .META => ascii "META"
  | .SERVER => ascii "SERVER"
  | .USAGE => ascii "USAGE"

def ConfigLine.bytes : ConfigLine → List UInt8
  | .heading which => 91 :: which.name ++ [93]
  | .comment content => 35 :: content
  | .blank => []
  | .pair key value => key ++ 61 :: value
  | .text content => content

/-- What a line begins with that is no comment and no heading. -/
def PlainStart (s : List UInt8) : Prop := ∃ c rest, s = c :: rest ∧ c ≠ 35 ∧ c ≠ 91 ∧ c ≠ 32

/-- No line has a line feed, and a key no equals sign. -/
def ConfigLine.WellFormed : ConfigLine → Prop
  | .heading _ => True
  | .comment content => 10 ∉ content
  | .blank => True
  | .pair key value => PlainStart key ∧ 10 ∉ key ∧ 61 ∉ key ∧ 10 ∉ value
  | .text content => PlainStart content ∧ 10 ∉ content ∧ 61 ∉ content

def configText (lines : List ConfigLine) : List UInt8 := lines.flatMap fun line => line.bytes ++ [13, 10]

/-- The section that the next line is in. -/
def sectionAfter (current : Option ConfigSection) : ConfigLine → Option ConfigSection
  | .heading which => some which
  | _ => current

/-- The pairs of one kind of section, in order. -/
def sectionPairs (which : ConfigSection) : Option ConfigSection → List ConfigLine → List (List UInt8 × List UInt8)
  | _, [] => []
  | current, .pair key value :: lines =>
    if current = some which then (key, value) :: sectionPairs which current lines
    else sectionPairs which current lines
  | current, line :: lines => sectionPairs which (sectionAfter current line) lines

/-- The lines of the usage sections that are no headings or comments, in order. -/
def usageLines : Option ConfigSection → List ConfigLine → List (List UInt8)
  | _, [] => []
  | _, .heading which :: lines => usageLines (some which) lines
  | current, .comment _ :: lines => usageLines current lines
  | current, line :: lines =>
    if current = some .USAGE then line.bytes :: usageLines current lines else usageLines current lines

/-- Each usage line with its carriage return, a line feed and a carriage return, and one at the beginning. -/
def usageText (lines : List (List UInt8)) : List UInt8 := 13 :: lines.flatMap fun line => line ++ [13, 10, 13]

/-! ### Lines -/

variable {current : Option ConfigSection} {config : ServerConfig} {key value line : List UInt8}

/-- In a section one flag is set. -/
def readingIn (current : Option ConfigSection) (config : ServerConfig) : ConfigReading where
  isReadingMeta := current = some .META
  isReadingServer := current = some .SERVER
  isReadingUsage := current = some .USAGE
  serverConfig := config

/-- The usage text with one line more, if it is read in a usage section. -/
def addUsage (current : Option ConfigSection) (config : ServerConfig) (line : List UInt8) : ServerConfig :=
  if current = some .USAGE then { config with usage := config.usage ++ (line ++ [13, 10, 13]) } else config

theorem readLine_heading (which : ConfigSection) :
    readLine (readingIn current config) ((ConfigLine.heading which).bytes ++ [13]) =
      some (readingIn (some which) config) := by
  have line_ : readLine (readingIn current config) ((ConfigLine.heading which).bytes ++ [13]) =
      some (readHeading which.name (readingIn current config)) := by
    cases which <;> rfl
  rw [line_]
  rcases current with _ | current
  · cases which <;> rfl
  · cases which <;> cases current <;> rfl

theorem readLine_plain (start : PlainStart line) (r : ConfigReading) (rest : List UInt8) :
    readLine r (line ++ rest) = some (readPlainLine r (line ++ rest)) := by
  obtain ⟨c, tail, rfl, comment, heading, blank⟩ := start
  rw [List.cons_append, readLine, if_neg comment, if_neg heading, if_neg blank]

/-- Outside the sections of pairs, and without an equals sign, a line counts for the usage text only. -/
theorem readPlainLine_other (unpaired : current = some .META ∨ current = some .SERVER → 61 ∉ line) :
    readPlainLine (readingIn current config) (line ++ [13]) = readingIn current (addUsage current config line) := by
  have none_ (inside : current = some .META ∨ current = some .SERVER) : strchr 61 (line ++ [13]) = none := by
    refine strchr_none fun member => ?_
    rcases List.mem_append.mp member with member | member
    · exact unpaired inside member
    · exact absurd member (by decide)
  have text : line ++ [13] ++ [10, 13] = line ++ [13, 10, 13] := List.append_assoc _ _ _
  unfold readPlainLine
  rcases current with _ | which
  · rfl
  · cases which with
    | META =>
      rw [none_ (.inl rfl)]
      rfl
    | SERVER =>
      rw [none_ (.inr rfl)]
      rfl
    | USAGE =>
      rw [text]
      rfl

/-- The value is what lies between the sign and the carriage return. -/
theorem readPlainLine_pair (single : 61 ∉ key) (r : ConfigReading) (inside : r.isReadingMeta || r.isReadingServer) :
    readPlainLine r (key ++ 61 :: value ++ [13]) =
      if r.isReadingMeta then { r with serverConfig.metaMap := insertPair r.serverConfig.metaMap key value }
      else { r with serverConfig.serverMap := insertPair r.serverConfig.serverMap key value } := by
  have found : strchr 61 (key ++ 61 :: value ++ [13]) = some key.length := by
    rw [List.append_assoc, List.cons_append]
    exact strchr_append single _
  have front : (key ++ 61 :: value ++ [13]).take key.length = key := by
    rw [List.append_assoc, List.take_left]
  have behind : (key ++ 61 :: value ++ [13]).drop (key.length + 1) = value ++ [13] := by
    rw [List.append_assoc, List.drop_append, List.drop_eq_nil_of_le (Nat.le_succ _), Nat.add_sub_cancel_left]
    rfl
  have length : (key ++ 61 :: value ++ [13]).length - key.length - 2 = value.length := by
    rw [List.length_append, List.length_append, List.length_cons, List.length_singleton]
    omega
  unfold readPlainLine
  rw [if_pos inside, found]
  dsimp only
  rw [front, behind, length, List.take_left]

/-! ### Texts -/

/-- The pairs, one after the other. -/
def insertPairs (m : OrderedMap (List UInt8) (List UInt8)) (pairs : List (List UInt8 × List UInt8)) :
    OrderedMap (List UInt8) (List UInt8) := pairs.foldl (fun m pair => insertPair m pair.1 pair.2) m

theorem find_insertPairs {m : OrderedMap (List UInt8) (List UInt8)} {pairs : List (List UInt8 × List UInt8)}
    (different : (pairs.map Prod.fst).Nodup) (absent : ∀ pair ∈ pairs, m.find pair.1 = none) :
    (insertPairs m pairs).find key = some value ↔ m.find key = some value ∨ (key, value) ∈ pairs := by
  induction pairs generalizing m with
  | nil => exact (or_iff_left List.not_mem_nil).symm
  | cons pair pairs ih =>
    obtain ⟨apart, different⟩ := List.nodup_cons.mp different
    have absent_ := absent pair List.mem_cons_self
    have inserted : insertPair m pair.1 pair.2 = m.set pair.1 pair.2 := by
      rw [insertPair, absent_]
      rfl
    have rest : insertPairs m (pair :: pairs) = insertPairs (m.set pair.1 pair.2) pairs := by
      rw [← inserted]
      rfl
    rw [rest, ih different ?_, OrderedMap.find_set, List.mem_cons]
    · by_cases here : key = pair.1
      · subst here
        have none_ : ¬ (none : Option (List UInt8)) = some value := fun found => by cases found
        rw [if_pos rfl, absent_, or_iff_right none_, Option.some_inj]
        exact or_congr_left ⟨fun same => by rw [← same], fun same => (congrArg Prod.snd same).symm⟩
      · rw [if_neg here, or_iff_right (b := (key, value) ∈ pairs) fun same => here (congrArg Prod.fst same)]
    · intro other member
      rw [OrderedMap.find_set, if_neg ?_]
      · exact absent other (List.mem_cons_of_mem _ member)
      · intro same
        exact apart (same ▸ List.mem_map_of_mem member)

theorem metaMap_addUsage : (addUsage current config line).metaMap = config.metaMap := by
  unfold addUsage
  split <;> rfl

theorem serverMap_addUsage : (addUsage current config line).serverMap = config.serverMap := by
  unfold addUsage
  split <;> rfl

theorem usage_addUsage (lines : List (List UInt8)) :
    (addUsage current config line).usage ++ (lines.flatMap fun line => line ++ [13, 10, 13]) =
      config.usage ++ (if current = some .USAGE then line :: lines else lines).flatMap
        fun line => line ++ [13, 10, 13] := by
  unfold addUsage
  by_cases inside : current = some .USAGE
  · rw [if_pos inside, if_pos inside, List.flatMap_cons]
    exact List.append_assoc _ _ _
  · rw [if_neg inside, if_neg inside]

/-- By induction over the lines: the flags are those of the section, and each map has got the pairs of its sections. -/
theorem readLines_eq {lines : List ConfigLine} (wellFormed : ∀ line ∈ lines, line.WellFormed) :
    ∃ after, (lines.map fun line => line.bytes ++ [13]).foldlM readLine (readingIn current config) =
      some (readingIn after
        { metaMap := insertPairs config.metaMap (sectionPairs .META current lines)
          serverMap := insertPairs config.serverMap (sectionPairs .SERVER current lines)
          usage := config.usage ++ (usageLines current lines).flatMap fun line => line ++ [13, 10, 13] }) := by
  induction lines generalizing current config with
  | nil => exact ⟨current, by rw [usageLines, List.flatMap_nil, List.append_nil]; rfl⟩
  | cons line lines ih =>
    have here := wellFormed line List.mem_cons_self
    have rest := fun current config =>
      @ih current config fun other member => wellFormed other (List.mem_cons_of_mem _ member)
    rw [List.map_cons, List.foldlM_cons]
    -- a line of the usage text, if it is one
    have usage := fun line => rest current (addUsage current config line)
    simp only [metaMap_addUsage, serverMap_addUsage, usage_addUsage] at usage
    cases line with
    | heading which =>
      rw [readLine_heading]
      exact rest (some which) config
    | comment content => exact rest current config
    | blank =>
      have turn : readLine (readingIn current config) ([] ++ [13]) =
          some (readPlainLine (readingIn current config) ([] ++ [13])) := rfl
      rw [ConfigLine.bytes, turn, readPlainLine_other fun _ => List.not_mem_nil]
      exact usage []
    | pair key value =>
      obtain ⟨start, _, single, _⟩ := here
      rw [ConfigLine.bytes, List.append_assoc, readLine_plain start, ← List.append_assoc]
      rcases current with _ | which
      · rw [readPlainLine_other fun inside => by simp at inside]
        exact usage (key ++ 61 :: value)
      · cases which with
        | META =>
          rw [readPlainLine_pair single _ rfl]
          exact rest (some .META) { config with metaMap := insertPair config.metaMap key value }
        | SERVER =>
          rw [readPlainLine_pair single _ rfl]
          exact rest (some .SERVER) { config with serverMap := insertPair config.serverMap key value }
        | USAGE =>
          rw [readPlainLine_other fun inside => by simp at inside]
          exact usage (key ++ 61 :: value)
    | text content =>
      obtain ⟨start, _, unpaired⟩ := here
      rw [ConfigLine.bytes, readLine_plain start, readPlainLine_other fun _ => unpaired]
      exact usage content

theorem getlines_configText {lines : List ConfigLine} (wellFormed : ∀ line ∈ lines, line.WellFormed) :
    getlines (configText lines) = lines.map fun line => line.bytes ++ [13] := by
  have text : configText lines = (lines.map fun line => line.bytes ++ [13]).flatMap fun line => line ++ [10] := by
    rw [configText, List.flatMap_map]
    exact List.flatMap_congr fun line _ => (List.append_assoc line.bytes [13] [10]).symm
  rw [text, getlines_flatMap]
  intro bytes member
  obtain ⟨line, here, rfl⟩ := List.mem_map.mp member
  have unbroken : 10 ∉ line.bytes := by
    have well := wellFormed line here
    cases line with
    | heading which => cases which <;> decide
    | comment content =>
      rw [ConfigLine.bytes, List.mem_cons, not_or]
      exact ⟨by decide, well⟩
    | blank => exact List.not_mem_nil
    | pair key value =>
      rw [ConfigLine.bytes, List.mem_append, List.mem_cons, not_or, not_or]
      exact ⟨well.2.1, by decide, well.2.2.2⟩
    | text content => exact well.2.1
  rw [List.mem_append, not_or]
  exact ⟨unbroken, by decide⟩

/-- The maps have the pairs of their sections and nothing else, and the usage text the lines of its sections. -/
theorem readConfig_reads (lines : List ConfigLine) (wellFormed : ∀ line ∈ lines, line.WellFormed)
    (metaKeys : ((sectionPairs .META none lines).map Prod.fst).Nodup)
    (serverKeys : ((sectionPairs .SERVER none lines).map Prod.fst).Nodup) :
    ∃ config, readConfig (configText lines) emptyConfig = some config ∧
      (∀ key value, config.metaMap.find key = some value ↔ (key, value) ∈ sectionPairs .META none lines) ∧
      (∀ key value, config.serverMap.find key = some value ↔ (key, value) ∈ sectionPairs .SERVER none lines) ∧
      config.usage = usageText (usageLines none lines) := by
  have read : readConfig (configText lines) emptyConfig = some
      { metaMap := insertPairs .empty (sectionPairs .META none lines)
        serverMap := insertPairs .empty (sectionPairs .SERVER none lines)
        usage := usageText (usageLines none lines) } := by
    obtain ⟨after, read⟩ := @readLines_eq none { emptyConfig with usage := [13] } lines wellFormed
    rw [readConfig, getlines_configText wellFormed]
    exact congrArg (Option.bind · fun r => some r.serverConfig) read
  refine ⟨_, read, fun key value => ?_, fun key value => ?_, rfl⟩
  · rw [find_insertPairs metaKeys fun _ _ => rfl]
    exact or_iff_right fun found => by cases found
  · rw [find_insertPairs serverKeys fun _ _ => rfl]
    exact or_iff_right fun found => by cases found

theorem readConfig_sample : ∃ config,
    readConfig (ascii "#1\r\n[USAGE]\r\n-h\r\n[META]\r\n\r\na=\r\n") emptyConfig = some config ∧
      config.metaMap.find (ascii "a") = some [] ∧ config.usage = ascii "\r-h\r\n\r" := by
  obtain ⟨config, read, found, _, usage⟩ := readConfig_reads
    [.comment (ascii "1"), .heading .USAGE, .text (ascii "-h"), .heading .META, .blank, .pair (ascii "a") []]
    (by
      intro line member
      simp only [List.mem_cons, List.not_mem_nil, or_false] at member
      rcases member with rfl | rfl | rfl | rfl | rfl | rfl
      · show 10 ∉ _
        decide
      · trivial
      · exact ⟨⟨_, _, rfl, by decide, by decide, by decide⟩, by decide, by decide⟩
      · trivial
      · trivial
      · exact ⟨⟨_, _, rfl, by decide, by decide, by decide⟩, by decide, by decide, by decide⟩)
    (by decide) (by decide)
  exact ⟨config, read, (found _ _).mpr (by decide), usage⟩

end LiveStreaming.WebChat
