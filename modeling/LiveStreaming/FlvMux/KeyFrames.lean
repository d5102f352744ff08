import LiveStreaming.FlvMux.Layout

/-!
# The places of the key frames

The room for the script tag is left by the count of the first reading, and its arrays are filled by the second one.
The two agree only where the readings have the same key frames.
-/

namespace LiveStreaming.FlvMux
open Library FlvFile EarlyExit

variable {δ : Type} {d : Double δ} {left : Nat → UInt8 × UInt8} {settings : Settings δ} {n keys : Nat} {s s' : Mux δ}
  {tags : List (List UInt8)} {history : List (Mux δ × Mux δ)}

/-- The script tag lies in the room that was left for it, and the tags behind it stay. The entries of its array are
the places of the key frames: of each the number of bytes before it in the file. -/
def Placed (d : Double δ) (settings : Settings δ) (s : Mux δ) (out : Muxed δ) : Prop :=
  (s.scriptTag d settings).length = scriptSize settings.filepositionsTimesLength ∧
    ∃ tags, (∀ tag ∈ tags, Stretch tag) ∧ s.flv.bytes = front settings.filepositionsTimesLength ++ body tags ∧
      out.flv.bytes = header 0x05 ++ sizeField 0 ++ body (s.scriptTag d settings :: tags) ∧
      ∀ i < settings.filepositionsTimesLength, ∃ before tag after, tags = before ++ tag :: after ∧
        isKeyFrameTag tag ∧ before.countP isKeyFrameTag = i ∧ out.filepositions.toList[i]? =
          some (d.ofNat ((front settings.filepositionsTimesLength).length + (body before).length))

def recorded (turn : Mux δ × Mux δ) : Bool := turn.1.filepositions.length < turn.2.filepositions.length

/-- What the count and the arrays need of the two files: no more than a thousand key frames, the same ones behind the
parameter sets as in the whole file, slices of type SI among them, and none that comes when four gigabytes have been
written. -/
structure Placeable (d : Double δ) (left : Nat → UInt8 × UInt8) (fuel : Nat) (width height framerate : δ)
    (audio video : List UInt8) (units : List (List UInt8)) : Prop where
  read : Units (.unread video) units
  few : units.countP countedUnit ≤ scriptTagArrayLength
  same : (behind nalPps (behind nalSps units)).countP keyUnit = units.countP countedUnit
  low : ∀ turn ∈ turns d left fuel width height framerate audio video, recorded turn → turn.1.flv.pos < 2 ^ 32

/-! ### What every turn keeps -/

abbrev keyOffsets (n : Nat) (tags : List (List UInt8)) : List Nat := offsets isKeyFrameTag (front n).length tags

/-- The array has the places of the key frames so far, of which `keys` are to come. -/
structure Indexed (d : Double δ) (n keys : Nat) (history : List (Mux δ × Mux δ)) (s : Mux δ)
    (tags : List (List UInt8)) : Prop extends Layout n s tags where
  size : s.writeSizePos + UInt32.ofNat (scriptSize n) = UInt32.ofNat s.flv.pos
  filepositions : s.filepositions = (keyOffsets n tags).map fun offset => d.ofNat (UInt32.ofNat offset).toNat
  room : s.filepositions.length ≤ n
  units : ∃ units, Units s.video units ∧ s.filepositions.length + units.countP keyUnit = keys ∧
    (s.decodeVideoDone → units.countP keyUnit = 0)
  low : (∀ offset ∈ keyOffsets n tags, offset < 2 ^ 32) ↔ ∀ turn ∈ history, recorded turn → turn.1.flv.pos < 2 ^ 32

theorem keyOffsets_append (tags : List (List UInt8)) (tag : List UInt8) : keyOffsets n (tags ++ [tag]) =
    keyOffsets n tags ++ if isKeyFrameTag tag then [(front n ++ body tags).length] else [] := by
  rw [keyOffsets, offsets_append, offsets_singleton, List.length_append]

theorem Wrote.size {tag : List UInt8} (wrote : Wrote s s' tag)
    (size : s.writeSizePos + UInt32.ofNat (scriptSize n) = UInt32.ofNat s.flv.pos) :
    s'.writeSizePos + UInt32.ofNat (scriptSize n) = UInt32.ofNat s'.flv.pos := by
  have pos : s'.flv.pos = s.flv.pos + tag.length + 4 := by
    rw [wrote.flv]
    rfl
  have step : s'.writeSizePos = s.writeSizePos + UInt32.ofNat tag.length + 4 := wrote.writeSizePos
  have four : UInt32.ofNat 4 = 4 := rfl
  rw [pos, step, UInt32.ofNat_add, UInt32.ofNat_add, ← size, four]
  ac_rfl

theorem Layout.pos (layout : Layout n s tags) : s.flv.pos = (front n ++ body tags).length := by rw [layout.flv]

theorem recorded_append (p : Mux δ × Mux δ → Prop) (turn : Mux δ × Mux δ) :
    (∀ t ∈ history ++ [turn], recorded t → p t) ↔ (∀ t ∈ history, recorded t → p t) ∧ (recorded turn → p turn) := by
  rw [List.forall_mem_append, List.forall_mem_singleton]

theorem Indexed.wrote {tag : List UInt8} (indexed : Indexed d n keys history s tags) (wrote : Wrote s s' tag)
    (other : isKeyFrameTag tag = false) (done : s'.decodeAudioDone → s.decodeAudioDone ∨ tag = [])
    (same : s'.filepositions = s.filepositions)
    (units : ∃ units, Units s'.video units ∧ s.filepositions.length + units.countP keyUnit = keys ∧
      (s'.decodeVideoDone → units.countP keyUnit = 0)) :
        Indexed d n keys (history ++ [(s, s')]) s' (tags ++ [tag]) where
  toLayout := indexed.toLayout.wrote wrote done
  size := wrote.size indexed.size
  filepositions := by
    rw [keyOffsets_append, other, same, indexed.filepositions]
    simp
  room := by rw [same]; exact indexed.room
  units := by rw [same]; exact units
  low := by
    rw [keyOffsets_append, other, recorded_append, recorded, same]
    simpa using indexed.low

theorem Indexed.passes {key last : Bool} (indexed : Indexed d n keys history s tags)
    (passes : Passes s.video s'.video key last) (done : s'.decodeVideoDone = (s.decodeVideoDone || last)) :
    ∃ units, Units s'.video units ∧ s.filepositions.length + key.toNat + units.countP keyUnit = keys ∧
      (s'.decodeVideoDone → units.countP keyUnit = 0) := by
  obtain ⟨units, all, count, none⟩ := indexed.units
  obtain ⟨rest, all', step, atEnd⟩ := passes units all
  refine ⟨rest, all', by omega, fun ended => ?_⟩
  rw [done, Bool.or_eq_true] at ended
  rcases ended with before | last
  · have zero := none before
    omega
  · rw [atEnd last, List.countP_nil]

theorem Indexed.turn (indexed : Indexed d n keys history s tags) (turn : Turn d n s s') :
    ∃ tags, Indexed d n keys (history ++ [(s, s')]) s' tags := by
  rcases turn with ⟨tag, turn⟩ | ⟨last, passes, done, audio, flv, size, same⟩ |
    ⟨tag, last, wrote, passes, done, audio, positions⟩
  · refine ⟨_, indexed.wrote turn.toWrote turn.other turn.decodeAudioDone turn.filepositions ?_⟩
    rw [turn.video, turn.decodeVideoDone]
    exact indexed.units
  · refine ⟨tags, ⟨flv.trans indexed.flv, indexed.stretches, fun ended => indexed.unsized (audio ▸ ended)⟩, ?_, ?_, ?_,
      ?_, ?_⟩
    · rw [size, flv]
      exact indexed.size
    · rw [same]
      exact indexed.filepositions
    · rw [same]
      exact indexed.room
    · rw [same]
      exact indexed.passes passes done
    · rw [recorded_append, recorded, same]
      simpa using indexed.low
  · have units := indexed.passes passes done
    cases key : isKeyFrameTag tag with
    | false =>
      rw [key, if_neg Bool.false_ne_true] at positions
      rw [key] at units
      exact ⟨_, indexed.wrote wrote key (fun ended => .inl (audio ▸ ended)) positions units⟩
    | true =>
      rw [key, if_pos rfl] at positions
      rw [key] at units
      obtain ⟨room, positions⟩ := positions
      have size := wrote.size indexed.size
      have length : s'.filepositions.length = s.filepositions.length + 1 := by rw [positions, List.length_append]; rfl
      have pos : s'.flv.pos = s.flv.pos + tag.length + 4 := by rw [wrote.flv]; rfl
      have place : s'.writeSizePos + UInt32.ofNat (scriptSize n) - UInt32.ofNat tag.length - 4 =
          UInt32.ofNat (front n ++ body tags).length := by
        have four : UInt32.ofNat 4 = 4 := rfl
        rw [size, pos, ← indexed.pos, UInt32.ofNat_add, UInt32.ofNat_add, four]
        grind
      refine ⟨tags ++ [tag], indexed.toLayout.wrote wrote fun ended => .inl (audio ▸ ended), size, ?_, ?_, ?_, ?_⟩
      · rw [positions, place, indexed.filepositions, keyOffsets_append, key, if_pos rfl, List.map_append]
        rfl
      · omega
      · rw [length]
        exact units
      · have new : recorded (s, s') = true := by rw [recorded, length]; simp
        rw [keyOffsets_append, key, if_pos rfl, List.forall_mem_append, List.forall_mem_singleton, recorded_append, new,
          indexed.low, ← indexed.pos]
        simp

/-- The count and the array start together: behind the parameter sets no key frame has been written. -/
theorem configs_indexed {audio video config sets : List UInt8} {units : List (List UInt8)}
    (all : Units (.unread video) units) (configs : Configs (Mux.start d n audio video) s config sets) :
    ∃ tags, Indexed d n ((behind nalPps (behind nalSps units)).countP keyUnit) [] s tags := by
  have layout := start_layout (d := d) n audio video
  obtain ⟨s₁, turn, wrote, -⟩ := configs.written
  have size : (Mux.start d n audio video).writeSizePos + UInt32.ofNat (scriptSize n) =
      UInt32.ofNat (Mux.start d n audio video).flv.pos := by
    have length : (front n ++ body []).length = 17 + scriptSize n := by
      rw [body_nil, List.append_nil, front]
      simp only [List.length_append, List.length_replicate, length_sizeField]
      rw [show (header 0x05).length = 9 from rfl]
      omega
    rw [layout.pos, length, UInt32.ofNat_add]
    rfl
  have none : keyOffsets n ([] ++ [config] ++ [sets]) = [] := by
    rw [keyOffsets_append, keyOffsets_append, configs.other.1, configs.other.2]
    rfl
  have fresh : s.filepositions = [] := configs.filepositions
  refine ⟨_, layout.configs configs, wrote.size (turn.toWrote.size size), ?_, ?_, ?_, ?_⟩
  · rw [fresh, none]
    rfl
  · rw [fresh]
    exact Nat.zero_le n
  · refine ⟨_, configs.units units all, ?_, ?_⟩
    · rw [fresh, List.length_nil, Nat.zero_add]
    · rw [configs.decodeVideoDone]
      exact fun ended => absurd ended Bool.false_ne_true
  · rw [none]
    exact iff_of_true (fun _ member => absurd member List.not_mem_nil) fun _ member => absurd member List.not_mem_nil

theorem Indexed.overruns (indexed : Indexed d n keys history s tags) (overruns : Overruns n s) : n < keys := by
  obtain ⟨full, video, last, passes⟩ := overruns
  obtain ⟨units, all, count, -⟩ := indexed.units
  obtain ⟨rest, -, step, -⟩ := passes units all
  rw [Bool.toNat_true] at step
  omega

/-- When both files have ended each key frame has its entry. -/
theorem writeTags_indexed (fuel : Nat) (width height framerate : δ) (audio video : List UInt8) :
    Ends (fun stop => stop = .overrun → ∃ units, Units (.unread video) units ∧
        units.countP countedUnit < (behind nalPps (behind nalSps units)).countP keyUnit)
      (fun written => ∃ units tags, Units (.unread video) units ∧
        written.1.filepositionsTimesLength = units.countP countedUnit ∧
        Indexed d written.1.filepositionsTimesLength ((behind nalPps (behind nalSps units)).countP keyUnit)
          (turns d left fuel width height framerate audio video) written.2 tags ∧
        written.2.filepositions.length = (behind nalPps (behind nalSps units)).countP keyUnit)
      (writeTags d left fuel width height framerate audio video) := by
  refine (writeTags_ends (I := fun n history s => ∃ units tags, Units (.unread video) units ∧
      n = units.countP countedUnit ∧
      Indexed d n ((behind nalPps (behind nalSps units)).countP keyUnit) history s tags) ?_ ?_ ?_ ?_
    fuel width height framerate).mono (fun _ left => left) ?_
  · rintro n s units config sets all count configs
    obtain ⟨tags, indexed⟩ := configs_indexed all configs
    exact ⟨units, tags, all, count, indexed⟩
  · rintro n history s s' ⟨units, tags, all, count, indexed⟩ turn
    obtain ⟨tags, indexed⟩ := indexed.turn turn
    exact ⟨units, tags, all, count, indexed⟩
  · exact fun stop other same => absurd same other
  · rintro n history s ⟨units, tags, all, count, indexed⟩ overruns -
    exact ⟨units, all, count ▸ indexed.overruns overruns⟩
  · rintro written ⟨⟨units, tags, all, count, indexed⟩, done, -⟩
    obtain ⟨rest, -, total, none⟩ := indexed.units
    have zero := none done
    exact ⟨units, tags, all, count, indexed, by omega⟩

/-! ### The script tag -/

theorem getElem?_filled (d : Double δ) {vals : List δ} {i : Nat} (bound : i < n) (inside : i < vals.length) :
    (filled d n vals).toList[i]? = some vals[i] := by
  have whole : i < (filled d n vals).toList.length := by rwa [Vector.length_toList]
  rw [List.getElem?_eq_getElem whole]
  simp [filled, inside]

/-- The entries are the places where there is an entry for each key frame, and each place fits into 32 bits. -/
theorem Indexed.placed_iff {out : Muxed δ} (indexed : Indexed d settings.filepositionsTimesLength keys history s tags)
    (exactly : ∀ a b, a < 2 ^ 32 → d.ofNat a = d.ofNat b → a = b) (length : s.filepositions.length = keys)
    (written : s.writeScriptTag d settings = .ok out) : Placed d settings s out ↔
      keys = settings.filepositionsTimesLength ∧ ∀ turn ∈ history, recorded turn → turn.1.flv.pos < 2 ^ 32 := by
  have ends := writeScriptTag_ends (d := d) indexed.toLayout
  rw [written] at ends
  obtain ⟨-, bytes, same⟩ := ends
  rw [← indexed.low]
  have entries : s.filepositions.length = (keyOffsets settings.filepositionsTimesLength tags).length := by
    rw [indexed.filepositions, List.length_map]
  have room := indexed.room
  have entry {i offset : Nat} (bound : i < settings.filepositionsTimesLength)
      (found : (keyOffsets settings.filepositionsTimesLength tags)[i]? = some offset) :
      out.filepositions.toList[i]? = some (d.ofNat (UInt32.ofNat offset).toNat) := by
    obtain ⟨inside, rfl⟩ := List.getElem?_eq_some_iff.mp found
    rw [same]
    refine (getElem?_filled d bound (entries ▸ inside)).trans ?_
    simp only [indexed.filepositions, List.getElem_map]
  constructor
  · rintro ⟨-, tags', stretches, flv, -, places⟩
    rw [indexed.flv] at flv
    obtain rfl := body_inj indexed.stretches stretches (List.append_cancel_left flv)
    have offset {i : Nat} (bound : i < settings.filepositionsTimesLength) : ∃ offset,
        (keyOffsets settings.filepositionsTimesLength tags)[i]? = some offset ∧
        out.filepositions.toList[i]? = some (d.ofNat offset) := by
      obtain ⟨before, tag, after, split, key, count, place⟩ := places i bound
      exact ⟨_, (getElem?_offsets isKeyFrameTag _ i _ _).mpr ⟨before, tag, after, split, key, count, rfl⟩, place⟩
    constructor
    · by_contra other
      obtain ⟨_, found, -⟩ := offset (i := keys) (by omega)
      obtain ⟨inside, -⟩ := List.getElem?_eq_some_iff.mp found
      omega
    · intro place member
      obtain ⟨i, inside, rfl⟩ := List.getElem_of_mem member
      have found := List.getElem?_eq_getElem inside
      have bound : i < settings.filepositionsTimesLength := by omega
      obtain ⟨place, at', value⟩ := offset bound
      rw [found, Option.some_inj] at at'
      rw [entry bound found, Option.some_inj, ← at'] at value
      have small := exactly _ _ (UInt32.toNat_lt _) value
      rw [← small]
      exact UInt32.toNat_lt _
  · rintro ⟨rfl, low⟩
    refine ⟨length_scriptTag settings s, tags, indexed.stretches, by rw [indexed.flv], bytes, fun i bound => ?_⟩
    have inside : i < (keyOffsets settings.filepositionsTimesLength tags).length := by omega
    have found := List.getElem?_eq_getElem inside
    obtain ⟨before, tag, after, split, key, count, place⟩ := (getElem?_offsets isKeyFrameTag _ i _ _).mp found
    refine ⟨before, tag, after, split, key, count, ?_⟩
    have small : (UInt32.ofNat (keyOffsets settings.filepositionsTimesLength tags)[i]).toNat =
        (keyOffsets settings.filepositionsTimesLength tags)[i] :=
      UInt32.toNat_ofNat_of_lt' (low _ (List.getElem_mem inside))
    rw [entry bound found, small, place]

/-- Whether the entries are right is decided by the two files and by how much has been written before a key frame. -/
theorem key_frames_placed {fuel : Nat} {width height framerate : δ} {audio video : List UInt8}
    (exactly : ∀ a b, a < 2 ^ 32 → d.ofNat a = d.ofNat b → a = b)
    (accepted : (∃ out, writeBuf2File d left fuel width height framerate audio video = .ok out) ∨
      writeBuf2File d left fuel width height framerate audio video = .error .overrun) :
    (∃ settings s out, writeTags d left fuel width height framerate audio video = .ok (settings, s) ∧
        s.writeScriptTag d settings = .ok out ∧ Placed d settings s out) ↔
      ∃ units, Placeable d left fuel width height framerate audio video units := by
  have ends := @writeTags_indexed δ d left fuel width height framerate audio video
  cases result : writeTags d left fuel width height framerate audio video with
  | error stop =>
    rw [result] at ends
    have stopped : writeBuf2File d left fuel width height framerate audio video = .error stop := by
      rw [writeBuf2File, result]
      rfl
    rw [stopped] at accepted
    have overrun : stop = .overrun := by
      rcases accepted with ⟨out, same⟩ | same
      · cases same
      · exact Except.error.inj same
    obtain ⟨units, all, more⟩ := ends overrun
    refine iff_of_false (fun ⟨_, _, _, same, _⟩ => by cases same) fun ⟨units', placeable⟩ => ?_
    obtain rfl := placeable.read.unique all
    exact absurd placeable.same (Nat.ne_of_gt more)
  | ok written =>
    obtain ⟨settings, s⟩ := written
    rw [result] at ends
    obtain ⟨units, tags, all, count, indexed, length⟩ := ends
    dsimp only at count indexed length
    by_cases many : scriptTagArrayLength < settings.filepositionsTimesLength
    · have stopped : s.writeScriptTag d settings = .error .overrun := if_pos many
      refine iff_of_false ?_ fun ⟨units', placeable⟩ => ?_
      · rintro ⟨_, _, out, same, script, -⟩
        cases same
        rw [stopped] at script
        cases script
      · obtain rfl := placeable.read.unique all
        exact absurd placeable.few (Nat.not_le.mpr (count ▸ many))
    · have script := writeScriptTag_ends (d := d) (s := s) indexed.toLayout
      cases written : s.writeScriptTag d settings with
      | error stop =>
        rw [written] at script
        exact absurd script.2 many
      | ok out =>
        have iff := indexed.placed_iff exactly length written
        constructor
        · rintro ⟨_, _, _, same, script, placed⟩
          cases same
          obtain rfl := Except.ok.inj (written.symm.trans script)
          obtain ⟨same, low⟩ := iff.mp placed
          exact ⟨units, all, count ▸ Nat.not_lt.mp many, same.trans count, low⟩
        · rintro ⟨units', placeable⟩
          obtain rfl := placeable.read.unique all
          exact ⟨settings, s, out, rfl, written, iff.mpr ⟨placeable.same.trans count.symm, placeable.low⟩⟩

theorem binary64_exact (a b : Nat) (small : a < 2 ^ 32) (same : binary64.ofNat a = binary64.ofNat b) : a = b :=
  Binary64.nearest_natCast_inj (by omega) same

theorem sample_units : Units (.unread sampleVideo) [[0x67, 0x42, 0x00, 0x1E], [0x68, 0xCE], [0x65, 0x88, 0x80]] :=
  .found rfl (.found rfl (.found rfl (.ended rfl)))

theorem key_frames_placed_sample : ∃ settings s out,
    writeTags binary64 (fun _ => (0, 0)) 30 720 468 30 sampleAudio sampleVideo = .ok (settings, s) ∧
      s.writeScriptTag binary64 settings = .ok out ∧ Placed binary64 settings s out := by
  refine (key_frames_placed binary64_exact (.inl sampleMuxed_ok)).mpr ⟨_, sample_units, ?_, ?_, ?_⟩
  · decide
  · decide
  · decide +kernel

/-- A slice of type I before the parameter sets. -/
def lateVideo : List UInt8 := [0, 0, 0, 1, 0x65, 0x88, 0x80] ++ sampleVideo

theorem late_units : Units (.unread lateVideo)
    [[0x65, 0x88, 0x80], [0x67, 0x42, 0x00, 0x1E], [0x68, 0xCE], [0x65, 0x88, 0x80]] :=
  .found rfl (.found rfl (.found rfl (.found rfl (.ended rfl))))

theorem places_refuted : ¬ ∀ fuel audio video,
    (∃ out, writeBuf2File binary64 (fun _ => (0, 0)) fuel 720 468 30 audio video = .ok out) →
      ∃ settings s out, writeTags binary64 (fun _ => (0, 0)) fuel 720 468 30 audio video = .ok (settings, s) ∧
        s.writeScriptTag binary64 settings = .ok out ∧ Placed binary64 settings s out := by
  intro placed
  have accepted : ∃ out, writeBuf2File binary64 (fun _ => (0, 0)) 30 720 468 30 sampleAudio lateVideo = .ok out := by
    have ok : (writeBuf2File binary64 (fun _ => (0, 0)) 30 720 468 30 sampleAudio lateVideo).isOk = true := by
      decide +kernel
    generalize writeBuf2File binary64 (fun _ => (0, 0)) 30 720 468 30 sampleAudio lateVideo = result at ok
    cases result with
    | error stop => cases ok
    | ok out => exact ⟨out, rfl⟩
  obtain ⟨settings, s, out, written, script, placed⟩ := placed 30 sampleAudio lateVideo accepted
  have ends := @writeTags_indexed ℚ binary64 (fun _ => (0, 0)) 30 720 468 30 sampleAudio lateVideo
  rw [written] at ends
  obtain ⟨units, tags, all, count, indexed, length⟩ := ends
  obtain ⟨same, -⟩ := (indexed.placed_iff binary64_exact length script).mp placed
  obtain rfl := all.unique late_units
  rw [count] at same
  exact absurd same (by decide)

end LiveStreaming.FlvMux
