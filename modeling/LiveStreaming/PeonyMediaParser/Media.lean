import LiveStreaming.Library.EarlyExit
import LiveStreaming.PeonyMediaParser.Mp4

/-!
# Parsing a whole file

`onMediaParse` reads three boxes from a file, each to a buffer of its own that is as long as the size of the box says.
The package is released where the first or the second cannot be parsed, and is returned in every case.
-/

namespace LiveStreaming.PeonyMediaParser
open Library ByteReader

structure FtypBox where
  size : UInt32
  type : BoxType
  majorBrand : Vector UInt8 4
  minorVersion : Vector UInt8 4
  brandsSize : UInt8
  compatibleBrands : List UInt8

structure MP4Boxes where
  ftypBox : FtypBox
  moovBox : MoovBox
  mdtaBox : DataBox

def readFtyp : ByteReader (BoxType × Vector UInt8 4 × Vector UInt8 4) := do
  let type ← field 4
  let majorBrand ← field 4
  let minorVersion ← field 4
  pure (type, majorBrand, minorVersion)

/-- What a reader makes of the bytes from a place in the buffer on. -/
def takeAt {α : Type} (buffer : List UInt8) (r : ByteReader α) (pos : Nat) : Except Fault α :=
  match r (buffer.drop pos) with
  | some (a, _) => .ok a
  | none => .error .outside

/-- A parser reads what it may not, or writes more to a field than it has room for. -/
inductive Stop where
  | fault (fault : Fault)
  | overflow
  deriving DecidableEq

/-- `compatibleBrands` has room for twelve bytes behind their number. -/
def onFtypBoxParse (buffer : List UInt8) (ftypBox : FtypBox) : Except Stop (Bool × FtypBox) :=
  if bufferSize buffer = 0 then .ok (false, ftypBox)
  else if bufferSize buffer < 16 then .ok (false, ftypBox)
  else do
    let size := bufferSize buffer
    let (type, majorBrand, minorVersion) ← (takeAt buffer readFtyp 4).mapError .fault
    let compatibleBrands ← (takeAt buffer (bytes (size - 16).toNat) 16).mapError .fault
    if (size - 16).toNat ≤ 12 then
      .ok (true, { size, type, majorBrand, minorVersion, brandsSize := (size - 16).toUInt8, compatibleBrands })
    else .error .overflow

def onMdtaBoxParse (buffer : List UInt8) (mdtaBox : DataBox) : Except Fault (Bool × DataBox) :=
  if bufferSize buffer = 0 then .ok (false, mdtaBox)
  else do
    let size ← takeAt buffer uint32 0
    if size = bufferSize buffer then do
      let type ← takeAt buffer (field 4) 4
      if type = boxType 'm' 'd' 't' 'a' then do
        let data ← takeAt buffer (bytes (bufferSize buffer - 8).toNat) 8
        .ok (true, { size, type, data })
      else .ok (false, { mdtaBox with size, type })
    else .ok (false, { mdtaBox with size })

/-- A file that is read, and how far. -/
structure MediaFile where
  bytes : List UInt8
  pos : Nat

/-- A number as it lies in memory. -/
def hostBytes (x : UInt32) : List UInt8 := [x.toUInt8, (x >>> 8).toUInt8, (x >>> 16).toUInt8, (x >>> 24).toUInt8]

/-- `fread` to `size`, which keeps the bytes that the file has none for, and `ntohl`. -/
def freadSize (size : UInt32) (file : MediaFile) : UInt32 × MediaFile :=
  let got := (file.bytes.drop file.pos).take 4
  let memory := got ++ (hostBytes size).drop got.length
  (number (Vector.ofFn fun i => memory.getD i 0), { file with pos := file.pos + got.length })

def seekBack (file : MediaFile) : MediaFile :=
  if 4 ≤ file.pos then { file with pos := file.pos - 4 } else file

section
variable (garbage : Nat → UInt8)

/-- `fread` to a new buffer, of which the file may have too few bytes for the rest. -/
def freadBuffer (size : UInt32) (file : MediaFile) : List UInt8 × MediaFile :=
  let got := (file.bytes.drop file.pos).take size.toNat
  (got ++ (List.range' got.length (size.toNat - got.length)).map garbage, { file with pos := file.pos + got.length })

/-- The size of the next box and the buffer that it is read to. -/
def freadBox (size : UInt32) (file : MediaFile) : UInt32 × List UInt8 × MediaFile :=
  let (size, file) := freadSize size file
  let (buffer, file) := freadBuffer garbage size (seekBack file)
  (size, buffer, file)

/-- `parsed` is what the parsers of the boxes have returned so far, and `released` how often the package has been
released. -/
structure MediaState where
  size : UInt32
  file : MediaFile
  ok : Bool
  parsed : List Bool
  mp4Boxes : MP4Boxes
  released : Nat

def deallocatePackage (s : MediaState) : MediaState := { s with released := s.released + 1 }

/-- A result, or a stop, or the loop of the second parser without end. -/
abbrev MediaRun := ExceptT Stop Option

/-- The first box is read from the start of the file on. -/
def parseFtyp (file : List UInt8) (mp4Boxes : MP4Boxes) : MediaRun MediaState := do
  let (size, _) := freadSize 0 ⟨file, 0⟩
  let (buffer, file) := freadBuffer garbage size ⟨file, 0⟩
  let (ok, ftypBox) ← ExceptT.mk (some (onFtypBoxParse buffer mp4Boxes.ftypBox))
  pure { size, file, ok, parsed := [ok], mp4Boxes := { mp4Boxes with ftypBox }, released := 0 }

def parseMoov (fuel : Nat) (s : MediaState) : MediaRun MediaState :=
  if s.ok then do
    let (size, buffer, file) := freadBox garbage s.size s.file
    let (ok, moovBox) ← ExceptT.mk ((onMoovBoxParse buffer fuel s.mp4Boxes.moovBox).map (Except.mapError .fault))
    pure { s with size, file, ok, parsed := s.parsed ++ [ok], mp4Boxes := { s.mp4Boxes with moovBox } }
  else pure (deallocatePackage s)

def parseMdta (s : MediaState) : MediaRun MediaState :=
  if s.ok then do
    let (size, buffer, file) := freadBox garbage s.size s.file
    let (ok, mdtaBox) ← ExceptT.mk (some ((onMdtaBoxParse buffer s.mp4Boxes.mdtaBox).mapError .fault))
    pure { s with size, file, ok, parsed := s.parsed ++ [ok], mp4Boxes := { s.mp4Boxes with mdtaBox } }
  else pure (deallocatePackage s)

/-- What the parsers of the boxes have returned, how often the package has been released, and what is returned. -/
structure MediaParse where
  parsed : List Bool
  released : Nat
  returned : Option MP4Boxes

/-- `none` for a file that cannot be opened. `mp4Boxes` is the package as it has been allocated. -/
def onMediaParse (fuel : Nat) (file : Option (List UInt8)) (mp4Boxes : MP4Boxes) : MediaRun MediaParse :=
  match file with
  | none => pure { parsed := [], released := 0, returned := none }
  | some file => do
    let s ← parseFtyp garbage file mp4Boxes
    let s ← parseMoov garbage fuel s
    let s ← parseMdta garbage s
    pure { parsed := s.parsed, released := s.released, returned := some s.mp4Boxes }

end

/-! ### The package on the ways out -/

variable {garbage : Nat → UInt8} {fuel : Nat} {file : List UInt8} {mp4Boxes : MP4Boxes} {s s' : MediaState}

theorem run_bind_ok {α β : Type} {first : MediaRun α} {rest : α → MediaRun β} {b : β}
    (ran : (first >>= rest).run = some (.ok b)) : ∃ a, first.run = some (.ok a) ∧ (rest a).run = some (.ok b) := by
  rw [ExceptT.run_bind] at ran
  obtain ⟨result, first', rest'⟩ := Option.bind_eq_some_iff.mp ran
  cases result with
  | error fault => cases rest'
  | ok a => exact ⟨a, first', rest'⟩

theorem parseFtyp_released (ran : (parseFtyp garbage file mp4Boxes).run = some (.ok s)) :
    s.parsed = [s.ok] ∧ s.released = 0 := by
  obtain ⟨⟨ok, ftypBox⟩, -, rest⟩ := run_bind_ok ran
  obtain rfl := Except.ok.inj (Option.some.inj rest)
  exact ⟨rfl, rfl⟩

theorem parseMoov_released (first : s.parsed = [s.ok] ∧ s.released = 0)
    (ran : (parseMoov garbage fuel s).run = some (.ok s')) :
    s.ok = false ∧ s'.ok = false ∧ s'.parsed = [false] ∧ s'.released = 1 ∨
      s.ok = true ∧ s'.parsed = [true, s'.ok] ∧ s'.released = 0 := by
  unfold parseMoov at ran
  cases ok : s.ok with
  | false =>
    rw [if_neg (by rw [ok]; decide)] at ran
    obtain rfl := Except.ok.inj (Option.some.inj ran)
    rw [ok] at first
    exact .inl ⟨rfl, ok, first.1, congrArg (· + 1) first.2⟩
  | true =>
    rw [if_pos ok] at ran
    obtain ⟨⟨ok', moovBox⟩, -, rest⟩ := run_bind_ok ran
    obtain rfl := Except.ok.inj (Option.some.inj rest)
    rw [ok] at first
    exact .inr ⟨rfl, by rw [first.1]; rfl, first.2⟩

/-- The package is released once for every test of `ok` that fails, and what the last parser returns is not tested. -/
theorem onMediaParse_cases {r : MediaParse}
    (ran : (onMediaParse garbage fuel (some file) mp4Boxes).run = some (.ok r)) :
    r.returned.isSome ∧ (r.parsed = [false] ∧ r.released = 2 ∨ r.parsed = [true, false] ∧ r.released = 1 ∨
      ∃ ok, r.parsed = [true, true, ok] ∧ r.released = 0) := by
  obtain ⟨s₁, first, ran⟩ := run_bind_ok ran
  obtain ⟨s₂, second, ran⟩ := run_bind_ok ran
  obtain ⟨s₃, third, ran⟩ := run_bind_ok ran
  obtain rfl := Except.ok.inj (Option.some.inj ran)
  refine ⟨rfl, ?_⟩
  unfold parseMdta at third
  rcases parseMoov_released (parseFtyp_released first) second with ⟨-, failed, parsed, released⟩ | ⟨-, parsed, released⟩
  · rw [if_neg (by rw [failed]; decide)] at third
    obtain rfl := Except.ok.inj (Option.some.inj third)
    exact .inl ⟨parsed, congrArg (· + 1) released⟩
  · cases ok : s₂.ok with
    | false =>
      rw [if_neg (by rw [ok]; decide)] at third
      obtain rfl := Except.ok.inj (Option.some.inj third)
      rw [ok] at parsed
      exact .inr (.inl ⟨parsed, congrArg (· + 1) released⟩)
    | true =>
      rw [if_pos ok] at third
      obtain ⟨⟨ok', mdtaBox⟩, -, rest⟩ := run_bind_ok third
      obtain rfl := Except.ok.inj (Option.some.inj rest)
      exact .inr (.inr ⟨ok', by rw [parsed, ok]; rfl, released⟩)

/-- The package is released twice, once or not at all, by the parser that fails, and returned in every case. -/
theorem released_failed {r : MediaParse}
    (ran : (onMediaParse garbage fuel (some file) mp4Boxes).run = some (.ok r)) (failed : false ∈ r.parsed) :
    (r.parsed = [false] ∧ r.released = 2 ∨ r.parsed = [true, false] ∧ r.released = 1 ∨
      r.parsed = [true, true, false] ∧ r.released = 0) ∧ ¬ (r.released = 1 ∧ r.returned = none) := by
  obtain ⟨returned, cases_⟩ := onMediaParse_cases ran
  refine ⟨?_, fun clean => by rw [clean.2] at returned; cases returned⟩
  rcases cases_ with first | second | ⟨ok, parsed, released⟩
  · exact .inl first
  · exact .inr (.inl second)
  · rw [parsed] at failed
    obtain rfl : ok = false := by simpa using failed
    exact .inr (.inr ⟨parsed, released⟩)

/-- A package as it is allocated, where the fields that are not set are zero. -/
def allocateMP4Boxes : MP4Boxes where
  ftypBox := ⟨0, boxType 'f' 't' 'y' 'p', #v[0, 0, 0, 0], #v[0, 0, 0, 0], 0, []⟩
  moovBox := allocateMoovBox 0 (boxType 'm' 'o' 'o' 'v')
  mdtaBox := ⟨0, boxType 'm' 'd' 't' 'a', []⟩

/-- An ftyp box that is nothing but a header. -/
def shortFtyp : List UInt8 := [0, 0, 0, 8, 0x66, 0x74, 0x79, 0x70]

theorem shortFtyp_parsed : (onMediaParse (fun _ => 0) 1 (some shortFtyp) allocateMP4Boxes).run =
    some (.ok { parsed := [false], released := 2, returned := some allocateMP4Boxes }) := rfl

theorem released_failed_sample : ∃ r : MediaParse,
    (onMediaParse (fun _ => 0) 1 (some shortFtyp) allocateMP4Boxes).run = some (.ok r) ∧
      (r.parsed = [false] ∧ r.released = 2 ∨ r.parsed = [true, false] ∧ r.released = 1 ∨
        r.parsed = [true, true, false] ∧ r.released = 0) ∧ ¬ (r.released = 1 ∧ r.returned = none) :=
  ⟨_, shortFtyp_parsed, released_failed shortFtyp_parsed (by decide)⟩

theorem released_once_refuted : ¬ ∀ (garbage : Nat → UInt8) (fuel : Nat) (file : List UInt8) (r : MediaParse),
    (onMediaParse garbage fuel (some file) allocateMP4Boxes).run = some (.ok r) → false ∈ r.parsed →
    r.released = 1 ∧ r.returned = none := by
  intro clean
  exact absurd (clean _ _ _ _ shortFtyp_parsed (by decide)).1 (by decide)

end LiveStreaming.PeonyMediaParser
