import LiveStreaming.FlvMux.AudioTag
import LiveStreaming.FlvMux.VideoTag
import LiveStreaming.Library.SeekableFile

/-!
# The muxer

`WriteBuf2File` leaves room for the script tag, writes the tags of the two files in the order of their times, and
goes back to the room that was left.
-/

namespace LiveStreaming.FlvMux
open Library FlvFile

def fileHeaderLength : Nat := 9
def scriptTagArrayLength : Nat := 1000

def writeStructFileHeader : List UInt8 := [0x46, 0x4C, 0x56, 0x01, 0x05, 0x00, 0x00, 0x00, 0x09]

variable {δ : Type} (d : Double δ)

/-- What the parameters and the two files say before the first tag is written. -/
structure Settings (δ : Type) where
  width : δ
  height : δ
  framerate : δ
  filepositionsTimesLength : Nat
  audiosamplerate : δ
  stereo : UInt8

/-- `filepositions` and `times` are the entries of the arrays that have been set. -/
structure Mux (δ : Type) where
  flv : SeekableFile
  audio : AudioFile
  video : VideoFile
  decodeAudioDone : Bool
  decodeVideoDone : Bool
  videoFrameType : UInt8
  timestampAudio : δ
  timestampVideo : δ
  writeSizePos : UInt32
  filepositions : List δ
  times : List δ

namespace Mux

def writeTag (s : Mux δ) (tag : List UInt8) : Mux δ :=
  { s with
    flv := (s.flv.write tag).write (sizeField tag.length)
    writeSizePos := s.writeSizePos + UInt32.ofNat tag.length + 4 }

/-- Neither array grows with what is put into it. -/
def recordKeyFrame (n size : Nat) (s : Mux δ) : Run (Mux δ) :=
  if s.filepositions.length < n then
    let fileposition := s.writeSizePos + UInt32.ofNat (scriptSize n) - UInt32.ofNat size - 4
    .ok { s with
      filepositions := s.filepositions ++ [d.ofNat fileposition.toNat]
      times := s.times ++ [s.timestampVideo] }
  else .error .overrun

/-- `left` is what lies in unset variables, for each place of the file. -/
def writeAudioTag (left : Nat → UInt8 × UInt8) (timestamp : UInt32) (aacPacketType : UInt8) (s : Mux δ) :
    Run (Mux δ) := do
  let (tag, done, audio) ← writeStructAacTag s.audio timestamp aacPacketType (left s.flv.pos)
  .ok { s.writeTag tag with audio, decodeAudioDone := s.decodeAudioDone || done }

def audioTurn (left : Nat → UInt8 × UInt8) (settings : Settings δ) (s : Mux δ) : Run (Mux δ) := do
  let s ← s.writeAudioTag left (d.toUInt32 s.timestampAudio) 0x01
  .ok { s with timestampAudio := d.add s.timestampAudio (d.div (d.ofNat (1024 * 1000)) settings.audiosamplerate) }

def videoTurn (fuel : Nat) (settings : Settings δ) (s : Mux δ) : Run (Mux δ) := do
  let (tag, videoFrameType, done, video) ←
    writeStructH264Tag fuel s.video (d.toUInt32 s.timestampVideo) 0x01 s.videoFrameType
  let s := { s with video, videoFrameType, decodeVideoDone := s.decodeVideoDone || done }
  if tag.length = 0 then .ok s
  else
    let s := s.writeTag tag
    let s ← if videoFrameType = frameI then s.recordKeyFrame d settings.filepositionsTimesLength tag.length else .ok s
    .ok { s with timestampVideo := d.add s.timestampVideo (d.div (d.ofNat 1000) settings.framerate) }

/-- The next tag is one of the file that has not ended, or of the one that is behind. -/
def turn (left : Nat → UInt8 × UInt8) (settings : Settings δ) (fuel : Nat) (s : Mux δ) : Run (Mux δ) :=
  if s.decodeVideoDone then s.audioTurn d left settings
  else if s.decodeAudioDone then s.videoTurn d fuel settings
  else if d.gt s.timestampAudio s.timestampVideo then s.videoTurn d fuel settings
  else s.audioTurn d left settings

def loop (left : Nat → UInt8 × UInt8) (settings : Settings δ) : Nat → Mux δ → Run (Mux δ)
  | 0, _ => .error .fuel
  | fuel + 1, s =>
    if s.decodeVideoDone ∧ s.decodeAudioDone then .ok s
    else do
      let s ← s.turn d left settings fuel
      loop left settings fuel s

/-- The header of the file, the room for the script tag and its size. -/
def start (n : Nat) (audio video : List UInt8) : Mux δ where
  flv := (((SeekableFile.empty.write writeStructFileHeader).write (sizeField 0)).seekForward (scriptSize n)).write
    (sizeField (scriptSize n))
  audio := ⟨audio, audio⟩
  video := .unread video
  decodeAudioDone := false
  decodeVideoDone := false
  videoFrameType := 0
  timestampAudio := d.ofNat 0
  timestampVideo := d.ofNat 0
  writeSizePos := 17
  filepositions := []
  times := []

def writeConfigs (left : Nat → UInt8 × UInt8) (fuel : Nat) (s : Mux δ) : Run (Mux δ) := do
  let s ← s.writeAudioTag left 0x00 0x00
  let (tag, videoFrameType, done, video) ← writeStructH264Tag fuel s.video 0x00 0x00 s.videoFrameType
  .ok { s.writeTag tag with video, videoFrameType, decodeVideoDone := s.decodeVideoDone || done }

end Mux

/-- The array that `calloc` gave, with the entries that have been set. -/
def filled (n : Nat) (vals : List δ) : Vector δ n := Vector.ofFn fun i => vals.getD i (d.ofNat 0)

/-- The file, and the places of the key frames that its script tag has. -/
structure Muxed (δ : Type) where
  flv : SeekableFile
  filepositionsTimesLength : Nat
  filepositions : Vector δ filepositionsTimesLength

def Mux.scriptTag (settings : Settings δ) (s : Mux δ) : List UInt8 :=
  let n := settings.filepositionsTimesLength
  let last := if d.gt s.timestampAudio s.timestampVideo then s.timestampAudio else s.timestampVideo
  let filesize := d.ofNat (s.writeSizePos + UInt32.ofNat (scriptSize n)).toNat
  writeStructScriptTag d (d.div last (d.ofNat 1000)) settings.width settings.height settings.framerate
    settings.audiosamplerate settings.stereo filesize (filled d n s.filepositions) (filled d n s.times)

/-- The arrays of the script tag have a thousand entries. -/
def Mux.writeScriptTag (settings : Settings δ) (s : Mux δ) : Run (Muxed δ) :=
  if scriptTagArrayLength < settings.filepositionsTimesLength then .error .overrun
  else
    let flv := (s.flv.seek (fileHeaderLength + 4)).write (s.scriptTag d settings)
    .ok ⟨flv.seek flv.bytes.length, settings.filepositionsTimesLength, filled d _ s.filepositions⟩

/-- What `WriteBuf2File` does before its loop. `width`, `height` and `framerate` are what `main` passes. -/
def writeHead (left : Nat → UInt8 × UInt8) (fuel : Nat) (width height framerate : δ) (audio video : List UInt8) :
    Run (Settings δ × Mux δ) := do
  let filepositionsTimesLength ← traverseH264File fuel video
  match ← detachHeadAac audio with
  | (none, _) => .error .undefined
  | (some header, _) =>
    let audiosamplerate := if header.sfIndex = 0x04 then d.ofNat 44100 else d.ofNat 0
    let stereo := if header.channelConfiguration = 2 then 1 else 0
    let s ← (Mux.start d filepositionsTimesLength audio video).writeConfigs left fuel
    .ok (⟨width, height, framerate, filepositionsTimesLength, audiosamplerate, stereo⟩, s)

/-- What it does before it goes back to the script tag. -/
def writeTags (left : Nat → UInt8 × UInt8) (fuel : Nat) (width height framerate : δ) (audio video : List UInt8) :
    Run (Settings δ × Mux δ) := do
  let (settings, s) ← writeHead d left fuel width height framerate audio video
  let s ← s.loop d left settings fuel
  .ok (settings, s)

/-- The writes all succeed. -/
def writeBuf2File (left : Nat → UInt8 × UInt8) (fuel : Nat) (width height framerate : δ) (audio video : List UInt8) :
    Run (Muxed δ) := do
  let (settings, s) ← writeTags d left fuel width height framerate audio video
  s.writeScriptTag d settings

end LiveStreaming.FlvMux
