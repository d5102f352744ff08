import LiveStreaming.Library.Spacing
import LiveStreaming.Library.Transition
import LiveStreaming.HappyHls.TsConformance

/-!
# Where the tables stand in the segment files

`receive_stream_cb` writes its frames to one segment after another, and `pes_2_ts` decides by a packet
counter that no segment resets when a PAT and a PMT go before the next packet.
-/

namespace LiveStreaming.HappyHls
open Library

open TransportPacket (Packet)

def aacSamplerates : List Nat :=
  [96000, 88200, 64000, 48000, 44100, 32000, 24000, 22050, 16000, 12000, 11025, 8000, 7350]

def h264FrameRate : Nat := 30

/-- The part of `receive_stream_cb` that writes the segments. The file of `muxer` is the open one, and
`closed` are those before it. -/
structure Segments where
  muxer : Muxer
  h264Pts : UInt64
  aacPts : UInt64
  closed : List (List (List UInt8))

namespace Segments

/-- `target_duration` has gone by: `fclose` and `create_ts_file`. -/
def createTsFile (s : Segments) : Segments :=
  { muxer := { s.muxer with file := [] }
    h264Pts := 0
    aacPts := 0
    closed := s.closed ++ [s.muxer.file] }

/-- The PES and the adaptation fields are local variables, which hold anything before. -/
def writeAac (s : Segments) (frame : List UInt8) (aacPes : TsPes) (head tail : TsAdaptationField)
    (samplingFrequencyIndex : Nat) : Option Segments :=
  let aacPes := aacFrame2Pes frame s.aacPts aacPes
  if aacPes.pesPacketLengthBeyond ≠ 0 then
    (pes2Ts s.muxer aacPes tsAacPid (writeAdaptiveTailFields head) (writeAdaptiveTailFields tail)
      s.h264Pts s.aacPts).bind
      fun w => aacSamplerates[samplingFrequencyIndex]?.map fun rate =>
        { s with muxer := w.muxer, aacPts := s.aacPts + UInt64.ofNat (1024 * 1000 * 90 / rate) }
  else some s

def writeH264 (s : Segments) (frame : List UInt8) (h264Pes : TsPes) (head tail : TsAdaptationField) : Option Segments :=
  let h264Pes := h264Frame2Pes frame s.h264Pts h264Pes
  if h264Pes.pesPacketLengthBeyond ≠ 0 then
    (pes2Ts s.muxer h264Pes tsH264Pid (writeAdaptiveHeadFields head s.h264Pts.toUInt32) (writeAdaptiveTailFields tail)
      s.h264Pts s.aacPts).map
      fun w => { s with muxer := w.muxer, h264Pts := s.h264Pts + UInt64.ofNat (1000 * 90 / h264FrameRate) }
  else some s

def start : Segments := ⟨⟨⟨0, 0, 0, 0⟩, 0, []⟩, 0, 0, []⟩

end Segments

/-- The frames come from the queues in any order, and a segment may end before each of them. -/
inductive SegmentEvent where
  | aac (frame : List UInt8) (aacPes : TsPes) (head tail : TsAdaptationField) (samplingFrequencyIndex : Nat)
  | h264 (frame : List UInt8) (h264Pes : TsPes) (head tail : TsAdaptationField)
  | targetDuration

def segmentStep (s : Segments) : SegmentEvent → Option Segments
  | .aac frame aacPes head tail index => s.writeAac frame aacPes head tail index
  | .h264 frame h264Pes head tail => s.writeH264 frame h264Pes head tail
  | .targetDuration => some s.createTsFile

theorem writeH264_eq (s : Segments) {frame : List UInt8} (some_ : frame ≠ []) (h264Pes : TsPes)
    (head tail : TsAdaptationField) : ∃ muxer, s.writeH264 frame h264Pes head tail =
      some { s with muxer, h264Pts := s.h264Pts + UInt64.ofNat (1000 * 90 / h264FrameRate) } := by
  have filled : (h264Frame2Pes frame s.h264Pts h264Pes).pesPacketLengthBeyond ≠ 0 :=
    fun zero => some_ (List.eq_nil_of_length_eq_zero zero)
  have written : WrittenField (writeAdaptiveHeadFields head s.h264Pts.toUInt32) := .inl ⟨head, _, rfl⟩
  obtain ⟨w, _, _, ran, _⟩ := @pes2Ts_carries tsH264Pid (.inl rfl) _ (writeAdaptiveTailFields tail) written s.muxer
    (h264Frame2Pes frame s.h264Pts h264Pes) s.h264Pts s.aacPts _ rfl
  refine ⟨w.muxer, ?_⟩
  rw [Segments.writeH264, if_pos filled, ran]
  rfl

/-! ### What is asked of a file -/

def IsPat (packet : List UInt8) : Prop := TransportPacket.pid packet = tsPatPid.toNat

def IsPmt (packet : List UInt8) : Prop := TransportPacket.pid packet = tsPmtPid.toNat

def IsMedia (packet : List UInt8) : Prop :=
  TransportPacket.pid packet = tsH264Pid.toNat ∨ TransportPacket.pid packet = tsAacPid.toNat

/-- A file begins with its tables, and no more than 40 media packets follow one another without tables
between them. -/
structure Tabled (file : List (List UInt8)) : Prop where
  begins : file ≠ [] → ∃ pat pmt rest, file = pat :: pmt :: rest ∧ IsPat pat ∧ IsPmt pmt
  spaced : ∀ run, run <:+: file → (∀ packet ∈ run, IsMedia packet) → run.length ≤ 40

theorem media_no_table (packet : List UInt8) (media : IsMedia packet) : ¬ IsPat packet ∧ ¬ IsPmt packet := by
  unfold IsMedia at media
  unfold IsPat IsPmt
  rcases media with media | media <;> rw [media] <;> decide

abbrev FileSpaced : Nat → List (List UInt8) → Prop := Spaced IsPat IsPmt IsMedia 40

theorem Spaced.tabled {n : Nat} {file : List (List UInt8)} (spaced : FileSpaced n file) : Tabled file where
  begins := fun _ => spaced.opens
  spaced := fun _ within all => spaced.infix_le media_no_table within all

theorem tabled_nil : Tabled [] where
  begins := fun some_ => absurd rfl some_
  spaced := fun run within _ => by
    rw [List.infix_nil.mp within]
    exact Nat.zero_le _

/-! ### The counter and the run behind the last tables -/

/-- How many media packets may stand behind the last tables when the counter has this value. -/
def allowance (no : UInt32) : Nat := if no % 40 = 0 then 40 else no.toNat % 40

/-- The counter runs ahead of the packets behind the last tables. -/
def Timed (m : Muxer) : Prop := ∃ n, FileSpaced n m.file ∧ n ≤ allowance m.writePacketNo

/-- The same where the tables that are due have been written. -/
def Ready (m : Muxer) : Prop := ∃ n, FileSpaced n m.file ∧ n ≤ m.writePacketNo.toNat % 40

theorem due_iff (no : UInt32) : no % 40 = 0 ↔ no.toNat % 40 = 0 := by
  rw [← UInt32.toNat_inj, UInt32.toNat_mod]
  rfl

theorem Ready.timed {m : Muxer} (ready : Ready m) : Timed m := by
  obtain ⟨n, spaced, small⟩ := ready
  refine ⟨n, spaced, ?_⟩
  unfold allowance
  split
  · exact spaced.count_le
  · exact small

theorem mapped_pid (p : Packet) {pid : UInt32} (known : UInt32.ofNat p.pid = pid) :
    TransportPacket.pid p.bytes = pid.toNat := by
  have small := p.pid.isLt
  rw [TransportPacket.pid_bytes, ← known, UInt32.toNat_ofNat', Nat.mod_eq_of_lt (by omega)]

theorem writeTables_ready {m : Muxer} (es : Nat → UInt8)
    (timed : Timed m ∨ m.file = [] ∧ m.writePacketNo % 40 = 0) : Ready (m.writeTables es).1 := by
  obtain ⟨⟨file, _⟩, no⟩ := writeTables_emits m es
  unfold Ready
  rw [file, no]
  by_cases due : m.writePacketNo % 40 = 0
  · have pat : IsPat (patPacket m.continuityCounter.pat).bytes := mapped_pid _ rfl
    have pmt : IsPmt (pmtPacket m.continuityCounter.pmt).bytes := mapped_pid _ rfl
    refine ⟨0, ?_, Nat.zero_le _⟩
    rw [Muxer.tables, if_pos due]
    rcases timed with ⟨n, spaced, _⟩ | ⟨empty, _⟩
    · exact .marked spaced pat pmt
    · rw [empty]
      exact .opened pat pmt
  · obtain ⟨n, spaced, small⟩ := timed.resolve_right fun opening => due opening.2
    rw [allowance, if_neg due] at small
    refine ⟨n, ?_, small⟩
    rw [Muxer.tables, if_neg due, List.map_nil, List.append_nil]
    exact spaced

theorem le_allowance {no : UInt32} {n : Nat} (small : n ≤ 40) (within : no.toNat % 40 = 0 ∨ n ≤ no.toNat % 40) :
    n ≤ allowance no := by
  unfold allowance
  simp only [due_iff]
  split
  · exact small
  · next behind => exact within.resolve_left behind

/-- The counter has 32 bits, and 40 does not divide their number. -/
theorem toNat_next (no : UInt32) : (no + 1).toNat = 0 ∨ (no + 1).toNat = no.toNat + 1 := by
  have next : (no + 1).toNat = (no.toNat + 1) % 4294967296 := UInt32.toNat_add no 1
  have bound := no.toNat_lt
  omega

theorem allowance_next {no : UInt32} {n : Nat} (small : n ≤ no.toNat % 40) : n + 1 ≤ allowance (no + 1) := by
  apply le_allowance
  · omega
  · rcases toNat_next no with next | next <;> rw [next] <;> omega

/-- Counted twice, a packet does no harm but where the counter would have come to a multiple of 40 in
between. -/
theorem allowance_skip {no : UInt32} {n : Nat} (small : n ≤ no.toNat % 40) (kept : (no + 1) % 40 ≠ 0) :
    n + 1 ≤ allowance (no + 1 + 1) := by
  rw [ne_eq, due_iff] at kept
  apply le_allowance
  · omega
  · rcases toNat_next no with next | next
    · exact absurd (by rw [next]) kept
    · rcases toNat_next (no + 1) with skip | skip <;> rw [skip] <;> omega

section
variable {pid : UInt32} {m m' : Muxer} {p : Packet} {start : Bool} {payload : List UInt8}

theorem Carries.spaced (media : Media pid) (packet : Carries pid m m' [p] [start] payload) {n : Nat}
    (spaced : FileSpaced n m.file) (room : n < 40) : FileSpaced (n + 1) m'.file := by
  have mine : UInt32.ofNat p.pid = pid := by
    have one := packet.starts
    unfold own at one
    by_contra other
    simp [other] at one
  have isMedia : IsMedia p.bytes := by
    have known := mapped_pid p mine
    rcases media with rfl | rfl
    · exact .inl known
    · exact .inr known
  rw [packet.emits.1]
  exact .item spaced room isMedia

theorem Carries.timed (media : Media pid) (packet : Carries pid m m' [p] [start] payload) (ready : Ready m)
    (no : m'.writePacketNo = m.writePacketNo) : Timed m'.count := by
  obtain ⟨n, spaced, small⟩ := ready
  refine ⟨n + 1, packet.spaced media spaced (by omega), ?_⟩
  show n + 1 ≤ allowance (m'.writePacketNo + 1)
  rw [no]
  exact allowance_next small

theorem Carries.timed_twice (media : Media pid) (packet : Carries pid m m' [p] [start] payload) (ready : Ready m)
    (no : m'.writePacketNo = m.writePacketNo) (kept : (m.writePacketNo + 1) % 40 ≠ 0) : Timed m'.count.count := by
  obtain ⟨n, spaced, small⟩ := ready
  refine ⟨n + 1, packet.spaced media spaced (by omega), ?_⟩
  show n + 1 ≤ allowance (m'.writePacketNo + 1 + 1)
  rw [no]
  exact allowance_skip small kept

end

/-! ### A frame -/

/-- How many packets of the rest of a frame go before the one with stuffing, where there is one. -/
def packetsBeforeStuffing (beyond : Nat) : Option Nat :=
  if beyond % 184 = 0 ∨ beyond % 184 = 182 then none
  else if beyond % 184 = 183 then some (beyond / 184 + 1)
  else some (beyond / 184)

/-- The packet that is counted twice does not take the counter past a multiple of 40. -/
def KeepsCount (no : UInt32) (beyond : Nat) : Prop :=
  ∀ k, packetsBeforeStuffing beyond = some k → (no + UInt32.ofNat k + 1) % 40 ≠ 0

theorem KeepsCount.next {no : UInt32} {beyond a : Nat} (keeps : KeepsCount no beyond)
    (sent : a = 184 ∧ 184 ≤ beyond ∨ a = 182 ∧ (beyond = 183 ∨ beyond = 182)) : KeepsCount (no + 1) (beyond - a) := by
  have counted : packetsBeforeStuffing beyond = (packetsBeforeStuffing (beyond - a)).map (· + 1) := by
    unfold packetsBeforeStuffing
    rcases sent with ⟨rfl, whole⟩ | ⟨rfl, rfl | rfl⟩
    · obtain ⟨rest, rfl⟩ := Nat.exists_eq_add_of_le' whole
      rw [Nat.add_sub_cancel, Nat.add_mod_right, Nat.add_div_right rest (by decide)]
      split
      · rfl
      · split <;> rfl
    · rfl
    · rfl
  intro k before
  have kept := keeps (k + 1) (by rw [counted, before]; rfl)
  rw [UInt32.ofNat_add, UInt32.add_comm (UInt32.ofNat k), ← UInt32.add_assoc] at kept
  exact kept

/-- Induction on the fuel, as for what the loop carries: every round but the last keeps the counter in
step with the packets, and the last may leave it one ahead. -/
theorem pes2TsLoop_timed {pid : UInt32} (media : Media pid) {fuel : Nat} {m : Muxer} {es : Nat → UInt8}
    {neafBuf beyond : Nat} (enough : beyond < fuel) (timed : Timed m) (keeps : KeepsCount m.writePacketNo beyond) :
    ∃ m' es', pes2TsLoop pid fuel m es neafBuf beyond = some (m', es') ∧ Timed m' := by
  induction fuel generalizing m es neafBuf beyond with
  | zero => omega
  | succ fuel ih =>
    unfold pes2TsLoop
    by_cases done : beyond = 0
    · rw [if_pos done]
      exact ⟨m, es, rfl, timed⟩
    rw [if_neg done]
    have ready := writeTables_ready es (.inl timed)
    have no := (writeTables_emits m es).2
    generalize m.writeTables es = written at ready no ⊢
    obtain ⟨m₁, es₁⟩ := written
    dsimp only at ready no ⊢
    split
    · next whole =>
      obtain ⟨header, m₂, p, written, no₂, packet⟩ := carries_full media m₁ es₁ neafBuf
      rw [written]
      apply ih
      · omega
      · exact packet.timed media ready no₂
      · show KeepsCount (m₂.writePacketNo + 1) (beyond - 184)
        rw [no₂, no]
        exact keeps.next (.inl ⟨rfl, whole⟩)
    have ready := writeTables_ready es₁ (.inl ready.timed)
    have no₁ := (writeTables_emits m₁ es₁).2
    generalize m₁.writeTables es₁ = written at ready no₁ ⊢
    obtain ⟨m₂, es₂⟩ := written
    dsimp only at ready no₁ ⊢
    split
    · next nearly =>
      obtain ⟨header, m₃, p, written, no₂, packet⟩ :=
        @carries_stuffed pid media m₂ false 0 0 (slice es₂ neafBuf 182) (by simp)
      rw [show m₂.writeHeader (List.replicate tsPacketSize 0) pid 0 3 = _ from written]
      rw [List.replicate_zero, Buffer.overwrite_nil] at packet
      apply ih
      · omega
      · exact packet.timed media ready no₂
      · show KeepsCount (m₃.writePacketNo + 1) (beyond - 182)
        rw [no₂, no₁, no]
        exact keeps.next (.inr ⟨rfl, nearly⟩)
    · next short =>
      obtain ⟨stuffing, size⟩ : ∃ stuffing, stuffing + beyond = 182 := ⟨182 - beyond, by omega⟩
      obtain ⟨header, m₃, p, written, no₂, packet⟩ :=
        @carries_stuffed pid media m₂ false 0 stuffing (slice es₂ neafBuf beyond) (by rw [length_slice]; omega)
      rw [show m₂.writeHeader (List.replicate tsPacketSize 0) pid 0 3 = _ from written,
        show 184 - beyond - 1 = stuffing + 1 by omega, show 184 - beyond - 2 = stuffing by omega]
      obtain ⟨fuel, rfl⟩ : ∃ k, fuel = k + 1 := ⟨fuel - 1, by omega⟩
      rw [pes2TsLoop, if_pos rfl]
      have last : packetsBeforeStuffing beyond = some 0 := by
        unfold packetsBeforeStuffing
        rw [if_neg (by omega), if_neg (by omega), Nat.div_eq_of_lt (by omega)]
      have kept := keeps 0 last
      rw [show UInt32.ofNat 0 = 0 from rfl, UInt32.add_zero, ← no, ← no₁] at kept
      exact ⟨_, es₂, rfl, packet.timed_twice media ready no₂ kept⟩

/-- The frame does not meet the branches that leave the tables out: it is not a single packet where
tables are due, and its last packet does not take the counter past where they would be due. -/
structure Regular (m : Muxer) (first beyond : Nat) : Prop where
  single : beyond < first → m.file ≠ [] ∧ m.writePacketNo % 40 ≠ 0
  opening : first ≤ beyond → m.file = [] → m.writePacketNo % 40 = 0
  counted : first ≤ beyond → KeepsCount (m.writePacketNo + 1) (beyond - first)

theorem pes2Ts_timed {pid : UInt32} (media : Media pid) {head tail : TsAdaptationField} (written : WrittenField head)
    {m : Muxer} (timed : m.file = [] ∨ Timed m) {pes : TsPes}
    (stream : pes.streamId = tsH264StreamId ∨ pes.streamId = tsAacStreamId) {videopts audiopts : UInt64}
    (regular : Regular m (firstPacketLoadLength head) pes.pesPacketLengthBeyond) {w : TsWritten}
    (ran : pes2Ts m pes pid head tail videopts audiopts = some w) : Timed w.muxer := by
  obtain ⟨time, time_eq⟩ := streamTime_known stream videopts audiopts
  obtain ⟨field, announced, size, _⟩ := createAdaptiveTs_fills written
  have first := firstPacketLoadLength_eq announced size
  have five := length_streamTime time_eq
  unfold pes2Ts at ran
  dsimp only at ran
  by_cases short : pes.pesPacketLengthBeyond < firstPacketLoadLength head
  · obtain ⟨stuffing, full⟩ : ∃ stuffing, stuffing + pes.pesPacketLengthBeyond = 168 :=
      ⟨168 - pes.pesPacketLengthBeyond, by omega⟩
    obtain ⟨header, m₁, p, wrote, no, packet⟩ := carries_only media m pes five pes.es full
    rw [if_pos short, wrote, time_eq,
      show 184 - pes.pesPacketLengthBeyond - 9 - 5 - 1 = stuffing + 1 by omega,
      show 184 - pes.pesPacketLengthBeyond - 9 - 5 - 2 = stuffing by omega] at ran
    obtain rfl := Option.some.inj ran
    obtain ⟨begun, notDue⟩ := regular.single short
    have ready : Ready m := by
      obtain ⟨n, spaced, small⟩ := timed.resolve_left begun
      rw [allowance, if_neg notDue] at small
      exact ⟨n, spaced, small⟩
    exact packet.timed media ready no
  · have ready := writeTables_ready pes.es
      (timed.symm.imp_right fun empty => ⟨empty, regular.opening (Nat.le_of_not_lt short) empty⟩)
    have no := (writeTables_emits m pes.es).2
    have keeps := regular.counted (Nat.le_of_not_lt short)
    rw [if_neg short] at ran
    generalize m.writeTables pes.es = state at ready no ran
    obtain ⟨m₁, es⟩ := state
    dsimp only at ready no ran
    obtain ⟨header, m₂, p, wrote, no₂, packet⟩ := carries_first media m₁ written pes five es
    rw [wrote, time_eq] at ran
    dsimp only at ran
    obtain ⟨⟨m', es'⟩, loop, rfl⟩ := Option.map_eq_some_iff.mp ran
    have behind := packet.timed media ready no₂
    rw [← no, ← no₂] at keeps
    obtain ⟨_, _, loop', timed'⟩ := pes2TsLoop_timed media (Nat.lt_succ_self _) behind keeps
    rw [loop'] at loop
    obtain ⟨rfl, rfl⟩ := Prod.mk.inj (Option.some.inj loop)
    exact timed'

/-! ### Runs -/

/-- Nothing is asked of the end of a segment, nor of a frame without bytes, which is not written. -/
def Undisturbed (s : Segments) : SegmentEvent → Prop
  | .aac frame _ head _ _ => frame ≠ [] → Regular s.muxer
                               (firstPacketLoadLength (writeAdaptiveTailFields head)) frame.length
  | .h264 frame _ head _ =>
    frame ≠ [] →
      Regular s.muxer (firstPacketLoadLength (writeAdaptiveHeadFields head s.h264Pts.toUInt32)) frame.length
  | .targetDuration => True

def AllTabled (s : Segments) : Prop := ∀ file ∈ s.closed ++ [s.muxer.file], Tabled file

/-- The closed files are as they should be, and the open one can go on. -/
structure Going (s : Segments) : Prop where
  closed : ∀ file ∈ s.closed, Tabled file
  timed : s.muxer.file = [] ∨ Timed s.muxer

theorem Going.tabled {s : Segments} (going : Going s) : AllTabled s := by
  intro file member
  rcases List.mem_append.mp member with member | member
  · exact going.closed file member
  · obtain rfl := List.mem_singleton.mp member
    rcases going.timed with empty | ⟨n, spaced, _⟩
    · rw [empty]
      exact tabled_nil
    · exact Spaced.tabled spaced

theorem writeAac_going {s s' : Segments} {frame : List UInt8} {aacPes : TsPes} {head tail : TsAdaptationField}
    {index : Nat} (going : Going s) (ok : Undisturbed s (.aac frame aacPes head tail index))
    (next : s.writeAac frame aacPes head tail index = some s') : Going s' := by
  unfold Segments.writeAac at next
  dsimp only at next
  split at next
  · next some_ =>
    obtain ⟨w, ran, next⟩ := Option.bind_eq_some_iff.mp next
    obtain ⟨rate, _, rfl⟩ := Option.map_eq_some_iff.mp next
    have regular := ok fun empty => some_ (congrArg List.length empty)
    exact ⟨going.closed, .inr (pes2Ts_timed (.inr rfl) (.inr ⟨head, rfl⟩) going.timed (.inr rfl) regular ran)⟩
  · obtain rfl := Option.some.inj next
    exact going

theorem writeH264_going {s s' : Segments} {frame : List UInt8} {h264Pes : TsPes} {head tail : TsAdaptationField}
    (going : Going s) (ok : Undisturbed s (.h264 frame h264Pes head tail))
    (next : s.writeH264 frame h264Pes head tail = some s') : Going s' := by
  unfold Segments.writeH264 at next
  dsimp only at next
  split at next
  · next some_ =>
    obtain ⟨w, ran, rfl⟩ := Option.map_eq_some_iff.mp next
    have regular := ok fun empty => some_ (congrArg List.length empty)
    exact ⟨going.closed, .inr (pes2Ts_timed (.inl rfl) (.inl ⟨head, _, rfl⟩) going.timed (.inl rfl) regular ran)⟩
  · obtain rfl := Option.some.inj next
    exact going

theorem segmentStep_going {s s' : Segments} {e : SegmentEvent} (going : Going s) (ok : Undisturbed s e)
    (next : segmentStep s e = some s') : Going s' := by
  cases e with
  | aac => exact writeAac_going going ok next
  | h264 => exact writeH264_going going ok next
  | targetDuration =>
    obtain rfl := Option.some.inj next
    exact ⟨going.tabled, .inl rfl⟩

/-- As long as no frame meets the branches that leave the tables out, every segment file has its tables
where they should be. -/
theorem segments_tabled {s : Segments} (run : Transition.Reach segmentStep Undisturbed .start s) : AllTabled s := by
  have going : Going s := run.invariant
    ⟨fun file member => absurd member List.not_mem_nil, .inl rfl⟩
    fun _ _ _ going ok next => segmentStep_going going ok next
  exact going.tabled

def sampleEvent (frame : List UInt8) : SegmentEvent := .h264 frame blankPes blankField blankField

def sampleSegments : Segments := (segmentStep .start (sampleEvent sampleFrame)).getD .start

theorem segments_tabled_sample : sampleSegments.muxer.file.length = 5 ∧ AllTabled sampleSegments := by
  have written : (segmentStep .start (sampleEvent sampleFrame)).isSome := by decide +kernel
  have next : segmentStep .start (sampleEvent sampleFrame) = some sampleSegments := by
    obtain ⟨s, known⟩ := Option.isSome_iff_exists.mp written
    rw [sampleSegments, known]
    rfl
  have length : sampleFrame.length = 400 := by decide +kernel
  have regular : Undisturbed .start (sampleEvent sampleFrame) := by
    intro _
    rw [length]
    refine ⟨fun short => absurd short (by decide), fun _ _ => rfl, fun _ k before => ?_⟩
    obtain rfl : 1 = k := Option.some.inj before
    decide
  exact ⟨by decide +kernel, segments_tabled (.tail .refl regular next)⟩

/-- An H.264 stream opens with its parameter sets, which fit one packet. -/
def sampleSps : List UInt8 := [0, 0, 0, 1, 0x67, 0x42, 0x00, 0x1E, 0x95, 0xA8, 0x28, 0x0F, 0x64]

theorem first_frame_without_tables :
    ¬ ∀ s, Transition.Reach segmentStep (fun _ _ => True) .start s → AllTabled s := by
  intro all
  have length : ((segmentStep .start (sampleEvent sampleSps)).map (·.muxer.file.length)) = some 1 := by decide
  obtain ⟨s, next, one⟩ := Option.map_eq_some_iff.mp length
  have tabled := all s (.tail .refl trivial next) s.muxer.file (List.mem_append_right _ List.mem_cons_self)
  obtain ⟨pat, pmt, rest, file, _⟩ := tabled.begins fun empty => by
    rw [empty] at one
    cases one
  rw [file] at one
  simp at one

end LiveStreaming.HappyHls
