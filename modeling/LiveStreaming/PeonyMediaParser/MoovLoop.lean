import LiveStreaming.PeonyMediaParser.BoxWalk
import Mathlib.Data.Finite.Prod

/-!
# The loop over the boxes

The loop of `onMoovBoxParse` begins its turns where the walk goes. A walk that comes to one place twice never ends: a
box of an unknown type, an iods box without data and a table without a size are left where they are.
-/

namespace LiveStreaming.PeonyMediaParser
open Library ByteReader EarlyExit

variable {buffer : List UInt8} {s : Parser} {n : Nat}

theorem walk_succ (at_ : walk buffer n = some s.cursor) : walk buffer (n + 1) = s.cursor.turn buffer := by
  rw [walk, Walk.path, ← walk, at_, Option.bind_some]

theorem fits_iff (loaded : Loaded buffer s) : s.cursor.Fits buffer ↔ s.pos - 8 + s.size ≤ bufferSize buffer := by
  rw [Cursor.Fits, loaded.size]
  rfl

/-- The loop has come to an end exactly if the walk has. -/
theorem moovLoop_isSome (small : buffer.length < 2 ^ 32) (loaded : Loaded buffer s)
    (at_ : walk buffer n = some s.cursor) (fuel : Nat) :
    (moovLoop buffer fuel s).isSome ↔ walk buffer (n + fuel) = none := by
  induction fuel generalizing s n with
  | zero => simp [moovLoop, at_]
  | succ fuel ih =>
    have next := walk_succ at_
    rw [moovLoop, Nat.add_comm fuel 1, ← Nat.add_assoc]
    by_cases fits : s.pos - 8 + s.size ≤ bufferSize buffer
    · rw [Cursor.turn, if_pos ((fits_iff loaded).mpr fits)] at next
      have turn := compareType_ends small boxKinds loaded
      rw [if_pos fits, moovTurn]
      cases result : boxKinds.foldlM (compareType buffer) s with
      | error leave =>
        rw [result] at turn
        have ended : walk buffer (n + 1) = none := next.trans turn.1
        exact ⟨fun _ => Walk.path_none ended fuel, fun _ => rfl⟩
      | ok s' =>
        rw [result] at turn
        exact ih turn.2.2 (next.trans turn.1)
    · have ended : walk buffer (n + 1) = none := by
        rw [next, Cursor.turn, if_neg (mt (fits_iff loaded).mp fits)]
      rw [if_neg fits]
      exact ⟨fun _ => Walk.path_none ended fuel, fun _ => rfl⟩

theorem moovLoop_fault_of_unsound (small : buffer.length < 2 ^ 32) (loaded : Loaded buffer s)
    (at_ : walk buffer n = some s.cursor) {k : Nat} {c : Cursor} (there : walk buffer (n + k) = some c)
    (fits : c.Fits buffer) (unsound : ¬ Sound buffer boxKinds c) :
    ∃ fuel fault, moovLoop buffer fuel s = some (.fault fault) := by
  induction k generalizing s n with
  | zero =>
    obtain rfl := Option.some.inj (there.symm.trans at_)
    have turn := compareType_ends small boxKinds loaded
    refine ⟨1, ?_⟩
    rw [moovLoop, if_pos ((fits_iff loaded).mp fits), moovTurn]
    cases result : boxKinds.foldlM (compareType buffer) s with
    | error leave =>
      rw [result] at turn
      cases leave with
      | fault fault => exact ⟨fault, rfl⟩
      | ended _ => exact absurd turn.2 unsound
    | ok s' =>
      rw [result] at turn
      exact absurd turn.2.1 unsound
  | succ k ih =>
    rw [Nat.add_comm k 1, ← Nat.add_assoc] at there
    have next := walk_succ at_
    have going : walk buffer (n + 1) ≠ none := fun ended => by
      rw [walk] at ended there
      rw [Walk.path_none ended k] at there
      cases there
    by_cases fits' : s.cursor.Fits buffer
    · rw [Cursor.turn, if_pos fits'] at next
      have turn := compareType_ends small boxKinds loaded
      cases result : boxKinds.foldlM (compareType buffer) s with
      | error leave =>
        rw [result] at turn
        exact absurd (next.trans turn.1) going
      | ok s' =>
        rw [result] at turn
        obtain ⟨fuel, fault, ran⟩ := ih turn.2.2 (next.trans turn.1) there
        refine ⟨fuel + 1, fault, ?_⟩
        rw [moovLoop, if_pos ((fits_iff loaded).mp fits'), moovTurn, result]
        exact ran
    · exact absurd (next.trans (if_neg fits')) going

theorem unsound_of_fault (small : buffer.length < 2 ^ 32) (loaded : Loaded buffer s)
    (at_ : walk buffer n = some s.cursor) {fuel : Nat} {fault : Fault}
    (ran : moovLoop buffer fuel s = some (.fault fault)) :
    ∃ m c, walk buffer m = some c ∧ c.Fits buffer ∧ ¬ Sound buffer boxKinds c := by
  induction fuel generalizing s n with
  | zero => cases ran
  | succ fuel ih =>
    rw [moovLoop] at ran
    by_cases fits : s.pos - 8 + s.size ≤ bufferSize buffer
    · have turn := compareType_ends small boxKinds loaded
      rw [if_pos fits, moovTurn] at ran
      cases result : boxKinds.foldlM (compareType buffer) s with
      | error leave =>
        rw [result] at turn ran
        obtain rfl := Option.some.inj ran
        exact ⟨n, _, at_, (fits_iff loaded).mpr fits, turn.2⟩
      | ok s' =>
        rw [result] at turn ran
        have next := (walk_succ at_).trans (if_pos ((fits_iff loaded).mpr fits))
        exact ih turn.2.2 (next.trans turn.1) ran
    · rw [if_neg fits] at ran
      cases ran

/-! ### From the start -/

/-- The loop begins with the first header loaded. -/
theorem moovRun_loop (enough : 16 ≤ buffer.length) (moovBox : MoovBox) :
    ∃ s, (∀ fuel, moovRun buffer fuel moovBox = moovLoop buffer fuel s) ∧ s.cursor = .start ∧ Loaded buffer s := by
  obtain ⟨moovType, first⟩ := (wide_field 4).some (buffer.drop 4) (by rw [List.length_drop]; omega)
  obtain ⟨⟨size, type⟩, second⟩ := wide_readSizeType.some (buffer.drop 8) (by rw [List.length_drop]; omega)
  rw [List.drop_drop] at first second
  have both : readMoovStart (buffer.drop 4) = some ((moovType, size, type), buffer.drop 16) := by
    have run : readMoovStart (buffer.drop 4) = (field 4 (buffer.drop 4)).bind fun front =>
      (readSizeType front.2).bind fun header => some ((front.1, header.1), header.2) := rfl
    rw [run, first, Option.bind_some, second]
    rfl
  have taken : (buffer.drop 4).length - (buffer.drop 16).length = 12 := by
    rw [List.length_drop, List.length_drop]
    omega
  have start : readAt buffer readMoovStart 4 = .ok ((moovType, size, type), 16) := by
    rw [readAt, show (4 : UInt32).toNat = 4 from rfl, both]
    dsimp only
    rw [taken]
    rfl
  have header : headerAt buffer 16 = (size, type) := by
    rw [headerAt, show (16 : UInt32).toNat - 8 = 8 from rfl, second]
    rfl
  refine ⟨⟨16, size, type, _⟩, fun fuel => by rw [moovRun, start], rfl, enough, ?_, ?_⟩
  · exact (congrArg Prod.fst header).symm
  · exact (congrArg Prod.snd header).symm

theorem bufferSize_lt (small : buffer.length < 2 ^ 32) : bufferSize buffer < 16 ↔ buffer.length < 16 := by
  rw [UInt32.lt_iff_toNat_lt, bufferSize_toNat small]
  rfl

instance finiteCursor : Finite Cursor := by
  refine Finite.of_injective
    (fun c : Cursor => (c.pos, c.parents.trak, c.parents.mdia, c.parents.minf, c.parents.dinf, c.parents.stbl)) ?_
  rintro ⟨pos, trak, mdia, minf, dinf, stbl⟩ ⟨pos', trak', mdia', minf', dinf', stbl'⟩ same
  simp only [Prod.mk.injEq] at same
  obtain ⟨rfl, rfl, rfl, rfl, rfl, rfl⟩ := same
  rfl

theorem onMoovBoxParse_run (small : buffer.length < 2 ^ 32) (enough : 16 ≤ buffer.length) (moovBox : MoovBox)
    (fuel : Nat) : onMoovBoxParse buffer fuel moovBox = (moovRun buffer fuel moovBox).map Leave.result := by
  rw [onMoovBoxParse, if_neg (mt (bufferSize_lt small).mp (Nat.not_lt.mpr enough))]

theorem onMoovBoxParse_isSome (small : buffer.length < 2 ^ 32) (enough : 16 ≤ buffer.length) (moovBox : MoovBox)
    (fuel : Nat) : (onMoovBoxParse buffer fuel moovBox).isSome ↔ walk buffer fuel = none := by
  obtain ⟨s, run, cursor, loaded⟩ := moovRun_loop enough moovBox
  have start : walk buffer 0 = some s.cursor := congrArg some cursor.symm
  rw [onMoovBoxParse_run small enough, Option.isSome_map, run,
    moovLoop_isSome small loaded start, Nat.zero_add]

/-- A moov box with an empty trak. -/
def emptyTrak : List UInt8 := [0, 0, 0, 16, 0x6D, 0x6F, 0x6F, 0x76, 0, 0, 0, 8, 0x74, 0x72, 0x61, 0x6B]

end LiveStreaming.PeonyMediaParser
