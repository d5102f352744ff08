import Mathlib.Algebra.Ring.Nat
import Mathlib.Data.List.Basic

/-!
# Streams of NAL units

NAL units are carried behind start codes, of three bytes or four, or behind their lengths in four bytes. The two forms
are as long as each other where all start codes are long, and the same bytes where all units have one byte.
-/

namespace LiveStreaming.Library.NalStream

def IsStartCode (code : List UInt8) : Prop := code = [0, 0, 1] ∨ code = [0, 0, 0, 1]

/-- `bytes` are the units one after another, each behind a start code. -/
inductive AnnexB : List (List UInt8) → List UInt8 → Prop where
  | nil : AnnexB [] []
  | cons {units : List (List UInt8)} {code bytes : List UInt8} (unit : List UInt8) (isCode : IsStartCode code)
      (rest : AnnexB units bytes) : AnnexB (unit :: units) (code ++ (unit ++ bytes))

def unitLength (n : Nat) : List UInt8 :=
  [UInt8.ofNat (n >>> 24), UInt8.ofNat (n >>> 16), UInt8.ofNat (n >>> 8), UInt8.ofNat n]

/-- The units one after another, each behind its length. -/
def lengthPrefixed (units : List (List UInt8)) : List UInt8 := units.flatMap fun unit => unitLength unit.length ++ unit

/-- The units one after another, each behind a long start code. -/
def startCoded (units : List (List UInt8)) : List UInt8 := units.flatMap fun unit => [0, 0, 0, 1] ++ unit

variable {unit : List UInt8} {units : List (List UInt8)} {bytes : List UInt8}

theorem lengthPrefixed_cons (unit : List UInt8) (units : List (List UInt8)) :
    lengthPrefixed (unit :: units) = unitLength unit.length ++ (unit ++ lengthPrefixed units) := by
  rw [lengthPrefixed, List.flatMap_cons, List.append_assoc]
  rfl

theorem startCoded_cons (unit : List UInt8) (units : List (List UInt8)) :
    startCoded (unit :: units) = [0, 0, 0, 1] ++ (unit ++ startCoded units) := by
  rw [startCoded, List.flatMap_cons, List.append_assoc]
  rfl

theorem length_lengthPrefixed_cons (unit : List UInt8) (units : List (List UInt8)) :
    (lengthPrefixed (unit :: units)).length = 4 + unit.length + (lengthPrefixed units).length := by
  rw [lengthPrefixed_cons, List.length_append, List.length_append, ← Nat.add_assoc]
  rfl

theorem annexB_startCoded (units : List (List UInt8)) : AnnexB units (startCoded units) := by
  induction units with
  | nil => exact .nil
  | cons unit units ih =>
    rw [startCoded_cons]
    exact .cons unit (.inr rfl) ih

theorem AnnexB.length_le (stream : AnnexB units bytes) : bytes.length ≤ (lengthPrefixed units).length := by
  induction stream with
  | nil => exact Nat.le_refl 0
  | cons unit isCode rest ih =>
    rw [length_lengthPrefixed_cons, List.length_append, List.length_append]
    rcases isCode with rfl | rfl <;> simp only [List.length_cons, List.length_nil] <;> omega

/-- A stream as long as this has only long start codes. -/
theorem AnnexB.eq_startCoded (stream : AnnexB units bytes) (full : (lengthPrefixed units).length ≤ bytes.length) :
    bytes = startCoded units := by
  induction stream with
  | nil => rfl
  | cons unit isCode rest ih =>
    have bound := rest.length_le
    rw [length_lengthPrefixed_cons, List.length_append, List.length_append] at full
    rcases isCode with rfl | rfl
    · simp only [List.length_cons, List.length_nil] at full
      omega
    · simp only [List.length_cons, List.length_nil] at full
      rw [startCoded_cons, ih (by omega)]

theorem unitLength_eq {n : Nat} (bound : n < 2 ^ 32) : unitLength n = [0, 0, 0, 1] ↔ n = 1 := by
  constructor
  · intro same
    simp only [unitLength, List.cons.injEq, and_true] at same
    obtain ⟨first, second, third, last⟩ := same
    have byte {m : Nat} {b : UInt8} (same : UInt8.ofNat m = b) : m % 256 = b.toNat := by
      rw [← same, UInt8.toNat_ofNat']
    have first : n >>> 24 % 256 = 0 := byte first
    have second : n >>> 16 % 256 = 0 := byte second
    have third : n >>> 8 % 256 = 0 := byte third
    have last : n % 256 = 1 := byte last
    simp only [Nat.shiftRight_eq_div_pow] at first second third
    omega
  · rintro rfl
    rfl

/-- Units behind their lengths are units behind long start codes only if each has one byte. -/
theorem startCoded_eq_lengthPrefixed (small : ∀ unit ∈ units, unit.length < 2 ^ 32) :
    startCoded units = lengthPrefixed units ↔ ∀ unit ∈ units, unit.length = 1 := by
  induction units with
  | nil => exact iff_of_true rfl fun unit member => absurd member List.not_mem_nil
  | cons unit units ih =>
    have rest := ih fun unit member => small unit (List.mem_cons_of_mem _ member)
    rw [startCoded_cons, lengthPrefixed_cons, List.forall_mem_cons, ← rest,
      ← unitLength_eq (small unit List.mem_cons_self)]
    constructor
    · intro same
      obtain ⟨field, behind⟩ := List.append_inj same rfl
      exact ⟨field.symm, List.append_cancel_left behind⟩
    · rintro ⟨field, behind⟩
      rw [field, behind]

end LiveStreaming.Library.NalStream
