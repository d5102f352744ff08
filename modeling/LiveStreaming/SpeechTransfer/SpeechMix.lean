import LiveStreaming.SpeechTransfer.Mix

/-!
# Mixing 16-bit samples byte by byte

The formula of `generate_speech_mix` is one for whole samples of 16 bits and stays within their range. The loop
applies it to each of the two bytes of a sample. This module says for which samples that comes to the same.
-/

namespace LiveStreaming.SpeechTransfer

/-- A sample as it lies in memory, the low byte first. -/
structure Sample where
  low : UInt8
  high : UInt8

namespace Sample

def value (a : Sample) : Int := signed a.high * 256 + a.low.toNat

def bytes (a : Sample) : List UInt8 := [a.low, a.high]

end Sample

def pcmBytes (samples : List Sample) : List UInt8 := samples.flatMap Sample.bytes

def product (a b : Int) : Int := if a < 0 ∧ b < 0 then -(a * b) else a * b

/-- The formula, without its fraction. -/
def mixSample (a b : Int) : Int := (32767 * (a + b) - product a b).tdiv 32767

/-- What a product of two signed bytes takes from their sum, which is never more than one. -/
def correction (x y : Int) : Int :=
  if x < 0 ∧ y < 0 then 1 else if 0 < x ∧ 0 < y then -1 else if x * y < 0 ∧ x + y < 0 then 1 else 0

/-- Whether the low bytes come to more than a byte. -/
def carry (a b : Sample) : Int :=
  if 256 ≤ a.low.toNat + b.low.toNat + correction (signed a.low) (signed b.low) then 1 else 0

/-- What the bytes take from the sum of the samples: the carry is lost. -/
def byteCorrection (a b : Sample) : Int :=
  256 * (correction (signed a.high) (signed b.high) - carry a b) + correction (signed a.low) (signed b.low)

/-- The product over 32767, without its fraction as the whole formula is, is what the bytes take from the sum. -/
def BytesSuffice (a b : Sample) : Prop :=
  let part := -product a.value b.value
  if 0 ≤ 32767 * (a.value + b.value) + part then
    32767 * byteCorrection a b ≤ part ∧ part < 32767 * byteCorrection a b + 32767
  else 32767 * byteCorrection a b - 32767 < part ∧ part ≤ 32767 * byteCorrection a b

instance decidableBytesSuffice (a b : Sample) : Decidable (BytesSuffice a b) :=
  inferInstanceAs (Decidable (ite _ _ _))

theorem tdiv_eq_iff {d : Int} (positive : 0 < d) (n q : Int) :
    n.tdiv d = q ↔ if 0 ≤ n then d * q ≤ n ∧ n < d * q + d else d * q - d < n ∧ n ≤ d * q := by
  split
  · next above =>
    rw [Int.tdiv_eq_ediv_of_nonneg above, Int.ediv_eq_iff_of_pos positive]
    constructor <;> intro ⟨lower, upper⟩ <;> constructor <;> nlinarith
  · next below =>
    have negated : n.tdiv d = -((-n) / d) := by
      rw [← Int.tdiv_eq_ediv_of_nonneg (by omega), Int.neg_tdiv, neg_neg]
    rw [negated, neg_eq_iff_eq_neg, Int.ediv_eq_iff_of_pos positive]
    constructor <;> intro ⟨lower, upper⟩ <;> constructor <;> nlinarith

theorem mixSample_eq_iff (a b k : Int) :
    mixSample a b = a + b + k ↔
      if 0 ≤ 32767 * (a + b) + -product a b then 32767 * k ≤ -product a b ∧ -product a b < 32767 * k + 32767
      else 32767 * k - 32767 < -product a b ∧ -product a b ≤ 32767 * k := by
  rw [mixSample, tdiv_eq_iff (by decide), sub_eq_add_neg]
  split <;> constructor <;> intro ⟨lower, upper⟩ <;> constructor <;> omega

theorem signed_bounds (x : UInt8) : -128 ≤ signed x ∧ signed x ≤ 127 := by
  have below := x.toNat_lt
  unfold signed
  split
  · next low =>
    have small : x.toNat < 128 := low
    omega
  · next high =>
    have large : ¬ x.toNat < 128 := high
    omega

theorem signed_emod (x : UInt8) : signed x % 256 = x.toNat := by
  have below := x.toNat_lt
  unfold signed
  split <;> omega

namespace Sample

theorem value_bounds (a : Sample) : -32768 ≤ a.value ∧ a.value ≤ 32767 := by
  have high := signed_bounds a.high
  have low := a.low.toNat_lt
  unfold value
  omega

end Sample

/-- A product of two signed bytes is less than 32767 in size, so that only signs matter. -/
theorem mixSample_signed (x y : UInt8) :
    mixSample (signed x) (signed y) = signed x + signed y + correction (signed x) (signed y) := by
  have left := signed_bounds x
  have right := signed_bounds y
  generalize signed x = x at left
  generalize signed y = y at right
  rw [mixSample_eq_iff, product, correction]
  by_cases negative : x < 0 ∧ y < 0
  · have positive : 0 < x * y := mul_pos_of_neg_of_neg negative.1 negative.2
    have small : x * y ≤ 16384 := by nlinarith
    rw [if_pos negative, if_pos negative, if_neg (by omega)]
    omega
  · rw [if_neg negative, if_neg negative]
    have small : -16384 ≤ x * y ∧ x * y ≤ 16384 := by constructor <;> nlinarith
    by_cases both : 0 < x ∧ 0 < y
    · have positive : 0 < x * y := mul_pos both.1 both.2
      rw [if_pos both, if_pos (by omega)]
      omega
    · rw [if_neg both]
      have notPositive : x * y ≤ 0 := by
        rcases lt_or_ge x 0 with neg | pos
        · exact mul_nonpos_of_nonpos_of_nonneg neg.le (by omega)
        · rcases eq_or_lt_of_le pos with zero | above
          · simp [← zero]
          · exact mul_nonpos_of_nonneg_of_nonpos pos (by omega)
      by_cases opposite : x * y < 0 ∧ x + y < 0
      · rw [if_pos opposite]
        split <;> omega
      · rw [if_neg opposite]
        split <;> omega

theorem correction_bounds (x y : Int) : -1 ≤ correction x y ∧ correction x y ≤ 1 := by
  unfold correction
  split_ifs <;> omega

theorem byteCorrection_bounds (a b : Sample) : -513 ≤ byteCorrection a b ∧ byteCorrection a b ≤ 257 := by
  have highs := correction_bounds (signed a.high) (signed b.high)
  have lows := correction_bounds (signed a.low) (signed b.low)
  have carried : 0 ≤ carry a b ∧ carry a b ≤ 1 := by
    unfold carry
    split <;> omega
  unfold byteCorrection
  omega

/-- Two loud samples are never mixed as the formula says. -/
theorem BytesSuffice.quiet {a b : Sample} (enough : BytesSuffice a b) :
    -(514 * 32767) < product a.value b.value ∧ product a.value b.value < 514 * 32767 := by
  have small := byteCorrection_bounds a b
  unfold BytesSuffice at enough
  dsimp only at enough
  split at enough <;> omega

theorem mixByte_eq (x y : UInt8) :
    ((mixByte x y).toNat : Int) = (x.toNat + y.toNat + correction (signed x) (signed y)) % 256 := by
  have left := signed_emod x
  have right := signed_emod y
  have same : mixByte x y = UInt8.ofNat (mixSample (signed x) (signed y) % 256).toNat := rfl
  rw [same, mixSample_signed, UInt8.toNat_ofNat']
  omega

theorem product_bounds {a b : Int} (left : -32768 ≤ a ∧ a ≤ 32767) (right : -32768 ≤ b ∧ b ≤ 32767) :
    -1073741824 ≤ product a b ∧ product a b ≤ 1073741824 := by
  unfold product
  split <;> constructor <;> nlinarith

/-- The formula never leaves the range of 16 bits. -/
theorem mixSample_bounds {a b : Int} (left : -32768 ≤ a ∧ a ≤ 32767) (right : -32768 ≤ b ∧ b ≤ 32767) :
    -32768 ≤ mixSample a b ∧ mixSample a b ≤ 32767 := by
  have value := (mixSample_eq_iff a b (mixSample a b - a - b)).mp (by ring)
  generalize mixSample a b = m at value
  have scaled : 32767 * (m - a - b) = 32767 * m - 32767 * (a + b) := by ring
  rw [scaled] at value
  have room : -(32767 * 32769) < 32767 * (a + b) + -product a b ∧
      32767 * (a + b) + -product a b < 32767 * 32768 := by
    unfold product
    split
    · constructor <;> nlinarith
    · next mixed =>
      constructor
      · rcases lt_or_ge a 0 with negative | above
        · have other : 0 ≤ b := by omega
          nlinarith
        · nlinarith
      · nlinarith
  split at value <;> omega

namespace Sample

/-- The two bytes that the loop writes. -/
def mixed (a b : Sample) : Sample := ⟨mixByte a.low b.low, mixByte a.high b.high⟩

/-- Up to whole turns of the 16 bits, the loop writes the sum with what the bytes take from it. -/
theorem value_mixed (a b : Sample) :
    ∃ turns : Int, (a.mixed b).value = a.value + b.value + byteCorrection a b + 65536 * turns := by
  have low := mixByte_eq a.low b.low
  have high := mixByte_eq a.high b.high
  have one := signed_emod (mixByte a.high b.high)
  have left := signed_emod a.high
  have right := signed_emod b.high
  have small := correction_bounds (signed a.low) (signed b.low)
  have lows := a.low.toNat_lt
  have lows' := b.low.toNat_lt
  have positive : 0 ≤ a.low.toNat + b.low.toNat + correction (signed a.low) (signed b.low) := by
    unfold correction
    split_ifs with negative positive
    · omega
    · have some : 0 < a.low.toNat := by
        by_contra none
        have zero : a.low = 0 := UInt8.toNat_inj.mp (by simpa using none)
        rw [zero] at positive
        exact absurd positive.1 (by decide)
      omega
    · omega
    · omega
  refine ⟨(signed (mixByte a.high b.high) -
    (signed a.high + signed b.high + correction (signed a.high) (signed b.high))) / 256, ?_⟩
  unfold value mixed byteCorrection carry
  dsimp only
  split <;> omega

theorem mixed_eq_iff (a b : Sample) : (a.mixed b).value = mixSample a.value b.value ↔ BytesSuffice a b := by
  obtain ⟨turns, written⟩ := value_mixed a b
  have left := a.value_bounds
  have right := b.value_bounds
  have within := (a.mixed b).value_bounds
  have bounds := mixSample_bounds left right
  have sufficient := mixSample_eq_iff a.value b.value (byteCorrection a b)
  rw [BytesSuffice, ← sufficient]
  have value := (mixSample_eq_iff a.value b.value (mixSample a.value b.value - a.value - b.value)).mp (by ring)
  have size := product_bounds left right
  have small := byteCorrection_bounds a b
  generalize mixSample a.value b.value = m at bounds value sufficient
  constructor
  · intro same
    have near : -32769 ≤ m - a.value - b.value ∧ m - a.value - b.value ≤ 32769 := by
      split at value <;> omega
    omega
  · intro same
    omega

end Sample

theorem generateSpeechMix_pcmBytes (pairs : List (Sample × Sample)) :
    generateSpeechMix (pcmBytes (pairs.map Prod.fst)) (pcmBytes (pairs.map Prod.snd)) =
      pcmBytes (pairs.map fun p => p.1.mixed p.2) := by
  induction pairs with
  | nil => rfl
  | cons pair pairs ih =>
    simp only [generateSpeechMix, pcmBytes, List.map_cons, List.flatMap_cons, Sample.bytes, List.cons_append,
      List.nil_append, List.zipWith_cons_cons] at ih ⊢
    rw [ih]
    rfl

theorem pcmBytes_inj {samples samples' : List Sample} (same : pcmBytes samples = pcmBytes samples') :
    samples = samples' := by
  induction samples generalizing samples' with
  | nil =>
    cases samples' with
    | nil => rfl
    | cons sample samples' => cases same
  | cons sample samples ih =>
    cases samples' with
    | nil => cases same
    | cons sample' samples' =>
      simp only [pcmBytes, List.flatMap_cons, Sample.bytes, List.cons_append, List.nil_append, List.cons.injEq] at same
      obtain ⟨low, high, rest⟩ := same
      obtain ⟨one, two⟩ := sample
      obtain ⟨one', two'⟩ := sample'
      dsimp only at low high
      rw [low, high, ih rest]

/-- The buffer that is written holds the formula's value of each pair of samples. -/
def MixesSamples (pairs : List (Sample × Sample)) : Prop :=
  ∃ written : List Sample,
    generateSpeechMix (pcmBytes (pairs.map Prod.fst)) (pcmBytes (pairs.map Prod.snd)) = pcmBytes written ∧
      written.map Sample.value = pairs.map fun p => mixSample p.1.value p.2.value

/-- The loop mixes samples exactly where their bytes suffice. -/
theorem mixesSamples_iff (pairs : List (Sample × Sample)) :
    MixesSamples pairs ↔ ∀ p ∈ pairs, BytesSuffice p.1 p.2 := by
  unfold MixesSamples
  rw [generateSpeechMix_pcmBytes]
  constructor
  · rintro ⟨written, same, values⟩ p member
    rw [← pcmBytes_inj same, List.map_map] at values
    exact (Sample.mixed_eq_iff p.1 p.2).mp (List.map_inj_left.mp values p member)
  · intro enough
    refine ⟨_, rfl, ?_⟩
    rw [List.map_map]
    apply List.map_congr_left
    intro p member
    exact (Sample.mixed_eq_iff p.1 p.2).mpr (enough p member)

/-- Two samples of 256 are mixed to 256 in place of 509. -/
theorem mixesSamples_refuted : ¬ MixesSamples [(⟨0, 1⟩, ⟨0, 1⟩)] := by
  rintro ⟨written, same, values⟩
  rw [generateSpeechMix_pcmBytes] at same
  rw [← pcmBytes_inj same] at values
  exact absurd values (by decide)

end LiveStreaming.SpeechTransfer
