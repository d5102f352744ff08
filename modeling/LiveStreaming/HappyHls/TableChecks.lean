import LiveStreaming.Library.Crc
import LiveStreaming.HappyHls.Ts
import Mathlib.Algebra.Ring.Nat

/-!
# The checksum as a receiver computes it

The table of `calc_crc32` is that of CRC-32/MPEG-2, so the checksum is the one that a shift register
computes bit by bit, and a section with its checksum behind it has the remainder zero.
-/

namespace LiveStreaming.HappyHls
open Library

/-- The polynomial of CRC-32/MPEG-2, without its leading term. -/
def mpeg2Polynomial : BitVec 32 := 0x04C11DB7#32

/-- CRC-32/MPEG-2, bit by bit from a register of ones. -/
def crc32Mpeg2 (data : List UInt8) : UInt32 :=
  UInt32.ofBitVec (Crc.crc mpeg2Polynomial (BitVec.allOnes 32) data)

theorem crcTab_toList : crcTab.toList.map UInt32.toBitVec =
    (List.range 256).map fun i => Crc.entry mpeg2Polynomial 8 (BitVec.ofNat 32 i) := by decide +kernel

theorem crcTab_entry {i : Nat} (inside : i < 256) :
    (crcTab.getD i 0).toBitVec = Crc.entry mpeg2Polynomial 8 (BitVec.ofNat 32 i) := by
  have entry := congrArg (·[i]?) crcTab_toList
  rw [List.getElem?_map, List.getElem?_map, List.getElem?_range inside, Option.map_some, Array.getElem?_toList] at entry
  obtain ⟨word, found, same⟩ := Option.map_eq_some_iff.mp entry
  rw [Array.getD_eq_getD_getElem?, found, Option.getD_some, same]

theorem index_toBitVec (crc : UInt32) (byte : UInt8) :
    (((crc >>> 24) ^^^ byte.toUInt32) &&& 0xff).toBitVec =
      crc.toBitVec >>> 24 ^^^ byte.toBitVec.setWidth 32 := by
  have high : (crc.toBitVec >>> 24).toNat < 2 ^ 8 := by
    have := crc.toBitVec.isLt
    rw [BitVec.toNat_ushiftRight, Nat.shiftRight_eq_div_pow]
    omega
  have low : (byte.toBitVec.setWidth 32).toNat < 2 ^ 8 := by
    have := byte.toBitVec.isLt
    rw [BitVec.toNat_setWidth]
    omega
  have small := Nat.xor_lt_two_pow high low
  apply BitVec.eq_of_toNat_eq
  change ((crc.toBitVec >>> 24).toNat ^^^ (byte.toBitVec.setWidth 32).toNat) &&& (2 ^ 8 - 1) = _
  rw [Nat.and_two_pow_sub_one_eq_mod, Nat.mod_eq_of_lt small]
  rfl

/-- The loop of `calc_crc32` takes a byte as eight steps of the shift register. -/
theorem tableStep (crc : UInt32) (byte : UInt8) :
    ((crc <<< 8) ^^^ crcTab.getD (((crc >>> 24) ^^^ byte.toUInt32) &&& 0xff).toNat 0).toBitVec =
      Crc.feed mpeg2Polynomial crc.toBitVec (Crc.byteBits byte) := by
  have inside : (((crc >>> 24) ^^^ byte.toUInt32) &&& 0xff).toNat < 256 :=
    Nat.lt_of_le_of_lt Nat.and_le_right (by decide)
  have word := crcTab_entry inside
  rw [← UInt32.toNat_toBitVec, BitVec.ofNat_toNat, BitVec.setWidth_eq, index_toBitVec] at word
  have fed := Crc.feed_table mpeg2Polynomial (show 8 ≤ 32 by decide) crc.toBitVec byte.toBitVec
  rw [UInt32.toBitVec_xor, ← UInt32.toNat_toBitVec, index_toBitVec, word]
  exact fed.symm

theorem foldl_table (crc : UInt32) (data : List UInt8) :
    (data.foldl (fun (crc : UInt32) (byte : UInt8) =>
      (crc <<< 8) ^^^ crcTab.getD (((crc >>> 24) ^^^ byte.toUInt32) &&& 0xff).toNat 0) crc).toBitVec =
      Crc.crc mpeg2Polynomial crc.toBitVec data := by
  induction data generalizing crc with
  | nil => rfl
  | cons byte data ih => rw [List.foldl_cons, ih, tableStep, Crc.crc_cons]

theorem calcCrc32_eq (data : List UInt8) : calcCrc32 data = crc32Mpeg2 data :=
  UInt32.toBitVec_inj.mp (foldl_table 0xffffffff data)

/-! ### The checksum behind its section -/

/-- The two masks keep a byte each, in different places. -/
theorem masked_bytes (a b : Nat) : a &&& 0xff00 ||| b &&& 0xff = a / 256 % 256 * 256 + b % 256 := by
  have high : a &&& 2 ^ 8 * (2 ^ 8 - 1) = 2 ^ 8 * (a / 2 ^ 8 % 2 ^ 8) := by
    apply Nat.eq_of_testBit_eq
    intro i
    rw [Nat.testBit_and, Nat.testBit_two_pow_mul, Nat.testBit_two_pow_mul, Nat.testBit_two_pow_sub_one,
      Nat.testBit_mod_two_pow, Nat.testBit_div_two_pow]
    by_cases above : 8 ≤ i
    · simp [above, Bool.and_comm]
    · simp [above]
  rw [show 0xff00 = 2 ^ 8 * (2 ^ 8 - 1) by rfl, show 0xff = 2 ^ 8 - 1 by rfl, Nat.and_two_pow_sub_one_eq_mod, high,
    ← Nat.two_pow_add_eq_or_of_lt (Nat.mod_lt _ (by decide))]
  omega

theorem bswap16c_toNat (x : UInt32) : (bswap16c x).toNat = x.toNat % 256 * 256 + x.toNat / 256 % 256 := by
  have masked := masked_bytes (x.toNat <<< 8 % 2 ^ 32) (x.toNat >>> 8)
  simp only [bswap16c, UInt32.toNat_or, UInt32.toNat_and, UInt32.toNat_shiftLeft, UInt32.toNat_shiftRight]
  refine masked.trans ?_
  rw [Nat.shiftLeft_eq, Nat.shiftRight_eq_div_pow]
  omega

theorem exists_bytes (x : UInt32) : ∃ a < 256, ∃ b < 256, ∃ c < 256, ∃ d < 256,
    x.toNat = a * 2 ^ 24 + b * 2 ^ 16 + c * 2 ^ 8 + d := by
  have bound := x.toNat_lt
  refine ⟨x.toNat / 256 / 256 / 256, by omega, x.toNat / 256 / 256 % 256, by omega, x.toNat / 256 % 256, by omega,
    x.toNat % 256, by omega, by omega⟩

theorem bytes_places {n a b c d : Nat} (highest : a < 256) (second : b < 256) (third : c < 256) (lowest : d < 256)
    (bytes : n = a * 2 ^ 24 + b * 2 ^ 16 + c * 2 ^ 8 + d) :
    n % 2 ^ 8 = d ∧ n / 2 ^ 8 % 2 ^ 8 = c ∧ n / 2 ^ 16 % 2 ^ 8 = b ∧ n / 2 ^ 24 % 2 ^ 8 = a := by
  have place1 : n / 2 ^ 8 = a * 2 ^ 16 + b * 2 ^ 8 + c := by omega
  have place2 : n / 2 ^ 16 = a * 2 ^ 8 + b := by omega
  have place3 : n / 2 ^ 24 = a := by omega
  refine ⟨?_, ?_, ?_, ?_⟩
  · omega
  · rw [place1]
    omega
  · rw [place2]
    omega
  · rw [place3]
    exact Nat.mod_eq_of_lt highest

theorem zwgNtohl_toNat {x : UInt32} {a b c d : Nat} (highest : a < 256) (second : b < 256) (third : c < 256)
    (lowest : d < 256) (bytes : x.toNat = a * 2 ^ 24 + b * 2 ^ 16 + c * 2 ^ 8 + d) :
    (zwgNtohl x).toNat = d * 2 ^ 24 + c * 2 ^ 16 + b * 2 ^ 8 + a := by
  obtain ⟨byte0, byte1, -, -⟩ := bytes_places highest second third lowest bytes
  have shifted : x.toNat / 2 ^ 16 = a * 2 ^ 8 + b := by omega
  have low : (bswap16c (x >>> 16)).toNat = b * 2 ^ 8 + a := by
    rw [bswap16c_toNat, UInt32.toNat_shiftRight]
    change (x.toNat >>> 16) % 256 * 256 + (x.toNat >>> 16) / 256 % 256 = _
    rw [Nat.shiftRight_eq_div_pow, shifted]
    omega
  have high : (bswap16c x <<< 16).toNat = 2 ^ 16 * (d * 2 ^ 8 + c) := by
    rw [UInt32.toNat_shiftLeft, bswap16c_toNat]
    change ((x.toNat % 2 ^ 8 * 256 + x.toNat / 2 ^ 8 % 2 ^ 8) <<< 16) % 2 ^ 32 = _
    rw [Nat.shiftLeft_eq, byte0, byte1, Nat.mod_eq_of_lt (by omega)]
    omega
  have small : b * 2 ^ 8 + a < 2 ^ 16 := by omega
  rw [zwgNtohl, bswap32c, UInt32.toNat_or, high, low, ← Nat.two_pow_add_eq_or_of_lt small]
  omega

theorem toNat_shifted {k : Nat} (small : k < 32) (y : UInt32) :
    (y >>> UInt32.ofNat k).toNat = y.toNat / 2 ^ k := by
  rw [UInt32.toNat_shiftRight, UInt32.toNat_ofNat_of_lt' (Nat.lt_trans small (by decide)),
    Nat.mod_eq_of_lt small, Nat.shiftRight_eq_div_pow]

def bigEndianBytes (x : UInt32) : List UInt8 :=
  [(x >>> 24).toUInt8, (x >>> 16).toUInt8, (x >>> 8).toUInt8, x.toUInt8]

/-- `Zwg_ntohl` and the copy put the highest byte first. -/
theorem hostBytes_ntohl (x : UInt32) : hostBytes (zwgNtohl x) = bigEndianBytes x := by
  obtain ⟨a, highest, b, second, c, third, d, lowest, bytes⟩ := exists_bytes x
  obtain ⟨in0, in1, in2, in3⟩ := bytes_places highest second third lowest bytes
  obtain ⟨out0, out1, out2, out3⟩ :=
    bytes_places lowest third second highest (zwgNtohl_toNat highest second third lowest bytes)
  have by8 (y : UInt32) : (y >>> 8).toNat = y.toNat / 2 ^ 8 := @toNat_shifted 8 (by decide) y
  have by16 (y : UInt32) : (y >>> 16).toNat = y.toNat / 2 ^ 16 := @toNat_shifted 16 (by decide) y
  have by24 (y : UInt32) : (y >>> 24).toNat = y.toNat / 2 ^ 24 := @toNat_shifted 24 (by decide) y
  have byte0 : (zwgNtohl x).toUInt8 = (x >>> 24).toUInt8 := by
    apply UInt8.toNat_inj.mp
    rw [UInt32.toNat_toUInt8, UInt32.toNat_toUInt8, by24, out0, in3]
  have byte1 : (zwgNtohl x >>> 8).toUInt8 = (x >>> 16).toUInt8 := by
    apply UInt8.toNat_inj.mp
    rw [UInt32.toNat_toUInt8, UInt32.toNat_toUInt8, by8, by16, out1, in2]
  have byte2 : (zwgNtohl x >>> 16).toUInt8 = (x >>> 8).toUInt8 := by
    apply UInt8.toNat_inj.mp
    rw [UInt32.toNat_toUInt8, UInt32.toNat_toUInt8, by8, by16, out2, in1]
  have byte3 : (zwgNtohl x >>> 24).toUInt8 = x.toUInt8 := by
    apply UInt8.toNat_inj.mp
    rw [UInt32.toNat_toUInt8, UInt32.toNat_toUInt8, by24, out3, in0]
  rw [hostBytes, bigEndianBytes, byte0, byte1, byte2, byte3]

/-- The bits of a byte of a word are those of the word from its place on. -/
theorem byteBits_shifted {k : Nat} (inside : k ≤ 24) (x : UInt32) :
    Crc.byteBits (x >>> UInt32.ofNat (24 - k)).toUInt8 = (List.range 8).map fun i => x.toBitVec.getMsbD (k + i) := by
  refine List.map_congr_left fun i small => ?_
  rw [List.mem_range] at small
  have shifted : (x >>> UInt32.ofNat (24 - k)).toBitVec = x.toBitVec >>> (24 - k) := by
    apply BitVec.eq_of_toNat_eq
    rw [UInt32.toNat_toBitVec, toNat_shifted (by omega), BitVec.toNat_ushiftRight, UInt32.toNat_toBitVec,
      Nat.shiftRight_eq_div_pow]
  have place : i + 32 - 8 - (24 - k) = k + i := by omega
  rw [UInt32.toBitVec_toUInt8, shifted, BitVec.getMsbD_setWidth, BitVec.getMsbD_ushiftRight, place,
    decide_eq_true (show 8 - 32 ≤ i by omega), decide_eq_true (show i + 32 - 8 < 32 by omega),
    decide_eq_false (show ¬ i + 32 - 8 < 24 - k by omega)]
  rfl

theorem bits_bigEndianBytes (x : UInt32) :
    (bigEndianBytes x).flatMap Crc.byteBits = Crc.topBits x.toBitVec 32 := by
  rw [bigEndianBytes]
  simp only [List.flatMap_cons, List.flatMap_nil]
  rw [show Crc.byteBits (x >>> 24).toUInt8 = _ from @byteBits_shifted 0 (by decide) x,
    show Crc.byteBits (x >>> 16).toUInt8 = _ from @byteBits_shifted 8 (by decide) x,
    show Crc.byteBits (x >>> 8).toUInt8 = _ from @byteBits_shifted 16 (by decide) x,
    show Crc.byteBits x.toUInt8 = _ from @byteBits_shifted 24 (by decide) x]
  rfl

theorem crc32Mpeg2_own (s : List UInt8) : crc32Mpeg2 (s ++ bigEndianBytes (crc32Mpeg2 s)) = 0 := by
  apply UInt32.toBitVec_inj.mp
  apply Crc.crc_self
  rw [bits_bigEndianBytes]
  rfl

/-- The section that a receiver takes from a packet: behind the pointer, as long as its own length says. -/
def receivedSection (packet : List UInt8) : List UInt8 :=
  let payload := TransportPacket.payload packet
  let rest := payload.drop (1 + (payload.getD 0 0).toNat)
  rest.take (3 + ((rest.getD 1 0).toNat % 16 * 256 + (rest.getD 2 0).toNat))

/-- A section whose length counts what is behind it, the checksum included, is received with its checksum. -/
theorem receivedSection_bytes {p : TransportPacket.Packet} {a b c : UInt8} {body check rest : List UInt8}
    (payload : p.payload = 0 :: (a :: b :: c :: body) ++ check ++ rest)
    (announced : b.toNat % 16 * 256 + c.toNat = (body ++ check).length) :
    receivedSection p.bytes = (a :: b :: c :: body) ++ check := by
  rw [receivedSection, TransportPacket.payload_bytes, payload]
  have taken : (a :: b :: c :: (body ++ check ++ rest)).take (3 + (b.toNat % 16 * 256 + c.toNat)) =
      a :: b :: c :: (body ++ check) := by
    rw [announced, Nat.add_comm, List.take_succ_cons, List.take_succ_cons, List.take_succ_cons, List.take_left]
  exact taken

theorem receivedSection_pat (c : ContinuityCounter) :
    receivedSection (writeTsPat c).1 = tsPat.bytes ++ hostBytes (zwgNtohl (calcCrc32 tsPat.bytes)) := by
  rw [writeTsPat_eq]
  exact @receivedSection_bytes (patPacket c.pat) _ _ _ _ _ _ rfl rfl

theorem receivedSection_pmt (c : ContinuityCounter) :
    receivedSection (writeTsPmt c).1 = pmtSection ++ hostBytes (zwgNtohl (calcCrc32 pmtSection)) := by
  rw [writeTsPmt_eq]
  exact @receivedSection_bytes (pmtPacket c.pmt) _ _ _ _ _ _ rfl rfl

/-- The checksum is CRC-32/MPEG-2, so every string with its own checksum behind it has the checksum zero, the
sections of both tables among them. -/
theorem calcCrc32_mpeg2 : (∀ data, calcCrc32 data = crc32Mpeg2 data) ∧
    (∀ s, calcCrc32 (s ++ bigEndianBytes (calcCrc32 s)) = 0) ∧
    (∀ c, crc32Mpeg2 (receivedSection (writeTsPat c).1) = 0) ∧
    ∀ c, crc32Mpeg2 (receivedSection (writeTsPmt c).1) = 0 := by
  refine ⟨calcCrc32_eq, ?_, ?_, ?_⟩
  · intro s
    rw [calcCrc32_eq s, calcCrc32_eq]
    exact crc32Mpeg2_own s
  · intro c
    rw [receivedSection_pat, hostBytes_ntohl, calcCrc32_eq]
    exact crc32Mpeg2_own tsPat.bytes
  · intro c
    rw [receivedSection_pmt, hostBytes_ntohl, calcCrc32_eq]
    exact crc32Mpeg2_own pmtSection

end LiveStreaming.HappyHls
