import LiveStreaming.Library.Base64
import LiveStreaming.WebChat.Sha1

/-!
# The accept key

`computeAcceptKey` appends the GUID to the key of the request, hashes it, reads the printed hash back two
digits at a time and encodes the bytes in Base64, as many as `strlen` counts.
-/

namespace LiveStreaming.WebChat
open Library Library.CString

def webSocketKeyLenMax : Nat := 256

def guid : List UInt8 := ascii "258EAFA5-E914-47DA-95CA-C5AB0DC85B11"

def flag : List UInt8 := ascii "Sec-WebSocket-Key: "

def toLower (c : UInt8) : UInt8 := if 65 ≤ c ∧ c ≤ 90 then c + 97 - 65 else c

def isHex (c : UInt8) : Bool := (48 ≤ c ∧ c ≤ 57) ∨ (97 ≤ c ∧ c ≤ 102) ∨ (65 ≤ c ∧ c ≤ 70)

def hexValue (c : UInt8) : Nat := if toLower c > 57 then 10 + (toLower c).toNat - 97 else (toLower c).toNat - 48

def htoi (s : List UInt8) (start len : Nat) : Nat :=
  let i := if s.getD 0 0 = 48 ∧ (s.getD 1 0 = 120 ∨ s.getD 1 0 = 88) then 2 else 0
  (((s.drop (i + start)).takeWhile isHex).take len).foldl (fun n c => 16 * n + hexValue c) 0

def base : List UInt8 := ascii "ABCDEFGHIJKLMNOPQRSTUVWXYZabcdefghijklmnopqrstuvwxyz0123456789+/="

/-- One turn of the loop of `base64_encode`, over the bytes that `prepare` takes. -/
def encodeTurn (data : List UInt8) : List UInt8 :=
  let temp := data.length
  let prepare := data.foldl (fun prepare b => (prepare <<< 8) ||| (b.toNat &&& 0xFF)) 0
  let prepare := prepare <<< ((3 - temp) * 8)
  (List.range 4).map fun i => base.getD (if temp < i then 0x40 else (prepare >>> ((3 - i) * 6)) &&& 0x3F) 0

def base64Encode (data : List UInt8) : List UInt8 :=
  if data = [] then [] else encodeTurn (data.take 3) ++ base64Encode (data.drop 3)
termination_by data.length
decreasing_by
  have := List.length_pos_of_ne_nil ‹¬ data = []›
  rw [List.length_drop]
  omega

/-- `none` where a byte is stored behind the buffer, and `some none` for `NULL`. `behind` is what lies behind
the terminating zero of `buf`. -/
def fetchSecKey (behind buf : List UInt8) : Option (Option (List UInt8)) :=
  match strstr flag buf with
  | none => some none
  | some pos =>
    let keyBegin := buf.drop (pos + flag.length) ++ 0 :: behind
    let key := (keyBegin.take buf.length).takeWhile fun b => b ≠ 10 ∧ b ≠ 13
    if key.length > webSocketKeyLenMax then none else some (some key)

/-- The bytes that are read back from the printed hash, with the zero behind them. -/
def sha1Data (sha1DataTemp : List UInt8) : List UInt8 :=
  (List.range ((sha1DataTemp.length + 1) / 2)).map (fun i => (htoi sha1DataTemp (2 * i) 2).toUInt8) ++ [0]

/-- `block` is what the block of the hash holds before. -/
def computeAcceptKey (block : Vector UInt8 64) (behind buf : List UInt8) : Option (Option (List UInt8)) :=
  match fetchSecKey behind buf with
  | none => none
  | some none => some none
  | some (some key) =>
    let clientKey := cString key
    if clientKey.length + guid.length + 1 > webSocketKeyLenMax then none
    else some ((sha1Hash block.toList (clientKey ++ guid)).map fun text => base64Encode (cString (sha1Data text)))

/-! ### Hexadecimal digits -/

def hexPair (b : UInt8) : List UInt8 := [hexDigit (b.toNat / 16), hexDigit (b.toNat % 16)]

theorem hexDigit_spec {n : Nat} (below : n < 16) :
    isHex (hexDigit n) = true ∧ hexValue (hexDigit n) = n ∧ hexDigit n ≠ 120 ∧ hexDigit n ≠ 88 := by
  have all : ∀ n : Fin 16, isHex (hexDigit n) = true ∧ hexValue (hexDigit n) = n ∧ hexDigit n ≠ 120 ∧
    hexDigit n ≠ 88 := by
    decide
  exact all ⟨n, below⟩

theorem hexWord_eq (word : UInt32) : hexWord word = (Sha1.bigEndian 4 word.toNat).flatMap hexPair := by
  have byte (n : Nat) : (n % 256).toUInt8.toNat = n % 256 := by simp
  simp only [hexWord, List.range, List.range.loop, List.map_cons, List.map_nil, Sha1.bigEndian, List.nil_append,
    List.cons_append, List.flatMap_cons, List.flatMap_nil, hexPair, byte, Nat.div_div_eq_div_mul, Nat.reducePow,
    Nat.reduceSub, Nat.reduceMul, List.cons.injEq, and_true]
  refine ⟨?_, ?_, ?_, ?_, ?_, ?_, ?_, ?_⟩ <;> exact congrArg hexDigit (by omega)

theorem hexText_eq (s : Sha1.State) : hexText s = s.bytes.flatMap hexPair := by
  simp only [hexText, Sha1.State.bytes, List.flatMap_append, hexWord_eq]

theorem drop_pairs (bytes : List UInt8) (i : Nat) :
    (bytes.flatMap hexPair).drop (2 * i) = (bytes.drop i).flatMap hexPair := by
  induction i generalizing bytes with
  | zero => rfl
  | succ i ih =>
    cases bytes with
    | nil => simp
    | cons b bytes =>
      rw [List.drop_succ_cons, ← ih bytes]
      rfl

theorem htoi_pairs {bytes : List UInt8} {i : Nat} {b : UInt8} (found : bytes[i]? = some b) :
    htoi (bytes.flatMap hexPair) (2 * i) 2 = b.toNat := by
  have noPrefix : ¬ ((bytes.flatMap hexPair).getD 0 0 = 48 ∧
      ((bytes.flatMap hexPair).getD 1 0 = 120 ∨ (bytes.flatMap hexPair).getD 1 0 = 88)) := by
    cases bytes with
    | nil => simp
    | cons first rest =>
      have low := hexDigit_spec (show first.toNat % 16 < 16 by omega)
      rintro ⟨_, x | x⟩
      · exact low.2.2.1 x
      · exact low.2.2.2 x
  have bound := b.toNat_lt
  obtain ⟨highHex, highValue, _⟩ := hexDigit_spec (show b.toNat / 16 < 16 by omega)
  obtain ⟨lowHex, lowValue, _⟩ := hexDigit_spec (show b.toNat % 16 < 16 by omega)
  obtain ⟨inside, equal⟩ := List.getElem?_eq_some_iff.mp found
  rw [htoi, if_neg noPrefix, Nat.zero_add, drop_pairs, List.drop_eq_getElem_cons inside, equal, List.flatMap_cons]
  simp only [hexPair, List.cons_append, List.takeWhile_cons, highHex, lowHex, if_true,
    List.take_succ_cons, List.take_zero,
    List.foldl_cons, List.foldl_nil, highValue, lowValue]
  omega

theorem sha1Data_hexText (s : Sha1.State) : sha1Data (hexText s) = s.bytes ++ [0] := by
  have size : s.bytes.length = 20 := by simp [Sha1.State.bytes]
  have digits : (hexText s).length = 40 := by simp [hexText, hexWord]
  rw [sha1Data, digits]
  congr 1
  apply List.ext_getElem
  · simp [size]
  · intro i below inside
    have found : s.bytes[i]? = some s.bytes[i] := List.getElem?_eq_getElem inside
    rw [List.getElem_map, List.getElem_range, hexText_eq, htoi_pairs found]
    simp

/-! ### Base64 -/

theorem base_char {sextet : Nat} (below : sextet < 64) : base.getD sextet 0 = Base64.char sextet := by
  have all : ∀ s : Fin 64, base.getD s.val 0 = Base64.char s.val := by decide +kernel
  exact all ⟨sextet, below⟩

theorem or_byte (n : Nat) (b : UInt8) : (n <<< 8) ||| (b.toNat &&& 0xFF) = n * 256 + b.toNat := by
  have mask := Nat.and_two_pow_sub_one_eq_mod b.toNat 8
  have byte : b.toNat < 2 ^ 8 := b.toNat_lt
  change (n <<< 8) ||| (b.toNat &&& 2 ^ 8 - 1) = _
  rw [mask, Nat.mod_eq_of_lt byte, ← Nat.shiftLeft_add_eq_or_of_lt byte, Nat.shiftLeft_eq]

theorem encodeTurn_spec (data : List UInt8) :
    encodeTurn data = (List.range 4).map fun i => if data.length < i then 61 else
      Base64.char (data.foldl (fun prepare b => prepare * 256 + b.toNat) 0 * 256 ^ (3 - data.length) / 64 ^
        (3 - i) % 64) := by
  have padding : base.getD 0x40 0 = 61 := by decide
  unfold encodeTurn
  simp only [or_byte]
  apply List.map_congr_left
  intro i _
  split
  · exact padding
  · have mask (n : Nat) : n &&& 0x3F = n % 64 := Nat.and_two_pow_sub_one_eq_mod n 6
    rw [mask, base_char (Nat.mod_lt _ (by decide)), Nat.shiftLeft_eq, Nat.shiftRight_eq_div_pow, Nat.mul_comm _ 8,
      Nat.mul_comm _ 6, Nat.pow_mul, Nat.pow_mul]

theorem base64Encode_eq (data : List UInt8) : base64Encode data = Base64.encode data := by
  have turn (data : List UInt8) (filled : data ≠ []) :
      base64Encode data = encodeTurn (data.take 3) ++ base64Encode (data.drop 3) := by
    rw [base64Encode, if_neg filled]
  have ended : base64Encode [] = [] := by rw [base64Encode, if_pos rfl]
  induction data using Base64.encode.induct with
  | case1 => rw [ended, Base64.encode]
  | case2 a =>
    have := a.toNat_lt
    rw [turn _ (List.cons_ne_nil _ _), encodeTurn_spec]
    simp only [List.take, List.drop, ended, List.range, List.range.loop, List.map_cons, List.map_nil, List.foldl_cons,
      List.foldl_nil, List.length_cons, List.length_nil, Base64.encode, List.append_nil, Nat.reduceSub, Nat.reducePow,
      Nat.reduceAdd, Nat.reduceLT, if_true, if_false, List.cons.injEq, and_true]
    refine ⟨congrArg Base64.char (by omega), congrArg Base64.char (by omega)⟩
  | case3 a b =>
    have := a.toNat_lt
    have := b.toNat_lt
    rw [turn _ (List.cons_ne_nil _ _), encodeTurn_spec]
    simp only [List.take, List.drop, ended, List.range, List.range.loop, List.map_cons, List.map_nil, List.foldl_cons,
      List.foldl_nil, List.length_cons, List.length_nil, Base64.encode, List.append_nil, Nat.reduceSub, Nat.reducePow,
      Nat.reduceAdd, Nat.reduceLT, if_true, if_false, List.cons.injEq, and_true]
    refine ⟨congrArg Base64.char (by omega), congrArg Base64.char (by omega), congrArg Base64.char (by omega)⟩
  | case4 a b c rest ih =>
    have := a.toNat_lt
    have := b.toNat_lt
    have := c.toNat_lt
    rw [turn _ (List.cons_ne_nil _ _), encodeTurn_spec]
    simp only [List.take, List.drop, ih, List.range, List.range.loop, List.map_cons, List.map_nil, List.foldl_cons,
      List.foldl_nil, List.length_cons, List.length_nil, Base64.encode, List.cons_append,
        List.nil_append, Nat.reduceSub,
      Nat.reducePow, Nat.reduceAdd, Nat.reduceLT, if_false, List.cons.injEq, and_true]
    refine ⟨congrArg Base64.char (by omega), congrArg Base64.char (by omega), congrArg Base64.char (by omega),
      congrArg Base64.char (by omega)⟩

/-! ### The key of a request -/

/-- The header of the key is the first one of its name, and its value ends with its line. -/
structure Carries (request key : List UInt8) : Prop where
  line : ∃ before after, request = before ++ (flag ++ (key ++ 13 :: after)) ∧ strstr flag request = some before.length
  unterminated : 0 ∉ request
  oneLine : 10 ∉ key ∧ 13 ∉ key

theorem fetchSecKey_carries {request key : List UInt8} (carries : Carries request key) (fits : key.length < 256)
    (behind : List UInt8) : fetchSecKey behind request = some (some key) := by
  obtain ⟨before, after, rfl, found⟩ := carries.line
  have begins : (before ++ (flag ++ (key ++ 13 :: after))).drop (before.length + flag.length) = key ++ 13 :: after := by
    rw [← List.drop_drop, List.drop_left, List.drop_left]
  have copied : (((key ++ 13 :: after) ++ 0 :: behind).take (before ++ (flag ++ (key ++ 13 :: after))).length).takeWhile
      (fun b => decide (b ≠ 10 ∧ b ≠ 13)) = key := by
    have size : (before ++ (flag ++ (key ++ 13 :: after))).length =
        key.length + (1 + (before.length + flag.length + after.length)) := by
      simp only [List.length_append, List.length_cons]
      omega
    have ends : ((key ++ 13 :: after) ++ 0 :: behind).take
      (key.length + (1 + (before.length + flag.length + after.length))) =
        key ++ 13 :: (after ++ 0 :: behind).take (before.length + flag.length + after.length) := by
      rw [List.append_assoc, List.take_length_add_append, Nat.add_comm 1, List.cons_append, List.take_succ_cons]
    rw [size, ends, List.takeWhile_append_of_pos]
    · simp
    · intro b member
      refine decide_eq_true ⟨?_, ?_⟩
      · rintro rfl
        exact carries.oneLine.1 member
      · rintro rfl
        exact carries.oneLine.2 member
  rw [fetchSecKey, found]
  dsimp only
  rw [begins, copied, webSocketKeyLenMax, if_neg (by omega)]

/-- What the server sends: the bytes before the first zero of the digest are all it encodes. -/
theorem computeAcceptKey_carries {request key : List UInt8} (carries : Carries request key) (fits : key.length < 256)
    (block : Vector UInt8 64) (behind : List UInt8) :
    computeAcceptKey block behind request =
      if key.length + 36 < 256 then some (some (Base64.encode (cString (Sha1.digest (key ++ guid))))) else none := by
  obtain ⟨before, after, same, _⟩ := carries.line
  have plain : 0 ∉ key := by
    intro zero
    apply carries.unterminated
    rw [same]
    simp [zero]
  have length : guid.length = 36 := by decide
  have size : (key ++ guid).length = key.length + 36 := by rw [List.length_append, length]
  rw [computeAcceptKey, fetchSecKey_carries carries fits behind]
  dsimp only
  rw [cString_eq plain, length, webSocketKeyLenMax]
  by_cases room : key.length + 36 < 256
  · have terminated : cString ((Sha1.hash (key ++ guid)).bytes ++ [0]) = cString (Sha1.digest (key ++ guid)) := by
      rw [cString, cString, Sha1.digest, List.takeWhile_append]
      split
      · next whole =>
        rw [(List.takeWhile_prefix _).eq_of_length whole]
        simp
      · rfl
    rw [if_neg (by omega), if_pos room, sha1Hash_eq (by simp) (by omega), Option.map_some, sha1Data_hexText,
      base64Encode_eq, terminated]
  · rw [if_pos (by omega), if_neg room]

/-- The accept key is right exactly where the GUID fits behind the key and no byte of the digest is zero. -/
theorem computeAcceptKey_right {request key : List UInt8} (carries : Carries request key) (fits : key.length < 256)
    (block : Vector UInt8 64) (behind : List UInt8) :
    computeAcceptKey block behind request = some (some (Base64.encode (Sha1.digest (key ++ guid)))) ↔
      key.length + 36 < 256 ∧ 0 ∉ Sha1.digest (key ++ guid) := by
  rw [computeAcceptKey_carries carries fits]
  by_cases room : key.length + 36 < 256
  · rw [if_pos room, and_iff_right room, Option.some.injEq, Option.some.injEq]
    constructor
    · intro same
      rw [← Base64.encode_injective same]
      exact zero_notMem_cString _
    · exact fun plain => by rw [cString_eq plain]
  · simp [room]

def upgrade (key : List UInt8) : List UInt8 :=
  ascii "GET /chat HTTP/1.1\r\nUpgrade: websocket\r\n" ++ (flag ++ (key ++ 13 :: ascii "\n\r\n"))

theorem computeAcceptKey_right_sample :
    computeAcceptKey (.replicate 64 0) [] (upgrade (ascii "dGhlIHNhbXBsZSBub25jZQ==")) =
        some (some (Base64.encode (Sha1.digest (ascii "dGhlIHNhbXBsZSBub25jZQ==" ++ guid)))) ↔
      (ascii "dGhlIHNhbXBsZSBub25jZQ==").length + 36 < 256 ∧
        0 ∉ Sha1.digest (ascii "dGhlIHNhbXBsZSBub25jZQ==" ++ guid) := by
  have carries : Carries (upgrade (ascii "dGhlIHNhbXBsZSBub25jZQ==")) (ascii "dGhlIHNhbXBsZSBub25jZQ==") :=
    ⟨⟨_, _, rfl, by decide⟩, by decide, by decide⟩
  exact computeAcceptKey_right carries (by decide) _ _

/-- A digest with a zero byte: only the seven bytes before it are encoded. -/
theorem digest_cut :
    computeAcceptKey (.replicate 64 0) [] (upgrade (ascii "dGhlIHNhbXBsZSBubzAwNA==")) =
        some (some (ascii "UXRdYBiRSg==")) ∧
      ¬ ∀ request key block behind, Carries request key → key.length < 256 →
        computeAcceptKey block behind request = some (some (Base64.encode (Sha1.digest (key ++ guid)))) := by
  have sent : computeAcceptKey (.replicate 64 0) [] (upgrade (ascii "dGhlIHNhbXBsZSBubzAwNA==")) =
      some (some (ascii "UXRdYBiRSg==")) := by decide +kernel
  refine ⟨sent, fun right => ?_⟩
  have carries : Carries (upgrade (ascii "dGhlIHNhbXBsZSBubzAwNA==")) (ascii "dGhlIHNhbXBsZSBubzAwNA==") :=
    ⟨⟨_, _, rfl, by decide⟩, by decide, by decide⟩
  have whole := right _ _ (.replicate 64 0) [] carries (by decide)
  have seven : ascii "UXRdYBiRSg==" = Base64.encode [0x51, 0x74, 0x5d, 0x60, 0x18, 0x91, 0x4a] := by decide
  rw [sent, seven, Option.some.injEq, Option.some.injEq] at whole
  have length := congrArg List.length (Base64.encode_injective whole)
  rw [Sha1.length_digest] at length
  exact absurd length (by decide)

end LiveStreaming.WebChat
