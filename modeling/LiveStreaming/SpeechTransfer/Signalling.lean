import LiveStreaming.Library.JsonNumber
import LiveStreaming.SpeechTransfer.Transfer

/-!
# Personal signalling

`generate_signalling` joins the type, the action, the channel and the time with `_`, and `parse_client_request` takes
them apart at every `_` and goes by position.
-/

namespace LiveStreaming.SpeechTransfer
open Library CString JsonNumber

def signallingLength : Nat := 64
def channelLength : Nat := 24
def fixedAesDecryptSize : Nat := 64

/-- `AES_cbc_encrypt` on the 64 bytes of a signalling, both ways. -/
structure Aes where
  encrypt : List UInt8 → List UInt8
  decrypt : List UInt8 → List UInt8
  length_encrypt : ∀ block, block.length = 64 → (encrypt block).length = 64
  decrypt_encrypt : ∀ block, block.length = 64 → decrypt (encrypt block) = block

/-- A `long` as a stream prints it. -/
def printLong (n : Int64) : List UInt8 := if n < 0 then 45 :: decimal n.toInt.natAbs else decimal n.toInt.toNat

/-- What stands in front of the channel. -/
def signallingStart (flags action : Int) : List UInt8 :=
  if flags = 0 then
    if action = 0 then ascii "CAMERA_CREATE_" else ascii "CAMERA_CANCEL_"
  else if action = 0 then ascii "PC_JOIN_"
  else ascii "PC_LEAVE_"

/-- `generate_signalling` on the C string at `channel`, at the time `now`: what it stores, or `none` where it returns
false. -/
def generateSignalling (bufSize : Nat) (channel : List UInt8) (flags action : Int) (now : Int64) :
    Option (List UInt8) :=
  let channel := cString channel
  if bufSize < signallingLength ∨ channel.length > channelLength then none
  else if flags ≠ 0 ∧ flags ≠ 1 then none
  else if action ≠ 0 ∧ action ≠ 1 then none
  else
    let text := signallingStart flags action ++ channel ++ ascii "_" ++ printLong now
    if text.length > bufSize then none else some text

/-- `generate_aes_encrypt_string`. -/
def generateAesEncryptString (aes : Aes) (src : List UInt8) : List UInt8 :=
  aes.encrypt (src ++ List.replicate (64 - src.length) 0)

/-- The loops of `parse_client_request`, with the key collected so far. -/
def collectKeys : List UInt8 → List UInt8 → List (List UInt8)
  | key, [] => [key]
  | key, b :: request =>
    if b = 95 then key :: if request = [] then [] else collectKeys [] request else collectKeys (key ++ [b]) request

def keysOf (request : List UInt8) : List (List UInt8) := if request = [] then [] else collectKeys [] request

def signedDigits (s : List UInt8) : Int :=
  match s with
  | 45 :: rest => -(ofDigits (rest.takeWhile isDigit) : Int)
  | 43 :: rest => ofDigits (rest.takeWhile isDigit)
  | rest => ofDigits (rest.takeWhile isDigit)

def isSpace (b : UInt8) : Bool := b == 32 || (9 ≤ b && b ≤ 13)

/-- A number that is no `long` is cut down to the nearest. -/
def atol (s : List UInt8) : Int :=
  max (-9223372036854775808) (min 9223372036854775807 (signedDigits (s.dropWhile isSpace)))

structure TimedRequest extends ClientRequest where
  timestamp : Int
  UID : Option Int

def typeOf (key : List UInt8) : Option ClientType :=
  if key = ascii "CAMERA" then some .CAMERA else if key = ascii "PC" then some .PC else none

def actionOf (key : List UInt8) : Option Action :=
  if key = ascii "CREATE" ∨ key = ascii "JOIN" then some .join
  else if key = ascii "LEAVE" ∨ key = ascii "CANCEL" then some .leave
  else none

/-- `behind` is what lies behind the array of what has been decrypted. `none` where it returns false. -/
def parseClientRequest (aes : Aes) (behind packet : List UInt8) (size : Nat) : Option TimedRequest :=
  if size ≠ fixedAesDecryptSize then none
  else
    let request := cString (aes.decrypt packet ++ behind)
    match keysOf request with
    | type :: action :: channel :: timestamp :: more =>
      (typeOf type).bind fun type => (actionOf action).map fun action =>
        { type, action, channel
          timestamp := atol timestamp
          -- a fifth key is read only where there is no sixth
          UID := if more.length = 1 then more.head?.map atol else none }
    | _ => none

/-- The type and the action that the two flags stand for. -/
def clientType (flags : Int) : ClientType := if flags = 0 then .CAMERA else .PC
def clientAction (action : Int) : Action := if action = 0 then .join else .leave

/-- The request read from the signalling is the one it was made of. -/
def SignallingRecovered (aes : Aes) (behind channel : List UInt8) (flags action : Int) (now : Int64)
    (signalling : List UInt8) : Prop :=
  ∃ request, parseClientRequest aes behind (generateAesEncryptString aes signalling)
      (generateAesEncryptString aes signalling).length = some request ∧
    request.type = clientType flags ∧ request.action = clientAction action ∧ request.channel = cString channel ∧
    request.timestamp = now.toInt

/-! ### Printed numbers -/

theorem takeWhile_decimal (n : Nat) : (decimal n).takeWhile isDigit = decimal n :=
  List.takeWhile_eq_self_iff.mpr fun _ member => isDigit_decimal member

theorem isDigit_bounds {b : UInt8} (digit : isDigit b = true) : 48 ≤ b.toNat ∧ b.toNat ≤ 57 := by
  obtain ⟨low, high⟩ := of_decide_eq_true digit
  exact ⟨UInt8.le_iff_toNat_le.mp low, UInt8.le_iff_toNat_le.mp high⟩

theorem decimal_front (n : Nat) : ∃ b rest, decimal n = b :: rest ∧ isDigit b = true := by
  obtain ⟨b, rest, whole⟩ := List.exists_cons_of_ne_nil (decimal_ne_nil n)
  exact ⟨b, rest, whole, isDigit_decimal (n := n) (by rw [whole]; exact List.mem_cons_self)⟩

theorem signedDigits_decimal (n : Nat) : signedDigits (decimal n) = n := by
  obtain ⟨b, rest, whole, digit⟩ := decimal_front n
  have bounds := isDigit_bounds digit
  have minus : b ≠ 45 := by
    rintro rfl
    exact absurd bounds (by decide)
  have plus : b ≠ 43 := by
    rintro rfl
    exact absurd bounds (by decide)
  have value : signedDigits (b :: rest) = ofDigits ((b :: rest).takeWhile isDigit) := by
    unfold signedDigits
    split
    · next same => exact absurd (List.cons.inj same).1 minus
    · next same => exact absurd (List.cons.inj same).1 plus
    · rfl
  rw [whole, value, ← whole, takeWhile_decimal, ofDigits_decimal]

theorem atol_printLong (n : Int64) : atol (printLong n) = n.toInt := by
  have low := n.le_toInt
  have high := n.toInt_lt
  have clamped : max (-9223372036854775808) (min 9223372036854775807 n.toInt) = n.toInt := by omega
  unfold atol printLong
  split
  · next negative =>
    have below : n.toInt < 0 := Int64.lt_iff_toInt_lt.mp negative
    have value : signedDigits (45 :: decimal n.toInt.natAbs) = n.toInt := by
      rw [signedDigits, takeWhile_decimal, ofDigits_decimal]
      omega
    rw [List.dropWhile_cons_of_neg (by decide), value, clamped]
  · next positive =>
    have above : ¬ n.toInt < 0 := fun below => positive (Int64.lt_iff_toInt_lt.mpr below)
    obtain ⟨b, rest, whole, digit⟩ := decimal_front n.toInt.toNat
    have bounds := isDigit_bounds digit
    have first : ¬ isSpace b = true := by
      simp only [isSpace, Bool.or_eq_true, beq_iff_eq, Bool.and_eq_true, decide_eq_true_eq, UInt8.le_iff_toNat_le]
      rintro (rfl | ⟨_, small⟩)
      · exact absurd bounds (by decide)
      · have most : b.toNat ≤ 13 := small
        omega
    rw [whole, List.dropWhile_cons_of_neg first, ← whole, signedDigits_decimal, Int.toNat_of_nonneg (by omega), clamped]

theorem length_printLong (n : Int64) : (printLong n).length ≤ 20 := by
  have low := n.le_toInt
  have high := n.toInt_lt
  have short (k : Nat) (small : k < 10 ^ 19) : (decimal k).length ≤ 19 := by
    unfold decimal
    split
    · decide
    · rw [List.length_reverse, List.length_map]
      exact (Nat.digits_length_le_iff (by decide) k).mpr small
  unfold printLong
  split
  · have := short n.toInt.natAbs (by omega)
    rw [List.length_cons]
    omega
  · have := short n.toInt.toNat (by omega)
    omega

theorem printLong_bytes (n : Int64) : 0 ∉ printLong n ∧ 95 ∉ printLong n ∧ printLong n ≠ [] := by
  have digits (c : UInt8) (other : ¬ isDigit c = true) (k : Nat) : c ∉ decimal k :=
    fun member => other (isDigit_decimal member)
  unfold printLong
  split
  · refine ⟨?_, ?_, List.cons_ne_nil _ _⟩
    · rw [List.mem_cons, not_or]
      exact ⟨by decide, digits 0 (by decide) _⟩
    · rw [List.mem_cons, not_or]
      exact ⟨by decide, digits 95 (by decide) _⟩
  · exact ⟨digits 0 (by decide) _, digits 95 (by decide) _, decimal_ne_nil _⟩

/-! ### Keys -/

/-- Whatever stands in front of a `_`, it is a key without one. -/
theorem collectKeys_free {key request : List UInt8} (free : 95 ∉ key) : ∀ k ∈ collectKeys key request, 95 ∉ k := by
  induction request generalizing key with
  | nil =>
    intro k member
    rwa [List.mem_singleton.mp member]
  | cons b request ih =>
    intro k member
    rw [collectKeys] at member
    split at member
    · rcases List.mem_cons.mp member with rfl | member
      · exact free
      · split at member
        · cases member
        · exact ih (List.not_mem_nil) k member
    · next other =>
      refine ih ?_ k member
      simp only [List.mem_append, List.mem_singleton, not_or]
      exact ⟨free, fun same => other same.symm⟩

theorem keysOf_free (request : List UInt8) : ∀ k ∈ keysOf request, 95 ∉ k := by
  unfold keysOf
  split
  · exact fun k member => absurd member List.not_mem_nil
  · exact collectKeys_free List.not_mem_nil

theorem collectKeys_last {s : List UInt8} (free : 95 ∉ s) (key : List UInt8) : collectKeys key s = [key ++ s] := by
  induction s generalizing key with
  | nil => rw [collectKeys, List.append_nil]
  | cons b s ih =>
    rw [List.mem_cons, not_or] at free
    rw [collectKeys, if_neg (Ne.symm free.1), ih free.2, List.append_assoc, List.singleton_append]

theorem collectKeys_append {s rest : List UInt8} (free : 95 ∉ s) (more : rest ≠ []) (key : List UInt8) :
    collectKeys key (s ++ 95 :: rest) = (key ++ s) :: collectKeys [] rest := by
  induction s generalizing key with
  | nil => rw [List.nil_append, collectKeys, if_pos rfl, if_neg more, List.append_nil]
  | cons b s ih =>
    rw [List.mem_cons, not_or] at free
    rw [List.cons_append, collectKeys, if_neg (Ne.symm free.1), ih free.2, List.append_assoc, List.singleton_append]

theorem keysOf_append {s rest : List UInt8} (free : 95 ∉ s) (more : rest ≠ []) :
    keysOf (s ++ 95 :: rest) = s :: keysOf rest := by
  rw [keysOf, if_neg (by simp), collectKeys_append free more, keysOf, if_neg more]
  rfl

/-! ### What is recovered -/

/-- The two words in front of the channel. -/
def words (flags action : Int) : List UInt8 × List UInt8 :=
  if flags = 0 then
    if action = 0 then (ascii "CAMERA", ascii "CREATE") else (ascii "CAMERA", ascii "CANCEL")
  else if action = 0 then (ascii "PC", ascii "JOIN")
  else (ascii "PC", ascii "LEAVE")

theorem typeOf_words (flags action : Int) : typeOf (words flags action).1 = some (clientType flags) := by
  unfold words clientType
  by_cases camera : flags = 0
  · by_cases create : action = 0
    · rw [if_pos camera, if_pos create, if_pos camera]
      rfl
    · rw [if_pos camera, if_neg create, if_pos camera]
      rfl
  · by_cases join : action = 0
    · rw [if_neg camera, if_pos join, if_neg camera]
      rfl
    · rw [if_neg camera, if_neg join, if_neg camera]
      rfl

theorem actionOf_words (flags action : Int) : actionOf (words flags action).2 = some (clientAction action) := by
  unfold words clientAction
  by_cases first : action = 0
  · rw [if_pos first, if_pos first, if_pos first]
    split <;> rfl
  · rw [if_neg first, if_neg first, if_neg first]
    split <;> rfl

variable {bufSize : Nat} {channel signalling : List UInt8} {flags action : Int} {now : Int64}

theorem generateSignalling_eq (accepted : generateSignalling bufSize channel flags action now = some signalling) :
    signalling = (words flags action).1 ++ 95 :: ((words flags action).2 ++ 95 ::
      (cString channel ++ 95 :: printLong now)) ∧ signalling.length ≤ 59 := by
  unfold generateSignalling at accepted
  dsimp only at accepted
  split at accepted
  · cases accepted
  · next sizes =>
    split at accepted
    · cases accepted
    · split at accepted
      · cases accepted
      · split at accepted
        · cases accepted
        · have text := Option.some.inj accepted
          have number := length_printLong now
          have short : (cString channel).length ≤ 24 := by
            unfold channelLength at sizes
            omega
          have joined : signalling = (words flags action).1 ++ 95 :: ((words flags action).2 ++ 95 ::
              (cString channel ++ 95 :: printLong now)) := by
            rw [← text, List.append_assoc, List.append_assoc, signallingStart, words]
            split_ifs <;> rfl
          have front : (words flags action).1.length + (words flags action).2.length ≤ 12 := by
            rw [words]
            split_ifs <;> decide
          refine ⟨joined, ?_⟩
          rw [joined]
          simp only [List.length_append, List.length_cons]
          omega

theorem decrypted_signalling (aes : Aes) (behind : List UInt8)
    (accepted : generateSignalling bufSize channel flags action now = some signalling) :
    (generateAesEncryptString aes signalling).length = fixedAesDecryptSize ∧
      cString (aes.decrypt (generateAesEncryptString aes signalling) ++ behind) = signalling := by
  obtain ⟨joined, short⟩ := generateSignalling_eq accepted
  have block : (signalling ++ List.replicate (64 - signalling.length) 0).length = 64 := by
    rw [List.length_append, List.length_replicate]
    omega
  have unterminated : 0 ∉ signalling := by
    have fronts : 0 ∉ (words flags action).1 ∧ 0 ∉ (words flags action).2 := by
      rw [words]
      split_ifs <;> decide
    rw [joined]
    simp only [List.mem_append, List.mem_cons, not_or]
    exact ⟨fronts.1, by decide, fronts.2, by decide, zero_notMem_cString channel, by decide, (printLong_bytes now).1⟩
  refine ⟨aes.length_encrypt _ block, ?_⟩
  have kept : ∀ b ∈ signalling, (b != 0) = true := by
    intro b member
    rw [bne_iff_ne]
    rintro rfl
    exact unterminated member
  rw [generateAesEncryptString, aes.decrypt_encrypt _ block, cString, List.append_assoc,
    List.takeWhile_append_of_pos kept, show 64 - signalling.length = 63 - signalling.length + 1 by omega,
    List.replicate_succ, List.cons_append, List.takeWhile_cons_of_neg (by decide), List.append_nil]

theorem SignallingRecovered.free {aes : Aes} {behind : List UInt8}
    (recovered : SignallingRecovered aes behind channel flags action now signalling) : 95 ∉ cString channel := by
  obtain ⟨request, parsed, _, _, same, _⟩ := recovered
  unfold parseClientRequest at parsed
  split at parsed
  · cases parsed
  · dsimp only at parsed
    split at parsed
    · next type action' channel' timestamp more found =>
      obtain ⟨type', _, parsed⟩ := Option.bind_eq_some_iff.mp parsed
      obtain ⟨action'', _, rfl⟩ := Option.map_eq_some_iff.mp parsed
      rw [← same]
      apply keysOf_free (cString (aes.decrypt (generateAesEncryptString aes signalling) ++ behind))
      rw [found]
      simp
    · cases parsed

/-- The channel is the one that was sent exactly where no `_` stands in it. -/
theorem signallingRecovered_iff (aes : Aes) (behind : List UInt8)
    (accepted : generateSignalling bufSize channel flags action now = some signalling) :
    SignallingRecovered aes behind channel flags action now signalling ↔ 95 ∉ cString channel := by
  refine ⟨SignallingRecovered.free, fun free => ?_⟩
  obtain ⟨joined, _⟩ := generateSignalling_eq accepted
  obtain ⟨size, text⟩ := decrypted_signalling aes behind accepted
  obtain ⟨_, number, filled⟩ := printLong_bytes now
  have fronts : 95 ∉ (words flags action).1 ∧ 95 ∉ (words flags action).2 := by
    rw [words]
    split_ifs <;> decide
  have keys : keysOf signalling = [(words flags action).1, (words flags action).2, cString channel, printLong now] := by
    rw [joined, keysOf_append fronts.1 (by simp), keysOf_append fronts.2 (by simp), keysOf_append free filled, keysOf,
      if_neg filled, collectKeys_last number, List.nil_append]
  unfold SignallingRecovered
  rw [parseClientRequest, if_neg (by simp [size]), text]
  dsimp only
  rw [keys]
  dsimp only
  rw [typeOf_words, actionOf_words, atol_printLong]
  exact ⟨_, rfl, rfl, rfl, rfl, rfl⟩

/-- A cipher that is known on one block: it exchanges the block with what it is encrypted to. -/
def Aes.exchange (plain cipher : List UInt8) (plainSize : plain.length = 64) (cipherSize : cipher.length = 64) :
    Aes where
  encrypt block := if block = plain then cipher else if block = cipher then plain else block
  decrypt block := if block = plain then cipher else if block = cipher then plain else block
  length_encrypt block size := by
    split_ifs
    · exact cipherSize
    · exact plainSize
    · exact size
  decrypt_encrypt block size := by
    by_cases isPlain : block = plain
    · rw [if_pos isPlain]
      by_cases same : cipher = plain
      · rw [if_pos same, same, isPlain]
      · rw [if_neg same, if_pos rfl, isPlain]
    · by_cases isCipher : block = cipher
      · rw [if_neg isPlain, if_pos isCipher, if_pos rfl, isCipher]
      · rw [if_neg isPlain, if_neg isCipher, if_neg isPlain, if_neg isCipher]

/-- `PC_JOIN_42_1436400000` under the program's key. -/
def joinAes : Aes :=
  .exchange (ascii "PC_JOIN_42_1436400000" ++ List.replicate 43 0)
    [0xa7, 0x45, 0x8d, 0xf6, 0xef, 0x23, 0xbb, 0xb2, 0xbb, 0x3f, 0xe5, 0xe8, 0x25, 0x3d, 0x83, 0xea,
      0x02, 0x9f, 0x81, 0x2d, 0xbb, 0xe4, 0x6a, 0x7b, 0xa7, 0x29, 0x58, 0x32, 0x65, 0x19, 0x7d, 0x1e,
      0xe1, 0x74, 0x9c, 0xa4, 0xdf, 0x00, 0x5c, 0xd9, 0x10, 0x4d, 0x34, 0xb0, 0xd2, 0xf3, 0x26, 0x48,
      0x59, 0x97, 0xec, 0x63, 0xc9, 0xc9, 0x66, 0x9a, 0x45, 0x1f, 0x13, 0x30, 0x9f, 0x57, 0xae, 0x4b]
    (by decide) (by decide)

theorem generateSignalling_join :
    generateSignalling 64 (ascii "42") 1 0 1436400000 = some (ascii "PC_JOIN_42_1436400000") := by
  have number : printLong 1436400000 = ascii "1436400000" := by
    simp [printLong, decimal, ascii]
  rw [generateSignalling, number]
  rfl

theorem signallingRecovered_sample :
    SignallingRecovered joinAes [] (ascii "42") 1 0 1436400000 (ascii "PC_JOIN_42_1436400000") ↔
      95 ∉ cString (ascii "42") :=
  signallingRecovered_iff joinAes [] generateSignalling_join

/-- `CAMERA_CREATE_a_b_1436400000` under the program's key. -/
def createAes : Aes :=
  .exchange (ascii "CAMERA_CREATE_a_b_1436400000" ++ List.replicate 36 0)
    [0x9c, 0x76, 0xba, 0x16, 0xd3, 0x5e, 0xad, 0x8d, 0x9b, 0x6a, 0x63, 0x7e, 0xa2, 0x43, 0xad, 0xd8,
      0x94, 0x33, 0xd3, 0xc8, 0x4e, 0x6b, 0xc7, 0x1f, 0xac, 0xce, 0xac, 0xf2, 0x1e, 0xe5, 0x5f, 0x0f,
      0xf0, 0x15, 0x47, 0x04, 0x17, 0xe6, 0xde, 0x79, 0x6b, 0x7e, 0x2f, 0x9f, 0xc4, 0x29, 0x09, 0x2b,
      0x17, 0xeb, 0x30, 0xc9, 0xf4, 0xca, 0xe0, 0x55, 0xca, 0xdf, 0xac, 0x92, 0x0b, 0x55, 0x72, 0x38]
    (by decide) (by decide)

/-- The channel `a_b` is accepted and comes out as `a`. -/
theorem signallingRecovered_refuted :
    generateSignalling 64 (ascii "a_b") 0 0 1436400000 = some (ascii "CAMERA_CREATE_a_b_1436400000") ∧
      ¬ SignallingRecovered createAes [] (ascii "a_b") 0 0 1436400000 (ascii "CAMERA_CREATE_a_b_1436400000") := by
  constructor
  · have number : printLong 1436400000 = ascii "1436400000" := by
      simp [printLong, decimal, ascii]
    rw [generateSignalling, number]
    rfl
  · intro recovered
    exact absurd recovered.free (by decide)

end LiveStreaming.SpeechTransfer
