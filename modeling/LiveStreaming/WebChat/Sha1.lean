import LiveStreaming.Library.CString
import LiveStreaming.Library.Sha1

/-!
# The hash of the handshake

`sha1_hash` takes its message byte by byte into a block of 64 bytes and compresses the block whenever it is
full. What it prints is the hash in upper-case hexadecimal digits.
-/

namespace LiveStreaming.WebChat
open Library

structure SHA1Context where
  messageDigest : Sha1.State
  lengthLow : UInt32
  lengthHigh : UInt32
  messageBlock : List UInt8
  messageBlockIndex : Nat
  computed : Bool
  corrupted : Bool

namespace SHA1Context

def circularShift (bits word : UInt32) : UInt32 := ((word <<< bits) &&& 0xFFFFFFFF) ||| (word >>> (32 - bits))

/-- The array `W`. -/
def messageSchedule (block : List UInt8) : List UInt32 :=
  (List.range' 16 64).foldl
    (fun W t => W ++ [circularShift 1 (W.getD (t - 3) 0 ^^^ W.getD (t - 8) 0 ^^^ W.getD (t - 14) 0 ^^^
      W.getD (t - 16) 0)])
    ((List.range 16).map fun t => Sha1.word block (4 * t))

/-- One turn of the four loops of `SHA1ProcessMessageBlock`. -/
def turn (f : UInt32 → UInt32 → UInt32 → UInt32) (k : UInt32) (W : List UInt32) (s : Sha1.State) (t : Nat) :
    Sha1.State :=
  let temp := circularShift 5 s.a + f s.b s.c s.d + s.e + W.getD t 0 + k
  ⟨temp &&& 0xFFFFFFFF, s.a, circularShift 30 s.b, s.c, s.d⟩

def sha1ProcessMessageBlock (context : SHA1Context) : SHA1Context :=
  let W := messageSchedule context.messageBlock
  let s := context.messageDigest
  let s := (List.range' 0 20).foldl (turn (fun b c d => (b &&& c) ||| (~~~b &&& d)) 0x5A827999 W) s
  let s := (List.range' 20 20).foldl (turn (fun b c d => b ^^^ c ^^^ d) 0x6ED9EBA1 W) s
  let s := (List.range' 40 20).foldl (turn (fun b c d => (b &&& c) ||| (b &&& d) ||| (c &&& d)) 0x8F1BBCDC W) s
  let s := (List.range' 60 20).foldl (turn (fun b c d => b ^^^ c ^^^ d) 0xCA62C1D6 W) s
  { context with
    messageDigest :=
      ⟨(context.messageDigest.a + s.a) &&& 0xFFFFFFFF, (context.messageDigest.b + s.b) &&& 0xFFFFFFFF,
        (context.messageDigest.c + s.c) &&& 0xFFFFFFFF, (context.messageDigest.d + s.d) &&& 0xFFFFFFFF,
        (context.messageDigest.e + s.e) &&& 0xFFFFFFFF⟩
    messageBlockIndex := 0 }

/-- `memory` is what the block holds before, which `SHA1Reset` leaves as it is. -/
def sha1Reset (memory : List UInt8) : SHA1Context where
  messageDigest := ⟨0x67452301, 0xEFCDAB89, 0x98BADCFE, 0x10325476, 0xC3D2E1F0⟩
  lengthLow := 0
  lengthHigh := 0
  messageBlock := memory
  messageBlockIndex := 0
  computed := false
  corrupted := false

/-- `Message_Block[Message_Block_Index++] = b`. -/
def store (context : SHA1Context) (b : UInt8) : SHA1Context :=
  { context with
    messageBlock := context.messageBlock.set context.messageBlockIndex b
    messageBlockIndex := context.messageBlockIndex + 1 }

/-- One turn of the loop of `SHA1Input`. -/
def inputByte (context : SHA1Context) (b : UInt8) : SHA1Context :=
  if context.corrupted then context
  else
    let context := context.store b
    let context := { context with lengthLow := context.lengthLow + 8 }
    let context :=
      if context.lengthLow = 0 then
        { context with lengthHigh := context.lengthHigh + 1, corrupted := context.lengthHigh + 1 = 0 }
      else context
    if context.messageBlockIndex = 64 then context.sha1ProcessMessageBlock else context

def sha1Input (context : SHA1Context) (message : List UInt8) : SHA1Context :=
  if message = [] then context
  else if context.computed ∨ context.corrupted then { context with corrupted := true }
  else message.foldl inputByte context

/-- The loops that store zeros up to an index. -/
def zeros (context : SHA1Context) (index : Nat) : SHA1Context :=
  (List.range (index - context.messageBlockIndex)).foldl (fun context _ => context.store 0) context

def storeLength (context : SHA1Context) : SHA1Context :=
  let length := [context.lengthHigh >>> 24, context.lengthHigh >>> 16, context.lengthHigh >>> 8, context.lengthHigh,
    context.lengthLow >>> 24, context.lengthLow >>> 16, context.lengthLow >>> 8, context.lengthLow]
  { context with
    messageBlock := context.messageBlock.take 56 ++ length.map (fun w => (w &&& 0xFF).toUInt8) }

def sha1PadMessage (context : SHA1Context) : SHA1Context :=
  let context :=
    if context.messageBlockIndex > 55 then (((context.store 0x80).zeros 64).sha1ProcessMessageBlock).zeros 56
    else (context.store 0x80).zeros 56
  context.storeLength.sha1ProcessMessageBlock

/-- `none` for a corrupted context. -/
def sha1Result (context : SHA1Context) : Option SHA1Context :=
  if context.corrupted then none
  else if context.computed then some context
  else some { context.sha1PadMessage with computed := true }

end SHA1Context

open SHA1Context

def hexDigit (n : Nat) : UInt8 := (CString.ascii "0123456789ABCDEF").getD n 0

/-- `%08X`. -/
def hexWord (word : UInt32) : List UInt8 :=
  (List.range 8).map fun i => hexDigit (word.toNat / 16 ^ (7 - i) % 16)

def hexText (s : Sha1.State) : List UInt8 := hexWord s.a ++ hexWord s.b ++ hexWord s.c ++ hexWord s.d ++ hexWord s.e

def sha1Hash (memory source : List UInt8) : Option (List UInt8) :=
  ((sha1Reset memory).sha1Input source).sha1Result.map fun sha => hexText sha.messageDigest

namespace SHA1Context

theorem and_mask (w : UInt32) : w &&& 0xFFFFFFFF = w := UInt32.and_neg_one

theorem circularShift_eq (bits word : UInt32) : circularShift bits word = Sha1.rotate bits word := by
  rw [circularShift, and_mask, Sha1.rotate]

/-- Every entry of `W` is the word of the schedule, up to the entry just added. -/
theorem schedule_spec (block : List UInt8) (n : Nat) (W : List UInt32)
    (built : W = (List.range' 16 n).foldl
      (fun W t => W ++ [circularShift 1 (W.getD (t - 3) 0 ^^^ W.getD (t - 8) 0 ^^^ W.getD (t - 14) 0 ^^^
        W.getD (t - 16) 0)])
      ((List.range 16).map fun t => Sha1.word block (4 * t))) :
    W.length = 16 + n ∧ ∀ t < 16 + n, W.getD t 0 = Sha1.schedule block t := by
  induction n generalizing W with
  | zero =>
    subst built
    refine ⟨by simp, fun t below => ?_⟩
    rw [Sha1.schedule, if_pos below]
    simp [List.getD_eq_getElem?_getD, show t < 16 from below]
  | succ n ih =>
    rw [List.range'_1_concat, List.foldl_append] at built
    obtain ⟨length, words⟩ := ih _ rfl
    subst built
    generalize (List.range' 16 n).foldl _ _ = W at length words
    refine ⟨by simp [length]; omega, fun t below => ?_⟩
    rw [List.foldl_cons, List.foldl_nil]
    by_cases last : t = 16 + n
    · rw [List.getD_eq_getElem?_getD, List.getElem?_append_right (by omega), last, length, Nat.sub_self,
        List.getElem?_cons_zero, Option.getD_some, words _ (by omega), words _ (by omega), words _ (by omega),
        words _ (by omega), circularShift_eq]
      conv_rhs => rw [Sha1.schedule, if_neg (by omega)]
    · rw [List.getD_eq_getElem?_getD, List.getElem?_append_left (by omega), ← List.getD_eq_getElem?_getD]
      exact words t (by omega)

theorem messageSchedule_eq (block : List UInt8) {t : Nat} (below : t < 80) :
    (messageSchedule block).getD t 0 = Sha1.schedule block t := (schedule_spec block 64 _ rfl).2 t below

theorem foldl_turn {f : UInt32 → UInt32 → UInt32 → UInt32} {k : UInt32} {start : Nat} (block : List UInt8)
    (within : start + 20 ≤ 80)
    (part : ∀ t, start ≤ t → t < start + 20 → (∀ b c d, Sha1.mix t b c d = f b c d) ∧ Sha1.constant t = k)
    (s : Sha1.State) :
    (List.range' start 20).foldl (turn f k (messageSchedule block)) s =
      (List.range' start 20).foldl (Sha1.round block) s := by
  apply List.foldl_ext
  intro s t member
  obtain ⟨above, below⟩ := List.mem_range'_1.mp member
  obtain ⟨mixes, constant⟩ := part t above below
  rw [turn, Sha1.round, mixes, constant, messageSchedule_eq block
    (by omega), and_mask, circularShift_eq, circularShift_eq]

theorem sha1ProcessMessageBlock_eq (context : SHA1Context) :
    context.sha1ProcessMessageBlock =
      { context with
        messageDigest := Sha1.compress context.messageDigest context.messageBlock
        messageBlockIndex := 0 } := by
  have rounds : List.range 80 = List.range' 0 20 ++
    (List.range' 20 20 ++ (List.range' 40 20 ++ List.range' 60 20)) := by
    decide
  unfold sha1ProcessMessageBlock Sha1.compress
  dsimp only
  rw [rounds, List.foldl_append, List.foldl_append, List.foldl_append]
  rw [@foldl_turn _ _ 60 _ (by omega) fun t above _ => ⟨fun b c d => by
        rw [Sha1.mix, if_neg (by omega), if_neg (by omega), if_neg (by omega)], by
        rw [Sha1.constant, if_neg (by omega), if_neg (by omega), if_neg (by omega)]⟩,
    @foldl_turn _ _ 40 _ (by omega) fun t above below => ⟨fun b c d => by
        rw [Sha1.mix, if_neg (by omega), if_neg (by omega), if_pos (by omega)], by
        rw [Sha1.constant, if_neg (by omega), if_neg (by omega), if_pos (by omega)]⟩,
    @foldl_turn _ _ 20 _ (by omega) fun t above below => ⟨fun b c d => by
        rw [Sha1.mix, if_neg (by omega), if_pos (by omega)], by
        rw [Sha1.constant, if_neg (by omega), if_pos (by omega)]⟩,
    @foldl_turn _ _ 0 _ (by omega) fun t _ below => ⟨fun b c d => by rw [Sha1.mix, if_pos (by omega)], by
        rw [Sha1.constant, if_pos (by omega)]⟩]
  simp only [and_mask, Sha1.State.add]

/-- The first bytes of the block, up to the index, with the words and the length that go with them. -/
structure Holds (context : SHA1Context) (digest : Sha1.State) (length : Nat) (held : List UInt8) : Prop where
  digest : context.messageDigest = digest
  low : context.lengthLow.toNat = length
  high : context.lengthHigh = 0
  index : context.messageBlockIndex = held.length
  block : context.messageBlock.take held.length = held
  full : context.messageBlock.length = 64
  fresh : context.computed = false
  sound : context.corrupted = false

variable {context : SHA1Context} {digest : Sha1.State} {length : Nat} {held : List UInt8}

theorem Holds.store (holds : Holds context digest length held) (room : held.length < 64) (b : UInt8) :
    Holds (context.store b) digest length (held ++ [b]) where
  digest := holds.digest
  low := holds.low
  high := holds.high
  index := by simp [SHA1Context.store, holds.index]
  block := by
    have inside : held.length < context.messageBlock.length := by rw [holds.full]; exact room
    have size : (context.messageBlock.take held.length).length = held.length := by rw [holds.block]
    rw [SHA1Context.store, holds.index]
    dsimp only
    rw [List.set_eq_take_append_cons_drop, if_pos inside, List.length_append, List.length_singleton, List.take_append,
      size, holds.block, List.take_of_length_le (by omega), Nat.add_sub_cancel_left]
    rfl
  full := by simp [SHA1Context.store, holds.full]
  fresh := holds.fresh
  sound := holds.sound

theorem Holds.zeros (holds : Holds context digest length held) {index : Nat} (within : index ≤ 64)
    (ahead : held.length ≤ index) :
    Holds (context.zeros index) digest length (held ++ List.replicate (index - held.length) 0) := by
  have stores (count : Nat) (room : held.length + count ≤ 64) :
      Holds ((List.range count).foldl (fun context _ => context.store 0) context) digest length
        (held ++ List.replicate count 0) := by
    induction count with
    | zero => simpa using holds
    | succ count ih =>
      have next := (ih (by omega)).store (by simp only [List.length_append, List.length_replicate]; omega) 0
      rw [List.append_assoc, ← List.replicate_succ'] at next
      rw [List.range_succ, List.foldl_append]
      exact next
  rw [SHA1Context.zeros, holds.index]
  exact stores _ (by omega)

theorem Holds.process (holds : Holds context digest length held) (whole : held.length = 64) :
    Holds context.sha1ProcessMessageBlock (Sha1.compress digest held) length [] := by
  have block : context.messageBlock = held := by
    rw [← holds.block, whole, List.take_of_length_le holds.full.le]
  rw [sha1ProcessMessageBlock_eq, holds.digest, block]
  exact ⟨rfl, holds.low, holds.high, rfl, rfl, whole, holds.fresh, holds.sound⟩

/-- The same, where the two words of the length are counted together. -/
structure Streams (context : SHA1Context) (digest : Sha1.State) (length : Nat) (held : List UInt8) : Prop where
  holds : Holds { context with lengthLow := 0, lengthHigh := 0 } digest 0 held
  length : context.lengthHigh.toNat * 2 ^ 32 + context.lengthLow.toNat = length

theorem Streams.store (streams : Streams context digest length held) (room : held.length < 64) (b : UInt8) :
    Streams (context.store b) digest length (held ++ [b]) :=
  ⟨streams.holds.store room b, streams.length⟩

theorem foldl_store (indices : List Nat) (context : SHA1Context) :
    indices.foldl (fun context _ => context.store 0) { context with lengthLow := 0, lengthHigh := 0 } =
      { indices.foldl (fun context _ => context.store 0) context with lengthLow := 0, lengthHigh := 0 } ∧
    (indices.foldl (fun context _ => context.store 0) context).lengthLow = context.lengthLow ∧
    (indices.foldl (fun context _ => context.store 0) context).lengthHigh = context.lengthHigh := by
  induction indices generalizing context with
  | nil => exact ⟨rfl, rfl, rfl⟩
  | cons index indices ih =>
    simp only [List.foldl_cons]
    exact ih (context.store 0)

theorem Streams.zeros (streams : Streams context digest length held) {index : Nat} (within : index ≤ 64)
    (ahead : held.length ≤ index) :
    Streams (context.zeros index) digest length (held ++ List.replicate (index - held.length) 0) := by
  obtain ⟨same, low, high⟩ := foldl_store (List.range (index - context.messageBlockIndex)) context
  constructor
  · have zeros := streams.holds.zeros within ahead
    rwa [SHA1Context.zeros, same] at zeros
  · rw [SHA1Context.zeros, low, high]
    exact streams.length

theorem Streams.process (streams : Streams context digest length held) (whole : held.length = 64) :
    Streams context.sha1ProcessMessageBlock (Sha1.compress digest held) length [] := by
  constructor
  · have processed := streams.holds.process whole
    rw [sha1ProcessMessageBlock_eq] at processed ⊢
    exact processed
  · rw [sha1ProcessMessageBlock_eq]
    exact streams.length

theorem lengthByte (w : UInt32) (shift : UInt32) (short : shift.toNat < 32) :
    ((w >>> shift) &&& 0xFF).toUInt8 = (w.toNat / 2 ^ shift.toNat % 256).toUInt8 := by
  apply UInt8.toNat_inj.mp
  have mask := Nat.and_two_pow_sub_one_eq_mod (w.toNat / 2 ^ shift.toNat) 8
  rw [UInt32.toNat_toUInt8, UInt32.toNat_and, UInt32.toNat_shiftRight, Nat.mod_eq_of_lt short,
    Nat.shiftRight_eq_div_pow]
  change (w.toNat / 2 ^ shift.toNat &&& 2 ^ 8 - 1) % 256 = _
  rw [mask]
  simp

/-- One word of the length, as it is stored. -/
theorem lengthWord (w : UInt32) :
    [w >>> 24, w >>> 16, w >>> 8, w].map (fun w => (w &&& 0xFF).toUInt8) = Sha1.bigEndian 4 w.toNat := by
  have first := lengthByte w 24 (by decide)
  have second := lengthByte w 16 (by decide)
  have third := lengthByte w 8 (by decide)
  have fourth := lengthByte w 0 (by decide)
  rw [UInt32.shiftRight_zero] at fourth
  rw [List.map_cons, List.map_cons, List.map_cons, List.map_singleton, first, second, third, fourth]
  simp only [Sha1.bigEndian, Nat.div_div_eq_div_mul, List.nil_append, List.cons_append]
  simp

theorem Streams.storeLength (streams : Streams context digest length held) (before : held.length = 56) :
    context.storeLength.sha1ProcessMessageBlock.messageDigest =
      Sha1.compress digest (held ++ Sha1.bigEndian 8 length) := by
  have stored : context.storeLength.messageBlock = held ++ Sha1.bigEndian 8 length := by
    have kept : context.messageBlock.take 56 = held := by
      rw [← before]
      exact streams.holds.block
    have words : Sha1.bigEndian 8 length =
        Sha1.bigEndian 4 context.lengthHigh.toNat ++ Sha1.bigEndian 4 context.lengthLow.toNat := by
      rw [← streams.length]
      exact Sha1.bigEndian_add 4 4 _ context.lengthLow.toNat_lt
    rw [SHA1Context.storeLength, words, ← lengthWord, ← lengthWord]
    simp only [kept]
    rfl
  rw [sha1ProcessMessageBlock_eq]
  dsimp only
  rw [stored]
  exact congrArg (fun d => Sha1.compress d _) streams.holds.digest

theorem Streams.sha1PadMessage {blocks : List UInt8} (whole : blocks.length % 64 = 0) (short : held.length < 64)
    (streams : Streams context (Sha1.absorb Sha1.initial blocks) (8 * (blocks ++ held).length) held) :
    context.sha1PadMessage.messageDigest = Sha1.hash (blocks ++ held) := by
  have marked := streams.store short 0x80
  have length : (held ++ [(0x80 : UInt8)]).length = held.length + 1 := by simp
  have tail : (blocks ++ held).length % 64 = held.length := by
    rw [List.length_append]
    omega
  rw [Sha1.hash, Sha1.pad, tail, List.append_assoc, Sha1.absorb_append whole, SHA1Context.sha1PadMessage,
    streams.holds.index]
  split
  · next long =>
    have filled := (marked.zeros (le_refl 64) (by omega)).process (by simp; omega)
    have emptied := filled.zeros (by omega : 56 ≤ 64) (Nat.zero_le _)
    have two : held ++ 0x80 :: (List.replicate ((119 - held.length) % 64) 0 ++
        Sha1.bigEndian 8 (8 * (blocks ++ held).length)) =
          (held ++ [0x80] ++ List.replicate (64 - (held ++ [(0x80 : UInt8)]).length) 0) ++
            (List.replicate 56 0 ++ Sha1.bigEndian 8 (8 * (blocks ++ held).length)) := by
      have count : (119 - held.length) % 64 = (63 - held.length) + 56 := by omega
      rw [count, length, ← List.replicate_append_replicate]
      simp
    rw [two, Sha1.absorb_block (by simp; omega), ← List.append_nil (List.replicate 56 0 ++ _),
      Sha1.absorb_block (by simp), Sha1.absorb_short (by simp)]
    exact emptied.storeLength (by simp)
  · next fits =>
    have filled := marked.zeros (by omega : 56 ≤ 64) (by omega)
    have one : held ++ 0x80 :: (List.replicate ((119 - held.length) % 64) 0 ++
        Sha1.bigEndian 8 (8 * (blocks ++ held).length)) =
          held ++ [0x80] ++ List.replicate (56 - (held ++ [(0x80 : UInt8)]).length) 0 ++
            Sha1.bigEndian 8 (8 * (blocks ++ held).length) := by
      have count : (119 - held.length) % 64 = 55 - held.length := by omega
      rw [count, length]
      simp
    rw [one, ← List.append_nil (held ++ [0x80] ++ _ ++ _),
      Sha1.absorb_block (by simp; omega), Sha1.absorb_short (by simp)]
    exact filled.storeLength (by simp; omega)

/-- The two words of the length, with eight more. -/
def counted (context : SHA1Context) : SHA1Context :=
  let context := { context with lengthLow := context.lengthLow + 8 }
  if context.lengthLow = 0 then
    { context with lengthHigh := context.lengthHigh + 1, corrupted := context.lengthHigh + 1 = 0 }
  else context

theorem Streams.counted (streams : Streams context digest length held) (bytes : length % 8 = 0)
    (small : length + 8 < 2 ^ 64) : Streams context.counted digest (length + 8) held := by
  have total := streams.length
  have low := context.lengthLow.toNat_lt
  have sum : (context.lengthLow + 8).toNat = (context.lengthLow.toNat + 8) % 2 ^ 32 := UInt32.toNat_add _ _
  unfold SHA1Context.counted
  dsimp only
  by_cases carry : context.lengthLow + 8 = 0
  · rw [if_pos carry]
    rw [carry, UInt32.toNat_zero] at sum
    have high : (context.lengthHigh + 1).toNat = context.lengthHigh.toNat + 1 := by
      rw [UInt32.toNat_add, UInt32.toNat_one, Nat.mod_eq_of_lt (by omega)]
    have sound : context.lengthHigh + 1 ≠ 0 := by
      intro zero
      rw [zero, UInt32.toNat_zero] at high
      omega
    have more : (context.lengthHigh + 1).toNat * 2 ^ 32 + (context.lengthLow + 8).toNat = length + 8 := by
      have full : context.lengthLow.toNat + 8 = 2 ^ 32 := by omega
      have zero : (context.lengthLow + 8).toNat = 0 := by
        rw [carry, UInt32.toNat_zero]
      rw [high, zero, Nat.add_mul, ← total, Nat.add_assoc _ _ 8, full, Nat.one_mul, Nat.add_zero]
    have holds := streams.holds
    exact ⟨⟨holds.digest, rfl, rfl, holds.index, holds.block, holds.full, holds.fresh, decide_eq_false sound⟩, more⟩
  · rw [if_neg carry]
    have whole : context.lengthLow.toNat + 8 < 2 ^ 32 := by
      by_contra past
      refine carry (UInt32.toNat_inj.mp ?_)
      rw [sum, UInt32.toNat_zero]
      omega
    have more : context.lengthHigh.toNat * 2 ^ 32 + (context.lengthLow + 8).toNat = length + 8 := by
      rw [sum, Nat.mod_eq_of_lt whole]
      omega
    exact ⟨streams.holds, more⟩

theorem Streams.inputByte {blocks : List UInt8} (whole : blocks.length % 64 = 0) (short : held.length < 64)
    (streams : Streams context (Sha1.absorb Sha1.initial blocks) (8 * (blocks ++ held).length) held)
    (small : 8 * ((blocks ++ held).length + 1) < 2 ^ 64) (b : UInt8) :
    ∃ blocks' held', blocks' ++ held' = blocks ++ held ++ [b] ∧ blocks'.length % 64 = 0 ∧ held'.length < 64 ∧
      Streams (context.inputByte b) (Sha1.absorb Sha1.initial blocks') (8 * (blocks' ++ held').length) held' := by
  have grown := (streams.store short b).counted (by omega) (by omega)
  have index : (context.store b).counted.messageBlockIndex = held.length + 1 := by
    rw [grown.holds.index, List.length_append, List.length_singleton]
  have sound : ¬ context.corrupted = true := by simp [show context.corrupted = false from streams.holds.sound]
  have turn : context.inputByte b = if (context.store b).counted.messageBlockIndex = 64 then
      (context.store b).counted.sha1ProcessMessageBlock else (context.store b).counted := by
    rw [SHA1Context.inputByte, if_neg sound]
    rfl
  rw [turn]
  split
  · next last =>
    rw [index] at last
    have full : (held ++ [b]).length = 64 := by simpa using last
    refine ⟨blocks ++ (held ++ [b]), [], by simp, ?_, by simp, ?_⟩
    · rw [List.length_append, full]
      omega
    · rw [Sha1.absorb_append whole, ← List.append_nil (held ++ [b]), Sha1.absorb_block full,
        Sha1.absorb_short (by simp)]
      have processed := grown.process full
      simpa [Nat.mul_add, Nat.add_assoc] using processed
  · next room =>
    rw [index] at room
    refine ⟨blocks, held ++ [b], by simp, whole, ?_, ?_⟩
    · rw [List.length_append, List.length_singleton]
      omega
    · simpa [Nat.mul_add, Nat.add_assoc] using grown

/-- Induction on the message: what has been taken in is whole blocks and what the block holds. -/
theorem Streams.input {blocks message : List UInt8} (whole : blocks.length % 64 = 0) (short : held.length < 64)
    (streams : Streams context (Sha1.absorb Sha1.initial blocks) (8 * (blocks ++ held).length) held)
    (small : 8 * ((blocks ++ held).length + message.length) < 2 ^ 64) :
    ∃ blocks' held', blocks' ++ held' = blocks ++ held ++ message ∧ blocks'.length % 64 = 0 ∧ held'.length < 64 ∧
      Streams (message.foldl SHA1Context.inputByte context) (Sha1.absorb Sha1.initial blocks')
        (8 * (blocks' ++ held').length) held' := by
  induction message generalizing context blocks held with
  | nil => exact ⟨blocks, held, by simp, whole, short, streams⟩
  | cons b message ih =>
    rw [List.length_cons] at small
    obtain ⟨blocks', held', same, whole', short', streams'⟩ := streams.inputByte whole short (by omega) b
    have length : (blocks' ++ held').length = (blocks ++ held).length + 1 := by
      rw [same, List.length_append, List.length_singleton]
    obtain ⟨blocks'', held'', same', rest⟩ := ih whole' short' streams' (by omega)
    refine ⟨blocks'', held'', ?_, rest⟩
    rw [same', same, List.append_assoc, List.singleton_append]

/-- A call of `SHA1Input` takes in its bytes as one after the other would be. -/
theorem sha1Input_eq (fresh : context.computed = false) (sound : context.corrupted = false) (message : List UInt8) :
    context.sha1Input message = message.foldl SHA1Context.inputByte context := by
  unfold sha1Input
  by_cases empty : message = []
  · rw [if_pos empty, empty]
    rfl
  · rw [if_neg empty, if_neg (by simp [fresh, sound])]

theorem Streams.sha1Input {blocks message : List UInt8} (whole : blocks.length % 64 = 0) (short : held.length < 64)
    (streams : Streams context (Sha1.absorb Sha1.initial blocks) (8 * (blocks ++ held).length) held)
    (small : 8 * ((blocks ++ held).length + message.length) < 2 ^ 64) :
    ∃ blocks' held', blocks' ++ held' = blocks ++ held ++ message ∧ blocks'.length % 64 = 0 ∧ held'.length < 64 ∧
      Streams (context.sha1Input message) (Sha1.absorb Sha1.initial blocks')
        (8 * (blocks' ++ held').length) held' := by
  have fresh : context.computed = false := streams.holds.fresh
  have sound : context.corrupted = false := streams.holds.sound
  rw [sha1Input_eq fresh sound]
  exact streams.input whole short small

theorem streams_sha1Reset {memory : List UInt8} (block : memory.length = 64) :
    Streams (sha1Reset memory) (Sha1.absorb Sha1.initial []) (8 * ([] ++ ([] : List UInt8)).length) [] :=
  ⟨⟨(Sha1.absorb_short (by simp) _).symm, rfl, rfl, rfl, rfl, block, rfl, rfl⟩, by simp [sha1Reset]⟩

theorem Streams.sha1Result {blocks : List UInt8} (whole : blocks.length % 64 = 0) (short : held.length < 64)
    (streams : Streams context (Sha1.absorb Sha1.initial blocks) (8 * (blocks ++ held).length) held) :
    ∃ result, context.sha1Result = some result ∧ result.messageDigest = Sha1.hash (blocks ++ held) := by
  have fresh : context.computed = false := streams.holds.fresh
  have sound : context.corrupted = false := streams.holds.sound
  refine ⟨{ context.sha1PadMessage with computed := true }, ?_, streams.sha1PadMessage whole short⟩
  rw [SHA1Context.sha1Result, if_neg (by simp [sound]), if_neg (by simp [fresh])]

theorem inputByte_index (below : context.messageBlockIndex < 64) (b : UInt8) :
    (context.inputByte b).messageBlockIndex < 64 := by
  have stored : (context.store b).messageBlockIndex ≤ 64 := below
  rw [inputByte]
  split
  · exact below
  · have kept : (context.store b).counted.messageBlockIndex = (context.store b).messageBlockIndex := by
      rw [counted]
      split <;> rfl
    change (if (context.store b).counted.messageBlockIndex = 64 then
      (context.store b).counted.sha1ProcessMessageBlock else (context.store b).counted).messageBlockIndex < 64
    split
    · rw [sha1ProcessMessageBlock_eq]
      exact Nat.zero_lt_succ 63
    · omega

theorem sha1Input_index (below : context.messageBlockIndex < 64) (message : List UInt8) :
    (context.sha1Input message).messageBlockIndex < 64 := by
  rw [SHA1Context.sha1Input]
  split
  · exact below
  · split
    · exact below
    · clear * - below
      induction message generalizing context with
      | nil => exact below
      | cons b message ih => exact ih (inputByte_index below b)

theorem foldl_sha1Input_index (below : context.messageBlockIndex < 64) (pieces : List (List UInt8)) :
    (pieces.foldl SHA1Context.sha1Input context).messageBlockIndex < 64 := by
  induction pieces generalizing context with
  | nil => exact below
  | cons piece pieces ih => exact ih (sha1Input_index below piece)

/-- Induction on the calls: where one ends inside a block, the next goes on there. -/
theorem Streams.pieces {blocks : List UInt8} {pieces : List (List UInt8)} (whole : blocks.length % 64 = 0)
    (short : held.length < 64)
    (streams : Streams context (Sha1.absorb Sha1.initial blocks) (8 * (blocks ++ held).length) held)
    (small : 8 * ((blocks ++ held).length + pieces.flatten.length) < 2 ^ 64) :
    ∃ blocks' held', blocks' ++ held' = blocks ++ held ++ pieces.flatten ∧ blocks'.length % 64 = 0 ∧
      held'.length < 64 ∧
      Streams (pieces.foldl SHA1Context.sha1Input context) (Sha1.absorb Sha1.initial blocks')
        (8 * (blocks' ++ held').length) held' := by
  induction pieces generalizing context blocks held with
  | nil => exact ⟨blocks, held, by simp, whole, short, streams⟩
  | cons piece pieces ih =>
    rw [List.flatten_cons, @List.length_append _ piece] at small
    obtain ⟨blocks', held', same, whole', short', streams'⟩ :=
      @Streams.sha1Input _ _ _ piece whole short streams (by omega)
    have length : (blocks' ++ held').length = (blocks ++ held).length + piece.length := by
      rw [same, List.length_append]
    obtain ⟨blocks'', held'', same', rest⟩ := ih whole' short' streams' (by omega)
    refine ⟨blocks'', held'', ?_, rest⟩
    rw [same', same, List.flatten_cons, List.append_assoc _ piece]

end SHA1Context

/-- The printed hash is that of the message, whatever the block held before. -/
theorem sha1Hash_eq {memory source : List UInt8} (block : memory.length = 64) (small : 8 * source.length < 4294967296) :
    sha1Hash memory source = some (hexText (Sha1.hash source)) := by
  obtain ⟨blocks, held, same, whole, short, streams⟩ :=
    @Streams.sha1Input _ [] [] source rfl (by decide) (streams_sha1Reset block) (by simp; omega)
  obtain ⟨result, computed, digest⟩ := streams.sha1Result whole short
  rw [sha1Hash, computed, Option.map_some, digest, same]
  rfl

/-- However the message is cut into calls, the words are its hash, and between two calls the block is not full. -/
theorem sha1Result_pieces {memory : List UInt8} (block : memory.length = 64) (pieces : List (List UInt8)) :
    (∀ n, ((pieces.take n).foldl sha1Input (sha1Reset memory)).messageBlockIndex < 64) ∧
    (8 * pieces.flatten.length < 2 ^ 64 →
      ∃ result, (pieces.foldl sha1Input (sha1Reset memory)).sha1Result = some result ∧
        result.messageDigest = Sha1.hash pieces.flatten) := by
  constructor
  · intro n
    exact foldl_sha1Input_index (Nat.zero_lt_succ 63) _
  · intro small
    obtain ⟨blocks, held, same, whole, short, streams⟩ :=
      @Streams.pieces _ [] [] pieces rfl (by decide) (streams_sha1Reset block) (by simpa using small)
    obtain ⟨result, computed, digest⟩ := streams.sha1Result whole short
    refine ⟨result, computed, ?_⟩
    rw [digest, same]
    rfl

theorem sha1Result_pieces_sample :
    ∃ result, ([CString.ascii "a", [], CString.ascii "bc"].foldl sha1Input
        (sha1Reset (List.replicate 64 0))).sha1Result = some result ∧
      result.messageDigest = Sha1.hash (CString.ascii "abc") :=
  (sha1Result_pieces (by decide) [CString.ascii "a", [], CString.ascii "bc"]).2 (by decide)

end LiveStreaming.WebChat
