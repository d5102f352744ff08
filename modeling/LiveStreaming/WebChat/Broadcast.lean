import LiveStreaming.Library.CString
import LiveStreaming.Library.WebSocketFrame

/-!
# Passing messages on

`analyData` takes the payload out of a client's frame into a buffer of just its size, `packData` measures
that buffer with `strlen` and frames it again, and `response` writes the new frame to the other clients.
-/

namespace LiveStreaming.WebChat
open Library Library.CString

def messageSize : Nat := 2048

/-- Where the mask begins, and the length of the payload. -/
def payloadFields (buf : List UInt8) : Nat × Nat :=
  let payloadLen := (buf.getD 1 0 &&& 0x7F).toNat
  if payloadLen = 126 then (4, ((buf.getD 2 0).toNat <<< 8) ||| (buf.getD 3 0).toNat)
  else if payloadLen = 127 then
    -- the eight bytes are turned round and copied into an `unsigned long`
    (10, ((List.range 8).map fun i => buf.getD (9 - i) 0).foldr (fun b n => b.toNat + 256 * n) 0)
  else (2, payloadLen)

/-- `none` for `NULL`. -/
def analyData (buf : List UInt8) (bufLen : Nat) : Option (List UInt8) :=
  if bufLen < 2 then none
  else if buf.getD 0 0 &&& 0x80 ≠ 0x80 then none
  else if buf.getD 1 0 &&& 0x80 ≠ 0x80 then none
  else
    let (offset, n) := payloadFields buf
    let masks := (buf.drop offset).take 4
    let payloadData := (buf.drop (offset + 4)).take n
    some (payloadData.mapIdx fun i b => b ^^^ masks.getD (i % 4) 0)

def packData (message : List UInt8) : Option (List UInt8) :=
  let n := message.length
  if n < 126 then some (0x81 :: n.toUInt8 :: message)
  else if n < 0xFFFF then some (0x81 :: 126 :: (n >>> 8 &&& 0xFF).toUInt8 :: (n &&& 0xFF).toUInt8 :: message)
  else none

/-- What is written to whom. `data` is what the pointer of that name holds before it is set, which is tested
all the same. -/
def response (clientsPool : List Nat) (connfd data : Nat) (message : List UInt8) : List (Nat × List UInt8) :=
  if connfd = 0 then []
  else if data = 0 then []
  else
    match packData message with
    | none => []
    | some data => (clientsPool.filter (· ≠ connfd)).map fun fd => (fd, data)

/-- `received` has been read, and `behind` is what lies behind the payload on the heap. `none` where the zero
is stored behind `message`, or the payload is `NULL`. -/
def relayMessage (clientsPool : List Nat) (connfd data : Nat) (behind received : List UInt8) :
    Option (List (Nat × List UInt8)) :=
  if messageSize ≤ received.length then none
  else (analyData received received.length).map fun payload =>
    response clientsPool connfd data (cString (payload ++ behind))

/-- Every other client is sent the message, and nothing else. -/
def Relayed (clientsPool : List Nat) (connfd : Nat) (payload : List UInt8) (sent : List (Nat × List UInt8)) : Prop :=
  ∀ fd ∈ clientsPool, fd ≠ connfd → (∃ written, (fd, written) ∈ sent) ∧
    ∀ written, (fd, written) ∈ sent → WebSocketFrame.read written = some (WebSocketFrame.text payload)

theorem and_high (b : UInt8) : b &&& 0x80 = 0x80 ↔ 128 ≤ b.toNat := by
  have all : ∀ n : Fin 256, UInt8.ofNat n.val &&& 0x80 = 0x80 ↔ 128 ≤ n.val := by decide +kernel
  have this := all ⟨b.toNat, b.toNat_lt⟩
  rwa [UInt8.ofNat_toNat] at this

theorem and_low (b : UInt8) : (b &&& 0x7F).toNat = b.toNat % 128 := by
  rw [UInt8.toNat_and]
  exact Nat.and_two_pow_sub_one_eq_mod b.toNat 7

theorem payloadFields_eq (first second : UInt8) {rest : List UInt8}
    (whole : WebSocketFrame.extended second ≤ rest.length) :
    payloadFields (first :: second :: rest) =
      (WebSocketFrame.extended second + 2, WebSocketFrame.payloadLength second rest) := by
  rw [payloadFields]
  simp only [List.getD_cons_succ, List.getD_cons_zero, and_low]
  by_cases two : second.toNat % 128 = 126
  · have extended : WebSocketFrame.extended second = 2 := if_pos two
    rw [extended] at whole
    obtain ⟨a, b, rest, rfl⟩ : ∃ a b more, rest = a :: b :: more := by
      rcases rest with _ | ⟨a, _ | ⟨b, more⟩⟩
      · simp at whole
      · simp at whole
      · exact ⟨a, b, more, rfl⟩
    have joined : (a.toNat <<< 8) ||| b.toNat = 256 * a.toNat + b.toNat := by
      have below : b.toNat < 2 ^ 8 := b.toNat_lt
      rw [← Nat.shiftLeft_add_eq_or_of_lt below, Nat.shiftLeft_eq]
      omega
    rw [if_pos two, extended, WebSocketFrame.payloadLength, extended, if_neg (by decide)]
    simp only [List.getD_cons_zero, List.getD_cons_succ, joined, WebSocketFrame.number, List.take_succ_cons,
      List.take_zero, List.foldl_cons, List.foldl_nil, Prod.mk.injEq]
    exact ⟨trivial, by omega⟩
  · by_cases eight : second.toNat % 128 = 127
    · have extended : WebSocketFrame.extended second = 8 := by rw [WebSocketFrame.extended, if_neg two, if_pos eight]
      rw [extended] at whole
      obtain ⟨ext, more, rfl, size⟩ : ∃ ext more, rest = ext ++ more ∧ ext.length = 8 :=
        ⟨rest.take 8, rest.drop 8, (List.take_append_drop 8 rest).symm, by simp; omega⟩
      have turned : ((List.range 8).map fun i => (first :: second :: (ext ++ more)).getD (9 - i) 0) = ext.reverse := by
        apply List.ext_getElem
        · simp [size]
        · intro i below _
          have small : i < 8 := by simpa using below
          rw [List.getElem_map, List.getElem_range, List.getElem_reverse, show 9 - i = 7 - i + 1 + 1 by omega,
            List.getD_cons_succ, List.getD_cons_succ, List.getD_eq_getElem?_getD,
            List.getElem?_append_left (by omega), List.getElem?_eq_getElem (by omega), Option.getD_some]
          congr 1
          omega
      rw [if_neg two, if_pos eight, extended, WebSocketFrame.payloadLength, extended, if_neg (by decide), turned,
        List.take_left' size, List.foldr_reverse, WebSocketFrame.number]
      simp only [Nat.add_comm]
    · have extended : WebSocketFrame.extended second = 0 := by rw [WebSocketFrame.extended, if_neg two, if_neg eight]
      rw [if_neg two, if_neg eight, extended, WebSocketFrame.payloadLength, extended, if_pos rfl]

theorem analyData_eq {received payload : List UInt8}
    (frame : WebSocketFrame.read received = some ⟨true, 0, 1, true, payload⟩) :
    analyData received received.length = some payload := by
  rcases received with _ | ⟨first, _ | ⟨second, rest⟩⟩
  · cases frame
  · cases frame
  · rw [WebSocketFrame.read] at frame
    split at frame
    · next length =>
      obtain ⟨fin, _, _, masked, clear⟩ := WebSocketFrame.mk.inj (Option.some.inj frame)
      rw [decide_eq_true_eq] at fin masked
      rw [if_pos masked] at clear
      have mask : WebSocketFrame.maskSize second = 4 := if_pos masked
      rw [mask] at length
      rw [analyData, if_neg (by simp), if_neg (by simpa using (and_high first).mpr fin),
        if_neg (by simpa using (and_high second).mpr masked), payloadFields_eq first second (by omega)]
      dsimp only
      have masks : (first :: second :: rest).drop (WebSocketFrame.extended second + 2) =
          rest.drop (WebSocketFrame.extended second) := by
        rw [List.drop_succ_cons, List.drop_succ_cons]
      have data : ((first :: second :: rest).drop (WebSocketFrame.extended second + 2 + 4)).take
          (WebSocketFrame.payloadLength second rest) = (rest.drop (WebSocketFrame.extended second)).drop 4 := by
        rw [show WebSocketFrame.extended second + 2 + 4 = WebSocketFrame.extended second + 4 + 1 + 1 by omega,
          List.drop_succ_cons, List.drop_succ_cons, ← List.drop_drop]
        apply List.take_of_length_le
        rw [List.length_drop, List.length_drop]
        omega
      rw [masks, data, ← clear, WebSocketFrame.unmask]
    · cases frame

theorem packData_read {message data : List UInt8} (packed : packData message = some data) :
    WebSocketFrame.read data = some (WebSocketFrame.text message) := by
  rw [packData] at packed
  split at packed
  · next short =>
    obtain rfl := Option.some.inj packed
    exact WebSocketFrame.read_short short
  · split at packed
    · next medium =>
      obtain rfl := Option.some.inj packed
      have low (n : Nat) : n &&& 0xFF = n % 256 := Nat.and_two_pow_sub_one_eq_mod n 8
      have high : message.length >>> 8 &&& 0xFF = message.length / 256 := by
        rw [low, Nat.shiftRight_eq_div_pow]
        omega
      rw [high, low]
      exact WebSocketFrame.read_medium (by omega)
    · cases packed

theorem cString_append_eq (payload behind : List UInt8) :
    cString (payload ++ behind) = payload ↔ 0 ∉ payload ∧ cString behind = [] := by
  constructor
  · intro same
    have plain : 0 ∉ payload := by
      rw [← same]
      exact zero_notMem_cString _
    refine ⟨plain, ?_⟩
    rw [cString, List.takeWhile_append_of_pos] at same
    · exact List.append_right_eq_self.mp same
    · intro b member
      simp only [bne_iff_ne]
      rintro rfl
      exact plain member
  · rintro ⟨plain, ended⟩
    rw [cString, List.takeWhile_append_of_pos]
    · rw [← cString, ended, List.append_nil]
    · intro b member
      simp only [bne_iff_ne]
      rintro rfl
      exact plain member

/-- The other clients are sent the message exactly where there are none, or the message has no zero byte and
a zero happens to lie behind it. -/
theorem relayMessage_relayed {received payload : List UInt8}
    (frame : WebSocketFrame.read received = some ⟨true, 0, 1, true, payload⟩) (fits : received.length ≤ messageSize)
    (clientsPool : List Nat) (connfd data : Nat) (behind : List UInt8) :
    (∃ sent, relayMessage clientsPool connfd data behind received = some sent ∧
        Relayed clientsPool connfd payload sent) ↔
      received.length < messageSize ∧ ((∀ fd ∈ clientsPool, fd = connfd) ∨
        connfd ≠ 0 ∧ data ≠ 0 ∧ 0 ∉ payload ∧ cString behind = []) := by
  have size : payload.length ≤ received.length := WebSocketFrame.length_read frame
  rw [messageSize] at fits
  rw [relayMessage, analyData_eq frame]
  by_cases full : messageSize ≤ received.length
  · rw [if_pos full]
    exact iff_of_false (by simp) fun right => absurd full (Nat.not_le.mpr right.1)
  · rw [if_neg full, Option.map_some, and_iff_right (Nat.not_le.mp full)]
    have only (p : List (Nat × List UInt8) → Prop) (sent : List (Nat × List UInt8)) :
        (∃ s, some sent = some s ∧ p s) ↔ p sent := by simp
    rw [only]
    by_cases alone : ∀ fd ∈ clientsPool, fd = connfd
    · exact iff_of_true (fun fd member other => absurd (alone fd member) other) (.inl alone)
    · rw [or_iff_right alone, response]
      push Not at alone
      obtain ⟨fd, member, other⟩ := alone
      have unsent : ¬ Relayed clientsPool connfd payload [] := by
        intro relayed
        obtain ⟨written, sent⟩ := (relayed fd member other).1
        exact List.not_mem_nil sent
      split
      · next zero => exact iff_of_false unsent fun right => right.1 zero
      · next connected =>
        split
        · next zero => exact iff_of_false unsent fun right => right.2.1 zero
        · next tested =>
          rw [and_iff_right connected, and_iff_right tested, ← cString_append_eq]
          split
          · next unpacked =>
            refine iff_of_false unsent fun same => ?_
            rw [same, packData] at unpacked
            split at unpacked
            · cases unpacked
            · split at unpacked
              · cases unpacked
              · omega
          · next packet packed =>
            have read := packData_read packed
            constructor
            · intro relayed
              obtain ⟨⟨written, sent⟩, all⟩ := relayed fd member other
              have text := all written sent
              obtain ⟨_, _, pair⟩ := List.mem_map.mp sent
              rw [← (Prod.mk.inj pair).2, read] at text
              exact congrArg WebSocketFrame.payload (Option.some.inj text)
            · intro same fd member other
              refine ⟨⟨packet, List.mem_map.mpr ⟨fd, List.mem_filter.mpr ⟨member, decide_eq_true other⟩, rfl⟩⟩, ?_⟩
              intro written sent
              obtain ⟨_, _, pair⟩ := List.mem_map.mp sent
              rw [← (Prod.mk.inj pair).2, read, same]

def maskedHi : List UInt8 := [0x81, 0x82, 1, 2, 3, 4, 104 ^^^ 1, 105 ^^^ 2]

theorem relayMessage_relayed_sample :
    (∃ sent, relayMessage [4, 5] 4 1 [0, 9] maskedHi = some sent ∧ Relayed [4, 5] 4 [104, 105] sent) ↔
      maskedHi.length < messageSize ∧ ((∀ fd ∈ [4, 5], fd = 4) ∨
        4 ≠ 0 ∧ 1 ≠ 0 ∧ 0 ∉ ([104, 105] : List UInt8) ∧ cString [0, 9] = []) :=
  relayMessage_relayed (by decide) (by decide) _ _ _ _

/-- With another byte behind the payload the message grows; with a zero byte in it, it is cut. -/
theorem message_changed :
    relayMessage [4, 5] 4 1 [33, 0] maskedHi = some [(5, [0x81, 3, 104, 105, 33])] ∧
      relayMessage [4, 5] 4 1 [0] [0x81, 0x83, 0, 0, 0, 0, 104, 0, 105] = some [(5, [0x81, 1, 104])] ∧
      ¬ ∀ received payload clientsPool connfd data behind,
        WebSocketFrame.read received = some ⟨true, 0, 1, true, payload⟩ → received.length ≤ messageSize →
          ∃ sent, relayMessage clientsPool connfd data behind received = some sent ∧
            Relayed clientsPool connfd payload sent := by
  have grown : relayMessage [4, 5] 4 1 [33, 0] maskedHi = some [(5, [0x81, 3, 104, 105, 33])] := by decide
  refine ⟨grown, by decide, fun right => ?_⟩
  obtain ⟨sent, relayed, same⟩ := right maskedHi [104, 105] [4, 5] 4 1 [33, 0] (by decide) (by decide)
  obtain rfl := Option.some.inj (grown.symm.trans relayed)
  exact absurd ((same 5 (by decide) (by decide)).2 _ (List.mem_singleton_self _)) (by decide)

end LiveStreaming.WebChat
