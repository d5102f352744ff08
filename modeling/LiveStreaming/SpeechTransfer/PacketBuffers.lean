import LiveStreaming.SpeechTransfer.FlushRounds
import LiveStreaming.SpeechTransfer.Rooms
import LiveStreaming.SpeechTransfer.Signalling

/-!
# The packet buffers

`handle_udp_msg` with an account of memory: each call takes a buffer with `new`, and it is given back with `delete []`
or its address goes into `SORP_POOL`. Addresses are counted up, so that none stands for two buffers.
-/

namespace LiveStreaming.SpeechTransfer
open Library

def personalSignallingType : UInt8 := 3

/-- The addresses of the packets, in the place of the packets. -/
abbrev BufferPool := OrderedMap ID (OrderedMap Nat Nat)

structure Buffers where
  chatRoom : OrderedMap Channel Clients
  sorpPool : BufferPool
  prev : Option UInt64
  /-- How many buffers `new` has given. -/
  allocated : Nat
  /-- The operands of `delete []`, in their order. -/
  freed : List Nat

def Buffers.start : Buffers := ⟨.empty, .empty, none, 0, []⟩

/-- What a call of `handle_udp_msg` finds: `recvfrom` fails, or there is a datagram, the time, and what lies behind the
array of a request that has been decrypted. -/
inductive Receipt where
  | failed
  | datagram (id : ID) (rtpPacket : List UInt8) (garbage : Nat → UInt8) (now : UInt64) (behind : List UInt8)

/-- The two insertions of `handle_udp_msg`, for packets of any kind. -/
def insertRtpPacket {α : Type*} (sorpPool : OrderedMap ID (OrderedMap Nat α)) (id : ID) (timestamp : Nat)
    (rtpPacket : α) : OrderedMap ID (OrderedMap Nat α) :=
  match sorpPool.find id with
  | none => sorpPool.set id (OrderedMap.empty.set timestamp rtpPacket)
  | some packets =>
    if (packets.find timestamp).isSome then sorpPool else sorpPool.set id (packets.set timestamp rtpPacket)

theorem insertPacket_eq (sorpPool : SpeakersOpusRtpPacketsPool) (id : ID) (timestamp : Nat) (rtpPacket : List UInt8) :
    insertPacket sorpPool id timestamp rtpPacket = insertRtpPacket sorpPool id timestamp rtpPacket := by
  unfold insertPacket insertRtpPacket
  cases sorpPool.find id <;> rfl

def speakersOf {α : Type*} (sorpPool : OrderedMap ID (OrderedMap Nat α)) : List (ID × List α) :=
  sorpPool.entries.map fun speaker => (speaker.1, speaker.2.entries.map Prod.snd)

theorem speakers_eq : speakers = speakersOf := rfl

/-- The packets that the rounds of `do_mix_and_broadcast_S` take and give back. -/
def deletedInRounds : Nat → List (ID × List Nat) → List Nat
  | 0, _ => []
  | rounds + 1, speakers =>
    (takenOf speakers).map Prod.snd ++ deletedInRounds rounds (speakers.map fun s => (s.1, s.2.tail))

/-- The operands of `delete []` in `do_mix_and_broadcast_S`. -/
def deletedByFlush (speakers : List (ID × List Nat)) : List Nat :=
  match speakers with
  | [] => []
  | [(_, packets)] => packets
  | speakers => deletedInRounds (speakers.foldl (fun n s => max n s.2.length) 0) speakers

def Buffers.delete (s : Buffers) (rtpPacket : Nat) : Buffers := { s with freed := s.freed ++ [rtpPacket] }

def Buffers.doMixAndBroadcast (s : Buffers) : Buffers :=
  { s with sorpPool := .empty, freed := s.freed ++ deletedByFlush (speakersOf s.sorpPool) }

/-- The branch of `handle_udp_msg` for speech. -/
def Buffers.handleSpeech (s : Buffers) (rtpPacket : Nat) (id : ID) (timestamp : Nat) (now : UInt64) : Buffers :=
  if clientAlreadyIn s.chatRoom id then
    let s := { s with sorpPool := insertRtpPacket s.sorpPool id timestamp rtpPacket }
    if elapsed s.prev now then { s.doMixAndBroadcast with prev := some now }
    else { s with prev := some (s.prev.getD now) }
  else s.delete rtpPacket

/-- The branch for a request. -/
def Buffers.handleSignalling (aes : Aes) (behind : List UInt8) (s : Buffers) (rtpPacket : Nat) (memory : Nat → UInt8)
    (receivedBytes offset : Nat) (id : ID) : Buffers :=
  if receivedBytes = offset + rtpHeaderSize + signallingLength then
    match parseClientRequest aes behind ((List.range' (rtpHeaderSize + offset) signallingLength).map memory)
      signallingLength with
    | none => s.delete rtpPacket
    | some request => { s with chatRoom := handleRequest s.chatRoom id request.toClientRequest }.delete rtpPacket
  else s.delete rtpPacket

def Buffers.handleUdpMsg (aes : Aes) (s : Buffers) (receipt : Receipt) : Buffers :=
  let rtpPacket := s.allocated
  let s := { s with allocated := s.allocated + 1 }
  match receipt with
  | .failed => s.delete rtpPacket
  | .datagram id received garbage now behind =>
    let received := received.take signallingBufferSize
    let memory := receivedInto garbage received
    match rtpHeaderParse (fun i => memory (rtpHeaderSize + i)) received.length with
    | none => s.delete rtpPacket
    | some header =>
      if header.payloadType ≠ personalSignallingType then
        -- neither kept nor given back
        if header.payloadType ≠ opusRtpPayloadType then s
        else s.handleSpeech rtpPacket id header.timestamp now
      else s.handleSignalling aes behind rtpPacket memory received.length header.offset id

def Buffers.run (aes : Aes) (receipts : List Receipt) : Buffers := receipts.foldl (Buffers.handleUdpMsg aes) .start

/-- The addresses in the pool, entry by entry. -/
def Buffers.referenced (s : Buffers) : List Nat := (pooledOf (speakersOf s.sorpPool)).map Prod.snd

def Buffers.live (s : Buffers) : List Nat := (List.range s.allocated).filter fun a => a ∉ s.freed

/-- Every buffer that has been allocated either stands in one entry of the pool or has been given back once. -/
structure Accounted (s : Buffers) : Prop where
  owned : (s.referenced ++ s.freed).Perm (List.range s.allocated)
  live : s.live.length = s.referenced.length

/-- The header that `handle_udp_msg` finds in a datagram. -/
def headerOf (rtpPacket : List UInt8) (garbage : Nat → UInt8) : Option RtpHeader :=
  rtpHeaderParse (fun i => receivedInto garbage (rtpPacket.take signallingBufferSize) (rtpHeaderSize + i))
    (rtpPacket.take signallingBufferSize).length

/-- The datagram is a member's speech, and the packets of the pool are to be sent. -/
def Flushes (s : Buffers) : Receipt → Prop
  | .failed => False
  | .datagram id rtpPacket garbage now _ => ∃ header, headerOf rtpPacket garbage = some header ∧
      header.payloadType = opusRtpPayloadType ∧ clientAlreadyIn s.chatRoom id ∧ elapsed s.prev now

/-- An accepted header is that of a request or of speech, and of a time that the speaker has no packet of. -/
def Expected (s : Buffers) : Receipt → Prop
  | .failed => True
  | .datagram id rtpPacket garbage _ _ => ∀ header, headerOf rtpPacket garbage = some header →
      (header.payloadType = personalSignallingType ∨ header.payloadType = opusRtpPayloadType) ∧
      (header.payloadType = opusRtpPayloadType → clientAlreadyIn s.chatRoom id →
        ∀ packets, s.sorpPool.find id = some packets → packets.find header.timestamp = none)

/-- The account over a whole run: after every call, and after a flush everything has been given back. -/
structure BuffersAccounted (aes : Aes) (receipts : List Receipt) : Prop where
  accounted : ∀ before after, receipts = before ++ after → Accounted (.run aes before)
  flushed : ∀ before receipt after, receipts = before ++ receipt :: after → Flushes (.run aes before) receipt →
    (Buffers.run aes (before ++ [receipt])).freed.Perm (List.range (before.length + 1))

/-! ### The pool -/

variable {α : Type*} {sorpPool : OrderedMap ID (OrderedMap Nat α)} {id : ID} {timestamp : Nat} {rtpPacket : α}

def heldBy (speaker : ID × OrderedMap Nat α) : List (ID × α) := speaker.2.entries.map fun e => (speaker.1, e.2)

theorem pooledOf_speakersOf (sorpPool : OrderedMap ID (OrderedMap Nat α)) :
    pooledOf (speakersOf sorpPool) = sorpPool.entries.flatMap heldBy := by
  unfold pooledOf speakersOf heldBy
  rw [List.flatMap_map]
  apply List.flatMap_congr
  intro speaker _
  rw [List.map_map]
  rfl

theorem heldBy_set {packets : OrderedMap Nat α} (fresh : packets.find timestamp = none) :
    (heldBy (id, packets.set timestamp rtpPacket)).Perm ((id, rtpPacket) :: heldBy (id, packets)) := by
  have entries := packets.perm_set timestamp rtpPacket
  rw [OrderedMap.erase_absent fresh] at entries
  exact entries.map _

theorem pooledOf_set {packets : OrderedMap Nat α} {before : List (ID × α)}
    (old : (heldBy (id, packets)).Perm before) :
    (pooledOf (speakersOf (sorpPool.set id packets))).Perm (before ++ (sorpPool.erase id).entries.flatMap heldBy) := by
  rw [pooledOf_speakersOf]
  exact ((sorpPool.perm_set id packets).flatMap_right heldBy).trans (old.append_right _)

/-- A packet with a new time stamp is one more in the pool. -/
theorem insertRtpPacket_perm (fresh : ∀ packets, sorpPool.find id = some packets → packets.find timestamp = none) :
    (pooledOf (speakersOf (insertRtpPacket sorpPool id timestamp rtpPacket))).Perm
      ((id, rtpPacket) :: pooledOf (speakersOf sorpPool)) := by
  unfold insertRtpPacket
  split
  · next none =>
    have single := @pooledOf_set _ sorpPool id _ _ (@heldBy_set _ id timestamp rtpPacket .empty rfl)
    rw [OrderedMap.erase_absent none, ← pooledOf_speakersOf] at single
    exact single
  · next packets found =>
    rw [if_neg (by simp [fresh packets found])]
    have more := @pooledOf_set _ sorpPool id _ _ (@heldBy_set _ id timestamp rtpPacket packets (fresh packets found))
    refine more.trans ?_
    rw [pooledOf_speakersOf]
    exact ((OrderedMap.perm_of_find found).flatMap_right heldBy).symm.cons _

/-- The packet that has come first stays. -/
theorem insertRtpPacket_again {packets : OrderedMap Nat α} (found : sorpPool.find id = some packets)
    (again : packets.find timestamp ≠ none) : insertRtpPacket sorpPool id timestamp rtpPacket = sorpPool := by
  unfold insertRtpPacket
  rw [found]
  exact if_pos (Option.isSome_iff_ne_none.mpr again)

/-! ### The flush -/

theorem deletedInRounds_perm {rounds : Nat} {speakers : List (ID × List Nat)}
    (enough : ∀ s ∈ speakers, s.2.length ≤ rounds) :
    (deletedInRounds rounds speakers).Perm ((pooledOf speakers).map Prod.snd) := by
  induction rounds generalizing speakers with
  | zero =>
    rw [pooledOf_ended fun s member => List.length_eq_zero_iff.mp (Nat.le_zero.mp (enough s member))]
    exact List.Perm.refl _
  | succ rounds ih =>
    have rest : ∀ s ∈ speakers.map (fun s : ID × List Nat => (s.1, s.2.tail)), s.2.length ≤ rounds := by
      intro s member
      obtain ⟨t, inside, rfl⟩ := List.mem_map.mp member
      have := enough t inside
      rw [List.length_tail]
      omega
    rw [deletedInRounds]
    refine ((ih rest).append_left _).trans ?_
    rw [← List.map_append]
    exact (takenOf_perm speakers).map _

theorem deletedByFlush_perm (speakers : List (ID × List Nat)) :
    (deletedByFlush speakers).Perm ((pooledOf speakers).map Prod.snd) := by
  rcases speakers with _ | ⟨⟨id, packets⟩, _ | ⟨second, more⟩⟩
  · exact List.Perm.refl _
  · rw [deletedByFlush, pooledOf, List.flatMap_singleton, List.map_map]
    exact List.Perm.of_eq (List.map_id packets).symm
  · exact deletedInRounds_perm (foldl_max _ 0).2

/-! ### One datagram -/

/-- The addresses that are accounted for. -/
def Buffers.known (s : Buffers) : List Nat := s.referenced ++ s.freed

theorem known_delete (s : Buffers) (a : Nat) : (s.delete a).known.Perm (a :: s.known) := by
  have last : (s.delete a).known = s.known ++ [a] := (List.append_assoc _ _ _).symm
  rw [last]
  exact List.perm_append_singleton _ _

theorem known_doMixAndBroadcast (s : Buffers) : s.doMixAndBroadcast.known.Perm s.known := by
  have none : s.doMixAndBroadcast.known = s.freed ++ deletedByFlush (speakersOf s.sorpPool) := rfl
  rw [none]
  exact List.perm_append_comm.trans ((deletedByFlush_perm _).append_right _)

theorem known_speech {s : Buffers} {a : Nat} {now : UInt64} (member : clientAlreadyIn s.chatRoom id = true) :
    (s.handleSpeech a id timestamp now).known.Perm
      { s with sorpPool := insertRtpPacket s.sorpPool id timestamp a }.known := by
  unfold Buffers.handleSpeech
  rw [if_pos member]
  dsimp only
  split
  · exact known_doMixAndBroadcast _
  · exact List.Perm.refl _

theorem known_fresh {s : Buffers} {a : Nat} {now : UInt64} (member : clientAlreadyIn s.chatRoom id = true)
    (fresh : ∀ packets, s.sorpPool.find id = some packets → packets.find timestamp = none) :
    (s.handleSpeech a id timestamp now).known.Perm (a :: s.known) :=
  (known_speech member).trans (((insertRtpPacket_perm fresh).map Prod.snd).append_right _)

theorem known_again {s : Buffers} {a : Nat} {now : UInt64} (member : clientAlreadyIn s.chatRoom id = true)
    {packets : OrderedMap Nat Nat} (found : s.sorpPool.find id = some packets)
    (again : packets.find timestamp ≠ none) : (s.handleSpeech a id timestamp now).known.Perm s.known := by
  have same := @known_speech id timestamp s a now member
  rw [insertRtpPacket_again found again] at same
  exact same

theorem known_signalling {aes : Aes} {behind : List UInt8} {s : Buffers} {a : Nat} {memory : Nat → UInt8}
    {receivedBytes offset : Nat} :
    (s.handleSignalling aes behind a memory receivedBytes offset id).known.Perm (a :: s.known) := by
  unfold Buffers.handleSignalling
  split
  · split
    · exact known_delete s a
    · exact known_delete _ a
  · exact known_delete s a

variable {aes : Aes} {s : Buffers} {receipt : Receipt}

/-- What becomes of the buffer of one call. -/
theorem handleUdpMsg_known :
    (Expected s receipt ∧ (s.handleUdpMsg aes receipt).known.Perm (s.allocated :: s.known)) ∨
      (¬ Expected s receipt ∧ (s.handleUdpMsg aes receipt).known.Perm s.known) := by
  cases receipt with
  | failed => exact .inl ⟨trivial, known_delete _ _⟩
  | datagram id received garbage now behind =>
    unfold Buffers.handleUdpMsg
    dsimp only
    split
    · next rejected =>
      refine .inl ⟨fun header found => ?_, known_delete _ _⟩
      unfold headerOf at found
      rw [rejected] at found
      cases found
    · next header accepted =>
      have only : ∀ other, headerOf received garbage = some other → other = header :=
        fun other found => Option.some.inj (found.symm.trans accepted)
      split
      · next speech =>
        split
        · next unknown =>
          refine .inr ⟨fun expected => ?_, List.Perm.refl _⟩
          rcases (expected header accepted).1 with same | same
          · exact speech same
          · exact unknown same
        · next opus =>
          by_cases member : clientAlreadyIn s.chatRoom id = true
          · by_cases fresh : ∀ packets, s.sorpPool.find id = some packets → packets.find header.timestamp = none
            · refine .inl ⟨fun other found => ?_, known_fresh member fresh⟩
              obtain rfl := only other found
              exact ⟨.inr (of_not_not opus), fun _ _ => fresh⟩
            · refine .inr ⟨fun expected => fresh ((expected header accepted).2 (of_not_not opus) member), ?_⟩
              simp only [not_forall] at fresh
              obtain ⟨packets, found, again⟩ := fresh
              exact known_again member found again
          · refine .inl ⟨fun other found => ?_, ?_⟩
            · obtain rfl := only other found
              exact ⟨.inr (of_not_not opus), fun _ inside => absurd inside member⟩
            · unfold Buffers.handleSpeech
              rw [if_neg member]
              exact known_delete _ _
      · next signalling =>
        refine .inl ⟨fun other found => ?_, known_signalling⟩
        obtain rfl := only other found
        have personal := of_not_not signalling
        refine ⟨.inl personal, fun opus => ?_⟩
        rw [personal] at opus
        exact absurd opus (by decide)

theorem handleUdpMsg_allocated : (s.handleUdpMsg aes receipt).allocated = s.allocated + 1 := by
  unfold Buffers.handleUdpMsg Buffers.handleSpeech Buffers.handleSignalling
  cases receipt with
  | failed => rfl
  | datagram id received garbage now behind =>
    dsimp only
    repeat' split
    all_goals rfl

theorem referenced_flushed (flushes : Flushes s receipt) : (s.handleUdpMsg aes receipt).referenced = [] := by
  cases receipt with
  | failed => exact flushes.elim
  | datagram id received garbage now behind =>
    obtain ⟨header, accepted, opus, member, elapsed⟩ := flushes
    unfold headerOf at accepted
    unfold Buffers.handleUdpMsg Buffers.handleSpeech
    dsimp only
    rw [accepted]
    dsimp only
    rw [opus, if_pos (by decide), if_neg (by decide), if_pos member, if_pos elapsed]
    rfl

/-! ### The same server, with packets in the place of addresses -/

section Represents

variable {δ ε : Type*} {opus : Opus δ ε} {contents : Nat → List UInt8} {t : Transfer δ ε}

def packetsAt (contents : Nat → List UInt8) (sorpPool : BufferPool) : SpeakersOpusRtpPacketsPool :=
  sorpPool.map (OrderedMap.map contents)

theorem packetsAt_insert (contents : Nat → List UInt8) (sorpPool : BufferPool) (id : ID) (timestamp a : Nat) :
    packetsAt contents (insertRtpPacket sorpPool id timestamp a) =
      insertPacket (packetsAt contents sorpPool) id timestamp (contents a) := by
  unfold packetsAt insertRtpPacket insertPacket
  rw [OrderedMap.find_map]
  cases found : sorpPool.find id with
  | none =>
    rw [Option.map_none]
    dsimp only
    rw [OrderedMap.map_set, OrderedMap.map_set]
    rfl
  | some packets =>
    rw [Option.map_some]
    dsimp only
    rw [OrderedMap.find_map, Option.isSome_map]
    split
    · rfl
    · rw [OrderedMap.map_set, OrderedMap.map_set]

/-- The state of the server that the account of memory belongs to. -/
structure Represents (contents : Nat → List UInt8) (s : Buffers) (t : Transfer δ ε) : Prop where
  chatRoom : s.chatRoom = t.chatRoom
  prev : s.prev = t.mixer.prev
  sorpPool : packetsAt contents s.sorpPool = t.mixer.sorpPool
  allocated : ∀ a ∈ s.known, a < s.allocated

theorem mem_referenced {s : Buffers} {speaker : ID × OrderedMap Nat Nat} {e : Nat × Nat}
    (inside : speaker ∈ s.sorpPool.entries) (member : e ∈ speaker.2.entries) : e.2 ∈ s.referenced := by
  unfold Buffers.referenced
  rw [pooledOf_speakersOf]
  apply List.mem_map.mpr
  exact ⟨(speaker.1, e.2), List.mem_flatMap.mpr ⟨speaker, inside, List.mem_map.mpr ⟨e, member, rfl⟩⟩, rfl⟩

/-- What `new` gives next is in no packet of the pool. -/
theorem packetsAt_update {s : Buffers} (allocated : ∀ a ∈ s.known, a < s.allocated) (contents : Nat → List UInt8)
    (rtpPacket : List UInt8) :
    packetsAt (Function.update contents s.allocated rtpPacket) s.sorpPool = packetsAt contents s.sorpPool := by
  apply OrderedMap.map_congr
  intro speaker inside
  apply OrderedMap.map_congr
  intro e member
  have below := allocated e.2 (List.mem_append_left _ (mem_referenced inside member))
  exact Function.update_of_ne below.ne _ _

theorem allocated_handleUdpMsg (allocated : ∀ a ∈ s.known, a < s.allocated) :
    ∀ a ∈ (s.handleUdpMsg aes receipt).known, a < (s.handleUdpMsg aes receipt).allocated := by
  intro a member
  rw [handleUdpMsg_allocated]
  rcases @handleUdpMsg_known aes s receipt with ⟨_, known⟩ | ⟨_, known⟩
  · rcases List.mem_cons.mp (known.mem_iff.mp member) with rfl | old
    · exact Nat.lt_succ_self _
    · exact (allocated a old).trans (Nat.lt_succ_self _)
  · exact (allocated a (known.mem_iff.mp member)).trans (Nat.lt_succ_self _)

theorem recordTaken_mixer (t : Transfer δ ε) (channel : Channel) (now : UInt64) (flushing mixing : Bool) :
    (t.recordTaken channel now flushing mixing).mixer = t.mixer ∧
      (t.recordTaken channel now flushing mixing).chatRoom = t.chatRoom := by
  unfold Transfer.recordTaken
  split <;> exact ⟨rfl, rfl⟩

section Speech

variable {rtpPacket : List UInt8} {garbage : Nat → UInt8} {now : UInt64} {behind : List UInt8} {time : UInt32}
  {stack : Nat → Stack} {header : RtpHeader}

theorem speechTimestamp_eq : speechTimestamp (receivedInto garbage (rtpPacket.take signallingBufferSize))
    (rtpPacket.take signallingBufferSize).length = (headerOf rtpPacket garbage).bind fun header =>
      if header.payloadType = opusRtpPayloadType then some header.timestamp else none := by
  unfold speechTimestamp headerOf
  split
  · next rejected => rw [rejected]; rfl
  · next header accepted => rw [accepted]; rfl

/-- Where the datagram is no speech of a member, neither account changes but for the buffer. -/
theorem represents_ignored (represents : Represents contents s t) (after : List UInt8)
    {s' : Buffers} (next : s' = s.handleUdpMsg aes receipt) (chatRoom : s'.chatRoom = s.chatRoom)
    (sorpPool : s'.sorpPool = s.sorpPool) (prev : s'.prev = s.prev) {t' : Transfer δ ε}
    (chatRoom' : t'.chatRoom = t.chatRoom) (mixer : t'.mixer = t.mixer) :
    Represents (Function.update contents s.allocated after) s' t' := by
  refine ⟨?_, ?_, ?_, ?_⟩
  · rw [chatRoom, chatRoom', represents.chatRoom]
  · rw [prev, mixer, represents.prev]
  · rw [sorpPool, mixer, packetsAt_update represents.allocated, represents.sorpPool]
  · rw [next]
    exact allocated_handleUdpMsg represents.allocated

theorem handleUdpMsg_rejected (rejected : headerOf rtpPacket garbage = none) :
    s.handleUdpMsg aes (.datagram id rtpPacket garbage now behind) =
      { s with allocated := s.allocated + 1 }.delete s.allocated := by
  unfold headerOf at rejected
  unfold Buffers.handleUdpMsg
  dsimp only
  rw [rejected]

theorem handleUdpMsg_accepted (accepted : headerOf rtpPacket garbage = some header)
    (speech : header.payloadType ≠ personalSignallingType) :
    s.handleUdpMsg aes (.datagram id rtpPacket garbage now behind) =
      if header.payloadType ≠ opusRtpPayloadType then { s with allocated := s.allocated + 1 }
      else { s with allocated := s.allocated + 1 }.handleSpeech s.allocated id header.timestamp now := by
  unfold headerOf at accepted
  unfold Buffers.handleUdpMsg
  dsimp only
  rw [accepted]
  dsimp only
  rw [if_pos speech]

theorem transfer_ignored (other : speechTimestamp (receivedInto garbage (rtpPacket.take signallingBufferSize))
    (rtpPacket.take signallingBufferSize).length = none) :
    (t.handleUdpMsg opus (.speech id rtpPacket garbage now time stack)).chatRoom = t.chatRoom ∧
      (t.handleUdpMsg opus (.speech id rtpPacket garbage now time stack)).mixer = t.mixer := by
  cases found : roomOf t.chatRoom id with
  | none =>
    unfold Transfer.handleUdpMsg
    dsimp only
    rw [found]
    exact ⟨rfl, rfl⟩
  | some room =>
    rw [handleUdpMsg_ignored found other]
    exact ⟨rfl, rfl⟩

theorem represents_taken (represents : Represents contents s t)
    (speech : header.payloadType ≠ personalSignallingType) (accepted : headerOf rtpPacket garbage = some header)
    (opusPacket : header.payloadType = opusRtpPayloadType) {room : Channel × Clients}
    (found : roomOf t.chatRoom id = some room) :
    Represents
      (Function.update contents s.allocated (pooledBytes (receivedInto garbage (rtpPacket.take signallingBufferSize))))
      (s.handleUdpMsg aes (.datagram id rtpPacket garbage now behind))
      (t.handleUdpMsg opus (.speech id rtpPacket garbage now time stack)) := by
  obtain ⟨channel, clients⟩ := room
  have taken := @speechTimestamp_eq rtpPacket garbage
  rw [accepted, Option.bind_some, if_pos opusPacket] at taken
  have member : clientAlreadyIn s.chatRoom id = true := by
    rw [clientAlreadyIn, represents.chatRoom, found]
    rfl
  have given := @handleUdpMsg_accepted id aes s rtpPacket garbage now behind header accepted speech
  unfold Buffers.handleSpeech at given
  rw [if_neg (not_not.mpr opusPacket), if_pos member] at given
  have allocated := @allocated_handleUdpMsg aes s (.datagram id rtpPacket garbage now behind) represents.allocated
  by_cases due : elapsed s.prev now = true
  · have next := @handleUdpMsg_flushes _ _ opus t id rtpPacket garbage now time stack channel clients _ found taken
      (by rw [← represents.prev]; exact due) _ _ rfl rfl
    dsimp only at given
    rw [if_pos due] at given
    refine ⟨?_, ?_, ?_, allocated⟩
    · rw [given, next, (recordTaken_mixer _ _ _ _ _).2]
      exact represents.chatRoom
    · rw [given, next, (recordTaken_mixer _ _ _ _ _).1]
      rfl
    · rw [given, next, (recordTaken_mixer _ _ _ _ _).1]
      rfl
  · obtain ⟨mixing, next⟩ := @handleUdpMsg_waits _ _ opus t id rtpPacket garbage now time stack channel clients _ found
      taken (by rw [← represents.prev]; exact eq_false_of_ne_true due)
    dsimp only at given
    rw [if_neg due] at given
    refine ⟨?_, ?_, ?_, allocated⟩
    · rw [given, next, (recordTaken_mixer _ _ _ _ _).2]
      exact represents.chatRoom
    · rw [given, next, (recordTaken_mixer _ _ _ _ _).1]
      exact congrArg (fun prev : Option UInt64 => some (prev.getD now)) represents.prev
    · rw [given, next, (recordTaken_mixer _ _ _ _ _).1]
      dsimp only
      rw [packetsAt_insert, packetsAt_update represents.allocated, represents.sorpPool, Function.update_self]
      rfl

/-- A datagram that is no request does the same to both. -/
theorem represents_speech (represents : Represents contents s t)
    (speech : ∀ header, headerOf rtpPacket garbage = some header → header.payloadType ≠ personalSignallingType) :
    Represents
      (Function.update contents s.allocated (pooledBytes (receivedInto garbage (rtpPacket.take signallingBufferSize))))
      (s.handleUdpMsg aes (.datagram id rtpPacket garbage now behind))
      (t.handleUdpMsg opus (.speech id rtpPacket garbage now time stack)) := by
  have timestamps := @speechTimestamp_eq rtpPacket garbage
  cases accepted : headerOf rtpPacket garbage with
  | none =>
    rw [accepted] at timestamps
    have same := @transfer_ignored id _ _ opus t rtpPacket garbage now time stack timestamps
    have given := @handleUdpMsg_rejected id aes s rtpPacket garbage now behind accepted
    exact represents_ignored represents _ rfl (by rw [given]; rfl) (by rw [given]; rfl) (by rw [given]; rfl) same.1
      same.2
  | some header =>
    have given := @handleUdpMsg_accepted id aes s rtpPacket garbage now behind header accepted (speech header accepted)
    rw [accepted, Option.bind_some] at timestamps
    by_cases opusPacket : header.payloadType = opusRtpPayloadType
    · rw [if_neg (not_not.mpr opusPacket)] at given
      rw [if_pos opusPacket] at timestamps
      unfold Buffers.handleSpeech at given
      cases found : roomOf t.chatRoom id with
      | none =>
        have stranger : clientAlreadyIn s.chatRoom id = false := by
          rw [clientAlreadyIn, represents.chatRoom, found]
          rfl
        rw [if_neg (by rw [stranger]; decide)] at given
        have same : t.handleUdpMsg opus (.speech id rtpPacket garbage now time stack) = t := by
          unfold Transfer.handleUdpMsg
          dsimp only
          rw [found]
        exact represents_ignored represents _ rfl (by rw [given]; rfl) (by rw [given]; rfl) (by rw [given]; rfl)
          (by rw [same]) (by rw [same])
      | some room =>
        exact represents_taken represents (speech header accepted) accepted opusPacket found
    · rw [if_pos opusPacket] at given
      rw [if_neg opusPacket] at timestamps
      have same := @transfer_ignored id _ _ opus t rtpPacket garbage now time stack timestamps
      exact represents_ignored represents _ rfl (by rw [given]) (by rw [given]) (by rw [given]) same.1 same.2

/-- And so does a request that can be read. -/
theorem represents_request (represents : Represents contents s t) (after : List UInt8)
    (accepted : headerOf rtpPacket garbage = some header) (personal : header.payloadType = personalSignallingType)
    (length : (rtpPacket.take signallingBufferSize).length = header.offset + rtpHeaderSize + signallingLength)
    {request : TimedRequest}
    (parsed : parseClientRequest aes behind ((List.range' (rtpHeaderSize + header.offset) signallingLength).map
      (receivedInto garbage (rtpPacket.take signallingBufferSize))) signallingLength = some request) :
    Represents (Function.update contents s.allocated after)
      (s.handleUdpMsg aes (.datagram id rtpPacket garbage now behind))
      (t.handleUdpMsg opus (.request id request.toClientRequest)) := by
  have given : s.handleUdpMsg aes (.datagram id rtpPacket garbage now behind) =
      { s with
        allocated := s.allocated + 1
        chatRoom := handleRequest s.chatRoom id request.toClientRequest }.delete s.allocated := by
    unfold headerOf at accepted
    unfold Buffers.handleUdpMsg Buffers.handleSignalling
    dsimp only
    rw [accepted]
    dsimp only
    rw [if_neg (not_not.mpr personal), if_pos length, parsed]
  refine ⟨?_, ?_, ?_, allocated_handleUdpMsg represents.allocated⟩
  · rw [given]
    exact congrArg (handleRequest · id request.toClientRequest) represents.chatRoom
  · rw [given]
    exact represents.prev
  · rw [given]
    exact (packetsAt_update represents.allocated contents after).trans represents.sorpPool

end Speech

end Represents

/-! ### A whole run -/

theorem accounted_of_owned (owned : s.known.Perm (List.range s.allocated)) : Accounted s := by
  refine ⟨owned, ?_⟩
  have once : s.known.Nodup := owned.nodup_iff.mpr List.nodup_range
  have apart := List.disjoint_of_nodup_append once
  have live : s.live.Perm s.referenced := by
    refine (owned.filter _).symm.trans ?_
    have kept : s.referenced.filter (fun a => decide (a ∉ s.freed)) = s.referenced :=
      List.filter_eq_self.mpr fun a member => decide_eq_true (apart member)
    have gone : s.freed.filter (fun a => decide (a ∉ s.freed)) = [] :=
      List.filter_eq_nil_iff.mpr fun a member => by simpa using member
    rw [Buffers.known, List.filter_append, kept, gone, List.append_nil]
  exact live.length_eq

/-- Where everything was accounted for before a call, it is after the call just where the datagram was expected. -/
theorem accounted_step (before : Accounted s) : Accounted (s.handleUdpMsg aes receipt) ↔ Expected s receipt := by
  have owned : s.known.Perm (List.range s.allocated) := before.owned
  rcases @handleUdpMsg_known aes s receipt with ⟨expected, known⟩ | ⟨lost, known⟩
  · refine iff_of_true (accounted_of_owned ?_) expected
    rw [handleUdpMsg_allocated, List.range_succ]
    exact (known.trans (owned.cons _)).trans (List.perm_append_singleton _ _).symm
  · refine iff_of_false (fun after => ?_) lost
    have fewer := (known.trans owned).length_eq
    have all := after.owned.length_eq
    rw [handleUdpMsg_allocated, List.length_range] at all
    rw [List.length_range] at fewer
    exact absurd (fewer.symm.trans all) (by omega)

theorem run_append (before : List Receipt) (receipt : Receipt) :
    Buffers.run aes (before ++ [receipt]) = (Buffers.run aes before).handleUdpMsg aes receipt := by
  rw [Buffers.run, List.foldl_append]
  rfl

theorem run_allocated (receipts : List Receipt) : (Buffers.run aes receipts).allocated = receipts.length := by
  induction receipts using List.reverseRecOn with
  | nil => rfl
  | append_singleton before receipt ih => rw [run_append, handleUdpMsg_allocated, ih, List.length_append]; rfl

/-- In a run of any datagrams the buffers are accounted for exactly where every accepted header is that of a request or
of a packet with a new time stamp. -/
theorem buffersAccounted_iff (aes : Aes) (receipts : List Receipt) :
    BuffersAccounted aes receipts ↔
      ∀ before receipt after, receipts = before ++ receipt :: after → Expected (.run aes before) receipt := by
  constructor
  · intro all before receipt after split
    have earlier := all.accounted before (receipt :: after) split
    have later := all.accounted (before ++ [receipt]) after (by rw [split, List.append_assoc]; rfl)
    rw [run_append] at later
    exact (accounted_step earlier).mp later
  · intro expected
    have accounted : ∀ before after, receipts = before ++ after → Accounted (.run aes before) := by
      intro before
      induction before using List.reverseRecOn with
      | nil => exact fun _ _ => accounted_of_owned (List.Perm.refl _)
      | append_singleton before receipt ih =>
        intro after split
        rw [List.append_assoc] at split
        rw [run_append]
        exact (accounted_step (ih _ split)).mpr (expected before receipt after split)
    refine ⟨accounted, fun before receipt after split flushes => ?_⟩
    have owned := (accounted (before ++ [receipt]) after (by rw [split, List.append_assoc]; rfl)).owned
    rw [run_allocated, List.length_append, run_append, referenced_flushed flushes] at owned
    rw [run_append]
    exact owned

/-- A datagram of payload type 1. -/
def otherPacket : List UInt8 := List.replicate 12 0 ++ [0x80, 1] ++ List.replicate 10 0

theorem buffersAccounted_refuted :
    ¬ BuffersAccounted joinAes [.datagram (CString.ascii "127.0.0.1:5004") otherPacket (fun _ => 0) 0 []] := by
  intro all
  have earlier := all.accounted [] _ rfl
  have later : Accounted ((Buffers.run joinAes []).handleUdpMsg joinAes
      (.datagram (CString.ascii "127.0.0.1:5004") otherPacket (fun _ => 0) 0 [])) := all.accounted [_] [] rfl
  obtain ⟨known, _⟩ := (accounted_step earlier).mp later _ rfl
  exact absurd known (by decide)

end LiveStreaming.SpeechTransfer
