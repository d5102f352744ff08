import LiveStreaming.SpeechTransfer.Transfer

/-!
# The rounds of a flush

`do_mix_and_broadcast_S` with an account of each round: the packets that are taken out of the pool, those that go into
the round's output, and what is handed to `broadcast_speech_message`. The loop ends when its counter is the greatest
number of packets of a speaker.
-/

namespace LiveStreaming.SpeechTransfer
open Library CString

/-- A packet of the pool with its speaker. -/
abbrev Pooled := List UInt8 × List UInt8

/-- `sent` is the speaker who is left out and the datagram, where there is an output. -/
structure Round where
  taken : List Pooled
  used : List Pooled
  sent : Option (List UInt8 × List UInt8)

/-- The loop over the speakers: the first packet of each who has one. -/
def takenOf {α : Type*} (speakers : List (ID × List α)) : List (ID × α) :=
  speakers.filterMap fun s => s.2.head?.map fun packet => (s.1, packet)

/-- Who is left out where nobody has just one packet left. -/
def nobody : List UInt8 := ascii "127.0.0.1:12345"

variable {δ ε : Type*}

/-- The packets of which samples come, where one after the other is decoded. -/
def decodedOf (opus : Opus δ ε) : δ → List Pooled → List Pooled
  | _, [] => []
  | decoder, packet :: packets =>
    match decodeOpusStream opus decoder (opusData packet.2) minFrameSamp with
    | (decoder, _, true) => packet :: decodedOf opus decoder packets
    | (decoder, _, false) => decodedOf opus decoder packets

structure Flushing (δ ε : Type*) where
  speakers : List Speaker
  decoder : δ
  encoder : ε
  rounds : List Round

/-- One turn of `while( true )`. -/
def flushRound (opus : Opus δ ε) (stack : Stack) (time : UInt32) (f : Flushing δ ε) : Flushing δ ε :=
  let rest := f.speakers.map fun s => (s.1, s.2.tail)
  match takenOf f.speakers with
  | [] => { f with speakers := rest }
  | [packet] =>
    { f with
      speakers := rest
      rounds := f.rounds ++ [⟨[packet], [packet], some (lastSpeaker f.speakers, packet.2)⟩] }
  | first :: second :: packets =>
    let mixed := mixPackets opus ⟨f.decoder, f.encoder, []⟩ stack time first.2 second.2 (packets.map Prod.snd)
    { speakers := rest
      decoder := mixed.decoder
      encoder := mixed.encoder
      rounds := f.rounds ++
        [⟨first :: second :: packets, decodedOf opus f.decoder (first :: second :: packets), mixed.broadcasts.head?⟩] }

/-- The loop, with a bound on the turns. `COUNT` is a `size_type`, and so many turns have been made before. -/
def flushLoop (opus : Opus δ ε) (stack : Nat → Stack) (time : UInt32) (maxBufferSize : Nat) :
    Nat → Nat → Flushing δ ε → Option (Flushing δ ε)
  | 0, _, _ => none
  | fuel + 1, count, f =>
    let f := flushRound opus (stack count) time f
    if (count + 1) % 18446744073709551616 = maxBufferSize then some f
    else flushLoop opus stack time maxBufferSize fuel (count + 1) f

/-- The rounds of `do_mix_and_broadcast_S`, where so many turns of its loop are enough. -/
def flushRounds (opus : Opus δ ε) (stack : Nat → Stack) (time : UInt32) (fuel : Nat) (speakers : List Speaker)
    (decoder : δ) (encoder : ε) : Option (List Round) :=
  match speakers with
  | [] => some []
  | [(id, packets)] => some (packets.map fun packet => ⟨[(id, packet)], [(id, packet)], some (id, packet)⟩)
  | speakers =>
    (flushLoop opus stack time (maxBufferSize speakers) fuel 0 ⟨speakers, decoder, encoder, []⟩).map Flushing.rounds

/-- Every packet of the pool. -/
def pooledOf {α : Type*} (speakers : List (ID × List α)) : List (ID × α) :=
  speakers.flatMap fun s => s.2.map fun packet => (s.1, packet)

/-- Every packet goes into the output of one round, and nobody is sent a round of just an own packet. -/
structure FlushedWell (clients : List ID) (speakers : List Speaker) (rounds : List Round) : Prop where
  conserved : ((rounds.filter fun r => r.sent.isSome).flatMap Round.used).Perm (pooledOf speakers)
  noEcho : ∀ r ∈ rounds, ∀ excluded data, r.sent = some (excluded, data) → ∀ client packet,
    r.used = [(client, packet)] → (client, data) ∉ broadcastSpeechMessage clients data excluded

/-- Before a turn: where packets are mixed, the library decodes each of them and encodes the mixture. -/
def MixesAll (opus : Opus δ ε) (stack : Stack) (time : UInt32) (f : Flushing δ ε) : Prop :=
  ∀ first second packets, takenOf f.speakers = first :: second :: packets →
    decodedOf opus f.decoder (first :: second :: packets) = first :: second :: packets ∧
      (mixPackets opus ⟨f.decoder, f.encoder, []⟩ stack time first.2 second.2 (packets.map Prod.snd)).broadcasts ≠ []

/-- A client with at least two packets more than each of the other speakers. -/
def Loner (clients : List ID) (speakers : List Speaker) (s : Speaker) : Prop :=
  ∃ before behind, speakers = before ++ s :: behind ∧ before ++ behind ≠ [] ∧
    (∀ t ∈ before ++ behind, t.2.length + 2 ≤ s.2.length) ∧ s.1 ∈ clients ∧ s.1 ≠ nobody

/-! ### What a turn takes -/

theorem takenOf_perm {α : Type*} (speakers : List (ID × List α)) :
    (takenOf speakers ++ pooledOf (speakers.map fun s => (s.1, s.2.tail))).Perm (pooledOf speakers) := by
  induction speakers with
  | nil => exact List.Perm.refl _
  | cons s speakers ih =>
    obtain ⟨id, packets⟩ := s
    cases packets with
    | nil => exact ih
    | cons packet packets =>
      have front : takenOf ((id, packet :: packets) :: speakers) = (id, packet) :: takenOf speakers := rfl
      have all : pooledOf ((id, packet :: packets) :: speakers) =
          (id, packet) :: (packets.map (fun p => (id, p)) ++ pooledOf speakers) := rfl
      have rest : pooledOf (((id, packet :: packets) :: speakers).map fun s => (s.1, s.2.tail)) =
          packets.map (fun p => (id, p)) ++ pooledOf (speakers.map fun s => (s.1, s.2.tail)) := rfl
      rw [front, all, rest, List.cons_append]
      exact ((List.perm_append_comm_assoc _ _ _).trans (ih.append_left _)).cons _

/-- The account of one turn. -/
def roundOf (opus : Opus δ ε) (stack : Stack) (time : UInt32) (f : Flushing δ ε) : List Round :=
  match takenOf f.speakers with
  | [] => []
  | [packet] => [⟨[packet], [packet], some (lastSpeaker f.speakers, packet.2)⟩]
  | first :: second :: packets =>
    [⟨first :: second :: packets, decodedOf opus f.decoder (first :: second :: packets),
      (mixPackets opus ⟨f.decoder, f.encoder, []⟩ stack time first.2 second.2 (packets.map Prod.snd)).broadcasts.head?⟩]

variable {opus : Opus δ ε} {time : UInt32} {stack : Stack} {f : Flushing δ ε}

theorem flushRound_speakers : (flushRound opus stack time f).speakers = f.speakers.map fun s => (s.1, s.2.tail) := by
  unfold flushRound
  dsimp only
  split <;> rfl

theorem flushRound_rounds : (flushRound opus stack time f).rounds = f.rounds ++ roundOf opus stack time f := by
  unfold flushRound roundOf
  dsimp only
  split
  · exact (List.append_nil _).symm
  · rfl
  · rfl

theorem roundOf_taken : (roundOf opus stack time f).flatMap Round.taken = takenOf f.speakers := by
  unfold roundOf
  split
  · next none => exact none.symm
  · next packet one => exact one.symm
  · next first second packets more => rw [more, List.flatMap_singleton]

theorem decodedOf_sublist (opus : Opus δ ε) (decoder : δ) (packets : List Pooled) :
    (decodedOf opus decoder packets).Sublist packets := by
  induction packets generalizing decoder with
  | nil => exact List.Sublist.refl _
  | cons packet packets ih =>
    rw [decodedOf]
    split
    · exact (ih _).cons_cons packet
    · exact (ih _).cons packet

/-- A round that takes what it takes into its output. -/
def Round.Whole (r : Round) : Prop := r.sent.isSome ∧ r.used = r.taken

theorem roundOf_used {r : Round} (member : r ∈ roundOf opus stack time f) : r.used.Sublist r.taken ∧ r.taken ≠ [] := by
  unfold roundOf at member
  split at member
  · cases member
  · rw [List.mem_singleton.mp member]
    exact ⟨List.Sublist.refl _, List.cons_ne_nil _ _⟩
  · rw [List.mem_singleton.mp member]
    exact ⟨decodedOf_sublist opus f.decoder _, List.cons_ne_nil _ _⟩

theorem roundOf_whole : (∀ r ∈ roundOf opus stack time f, r.Whole) ↔ MixesAll opus stack time f := by
  unfold roundOf MixesAll
  split
  · next none =>
    refine ⟨fun _ first second packets more => ?_, fun _ r member => absurd member List.not_mem_nil⟩
    rw [none] at more
    cases more
  · next packet one =>
    refine ⟨fun _ first second packets more => ?_, fun _ r member => ?_⟩
    · rw [one] at more
      cases more
    · rw [List.mem_singleton.mp member]
      exact ⟨rfl, rfl⟩
  · next first second packets taken =>
    have sent (broadcasts : List (List UInt8 × List UInt8)) : broadcasts.head?.isSome ↔ broadcasts ≠ [] := by
      cases broadcasts <;> simp
    constructor
    · intro whole first' second' packets' more
      rw [taken] at more
      obtain ⟨rfl, rest⟩ := List.cons.inj more
      obtain ⟨rfl, rfl⟩ := List.cons.inj rest
      obtain ⟨output, used⟩ := whole _ (List.mem_singleton.mpr rfl)
      exact ⟨used, (sent _).mp output⟩
    · intro mixes r member
      obtain ⟨decodes, encodes⟩ := mixes first second packets taken
      rw [List.mem_singleton.mp member]
      exact ⟨(sent _).mpr encodes, decodes⟩

/-! ### The loop -/

/-- The state after so many turns. -/
def flushAfter (opus : Opus δ ε) (stack : Nat → Stack) (time : UInt32) (f : Flushing δ ε) : Nat → Flushing δ ε
  | 0 => f
  | n + 1 => flushRound opus (stack n) time (flushAfter opus stack time f n)

/-- The turns of the loop: where there is no packet at all, the counter goes round once. -/
def turns (maxBufferSize : Nat) : Nat := if maxBufferSize = 0 then 18446744073709551616 else maxBufferSize

theorem flushLoop_eq {arrays : Nat → Stack} {maxBufferSize count : Nat} (small : maxBufferSize < 18446744073709551616)
    (before : count < turns maxBufferSize) (fuel : Nat) :
    flushLoop opus arrays time maxBufferSize fuel count (flushAfter opus arrays time f count) =
      if turns maxBufferSize ≤ count + fuel then some (flushAfter opus arrays time f (turns maxBufferSize))
      else none := by
  induction fuel generalizing count with
  | zero => rw [flushLoop, if_neg (by omega)]
  | succ fuel ih =>
    have last : (count + 1) % 18446744073709551616 = maxBufferSize ↔ count + 1 = turns maxBufferSize := by
      unfold turns at before ⊢
      split at before
      · rw [if_pos ‹_›]
        omega
      · rw [if_neg ‹_›]
        omega
    rw [flushLoop]
    by_cases done : count + 1 = turns maxBufferSize
    · rw [if_pos (last.mpr done), if_pos (by omega), ← done]
      rfl
    · rw [if_neg fun ended => done (last.mp ended)]
      have turn : flushLoop opus arrays time maxBufferSize fuel (count + 1)
          (flushRound opus (arrays count) time (flushAfter opus arrays time f count)) = _ :=
        ih (by omega)
      rw [turn, Nat.add_assoc, Nat.add_comm 1 fuel]

theorem foldl_max {α : Type*} (speakers : List (ID × List α)) (n : Nat) :
    n ≤ speakers.foldl (fun n s => max n s.2.length) n ∧
      ∀ s ∈ speakers, s.2.length ≤ speakers.foldl (fun n s => max n s.2.length) n := by
  induction speakers generalizing n with
  | nil => exact ⟨le_refl n, fun s member => absurd member List.not_mem_nil⟩
  | cons t speakers ih =>
    obtain ⟨least, all⟩ := ih (max n t.2.length)
    rw [List.foldl_cons]
    refine ⟨(le_max_left _ _).trans least, fun s member => ?_⟩
    rcases List.mem_cons.mp member with rfl | member
    · exact (le_max_right _ _).trans least
    · exact all s member

theorem length_le_turns {speakers : List Speaker} {s : Speaker} (member : s ∈ speakers) :
    s.2.length ≤ turns (maxBufferSize speakers) := by
  have most : s.2.length ≤ maxBufferSize speakers := (foldl_max speakers 0).2 s member
  unfold turns
  split <;> omega

theorem maxBufferSize_lt {speakers : List Speaker} {n : Nat} (positive : 0 < n)
    (fits : ∀ s ∈ speakers, s.2.length < n) : maxBufferSize speakers < n := by
  have bounded (m : Nat) (below : m < n) : speakers.foldl (fun n s => max n s.2.length) m < n := by
    induction speakers generalizing m with
    | nil => exact below
    | cons t speakers ih =>
      rw [List.forall_mem_cons] at fits
      exact ih fits.2 _ (max_lt below fits.1)
  exact bounded 0 positive

variable {arrays : Nat → Stack}

theorem flushAfter_speakers (n : Nat) :
    (flushAfter opus arrays time f n).speakers = f.speakers.map fun s => (s.1, s.2.drop n) := by
  induction n with
  | zero => simp [flushAfter]
  | succ n ih =>
    rw [flushAfter, flushRound_speakers, ih, List.map_map]
    apply List.map_congr_left
    intro s _
    simp [List.tail_drop]

theorem flushAfter_dry {n : Nat} (enough : ∀ s ∈ f.speakers, s.2.length ≤ n) :
    ∀ s ∈ (flushAfter opus arrays time f n).speakers, s.2 = [] := by
  rw [flushAfter_speakers]
  intro s member
  obtain ⟨t, inside, rfl⟩ := List.mem_map.mp member
  exact List.drop_of_length_le (enough t inside)

/-- Every turn takes out of the pool what it gives an account of. -/
theorem flushAfter_taken (n : Nat) :
    ((flushAfter opus arrays time f n).rounds.flatMap Round.taken ++
      pooledOf (flushAfter opus arrays time f n).speakers).Perm
      (f.rounds.flatMap Round.taken ++ pooledOf f.speakers) := by
  induction n with
  | zero => exact List.Perm.refl _
  | succ n ih =>
    rw [flushAfter, flushRound_rounds, flushRound_speakers, List.flatMap_append, roundOf_taken, List.append_assoc]
    exact ((takenOf_perm _).append_left _).trans ih

theorem flushAfter_rounds (none : f.rounds = []) {n : Nat} {r : Round} :
    r ∈ (flushAfter opus arrays time f n).rounds ↔
      ∃ k < n, r ∈ roundOf opus (arrays k) time (flushAfter opus arrays time f k) := by
  induction n with
  | zero => simp [flushAfter, none]
  | succ n ih =>
    rw [flushAfter, flushRound_rounds, List.mem_append, ih]
    constructor
    · rintro (⟨k, before, member⟩ | member)
      · exact ⟨k, by omega, member⟩
      · exact ⟨n, Nat.lt_succ_self n, member⟩
    · rintro ⟨k, before, member⟩
      rcases Nat.lt_succ_iff_lt_or_eq.mp before with earlier | rfl
      · exact .inl ⟨k, earlier, member⟩
      · exact .inr member

theorem takenOf_ended {α : Type*} {speakers : List (ID × List α)} (ended : ∀ s ∈ speakers, s.2 = []) :
    takenOf speakers = [] := by
  rw [takenOf, List.filterMap_eq_nil_iff]
  intro s member
  rw [ended s member]
  rfl

theorem pooledOf_ended {α : Type*} {speakers : List (ID × List α)} (ended : ∀ s ∈ speakers, s.2 = []) :
    pooledOf speakers = [] := by
  rw [pooledOf, List.flatMap_eq_nil_iff]
  intro s member
  rw [ended s member]
  rfl

/-! ### What the rounds send -/

/-- What has been handed to `broadcast_speech_message` in the rounds so far. -/
def flushedOf (f : Flushing δ ε) : Flushed δ ε := ⟨f.decoder, f.encoder, f.rounds.filterMap Round.sent⟩

theorem takenOf_packets (speakers : List Speaker) :
    speakers.filterMap (·.2.head?) = (takenOf speakers).map Prod.snd := by
  rw [takenOf, List.map_filterMap]
  apply List.filterMap_congr
  intro s _
  rw [Option.map_map]
  exact Option.map_id'.symm

theorem mixPackets_broadcasts (opus : Opus δ ε) (flushed : Flushed δ ε) (stack : Stack) (time : UInt32)
    (first second : List UInt8) (packets : List (List UInt8)) :
    mixPackets opus flushed stack time first second packets =
      let mixed := mixPackets opus ⟨flushed.decoder, flushed.encoder, []⟩ stack time first second packets
      ⟨mixed.decoder, mixed.encoder, flushed.broadcasts ++ mixed.broadcasts.head?.toList⟩ := by
  unfold mixPackets
  dsimp only
  split
  · rw [List.head?_nil, Option.toList_none, List.append_nil]
  · rfl

theorem mixRounds_step (opus : Opus δ ε) (arrays : Nat → Stack) (time : UInt32) (n : Nat) (f : Flushing δ ε) :
    mixRounds opus arrays time (n + 1) f.speakers (flushedOf f) =
      mixRounds opus arrays time n (flushRound opus (arrays n) time f).speakers
        (flushedOf (flushRound opus (arrays n) time f)) := by
  rw [mixRounds, takenOf_packets]
  unfold flushRound
  dsimp only
  rcases takenOf f.speakers with _ | ⟨first, _ | ⟨second, packets⟩⟩
  · rfl
  · simp [flushedOf]
  · rw [List.map_cons, List.map_cons]
    dsimp only
    rw [mixPackets_broadcasts]
    unfold flushedOf
    dsimp only
    have sent (r : Round) : [r].filterMap Round.sent = r.sent.toList := by
      rw [List.filterMap_cons]
      cases r.sent <;> rfl
    rw [List.filterMap_append, sent]

/-- The model of the rooms counts the rounds that are left, and so takes the arrays from the last round on. -/
theorem mixRounds_flushAfter {n all : Nat} (within : n ≤ all) :
    mixRounds opus (fun left => arrays (all - 1 - left)) time n (flushAfter opus arrays time f (all - n)).speakers
      (flushedOf (flushAfter opus arrays time f (all - n))) = flushedOf (flushAfter opus arrays time f all) := by
  induction n with
  | zero => rfl
  | succ n ih =>
    have turn : flushRound opus (arrays (all - 1 - n)) time (flushAfter opus arrays time f (all - (n + 1))) =
        flushAfter opus arrays time f (all - n) := by
      have next : all - n = all - 1 - n + 1 := by omega
      have here : all - (n + 1) = all - 1 - n := by omega
      rw [next, here, flushAfter]
    rw [mixRounds_step, turn]
    exact ih (by omega)

theorem flushRounds_several {speakers : List Speaker} (several : 2 ≤ speakers.length)
    (fits : ∀ s ∈ speakers, s.2.length < 18446744073709551616) (fuel : Nat) (decoder : δ) (encoder : ε) :
    flushRounds opus arrays time fuel speakers decoder encoder =
      if turns (maxBufferSize speakers) ≤ fuel then
        some (flushAfter opus arrays time ⟨speakers, decoder, encoder, []⟩ (turns (maxBufferSize speakers))).rounds
      else none := by
  have positive : 0 < turns (maxBufferSize speakers) := by
    unfold turns
    split <;> omega
  have loop := @flushLoop_eq _ _ opus time ⟨speakers, decoder, encoder, []⟩ arrays _ 0
    (maxBufferSize_lt (by decide) fits) positive fuel
  rw [flushAfter, Nat.zero_add] at loop
  rcases speakers with _ | ⟨first, _ | ⟨second, more⟩⟩
  · exact absurd several (by decide)
  · exact absurd several (by simp)
  · have several : flushRounds opus arrays time fuel (first :: second :: more) decoder encoder =
        (flushLoop opus arrays time (maxBufferSize (first :: second :: more)) fuel 0
          ⟨first :: second :: more, decoder, encoder, []⟩).map Flushing.rounds := rfl
    rw [several, loop]
    split <;> rfl

theorem flushAfter_ended {f : Flushing δ ε} (ended : ∀ s ∈ f.speakers, s.2 = []) (n : Nat) :
    (flushAfter opus arrays time f n).rounds = f.rounds := by
  induction n with
  | zero => rfl
  | succ n ih =>
    have none := takenOf_ended (@flushAfter_dry _ _ opus time f arrays n fun s member => by simp [ended s member])
    rw [flushAfter, flushRound_rounds, roundOf, none, List.append_nil, ih]

/-- The rounds send what the flush sends. -/
theorem flushRounds_sent {speakers : List Speaker} (fits : ∀ s ∈ speakers, s.2.length < 18446744073709551616)
    {fuel : Nat} {decoder : δ} {encoder : ε} {rounds : List Round}
    (done : flushRounds opus arrays time fuel speakers decoder encoder = some rounds) :
    rounds.filterMap Round.sent =
      (doMixAndBroadcastS opus (fun left => arrays (maxBufferSize speakers - 1 - left)) time speakers decoder
        encoder).broadcasts := by
  rcases speakers with _ | ⟨⟨id, packets⟩, _ | ⟨second, more⟩⟩
  · obtain rfl := Option.some.inj done
    rfl
  · obtain rfl := Option.some.inj done
    rw [List.filterMap_map]
    exact congrFun List.filterMap_eq_map packets
  · rw [flushRounds_several (by simp) fits] at done
    generalize full : (id, packets) :: second :: more = speakers at done fits ⊢
    have mixing : doMixAndBroadcastS opus (fun left => arrays (maxBufferSize speakers - 1 - left)) time speakers decoder
        encoder = mixRounds opus (fun left => arrays (maxBufferSize speakers - 1 - left)) time (maxBufferSize speakers)
          speakers ⟨decoder, encoder, []⟩ := by
      rw [← full]
      rfl
    have mixed := @mixRounds_flushAfter _ _ opus time ⟨speakers, decoder, encoder, []⟩ arrays _ _
      (le_refl (maxBufferSize speakers))
    rw [Nat.sub_self, flushAfter] at mixed
    have last : (flushAfter opus arrays time ⟨speakers, decoder, encoder, []⟩ (turns (maxBufferSize speakers))).rounds =
        (flushAfter opus arrays time ⟨speakers, decoder, encoder, []⟩ (maxBufferSize speakers)).rounds := by
      unfold turns
      split
      · next none =>
        have ended : ∀ s ∈ speakers, s.2 = [] := by
          intro s member
          have most : s.2.length ≤ maxBufferSize speakers := (foldl_max speakers 0).2 s member
          exact List.length_eq_zero_iff.mp (by omega)
        rw [flushAfter_ended ended, flushAfter_ended ended]
      · rfl
    split at done
    · rw [mixing, ← Option.some.inj done, last]
      exact (congrArg Flushed.broadcasts mixed).symm
    · cases done

/-! ### Where every packet goes into an output -/

theorem whole_of_length {rounds : List Round} (used : ∀ r ∈ rounds, r.used.Sublist r.taken ∧ r.taken ≠ []) :
    ((rounds.filter fun r => r.sent.isSome).flatMap Round.used).length ≤ (rounds.flatMap Round.taken).length ∧
      (((rounds.filter fun r => r.sent.isSome).flatMap Round.used).length = (rounds.flatMap Round.taken).length →
        ∀ r ∈ rounds, r.Whole) := by
  induction rounds with
  | nil => exact ⟨le_refl _, fun _ r member => absurd member List.not_mem_nil⟩
  | cons r rounds ih =>
    rw [List.forall_mem_cons] at used
    obtain ⟨⟨sublist, filled⟩, used⟩ := used
    obtain ⟨most, whole⟩ := ih used
    have part := sublist.length_le
    have positive := List.length_pos_of_ne_nil filled
    rw [List.flatMap_cons, List.length_append, List.filter_cons]
    split
    · next sent =>
      rw [List.flatMap_cons, List.length_append]
      refine ⟨by omega, fun same => ?_⟩
      rw [List.forall_mem_cons]
      exact ⟨⟨sent, sublist.eq_of_length (by omega)⟩, whole (by omega)⟩
    · exact ⟨by omega, fun same => absurd same (by omega)⟩

theorem conserved_iff {rounds : List Round} {packets : List Pooled}
    (used : ∀ r ∈ rounds, r.used.Sublist r.taken ∧ r.taken ≠ []) (taken : (rounds.flatMap Round.taken).Perm packets) :
    ((rounds.filter fun r => r.sent.isSome).flatMap Round.used).Perm packets ↔ ∀ r ∈ rounds, r.Whole := by
  constructor
  · intro conserved
    exact (whole_of_length used).2 (conserved.length_eq.trans taken.length_eq.symm)
  · intro whole
    have all : rounds.filter (fun r => r.sent.isSome) = rounds :=
      List.filter_eq_self.mpr fun r member => (whole r member).1
    have same : rounds.flatMap Round.used = rounds.flatMap Round.taken :=
      List.flatMap_congr fun r member => (whole r member).2
    rw [all, same]
    exact taken

/-! ### Who is left out -/

theorem mem_broadcast {clients : List ID} {client excluded : ID} {data : List UInt8} :
    (client, data) ∈ broadcastSpeechMessage clients data excluded ↔ client ∈ clients ∧ client ≠ excluded := by
  unfold broadcastSpeechMessage
  simp

/-- When only one speaker has packets left, the speaker is remembered only with the last of them. -/
theorem takenOf_lone {before behind : List Speaker} {s : Speaker} {k : Nat}
    (others : ∀ t ∈ before ++ behind, t.2.length ≤ k) (left : k < s.2.length) :
    takenOf ((before ++ s :: behind).map fun s => (s.1, s.2.drop k)) = [(s.1, s.2[k])] ∧
      lastSpeaker ((before ++ s :: behind).map fun s => (s.1, s.2.drop k)) =
        if s.2.length = k + 1 then s.1 else nobody := by
  have ended (part : List Speaker) (within : ∀ t ∈ part, t ∈ before ++ behind) :
      ∀ t ∈ part.map (fun s : Speaker => (s.1, s.2.drop k)), t.2 = [] := by
    intro t member
    obtain ⟨u, inside, rfl⟩ := List.mem_map.mp member
    exact List.drop_of_length_le (others u (within u inside))
  have first := ended before fun t member => List.mem_append_left _ member
  have second := ended behind fun t member => List.mem_append_right _ member
  have long (part : List Speaker) (empty : ∀ t ∈ part, t.2 = []) :
      part.filter (fun s => decide (s.2.length = 1)) = [] := by
    rw [List.filter_eq_nil_iff]
    intro t member
    rw [empty t member]
    decide
  rw [List.map_append, List.map_cons]
  constructor
  · have head : (s.2.drop k).head? = some s.2[k] := by
      rw [List.head?_drop, List.getElem?_eq_getElem left]
    have front := takenOf_ended first
    have back := takenOf_ended second
    unfold takenOf at front back ⊢
    rw [List.filterMap_append, front, List.filterMap_cons, head, back]
    rfl
  · rw [lastSpeaker, List.filter_append, long _ first, List.nil_append, List.filter_cons, long _ second]
    dsimp only
    rw [List.length_drop]
    split
    · next one =>
      rw [if_pos (by have := of_decide_eq_true one; omega)]
      rfl
    · next more =>
      rw [if_neg (by have := of_decide_eq_false (eq_false_of_ne_true more); omega)]
      rfl

theorem lone_of_takenOf {speakers : List Speaker} {k : Nat} {client : ID} {packet : List UInt8}
    (one : takenOf (speakers.map fun s => (s.1, s.2.drop k)) = [(client, packet)]) :
    ∃ before s behind, speakers = before ++ s :: behind ∧ s.1 = client ∧ k < s.2.length ∧
      ∀ t ∈ before ++ behind, t.2.length ≤ k := by
  rw [takenOf, List.filterMap_map] at one
  have none (t : Speaker) (ended : (t.2.drop k).head?.map (fun packet => (t.1, packet)) = none) : t.2.length ≤ k := by
    rw [Option.map_eq_none_iff, List.head?_drop, List.getElem?_eq_none_iff] at ended
    exact ended
  obtain ⟨before, s, behind, rfl, first, found, second⟩ := List.filterMap_eq_cons_iff.mp one
  rw [List.filterMap_eq_nil_iff] at second
  obtain ⟨p, head, same⟩ := Option.map_eq_some_iff.mp found
  refine ⟨before, s, behind, rfl, congrArg Prod.fst same, ?_, ?_⟩
  · have head' : s.2[k]? = some p := by
      rw [← List.head?_drop]
      exact head
    exact (List.getElem?_eq_some_iff.mp head').1
  · intro t member
    rcases List.mem_append.mp member with member | member
    · exact none t (first t member)
    · exact none t (second t member)

theorem roundOf_single {f : Flushing δ ε} {stack : Stack} {r : Round} {p : Pooled}
    (member : r ∈ roundOf opus stack time f) (whole : r.Whole) (one : r.used = [p]) :
    takenOf f.speakers = [p] ∧ r.sent = some (lastSpeaker f.speakers, p.2) := by
  unfold roundOf at member
  split at member
  · cases member
  · next packet taken =>
    rw [List.mem_singleton.mp member] at one ⊢
    obtain rfl := (List.cons.inj one).1
    exact ⟨taken, rfl⟩
  · rw [whole.2, List.mem_singleton.mp member] at one
    exact absurd (congrArg List.length one) (by simp)

/-! ### A whole flush -/

theorem mixesAll_of_taken {f : Flushing δ ε} {stack : Stack} (few : (takenOf f.speakers).length ≤ 1) :
    MixesAll opus stack time f := by
  intro first second packets taken
  rw [taken] at few
  simp only [List.length_cons] at few
  omega

theorem flushAfter_whole (fresh : f.rounds = []) {n : Nat} (enough : ∀ s ∈ f.speakers, s.2.length ≤ n) :
    (∀ r ∈ (flushAfter opus arrays time f n).rounds, r.Whole) ↔
      ∀ k, MixesAll opus (arrays k) time (flushAfter opus arrays time f k) := by
  constructor
  · intro whole k
    by_cases before : k < n
    · apply roundOf_whole.mp
      intro r member
      exact whole r ((flushAfter_rounds fresh).mpr ⟨k, before, member⟩)
    · apply mixesAll_of_taken
      rw [takenOf_ended (flushAfter_dry fun s member => (enough s member).trans (by omega))]
      exact Nat.zero_le 1
  · intro mixes r member
    obtain ⟨k, _, member⟩ := (flushAfter_rounds fresh).mp member
    exact roundOf_whole.mpr (mixes k) r member

theorem flushAfter_perm (fresh : f.rounds = []) {n : Nat} (enough : ∀ s ∈ f.speakers, s.2.length ≤ n) :
    ((flushAfter opus arrays time f n).rounds.flatMap Round.taken).Perm (pooledOf f.speakers) := by
  have taken := @flushAfter_taken _ _ opus time f arrays n
  rw [pooledOf_ended (flushAfter_dry enough), List.append_nil, fresh] at taken
  exact taken

/-- With all packets in an output, the rounds send nobody an own packet where no speaker is a loner. -/
theorem flushedWell_iff {clients : List ID} (fresh : f.rounds = []) (several : 2 ≤ f.speakers.length) {n : Nat}
    (enough : ∀ s ∈ f.speakers, s.2.length ≤ n) :
    FlushedWell clients f.speakers (flushAfter opus arrays time f n).rounds ↔
      (∀ k, MixesAll opus (arrays k) time (flushAfter opus arrays time f k)) ∧
        ∀ s, ¬ Loner clients f.speakers s := by
  have used : ∀ r ∈ (flushAfter opus arrays time f n).rounds, r.used.Sublist r.taken ∧ r.taken ≠ [] := by
    intro r member
    obtain ⟨k, _, member⟩ := (flushAfter_rounds fresh).mp member
    exact roundOf_used member
  have conserved := conserved_iff used (flushAfter_perm fresh enough)
  rw [flushAfter_whole fresh enough] at conserved
  constructor
  · intro well
    refine ⟨conserved.mp well.conserved, ?_⟩
    rintro s ⟨before, behind, split, others, fewer, inside, other⟩
    -- two packets before the end the speaker is alone and not remembered
    obtain ⟨t, member⟩ := List.exists_mem_of_ne_nil _ others
    have two := fewer t member
    obtain ⟨one, excluded⟩ := @takenOf_lone before behind s (s.2.length - 2)
      (fun t member => by have := fewer t member; omega) (by omega)
    rw [if_neg (by omega)] at excluded
    have within := enough s (by rw [split]; simp)
    have round : (⟨[(s.1, s.2[s.2.length - 2])], [(s.1, s.2[s.2.length - 2])],
        some (nobody, s.2[s.2.length - 2])⟩ : Round) ∈ (flushAfter opus arrays time f n).rounds := by
      apply (flushAfter_rounds fresh).mpr
      refine ⟨s.2.length - 2, by omega, ?_⟩
      rw [roundOf, flushAfter_speakers, split, one, excluded]
      exact List.mem_singleton.mpr rfl
    exact well.noEcho _ round _ _ rfl _ _ rfl (mem_broadcast.mpr ⟨inside, other⟩)
  · rintro ⟨mixes, alone⟩
    refine ⟨conserved.mpr mixes, fun r member excluded data sent client packet one echoed => ?_⟩
    have whole := (flushAfter_whole fresh enough).mpr mixes r member
    obtain ⟨k, _, member⟩ := (flushAfter_rounds fresh).mp member
    obtain ⟨taken, sent'⟩ := roundOf_single member whole one
    obtain ⟨inside, other⟩ := mem_broadcast.mp echoed
    rw [flushAfter_speakers] at taken sent'
    obtain ⟨before, s, behind, split, rfl, left, others⟩ := lone_of_takenOf taken
    rw [sent] at sent'
    have last := (Prod.mk.inj (Option.some.inj sent')).1
    rw [split, (takenOf_lone others left).2] at last
    by_cases one : s.2.length = k + 1
    · rw [if_pos one] at last
      exact other last.symm
    · rw [if_neg one] at last
      rw [last] at other
      refine alone s ⟨before, behind, split, ?_, fun t member => ?_, inside, other⟩
      · intro empty
        obtain ⟨none, none'⟩ := List.append_eq_nil_iff.mp empty
        rw [split, none, none'] at several
        exact absurd several (by simp)
      · have := others t member
        omega

/-- A flush ends, with every packet in an output and nobody sent an own packet alone, exactly where the library
decodes and encodes what it is given and no client has two packets more than everyone else. -/
theorem flush_iff (opus : Opus δ ε) (arrays : Nat → Stack) (time : UInt32) (clients : List ID) {speakers : List Speaker}
    (fits : ∀ s ∈ speakers, s.2.length < 18446744073709551616) (decoder : δ) (encoder : ε) :
    (∃ fuel rounds, flushRounds opus arrays time fuel speakers decoder encoder = some rounds ∧
      FlushedWell clients speakers rounds) ↔
      (∀ k, MixesAll opus (arrays k) time (flushAfter opus arrays time ⟨speakers, decoder, encoder, []⟩ k)) ∧
        ∀ s, ¬ Loner clients speakers s := by
  have few (short : speakers.length ≤ 1) (k : Nat) :
      MixesAll opus (arrays k) time (flushAfter opus arrays time ⟨speakers, decoder, encoder, []⟩ k) := by
    apply mixesAll_of_taken
    rw [flushAfter_speakers]
    exact (List.length_filterMap_le _ _).trans (by simpa using short)
  rcases speakers with _ | ⟨⟨id, packets⟩, _ | ⟨second, more⟩⟩
  · refine iff_of_true ⟨0, [], rfl, ⟨List.Perm.refl _, fun r member => absurd member List.not_mem_nil⟩⟩
      ⟨few (by simp), ?_⟩
    rintro s ⟨before, behind, split, _⟩
    exact absurd split (by simp)
  · refine iff_of_true ⟨0, _, rfl, ?_, ?_⟩ ⟨few (by simp), ?_⟩
    · rw [List.filter_eq_self.mpr (by simp), List.flatMap_map, pooledOf, List.flatMap_singleton, List.map_eq_flatMap]
    · intro r member excluded data sent client packet one
      obtain ⟨p, _, rfl⟩ := List.mem_map.mp member
      obtain ⟨rfl, rfl⟩ := Prod.mk.inj (Option.some.inj sent)
      obtain ⟨rfl, _⟩ := Prod.mk.inj (List.cons.inj one).1
      rw [mem_broadcast]
      exact fun echoed => echoed.2 rfl
    · rintro s ⟨before, behind, split, others, _⟩
      have length := congrArg List.length split
      have positive := List.length_pos_of_ne_nil others
      simp only [List.length_append, List.length_cons, List.length_nil] at length positive
      omega
  · have several : 2 ≤ ((id, packets) :: second :: more).length := by simp
    generalize (id, packets) :: second :: more = speakers at several few fits
    rw [← @flushedWell_iff _ _ opus time ⟨speakers, decoder, encoder, []⟩ arrays clients rfl several
      (turns (maxBufferSize speakers)) fun s member => length_le_turns member]
    constructor
    · rintro ⟨fuel, rounds, done, well⟩
      rw [flushRounds_several several fits] at done
      split at done
      · obtain rfl := Option.some.inj done
        exact well
      · cases done
    · intro well
      refine ⟨turns (maxBufferSize speakers), _, ?_, well⟩
      rw [flushRounds_several several fits, if_pos (le_refl _)]

/-- A library to which every packet of 40 bytes is a frame of silence. -/
def silentOpus : Opus Unit Unit where
  packetGetNbChannels := fun _ => 1
  packetGetNbSamples := fun _ => some 320
  decode := fun _ _ _ => ((), some (List.replicate 640 0))
  encode := fun _ _ => ((), some (List.replicate 40 0))
  constantBitRate := fun _ _ _ encoded => by rw [← Option.some.inj encoded, List.length_replicate]

def silentPacket : List UInt8 := List.replicate 52 0

def silentStack (_ : Nat) : Stack := ⟨fun _ => 0, fun _ => 0⟩

theorem silentOpus_decodes (decoder : Unit) :
    (decodeOpusStream silentOpus decoder (opusData silentPacket) minFrameSamp).2.2 = true := by
  simp [-List.reduceReplicate, decodeOpusStream, decodeFrames, silentOpus, opusData, silentPacket, minFrameSamp,
    complexity, rtpHeaderLeastSize]

theorem silentOpus_decodedOf (decoder : Unit) (id : ID) (packets : List Pooled) :
    decodedOf silentOpus decoder ((id, silentPacket) :: packets) =
      (id, silentPacket) :: decodedOf silentOpus () packets := by
  have decodes := silentOpus_decodes decoder
  rw [decodedOf]
  generalize decodeOpusStream silentOpus decoder (opusData (id, silentPacket).2) minFrameSamp = result at decodes ⊢
  obtain ⟨decoder, written, decoded⟩ := result
  obtain rfl : decoded = true := decodes
  rfl

theorem silentOpus_encodes (stack : Stack) (time : UInt32) (first second : List UInt8) (packets : List (List UInt8)) :
    (mixPackets silentOpus ⟨(), (), []⟩ stack time first second packets).broadcasts ≠ [] := by
  unfold mixPackets
  dsimp only
  split
  · next failed => cases failed
  · exact List.cons_ne_nil _ _

/-- Two speakers who are both members of the room, with one packet each. -/
theorem flush_iff_sample : ∃ fuel rounds,
    flushRounds silentOpus silentStack 0 fuel [([1], [silentPacket]), ([2], [silentPacket])] () () = some rounds ∧
      FlushedWell [[1], [2]] [([1], [silentPacket]), ([2], [silentPacket])] rounds := by
  apply (flush_iff silentOpus silentStack 0 [[1], [2]] (by decide) () ()).mpr
  constructor
  · intro k
    cases k with
    | zero =>
      intro first second packets taken
      have two : takenOf [([1], [silentPacket]), ([2], [silentPacket])] =
          [([1], silentPacket), ([2], silentPacket)] := rfl
      obtain ⟨rfl, rest⟩ := List.cons.inj (two.symm.trans taken)
      obtain ⟨rfl, rfl⟩ := List.cons.inj rest
      exact ⟨by rw [silentOpus_decodedOf, silentOpus_decodedOf, decodedOf], silentOpus_encodes _ _ _ _ _⟩
    | succ k =>
      apply mixesAll_of_taken
      rw [takenOf_ended (flushAfter_dry (by simp))]
      exact Nat.zero_le 1
  · rintro s ⟨before, behind, split, others, fewer, _⟩
    obtain ⟨t, member⟩ := List.exists_mem_of_ne_nil _ others
    have one : ∀ s ∈ ([([1], [silentPacket]), ([2], [silentPacket])] : List Speaker), s.2.length = 1 := by decide
    have more := one s (by rw [split]; simp)
    have := fewer t member
    omega

/-- The first speaker's last but one packet is sent back. -/
theorem flush_refuted : ¬ ∃ fuel rounds,
    flushRounds silentOpus silentStack 0 fuel [([1], [silentPacket, silentPacket, silentPacket]), ([2], [silentPacket])]
      () () = some rounds ∧
      FlushedWell [[1], [2]] [([1], [silentPacket, silentPacket, silentPacket]), ([2], [silentPacket])] rounds := by
  rintro ⟨fuel, rounds, done, well⟩
  rw [flushRounds_several (by decide) (by decide)] at done
  split at done
  · obtain rfl := Option.some.inj done
    have alone := ((@flushedWell_iff _ _ silentOpus 0
      ⟨[([1], [silentPacket, silentPacket, silentPacket]), ([2], [silentPacket])], (), (), []⟩ silentStack _ rfl
      (by decide) _ fun s member => length_le_turns member).mp well).2
    apply alone ([1], [silentPacket, silentPacket, silentPacket])
    exact ⟨[], [([2], [silentPacket])], rfl, by simp, by simp, by simp, by decide⟩
  · cases done

end LiveStreaming.SpeechTransfer
