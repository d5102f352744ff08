import LiveStreaming.SpeechTransfer.Rooms

/-!
# The room of a client

Speech goes to the first room that has the speaker. A client who joins is looked for in all rooms before; a camera
that creates a room is not.
-/

namespace LiveStreaming.SpeechTransfer
open Library

variable {δ ε : Type*} {opus : Opus δ ε} {decoder : δ} {encoder : ε} {chatRoom : OrderedMap Channel Clients}
  {id : ID} {channel : Channel} {clients : Clients}

def Member (chatRoom : OrderedMap Channel Clients) (id : ID) (channel : Channel) : Prop :=
  ∃ clients, chatRoom.find channel = some clients ∧ (clients.find id).isSome

def OneRoom (chatRoom : OrderedMap Channel Clients) : Prop :=
  ∀ id channel other, Member chatRoom id channel → Member chatRoom id other → channel = other

/-- A room is created by somebody who is in none. -/
def CreatorFree (chatRoom : OrderedMap Channel Clients) (id : ID) (request : ClientRequest) : Prop :=
  request.type = .CAMERA → request.action = .join → chatRoom.find request.channel = none →
    clientAlreadyIn chatRoom id = false

def RoomsFree (s : Transfer δ ε) : Event → Prop
  | .request id request => CreatorFree s.chatRoom id request
  | .speech _ _ _ _ _ _ => True

theorem member_of_find (found : chatRoom.find channel = some clients) :
    Member chatRoom id channel ↔ (clients.find id).isSome := by
  constructor
  · rintro ⟨there, same, member⟩
    obtain rfl := Option.some.inj (same.symm.trans found)
    exact member
  · exact fun member => ⟨clients, found, member⟩

theorem clientAlreadyIn_iff : clientAlreadyIn chatRoom id ↔ ∃ channel, Member chatRoom id channel := by
  unfold clientAlreadyIn roomOf
  rw [List.find?_isSome]
  constructor
  · rintro ⟨⟨channel, clients⟩, room, member⟩
    exact ⟨channel, clients, OrderedMap.mem_entries.mp room, member⟩
  · rintro ⟨channel, clients, found, member⟩
    exact ⟨(channel, clients), OrderedMap.mem_entries.mpr found, member⟩

theorem member_set {other : Channel} : Member (chatRoom.set channel clients) id other ↔
    if other = channel then ((clients.find id).isSome : Prop) else Member chatRoom id other := by
  split
  · next same =>
    exact member_of_find (by rw [OrderedMap.find_set, if_pos same])
  · next different =>
    unfold Member
    rw [OrderedMap.find_set, if_neg different]

theorem member_erase {other : Channel} :
    Member (chatRoom.erase channel) id other ↔ other ≠ channel ∧ Member chatRoom id other := by
  unfold Member
  rw [OrderedMap.find_erase]
  by_cases same : other = channel
  · simp [same]
  · simp [same]

theorem OneRoom.of_subset {after : OrderedMap Channel Clients} (one : OneRoom chatRoom)
    (subset : ∀ id channel, Member after id channel → Member chatRoom id channel) : OneRoom after :=
  fun id channel other here there => one id channel other (subset id channel here) (subset id other there)

/-- One new member in one room is in no other exactly where it was in none before. -/
theorem oneRoom_enters {after : OrderedMap Channel Clients} (one : OneRoom chatRoom)
    (outside : ¬ Member chatRoom id channel)
    (enters : ∀ client room, Member after client room ↔ (client = id ∧ room = channel) ∨ Member chatRoom client room) :
    OneRoom after ↔ clientAlreadyIn chatRoom id = false := by
  rw [Bool.eq_false_iff, ne_eq, clientAlreadyIn_iff]
  constructor
  · rintro only ⟨room, member⟩
    obtain rfl := only id room channel ((enters id room).mpr (.inr member)) ((enters id channel).mpr (.inl ⟨rfl, rfl⟩))
    exact outside member
  · intro free client room other here there
    rcases (enters client room).mp here with ⟨rfl, rfl⟩ | here
    · rcases (enters client other).mp there with ⟨-, rfl⟩ | there
      · rfl
      · exact absurd ⟨other, there⟩ free
    · rcases (enters client other).mp there with ⟨rfl, rfl⟩ | there
      · exact absurd ⟨room, here⟩ free
      · exact one client room other here there

theorem enters_set (client : ID) (room : Channel) (within : ∀ client, (clients.find client).isSome ↔
      client = id ∨ Member chatRoom client channel) :
    Member (chatRoom.set channel clients) client room ↔
      (client = id ∧ room = channel) ∨ Member chatRoom client room := by
  rw [member_set]
  split
  · next same =>
    rw [within, same, and_iff_left rfl]
  · next different =>
    rw [or_iff_right fun both => different both.2]

theorem handleRequest_oneRoom (one : OneRoom chatRoom) (id : ID) (request : ClientRequest) :
    OneRoom (handleRequest chatRoom id request) ↔ CreatorFree chatRoom id request := by
  obtain ⟨type, action, channel⟩ := request
  unfold handleRequest CreatorFree
  cases type with
  | PC =>
    refine iff_of_true ?_ fun camera => nomatch camera
    cases found : chatRoom.find channel with
    | none => exact one
    | some clients =>
      cases action with
      | join =>
        dsimp only
        split
        · exact one
        · next free =>
          have outside : ¬ Member chatRoom id channel := fun member => free (clientAlreadyIn_iff.mpr ⟨channel, member⟩)
          refine (oneRoom_enters one outside fun client room => enters_set client room fun client => ?_).mpr
            (Bool.eq_false_iff.mpr free)
          rw [OrderedMap.find_set, member_of_find found]
          by_cases same : client = id <;> simp [same]
      | leave =>
        dsimp only
        split
        · refine one.of_subset fun client room => ?_
          rw [member_set]
          split
          · next same =>
            rw [OrderedMap.find_erase, same, member_of_find found]
            split
            · exact fun no => nomatch no
            · exact fun member => member
          · exact fun member => member
        · exact one
  | CAMERA =>
    cases found : chatRoom.find channel with
    | some clients =>
      refine iff_of_true ?_ fun _ _ none => nomatch none
      cases action with
      | join => exact one
      | leave => exact one.of_subset fun _ _ member => (member_erase.mp member).2
    | none =>
      cases action with
      | leave => exact iff_of_true one fun _ create => nomatch create
      | join =>
        have outside (client : ID) : ¬ Member chatRoom client channel := by
          rintro ⟨clients, there, -⟩
          cases found.symm.trans there
        rw [oneRoom_enters one (outside id) fun client room => enters_set client room fun client => ?_]
        · exact ⟨fun free _ _ _ => free, fun free => free rfl rfl rfl⟩
        · rw [OrderedMap.find_set, or_iff_left (outside client)]
          by_cases same : client = id <;> simp [same]

theorem OneRoom.roomOf (one : OneRoom chatRoom) (found : chatRoom.find channel = some clients)
    (member : (clients.find id).isSome) : roomOf chatRoom id = some (channel, clients) := by
  have already : clientAlreadyIn chatRoom id := clientAlreadyIn_iff.mpr ⟨channel, clients, found, member⟩
  obtain ⟨⟨other, others⟩, first⟩ := Option.isSome_iff_exists.mp already
  have there : chatRoom.find other = some others := OrderedMap.mem_entries.mp (List.mem_of_find?_eq_some first)
  have inside : (others.find id).isSome := @List.find?_some _ _ (other, others) _ first
  obtain rfl := one id channel other ⟨clients, found, member⟩ ⟨others, there, inside⟩
  obtain rfl := Option.some.inj (found.symm.trans there)
  exact first

theorem speech_chatRoom (s : Transfer δ ε) (id : ID) (rtpPacket : List UInt8) (garbage : Nat → UInt8) (now : UInt64)
    (time : UInt32) (stack : Nat → Stack) :
    (s.handleUdpMsg opus (.speech id rtpPacket garbage now time stack)).chatRoom = s.chatRoom := by
  unfold Transfer.handleUdpMsg
  dsimp only
  split
  · rfl
  · split
    · rfl
    · unfold Transfer.recordTaken
      split <;> rfl

theorem step_oneRoom {s s' : Transfer δ ε} {e : Event} (one : OneRoom s.chatRoom) (next : step opus s e = some s') :
    OneRoom s'.chatRoom ↔ RoomsFree s e := by
  obtain rfl := Option.some.inj next
  cases e with
  | request id request => exact handleRequest_oneRoom one id request
  | speech id rtpPacket garbage now time stack =>
    rw [speech_chatRoom]
    exact iff_of_true one trivial

theorem start_oneRoom : OneRoom (Transfer.start decoder encoder).chatRoom := by
  rintro id channel other ⟨clients, found, -⟩ there
  cases found

/-- Where nobody who is in a room creates one everybody is in one room, and the first who does ends it. -/
theorem one_room {s : Transfer δ ε} (run : Transition.Reach (step opus) RoomsFree (.start decoder encoder) s) :
    OneRoom s.chatRoom ∧ ∀ e s', step opus s e = some s' → (OneRoom s'.chatRoom ↔ RoomsFree s e) := by
  have one := run.invariant (I := fun s => OneRoom s.chatRoom) start_oneRoom
    fun _ _ _ before free next => (step_oneRoom before next).mpr free
  exact ⟨one, fun e s' next => step_oneRoom one next⟩

def oneCamera : Transfer Unit Unit := (Transfer.start () ()).handleUdpMsg deafOpus (.request [1] ⟨.CAMERA, .join, [11]⟩)

theorem one_room_sample : OneRoom oneCamera.chatRoom ∧
    ∀ e s', step deafOpus oneCamera e = some s' → (OneRoom s'.chatRoom ↔ RoomsFree oneCamera e) :=
  one_room (.tail (e := .request [1] ⟨.CAMERA, .join, [11]⟩) .refl (fun _ _ _ => rfl) rfl)

/-- The same camera creates a second one. -/
theorem camera_in_two_rooms (opus : Opus δ ε) (decoder : δ) (encoder : ε) :
    ∃ s, Transition.exec (step opus) (.start decoder encoder)
        [.request [1] ⟨.CAMERA, .join, [11]⟩, .request [1] ⟨.CAMERA, .join, [12]⟩] = some s ∧
      Member s.chatRoom [1] [11] ∧ Member s.chatRoom [1] [12] :=
  ⟨_, rfl, ⟨_, rfl, rfl⟩, ⟨_, rfl, rfl⟩⟩

theorem creators_not_asked : ¬ ∃ (δ ε : Type) (opus : Opus δ ε) (decoder : δ) (encoder : ε), ∀ s,
    Transition.Reach (step opus) (fun _ _ => True) (.start decoder encoder) s → OneRoom s.chatRoom := by
  rintro ⟨δ, ε, opus, decoder, encoder, one⟩
  obtain ⟨s, ran, first, second⟩ := camera_in_two_rooms opus decoder encoder
  have same := one s (Transition.reach_of_exec .refl (fun _ _ _ => trivial) ran) [1] [11] [12] first second
  exact absurd same (by decide)

end LiveStreaming.SpeechTransfer
