import LiveStreaming.Streamer.ReceiveRequest

/-!
# The copies of a channel's name

`do_camera_request` copies the name into the `EV_ASYNC_DATA` for the worker and `do_channel_notify` into
the `NOTIFY_DATA` for the notify thread, both with `strcpy` and into arrays of fixed size. A viewer's
request and a backing source take the name along in strings only.
-/

namespace LiveStreaming.Streamer
open Library Library.CString

inductive ChannelField where
  | asyncData
  | notifyData
  deriving DecidableEq

/-- The sizes of the arrays `channel` of `EV_ASYNC_DATA` and `NOTIFY_DATA`. -/
def ChannelField.size : ChannelField → Nat
  | .asyncData => maxChannelSize
  | .notifyData => 64

/-- A call of `strcpy` with one of these arrays and the C string of a name. -/
structure ChannelCopy where
  field : ChannelField
  channel : List UInt8
  deriving DecidableEq

/-- The array has room for the name and the zero behind it. -/
def ChannelCopy.Fits (copy : ChannelCopy) : Prop := (cString copy.channel).length + 1 ≤ copy.field.size

instance decidableFits (copy : ChannelCopy) : Decidable copy.Fits := inferInstanceAs (Decidable (_ ≤ _))

/-- A call with the two things the copies also depend on: `new EV_ASYNC_DATA` and, after it, `new_cameras`
may fail, and the event of the notify thread may be pending. -/
structure OfferCall extends RequestCall where
  asyncDataAllocated : Bool
  notifyPending : Bool
  asyncDataFirst : allocated = true → asyncDataAllocated = true

/-- The request line's method and channel, where they pass the checks of `receive_request_cb`. -/
def RequestCall.admitted (call : RequestCall) : Option (List UInt8 × List UInt8) :=
  match call.request with
  | none => none
  | some request =>
    (admittedChannel call.behind request).map fun channel =>
      ((parseSimpleRosehttpHeader call.behind request).2.method, channel)

def doChannelNotifyCopies (notifyPending : Bool) (channel : List UInt8) : List ChannelCopy :=
  if notifyPending then [] else [⟨.notifyData, channel⟩]

namespace Hosting

def doCameraRequestCopies (s : Hosting) (call : OfferCall) (channel : List UInt8) : List ChannelCopy :=
  if s.cameraAlreadyIn channel then []
  else if call.pending then []
  else if ¬ call.asyncDataAllocated then []
  else [⟨.asyncData, channel⟩]

/-- The copies that one call of `receive_request_cb` makes. -/
def receiveRequestCbCopies (s : Hosting) (call : OfferCall) : List ChannelCopy :=
  match call.admitted with
  | none => []
  | some (method, channel) =>
    if method = ascii "POST" then
      if s.getChannelList.length > s.channelsLimit then []
      else s.doCameraRequestCopies call channel ++
        if (s.doCameraRequest call.toRequestCall channel).1 then doChannelNotifyCopies
          call.notifyPending channel else []
    else []

/-- The copies of the call fit, and so does the one `delete_camera` makes of the name later. -/
structure CopiesFit (s : Hosting) (call : OfferCall) : Prop where
  online : ∀ copy ∈ s.receiveRequestCbCopies call, copy.Fits
  offline : ∀ method channel notifyPending, call.admitted = some (method, channel) →
    ∀ copy ∈ doChannelNotifyCopies notifyPending channel, copy.Fits

/-- A camera's offer that gets as far as the copy for the worker. -/
structure Offered (s : Hosting) (call : OfferCall) (channel : List UInt8) : Prop where
  admitted : call.admitted = some (ascii "POST", channel)
  room : s.getChannelList.length ≤ s.channelsLimit
  fresh : s.cameraAlreadyIn channel = false
  clear : call.pending = false
  allocated : call.asyncDataAllocated = true

end Hosting

variable {s : Hosting} {call : OfferCall} {method channel : List UInt8}

theorem admitted_spec (admitted : call.admitted = some (method, channel)) :
    channel.length ≤ maxChannelSize ∧ Plain channel := by
  unfold RequestCall.admitted at admitted
  split at admitted
  · cases admitted
  · next request _ =>
    obtain ⟨found, passed, same⟩ := Option.map_eq_some_iff.mp admitted
    obtain ⟨_, rfl⟩ := Prod.mk.inj same
    exact admittedChannel_spec passed

theorem fits_iff {copy : ChannelCopy} (unterminated : 0 ∉ copy.channel) :
    copy.Fits ↔ copy.channel.length < copy.field.size := by
  rw [ChannelCopy.Fits, cString_eq unterminated, Nat.succ_le_iff]

theorem doChannelNotifyCopies_fit (admitted : call.admitted = some (method, channel)) (notifyPending : Bool) :
    ∀ copy ∈ doChannelNotifyCopies notifyPending channel, copy.Fits := by
  obtain ⟨short, plain, _⟩ := admitted_spec admitted
  intro copy member
  unfold doChannelNotifyCopies at member
  split at member
  · cases member
  · obtain rfl := List.mem_singleton.mp member
    have wider : maxChannelSize < ChannelField.notifyData.size := by decide
    rw [fits_iff plain]
    exact Nat.lt_of_le_of_lt short wider

namespace Hosting

theorem mem_doCameraRequestCopies {copy : ChannelCopy} : copy ∈ s.doCameraRequestCopies call channel ↔
    copy = ⟨.asyncData, channel⟩ ∧ s.cameraAlreadyIn channel = false ∧ call.pending = false ∧
      call.asyncDataAllocated = true := by
  unfold doCameraRequestCopies
  cases s.cameraAlreadyIn channel <;> cases call.pending <;> cases call.asyncDataAllocated <;> simp

theorem mem_receiveRequestCbCopies {copy : ChannelCopy} (member : copy ∈ s.receiveRequestCbCopies call) :
    (∃ channel, copy = ⟨.asyncData, channel⟩ ∧ s.Offered call channel) ∨
      ∃ method channel, call.admitted = some (method, channel) ∧
        copy ∈ doChannelNotifyCopies call.notifyPending channel := by
  unfold receiveRequestCbCopies at member
  split at member
  · cases member
  · next method channel admitted =>
    split at member
    · next post =>
      split at member
      · cases member
      · next room =>
        rcases List.mem_append.mp member with copied | notified
        · obtain ⟨rfl, fresh, clear, allocated⟩ := mem_doCameraRequestCopies.mp copied
          exact .inl ⟨channel, rfl, post ▸ admitted, Nat.not_lt.mp room, fresh, clear, allocated⟩
        · split at notified
          · exact .inr ⟨method, channel, admitted, notified⟩
          · cases notified
    · cases member

theorem Offered.copied (offered : s.Offered call channel) :
    ⟨.asyncData, channel⟩ ∈ s.receiveRequestCbCopies call := by
  unfold receiveRequestCbCopies
  rw [offered.admitted]
  dsimp only
  rw [if_pos rfl, if_neg (Nat.not_lt.mpr offered.room)]
  apply List.mem_append_left
  exact mem_doCameraRequestCopies.mpr ⟨rfl, offered.fresh, offered.clear, offered.allocated⟩

/-- A camera that a worker gets has had its name copied. -/
theorem doCameraRequest_copied (accepted : (s.doCameraRequest call.toRequestCall channel).1 = true) :
    ⟨.asyncData, channel⟩ ∈ s.doCameraRequestCopies call channel := by
  unfold doCameraRequest at accepted
  split at accepted
  · cases accepted
  · next fresh =>
    split at accepted
    · cases accepted
    · next clear =>
      split at accepted
      · cases accepted
      · next allocated =>
        rw [not_not] at allocated
        exact mem_doCameraRequestCopies.mpr
          ⟨rfl, Bool.eq_false_iff.mpr fresh, Bool.eq_false_iff.mpr clear, call.asyncDataFirst allocated⟩

/-- Only a name of as many bytes as `EV_ASYNC_DATA.channel` has does not fit. -/
theorem channel_copies_fit (s : Hosting) (call : OfferCall) :
    s.CopiesFit call ↔ ∀ channel, s.Offered call channel → channel.length ≠ maxChannelSize := by
  constructor
  · intro fit channel offered full
    have fits := fit.online _ offered.copied
    rw [fits_iff (admitted_spec offered.admitted).2.1] at fits
    exact Nat.lt_irrefl _ (full ▸ fits)
  · intro short
    refine ⟨fun copy member => ?_, fun method channel pending admitted => doChannelNotifyCopies_fit admitted pending⟩
    rcases mem_receiveRequestCbCopies member with ⟨channel, rfl, offered⟩ | ⟨method, channel, admitted, notified⟩
    · obtain ⟨bounded, plain, _⟩ := admitted_spec offered.admitted
      rw [fits_iff plain]
      exact Nat.lt_of_le_of_ne bounded (short channel offered)
    · exact doChannelNotifyCopies_fit admitted _ copy notified

def longOffer : OfferCall where
  toRequestCall := sampleCall "POST /live?channel=0123456789abcdef0123456789abcdef HTTP/1.1\r\n\r\n"
  asyncDataAllocated := true
  notifyPending := false
  asyncDataFirst := fun _ => rfl

/-- The first camera of a fresh server, with a name of 32 bytes. -/
theorem long_name_overruns :
    (start 2 2 1).receiveRequestCbCopies longOffer =
        [⟨.asyncData, ascii "0123456789abcdef0123456789abcdef"⟩,
          ⟨.notifyData, ascii "0123456789abcdef0123456789abcdef"⟩] ∧
      ¬ ∀ (s : Hosting) call, s.CopiesFit call := by
  have copies : (start 2 2 1).receiveRequestCbCopies longOffer =
      [⟨.asyncData, ascii "0123456789abcdef0123456789abcdef"⟩,
        ⟨.notifyData, ascii "0123456789abcdef0123456789abcdef"⟩] := by
    decide +kernel
  refine ⟨copies, fun fit => ?_⟩
  have fits := (fit (start 2 2 1) longOffer).online _ (copies ▸ List.mem_cons_self)
  exact absurd fits (by decide)

end Hosting

end LiveStreaming.Streamer
