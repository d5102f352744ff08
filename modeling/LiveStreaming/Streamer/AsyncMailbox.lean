import LiveStreaming.Library.Transition
import Mathlib.Data.List.Nodup

/-!
# Handing a connection to a work thread

The main thread hands a camera or a backing source to a work thread through the `data` pointer of the
thread's `ev_async` watcher. The pending flag of the watcher is the only guard of that slot.
-/

namespace LiveStreaming.Streamer
open Library

/-- What `do_camera_request` and `do_the_backing_source_request` write into an `EV_ASYNC_DATA`. -/
inductive AsyncRequest where
  | camera (clientFd : Int) (channel : List UInt8)
  | backer (clientFd requestFd : Int) (data : List UInt8)
  deriving DecidableEq

structure EvAsyncData where
  address : Nat
  request : AsyncRequest
  deriving DecidableEq

/-- Where the main thread stands: it has seen the flag clear, or has stored the pointer and not yet
called `ev_async_send`. -/
inductive MainThread where
  | idle
  | checked (asyncData : EvAsyncData)
  | stored
  deriving DecidableEq

/-- Where the work thread stands: libev has cleared the flag and is about to call `async_read_cb`, or
the call has read its pointer and, for a backing source, copied and freed the request text. -/
inductive WorkThread where
  | idle
  | woken
  | running (asyncData : EvAsyncData) (copied : Bool)
  deriving DecidableEq

/-- `data` is `async_watcher->data`. The lists record what was handed over, what `async_read_cb` took
from the slot on entry, and which blocks and request texts it freed. -/
structure Mailbox where
  sent : Bool
  data : Option EvAsyncData
  main : MainThread
  worker : WorkThread
  allocated : Nat
  handed : List EvAsyncData
  read : List EvAsyncData
  freed : List EvAsyncData
  textFreed : List EvAsyncData
  foundEmpty : Bool
  deriving DecidableEq

namespace Mailbox

def start : Mailbox := ⟨false, none, .idle, .idle, 0, [], [], [], [], false⟩

/-- The steps of the two threads that touch the watcher. `check` reads the flag and `giveUp` is a
camera request that fails after it; `wake` is libev; the rest is `async_read_cb`. -/
inductive Event where
  | check (request : AsyncRequest)
  | giveUp
  | store
  | send
  | wake
  | enter
  | replyFails
  | allocationFails
  | copy
  | finish
  deriving DecidableEq

/-- `delete static_cast<EV_ASYNC_DATA*>(async_watcher->data); async_watcher->data = NULL;` -/
def deleteData (s : Mailbox) : Mailbox :=
  { s with freed := s.freed ++ s.data.toList, data := none, worker := .idle }

def step (s : Mailbox) : Event → Option Mailbox
  | .check request =>
    match s.main with
    | .idle =>
      if s.sent then some s
      else some { s with main := .checked ⟨s.allocated, request⟩, allocated := s.allocated + 1 }
    | _ => none
  | .giveUp =>
    match s.main with
    | .checked ⟨_, .camera _ _⟩ => some { s with main := .idle }
    | _ => none
  | .store =>
    match s.main with
    | .checked asyncData =>
      some { s with data := some asyncData, handed := s.handed ++ [asyncData], main := .stored }
    | _ => none
  | .send => if s.main = .stored then some { s with sent := true, main := .idle } else none
  | .wake => if s.sent ∧ s.worker = .idle then some { s with sent := false, worker := .woken } else none
  | .enter =>
    if s.worker = .woken then
      match s.data with
      | none => some { s with foundEmpty := true, worker := .idle }
      | some asyncData => some { s with read := s.read ++ [asyncData], worker := .running asyncData false }
    else none
  | .replyFails =>
    match s.worker with
    -- this exit frees its own block and leaves the pointer to it in the slot
    | .running ⟨address, .camera fd channel⟩ _ =>
      some { s with freed := s.freed ++ [⟨address, .camera fd channel⟩], worker := .idle }
    | _ => none
  | .allocationFails =>
    match s.worker, s.data with
    | .running ⟨_, .backer _ _ _⟩ false, some current =>
      some { s with textFreed := s.textFreed ++ [current] }.deleteData
    | _, _ => none
  | .copy =>
    match s.worker, s.data with
    | .running ⟨address, .backer fd requestFd data⟩ false, some current =>
      some { s with
        textFreed := s.textFreed ++ [current]
        worker := .running ⟨address, .backer fd requestFd data⟩ true }
    | _, _ => none
  | .finish =>
    match s.worker with
    | .running ⟨_, .camera fd _⟩ _ => if 0 < fd then some s.deleteData else none
    | .running ⟨_, .backer _ _ _⟩ true => some s.deleteData
    | _ => none

/-- What the two threads owe each other. -/
structure Delivered (s : Mailbox) : Prop where
  kept : ∀ asyncData ∈ s.handed, asyncData ∈ s.read ∨ s.data = some asyncData
  readOnce : s.read.Nodup
  freedOnce : s.freed.Nodup ∧ s.textFreed.Nodup
  filled : s.foundEmpty = false
  all : s.main ≠ .stored → s.sent = false → s.worker = .idle → s.read = s.handed ∧ s.freed = s.handed

/-- The main thread stores no pointer while a call of `async_read_cb` is due, and where a call comes back
to the slot, the slot still holds the pointer that it read on entry. -/
def Undisturbed (s : Mailbox) : Event → Prop
  | .store => s.worker ≠ .woken
  | .copy | .allocationFails | .finish => ∀ asyncData copied, s.worker = .running asyncData copied →
                                            s.data = some asyncData
  | _ => True

/-- A pointer is on its way to the work thread. -/
def Posted (s : Mailbox) : Prop := s.main = .stored ∨ s.sent = true ∨ s.worker = .woken

/-- The block that `async_read_cb` is working on. -/
def inHand : WorkThread → List EvAsyncData
  | .running asyncData _ => [asyncData]
  | _ => []

/-- What was handed over has been read, but for a pointer that is on its way and stands in the slot.
What was read has been freed, but for the block in hand. -/
structure Inv (s : Mailbox) : Prop where
  unread : (s.Posted ∧ ∃ asyncData, s.data = some asyncData ∧ s.handed = s.read ++ [asyncData]) ∨
    (¬ s.Posted ∧ s.handed = s.read)
  guarded : s.main ≠ .idle → s.sent = false
  exclusive : s.worker = .woken → s.main ≠ .stored ∧ s.sent = false
  held : s.read = s.freed ++ inHand s.worker
  texts : s.textFreed.Nodup ∧ ∀ asyncData ∈ s.textFreed, asyncData ∈ s.freed ∨ s.worker = .running asyncData true
  distinct : s.handed.Nodup
  fresh : ∀ asyncData ∈ s.handed, asyncData.address < s.allocated
  next : ∀ asyncData, s.main = .checked asyncData →
    asyncData.address < s.allocated ∧ ∀ earlier ∈ s.handed, earlier.address < asyncData.address
  filled : s.foundEmpty = false

variable {s s' : Mailbox}

theorem start_inv : Inv start where
  unread := .inr ⟨by simp [Posted, start], rfl⟩
  guarded := fun _ => rfl
  exclusive := fun _ => ⟨by simp [start], rfl⟩
  held := rfl
  texts := ⟨List.nodup_nil, by simp [start]⟩
  distinct := List.nodup_nil
  fresh := by simp [start]
  next := by simp [start]
  filled := rfl

theorem Inv.delivered (inv : Inv s) : Delivered s := by
  obtain ⟨unread, _, _, held, texts, distinct, _, _, filled⟩ := inv
  have read : s.read.Nodup := by
    rcases unread with ⟨_, asyncData, _, handed⟩ | ⟨_, handed⟩
    · rw [handed] at distinct
      exact distinct.of_append_left
    · rwa [← handed]
  refine ⟨fun asyncData member => ?_, read, ⟨?_, texts.1⟩, filled, fun main sent worker => ?_⟩
  · rcases unread with ⟨_, last, slot, handed⟩ | ⟨_, handed⟩
    · rw [handed, List.mem_append, List.mem_singleton] at member
      exact member.imp_right fun same => by rw [slot, same]
    · exact .inl (by rwa [← handed])
  · rw [held] at read
    exact read.of_append_left
  · have rest : ¬ s.Posted := by simp [Posted, main, sent, worker]
    have handed : s.handed = s.read := by
      rcases unread with ⟨posted, _⟩ | ⟨_, handed⟩
      · exact (rest posted).elim
      · exact handed
    have all : s.read = s.freed := by simpa [worker, inHand] using held
    exact ⟨handed.symm, by rw [handed, all]⟩

theorem Inv.check (inv : Inv s) {request : AsyncRequest} (next : step s (.check request) = some s') : Inv s' := by
  rw [step] at next
  split at next
  · next idle =>
    split at next
    · obtain rfl := Option.some.inj next
      exact inv
    · next clear =>
      obtain rfl := Option.some.inj next
      obtain ⟨unread, guarded, exclusive, held, texts, distinct, fresh, next, filled⟩ := inv
      refine ⟨?_, fun _ => by simpa using clear, ?_, held, texts, distinct, ?_, ?_, filled⟩
      · simpa [Posted, idle] using unread
      · exact fun woken => ⟨by simp, (exclusive woken).2⟩
      · exact fun asyncData member => Nat.lt_succ_of_lt (fresh asyncData member)
      · intro asyncData checked
        obtain rfl := MainThread.checked.inj checked
        exact ⟨Nat.lt_succ_self _, fresh⟩
  · simp at next

theorem Inv.giveUp (inv : Inv s) (next : step s .giveUp = some s') : Inv s' := by
  rw [step] at next
  split at next
  · next checked =>
    obtain rfl := Option.some.inj next
    obtain ⟨unread, guarded, exclusive, held, texts, distinct, fresh, next, filled⟩ := inv
    refine ⟨?_, fun busy => (busy rfl).elim, ?_, held, texts, distinct, fresh, by simp, filled⟩
    · simpa [Posted, checked] using unread
    · exact fun woken => ⟨by simp, (exclusive woken).2⟩
  · simp at next

theorem Inv.store (inv : Inv s) (quiet : s.worker ≠ .woken) (next : step s .store = some s') : Inv s' := by
  rw [step] at next
  split at next
  · next asyncData checked =>
    obtain rfl := Option.some.inj next
    obtain ⟨unread, guarded, exclusive, held, texts, distinct, fresh, next, filled⟩ := inv
    have clear := guarded (by simp [checked])
    have handed : s.handed = s.read := by
      simpa [Posted, checked, clear, quiet] using unread
    obtain ⟨allocated, newer⟩ := next asyncData checked
    refine ⟨.inl ⟨.inl rfl, asyncData, rfl, by rw [handed]⟩, fun _ => clear, fun woken => (quiet woken).elim, held,
      texts, ?_, ?_, by simp, filled⟩
    · refine List.nodup_append.mpr ⟨distinct, List.nodup_singleton _, fun earlier member last same equal => ?_⟩
      have older := newer earlier member
      rw [equal, List.mem_singleton.mp same] at older
      exact Nat.lt_irrefl _ older
    · intro earlier member
      rcases List.mem_append.mp member with member | last
      · exact fresh earlier member
      · rwa [List.mem_singleton.mp last]
  · simp at next

theorem Inv.send (inv : Inv s) (next : step s .send = some s') : Inv s' := by
  rw [step] at next
  split at next
  · next stored =>
    obtain rfl := Option.some.inj next
    obtain ⟨unread, guarded, exclusive, held, texts, distinct, fresh, next, filled⟩ := inv
    have due : s.worker ≠ .woken := fun woken => (exclusive woken).1 stored
    refine ⟨?_, fun busy => (busy rfl).elim, fun woken =>
      (due woken).elim, held, texts, distinct, fresh, by simp, filled⟩
    simpa [Posted, stored] using unread
  · simp at next

theorem Inv.wake (inv : Inv s) (next : step s .wake = some s') : Inv s' := by
  rw [step] at next
  split at next
  · next due =>
    obtain rfl := Option.some.inj next
    obtain ⟨unread, guarded, exclusive, held, texts, distinct, fresh, next, filled⟩ := inv
    have main : s.main = .idle := by
      by_contra busy
      simp [guarded busy] at due
    refine ⟨?_, fun _ => rfl, fun _ => ⟨by simp [main], rfl⟩, ?_, ?_, distinct, fresh, next, filled⟩
    · simpa [Posted, due] using unread
    · simpa [due, inHand] using held
    · simpa [due] using texts
  · simp at next

theorem Inv.enter (inv : Inv s) (next : step s .enter = some s') : Inv s' := by
  rw [step] at next
  split at next
  · next woken =>
    obtain ⟨unread, guarded, exclusive, held, texts, distinct, fresh, next', filled⟩ := inv
    obtain ⟨main, clear⟩ := exclusive woken
    obtain ⟨asyncData, slot, handed⟩ : ∃ asyncData, s.data = some asyncData ∧ s.handed = s.read ++ [asyncData] := by
      simpa [Posted, woken] using unread
    rw [slot] at next
    obtain rfl := Option.some.inj next
    refine ⟨.inr ⟨by simp [Posted, main, clear], handed⟩, guarded, by simp, ?_, ?_, distinct, fresh, next', filled⟩
    · simpa [woken, inHand] using held
    · simpa [woken] using texts
  · simp at next

theorem Inv.leave {asyncData : EvAsyncData} {copied : Bool} {data : Option EvAsyncData} (inv : Inv s)
    (running : s.worker = .running asyncData copied) (slot : s.Posted → data = s.data) :
    Inv { s with freed := s.freed ++ [asyncData], data := data, worker := .idle } := by
  obtain ⟨unread, guarded, exclusive, held, texts, distinct, fresh, next, filled⟩ := inv
  have posted : ({ s with freed := s.freed ++ [asyncData], data := data, worker := .idle } : Mailbox).Posted ↔
    s.Posted := by
    simp [Posted, running]
  refine ⟨?_, guarded, by simp, ?_, ⟨texts.1, ?_⟩, distinct, fresh, next, filled⟩
  · rw [posted]
    exact unread.imp_left fun ⟨due, stored⟩ => ⟨due, by rwa [slot due]⟩
  · simpa [running, inHand] using held
  · intro freed member
    refine .inl (List.mem_append.mpr ?_)
    rcases texts.2 freed member with before | current
    · exact .inl before
    · rw [running] at current
      exact .inr (by simp_all)

theorem Inv.not_posted {asyncData : EvAsyncData} {copied : Bool} (inv : Inv s)
    (running : s.worker = .running asyncData copied) (slot : s.data = some asyncData) : ¬ s.Posted := by
  intro posted
  rcases inv.unread with ⟨_, unread, stored, handed⟩ | ⟨rest, _⟩
  · obtain rfl := Option.some.inj (slot.symm.trans stored)
    have distinct := inv.distinct
    rw [handed, inv.held, running, inHand] at distinct
    simp [List.nodup_append] at distinct
  · exact rest posted

theorem Inv.replyFails (inv : Inv s) (next : step s .replyFails = some s') : Inv s' := by
  rw [step] at next
  split at next
  · next running =>
    obtain rfl := Option.some.inj next
    exact inv.leave running fun _ => rfl
  · simp at next

theorem Inv.deleteData {asyncData : EvAsyncData} {copied : Bool} (inv : Inv s)
    (running : s.worker = .running asyncData copied) (slot : s.data = some asyncData) : Inv s.deleteData := by
  have left := @Inv.leave s asyncData copied none inv running fun posted => (inv.not_posted running slot posted).elim
  rwa [Mailbox.deleteData, slot]

theorem Inv.copied {asyncData : EvAsyncData} (inv : Inv s) (running : s.worker = .running asyncData false) :
    Inv { s with textFreed := s.textFreed ++ [asyncData], worker := .running asyncData true } := by
  have delivered := inv.delivered
  obtain ⟨unread, guarded, exclusive, held, texts, distinct, fresh, next, filled⟩ := inv
  refine ⟨?_, guarded, by simp, ?_, ⟨?_, ?_⟩, distinct, fresh, next, filled⟩
  · simpa [Posted, running] using unread
  · simpa [running, inHand] using held
  · refine List.nodup_append.mpr ⟨texts.1, List.nodup_singleton _, fun earlier member last same equal => ?_⟩
    rw [equal, List.mem_singleton.mp same] at member
    rcases texts.2 asyncData member with done | now
    · have distinct := delivered.readOnce
      rw [held, running, inHand] at distinct
      exact (List.nodup_append.mp distinct).2.2 asyncData done asyncData List.mem_cons_self rfl
    · simp [running] at now
  · intro freed member
    rcases List.mem_append.mp member with before | current
    · rcases texts.2 freed before with done | now
      · exact .inl done
      · simp [running] at now
    · exact .inr (by rw [List.mem_singleton.mp current])

theorem Inv.copy (inv : Inv s) (undisturbed : Undisturbed s .copy) (next : step s .copy = some s') : Inv s' := by
  rw [step] at next
  split at next
  · next running slot =>
    obtain rfl := Option.some.inj next
    obtain rfl := Option.some.inj (slot.symm.trans (undisturbed _ _ running))
    exact inv.copied running
  · simp at next

theorem Inv.allocationFails (inv : Inv s) (undisturbed : Undisturbed s .allocationFails)
    (next : step s .allocationFails = some s') : Inv s' := by
  rw [step] at next
  split at next
  · next running slot =>
    obtain rfl := Option.some.inj next
    obtain rfl := Option.some.inj (slot.symm.trans (undisturbed _ _ running))
    exact (inv.copied running).deleteData rfl slot
  · simp at next

theorem Inv.finish (inv : Inv s) (undisturbed : Undisturbed s .finish) (next : step s .finish = some s') :
    Inv s' := by
  rw [step] at next
  split at next
  · next running =>
    split at next
    · obtain rfl := Option.some.inj next
      exact inv.deleteData running (undisturbed _ _ running)
    · simp at next
  · next running =>
    obtain rfl := Option.some.inj next
    exact inv.deleteData running (undisturbed _ _ running)
  · simp at next

theorem step_inv {e : Event} (inv : Inv s) (undisturbed : Undisturbed s e) (next : step s e = some s') :
    Inv s' := by
  cases e with
  | check request => exact inv.check next
  | giveUp => exact inv.giveUp next
  | store => exact inv.store undisturbed next
  | send => exact inv.send next
  | wake => exact inv.wake next
  | enter => exact inv.enter next
  | replyFails => exact inv.replyFails next
  | allocationFails => exact inv.allocationFails undisturbed next
  | copy => exact inv.copy undisturbed next
  | finish => exact inv.finish undisturbed next

end Mailbox

/-- In every interleaving in which the slot is left alone while a call of `async_read_cb` is due, and
until the call has last come back to it, each block handed over is read once and freed once. -/
theorem mailbox_delivers {s : Mailbox} (run : Transition.Reach Mailbox.step Mailbox.Undisturbed Mailbox.start s) :
    s.Delivered :=
  (run.invariant Mailbox.start_inv fun _ _ _ => Mailbox.step_inv).delivered

theorem mailbox_delivers_sample : ∃ s : Mailbox, s.Delivered ∧ s.freed = [⟨0, .backer 6 7 [71]⟩] := by
  have delivered := mailbox_delivers <|
    .tail (e := .finish) (.tail (e := .copy) (.tail (e := .enter) (.tail (e := .wake) (.tail (e := .send)
      (.tail (e := .store) (.tail (e := .check (.backer 6 7 [71])) .refl trivial rfl)
        (by simp [Mailbox.Undisturbed, Mailbox.start])
      rfl) trivial rfl) trivial rfl) trivial rfl) (by simp [Mailbox.Undisturbed]) rfl)
        (by simp [Mailbox.Undisturbed]) rfl
  exact ⟨_, delivered, rfl⟩

/-- The main thread sees the flag clear and stores a second camera while the call for the first one is
running. That call frees the second block, of which nothing has been read. -/
def doubleHandOver : List Mailbox.Event :=
  [.check (.camera 5 [99]), .store, .send, .wake, .enter, .check (.camera 6 [100]), .store, .finish]

theorem running_call_frees_unread :
    ¬ ∀ s, Transition.Reach Mailbox.step (fun _ _ => True) Mailbox.start s → s.Delivered := by
  intro delivers
  have log : (Transition.exec Mailbox.step Mailbox.start doubleHandOver).map (fun s => (s.handed, s.read, s.data)) =
      some ([⟨0, .camera 5 [99]⟩, ⟨1, .camera 6 [100]⟩], [⟨0, .camera 5 [99]⟩], none) := rfl
  obtain ⟨s, ran, result⟩ := Option.map_eq_some_iff.mp log
  simp only [Prod.mk.injEq] at result
  obtain ⟨handed, read, data⟩ := result
  have kept := (delivers s (Transition.reach_of_exec .refl (fun _ _ _ => trivial) ran)).kept ⟨1, .camera 6 [100]⟩
  rw [handed, read, data] at kept
  exact absurd (kept (by decide)) (by decide)

end LiveStreaming.Streamer
