import LiveStreaming.Library.OrderedMap
import LiveStreaming.Library.Transition
import Mathlib.Data.Finset.Basic

/-!
# The clients of the chat server

A connection is read by `shakeHandCallback` once and by `recvMessageCallback` from then on. Each of them is
called through a watcher that libev keeps by its address, whatever becomes of the memory there.
-/

namespace LiveStreaming.WebChat
open Library

/-- What `cb` points to; `foreign` is anything else. -/
inductive Callback where
  | shakeHand
  | recvMessage
  | foreign
  deriving DecidableEq

/-- An `ev_io`. -/
structure Watcher where
  active : Bool
  fd : Nat
  cb : Callback
  deriving DecidableEq

/-- `heap` is `none` where nothing is allocated. `loop` has descriptor and address of every watcher that has
been started and not stopped, and `chatting` the open connections that have been answered. -/
structure ChatServer where
  heap : Nat → Option Watcher
  loop : List (Nat × Nat)
  clientsPool : OrderedMap Nat Nat
  opened : Finset Nat
  chatting : Finset Nat
  fault : Bool

/-- What a callback meets: `EV_ERROR`, a `read` that gives nothing, or bytes. `keyed` says whether they have a
key to answer, and `memory` where `new` puts the next watcher and what has been left there. -/
inductive Incoming where
  | error
  | nothing
  | received (keyed : Bool) (memory : Option (Nat × Watcher))

namespace ChatServer

def start : ChatServer := ⟨fun _ => none, [], .empty, ∅, ∅, false⟩

def new (s : ChatServer) (address : Nat) (left : Watcher) : ChatServer :=
  { s with heap := Function.update s.heap address (some left) }

def delete (s : ChatServer) (address : Nat) : ChatServer := { s with heap := Function.update s.heap address none }

def close (s : ChatServer) (fd : Nat) : ChatServer :=
  { s with opened := s.opened.erase fd, chatting := s.chatting.erase fd }

/-- `ev_io_init`, which takes the watcher to be stopped. -/
def evIoInit (s : ChatServer) (address : Nat) (cb : Callback) (fd : Nat) : ChatServer :=
  { s with heap := Function.update s.heap address (some ⟨false, fd, cb⟩) }

/-- `ev_io_start`, which does nothing to an active watcher. -/
def evIoStart (s : ChatServer) (address : Nat) : ChatServer :=
  match s.heap address with
  | none => { s with fault := true }
  | some w =>
    if w.active then s
    else
      { s with
        heap := Function.update s.heap address (some { w with active := true })
        loop := s.loop ++ [(w.fd, address)] }

/-- `ev_io_stop`, which does nothing to a watcher that is not active. -/
def evIoStop (s : ChatServer) (address : Nat) : ChatServer :=
  match s.heap address with
  | none => { s with fault := true }
  | some w =>
    if w.active then
      { s with
        heap := Function.update s.heap address (some { w with active := false })
        loop := s.loop.filter fun e => e.2 ≠ address }
    else s

/-- `DO_LIBEV_CB_CLEAN`. -/
def clean (s : ChatServer) (address : Nat) : ChatServer := (s.evIoStop address).delete address

def acceptCallback (s : ChatServer) (connFd address : Nat) : ChatServer :=
  (({ s with opened := insert connFd s.opened }).evIoInit address .shakeHand connFd).evIoStart address

/-- `std::map::insert` keeps an entry that is there. -/
def insertClient (s : ChatServer) (fd address : Nat) : ChatServer :=
  if (s.clientsPool.find fd).isSome then s else { s with clientsPool := s.clientsPool.set fd address }

def shakeHandCallback (s : ChatServer) (address : Nat) (w : Watcher) : Incoming → ChatServer
  | .error => s.clean address
  | .nothing | .received _ none => (s.close w.fd).clean address
  | .received keyed (some (recvMessageWatcher, left)) =>
    let s := if keyed then { s with chatting := insert w.fd s.chatting } else s
    let s := (s.new recvMessageWatcher left).insertClient w.fd address
    -- the watcher that is initialised is not the one that is started
    ((s.evIoInit address .recvMessage w.fd).evIoStart recvMessageWatcher).clean address

/-- `failing` are the descriptors on which `write` fails, besides those that are closed. -/
def response (s : ChatServer) (connfd : Nat) (failing : Finset Nat) : ChatServer :=
  (s.clientsPool.entries.map Prod.fst).foldl
    (fun s fd => if fd ≠ connfd ∧ (fd ∈ failing ∨ fd ∉ s.opened) then s.close fd else s) s

def recvMessageCallback (s : ChatServer) (address : Nat) (w : Watcher) (failing : Finset Nat) : Incoming → ChatServer
  | .error => s.clean address
  | .nothing => (s.close w.fd).clean address
  | .received _ _ => s.response w.fd failing

inductive Event where
  | accept (connFd address : Nat)
  | ready (fd address : Nat) (incoming : Incoming) (failing : Finset Nat)

/-- The memory that `new` gives is not in use. -/
def memoryFree (s : ChatServer) : Incoming → Bool
  | .received _ (some (address, _)) => (s.heap address).isNone
  | _ => true

/-- New connections and new memory are not in use. libev calls what the memory of a watcher says, and nothing
happens after a fault. -/
def step (s : ChatServer) : Event → Option ChatServer
  | .accept connFd address =>
    if s.fault = false ∧ connFd ∉ s.opened ∧ s.heap address = none then some (s.acceptCallback connFd address) else none
  | .ready fd address incoming failing =>
    if s.fault = false ∧ (fd, address) ∈ s.loop ∧ s.memoryFree incoming then
      match s.heap address with
      | none => some { s with fault := true }
      | some w =>
        match w.cb with
        | .foreign => some { s with fault := true }
        | .recvMessage => some (s.recvMessageCallback address w failing incoming)
        | .shakeHand => some (s.shakeHandCallback address w incoming)
    else none

/-- The pool has the connections that chat, and each of them one started watcher, which is allocated and calls
`recvMessageCallback`. -/
structure Consistent (s : ChatServer) : Prop where
  pool : ∀ fd, (s.clientsPool.find fd).isSome ↔ fd ∈ s.chatting
  watched : ∀ fd ∈ s.chatting, ∃ address w, s.heap address = some w ∧ w.active ∧ w.cb = .recvMessage ∧
    ∀ a, (fd, a) ∈ s.loop ↔ a = address

def Unshaken (s : ChatServer) : Event → Prop
  | .ready _ address (.received _ (some _)) _ => (s.heap address).map Watcher.cb ≠ some .shakeHand
  | _ => True

variable {s s' : ChatServer}

/-- Nobody chats, and every started watcher waits for a handshake. -/
structure Waiting (s : ChatServer) : Prop where
  pool : s.clientsPool.entries = []
  chatting : s.chatting = ∅
  watchers : ∀ fd address, (fd, address) ∈ s.loop → s.heap address = some ⟨true, fd, .shakeHand⟩

theorem Waiting.find (waiting : Waiting s) (fd : Nat) : s.clientsPool.find fd = none := by
  rw [OrderedMap.find, waiting.pool]
  rfl

theorem Waiting.consistent (waiting : Waiting s) : Consistent s where
  pool fd := by simp [waiting.find, waiting.chatting]
  watched fd chats := by simp [waiting.chatting] at chats

theorem start_waiting : Waiting start where
  pool := rfl
  chatting := rfl
  watchers _ _ started := absurd started List.not_mem_nil

theorem Waiting.acceptCallback (waiting : Waiting s) {connFd address : Nat} (fresh : s.heap address = none) :
    Waiting (s.acceptCallback connFd address) := by
  have started : s.acceptCallback connFd address =
      { s with
        opened := insert connFd s.opened
        heap := Function.update s.heap address (some ⟨true, connFd, .shakeHand⟩)
        loop := s.loop ++ [(connFd, address)] } := by
    unfold ChatServer.acceptCallback evIoInit evIoStart
    simp only [Function.update_self, Bool.false_eq_true, if_false, Function.update_idem]
  rw [started]
  refine ⟨waiting.pool, waiting.chatting, fun fd a member => ?_⟩
  rcases List.mem_append.mp member with before | new
  · have known := waiting.watchers fd a before
    have other : a ≠ address := by
      rintro rfl
      rw [fresh] at known
      cases known
    exact (Function.update_of_ne other _ _).trans known
  · obtain ⟨rfl, rfl⟩ := Prod.mk.inj (List.mem_singleton.mp new)
    exact Function.update_self _ _ _

theorem Waiting.clean (waiting : Waiting s) {address : Nat} {w : Watcher} (allocated : s.heap address = some w)
    (active : w.active) : Waiting (s.clean address) := by
  have stopped : s.clean address =
      { s with
        heap := Function.update s.heap address none
        loop := s.loop.filter fun e => e.2 ≠ address } := by
    unfold ChatServer.clean evIoStop delete
    rw [allocated]
    simp only [if_pos active, Function.update_idem]
  rw [stopped]
  refine ⟨waiting.pool, waiting.chatting, fun fd a member => ?_⟩
  obtain ⟨before, other⟩ := List.mem_filter.mp member
  rw [decide_eq_true_eq] at other
  exact (Function.update_of_ne other _ _).trans (waiting.watchers fd a before)

theorem Waiting.close (waiting : Waiting s) (fd : Nat) : Waiting (s.close fd) where
  pool := waiting.pool
  chatting := by simp [ChatServer.close, waiting.chatting]
  watchers := waiting.watchers

theorem step_waiting {e : Event} (waiting : Waiting s) (unshaken : s.Unshaken e) (next : s.step e = some s') :
    Waiting s' := by
  cases e with
  | accept connFd address =>
    rw [step] at next
    split at next
    · next free =>
      obtain rfl := Option.some.inj next
      exact waiting.acceptCallback free.2.2
    · cases next
  | ready fd address incoming failing =>
    rw [step] at next
    split at next
    · next live =>
      have watcher := waiting.watchers fd address live.2.1
      rw [watcher] at next
      obtain rfl := Option.some.inj next
      cases incoming with
      | error => exact waiting.clean watcher rfl
      | nothing => exact (waiting.close fd).clean watcher rfl
      | received keyed memory =>
        cases memory with
        | none => exact (waiting.close fd).clean watcher rfl
        | some memory =>
          rw [Unshaken, watcher] at unshaken
          exact absurd rfl unshaken
    · cases next

theorem evIoStart_clientsPool (s : ChatServer) (address : Nat) :
    (s.evIoStart address).clientsPool = s.clientsPool := by
  unfold evIoStart
  split
  · rfl
  · split <;> rfl

theorem mem_loop_evIoStart {e : Nat × Nat} (started : e ∈ s.loop) (address : Nat) : e ∈ (s.evIoStart address).loop := by
  unfold evIoStart
  split
  · exact started
  · split
    · exact started
    · exact List.mem_append_left _ started

theorem evIoStart_heap {address other : Nat} (apart : other ≠ address) :
    (s.evIoStart address).heap other = s.heap other := by
  unfold evIoStart
  split
  · rfl
  · split
    · rfl
    · exact Function.update_of_ne apart _ _

theorem clean_inactive {address fd : Nat} {cb : Callback} (allocated : s.heap address = some ⟨false, fd, cb⟩) :
    s.clean address = s.delete address := by
  rw [ChatServer.clean, evIoStop, allocated]
  rfl

theorem insertClient_find (s : ChatServer) (fd address : Nat) :
    ((s.insertClient fd address).clientsPool.find fd).isSome := by
  unfold insertClient
  split
  · next there => exact there
  · rw [OrderedMap.find_set, if_pos rfl]
    rfl

theorem insertClient_loop (s : ChatServer) (fd address : Nat) : (s.insertClient fd address).loop = s.loop := by
  unfold insertClient
  split <;> rfl

/-- After a handshake the watcher that libev has for the connection lies in freed memory. -/
theorem handshake_breaks {fd address : Nat} {keyed : Bool} {fresh : Nat} {left : Watcher} {failing : Finset Nat}
    (waiting : Waiting s) (next : s.step (.ready fd address (.received keyed (some (fresh, left))) failing) = some s') :
    ¬ Consistent s' := by
  rw [step] at next
  split at next
  · next live =>
    have watcher := waiting.watchers fd address live.2.1
    have apart : address ≠ fresh := by
      rintro rfl
      have free := live.2.2
      rw [memoryFree, watcher] at free
      cases free
    rw [watcher] at next
    obtain rfl := Option.some.inj next
    dsimp only [shakeHandCallback]
    generalize served : (if keyed then { s with chatting := insert fd s.chatting } else s) = s₁
    have loop : s₁.loop = s.loop := by
      rw [← served]
      split <;> rfl
    have initialised : (((((s₁.new fresh left).insertClient fd address).evIoInit address .recvMessage fd).evIoStart
        fresh).heap address) = some ⟨false, fd, .recvMessage⟩ := by
      rw [evIoStart_heap apart]
      exact Function.update_self _ _ _
    rw [clean_inactive initialised]
    intro consistent
    have pooled := insertClient_find (s₁.new fresh left) fd address
    have chats := (consistent.pool fd).mp (by
      rw [delete, evIoStart_clientsPool]
      exact pooled)
    obtain ⟨a, w, allocated, -, -, unique⟩ := consistent.watched fd chats
    obtain rfl := (unique address).mp (mem_loop_evIoStart (by
      rw [evIoInit, insertClient_loop, new, loop]
      exact live.2.1) fresh)
    exact absurd (allocated.symm.trans (Function.update_self _ _ _)) (by simp)
  · cases next

/-- Where no handshake comes through the pool and the watchers agree, and the first one that does ends it. -/
theorem clients_consistent (run : Transition.Reach step Unshaken start s) :
    Consistent s ∧ ∀ e s', s.step e = some s' → (Consistent s' ↔ s.Unshaken e) := by
  have waiting := run.invariant start_waiting fun _ _ _ => step_waiting
  refine ⟨waiting.consistent, fun e s' next => ⟨fun consistent => ?_, fun unshaken => ?_⟩⟩
  · cases e with
    | accept connFd address => trivial
    | ready fd address incoming failing =>
      rcases incoming with _ | _ | ⟨keyed, _ | ⟨fresh, left⟩⟩
      · trivial
      · trivial
      · trivial
      · exact absurd consistent (handshake_breaks waiting next)
  · exact (step_waiting waiting unshaken next).consistent

def connected : ChatServer := start.acceptCallback 5 0

theorem connected_reached : Transition.Reach step Unshaken start connected :=
  .tail (e := .accept 5 0) .refl trivial (by rw [step, if_pos ⟨rfl, Finset.notMem_empty _, rfl⟩]; rfl)

theorem clients_consistent_sample :
    Consistent connected ∧ ∀ e s', connected.step e = some s' → (Consistent s' ↔ connected.Unshaken e) :=
  clients_consistent connected_reached

/-- The client sends its handshake. -/
theorem clients_inconsistent :
    ¬ ∀ s, Transition.Reach step (fun _ _ => True) start s → Consistent s := by
  intro consistent
  have waiting : Waiting connected := start_waiting.acceptCallback rfl
  have accepted : start.step (.accept 5 0) = some connected := by
    rw [step, if_pos ⟨rfl, Finset.notMem_empty _, rfl⟩]
    rfl
  have shaken : ∃ s', connected.step (.ready 5 0 (.received true (some (1, ⟨false, 0, .foreign⟩))) ∅) = some s' := by
    rw [step, if_pos (by decide)]
    exact ⟨_, rfl⟩
  obtain ⟨s', next⟩ := shaken
  exact handshake_breaks waiting next (consistent s' (.tail (.tail .refl trivial accepted) trivial next))

end ChatServer

end LiveStreaming.WebChat
