import LiveStreaming.Library.Transition
import Mathlib.Data.List.Pairwise

/-!
# Byte memory pool

`ByteMemoryPool` cuts what it is asked for off the first of its chunks, and gets another chunk from the heap where that
one has too little left. The space that is left is a difference of two numbers without a sign.
-/

namespace LiveStreaming.Study
open Library.Transition

/-- A range of memory. -/
structure Extent where
  address : Nat
  size : Nat

/-- No byte in common. -/
def Extent.Apart (one two : Extent) : Prop :=
  one.address + one.size ≤ two.address ∨ two.address + two.size ≤ one.address

def Extent.Within (inner outer : Extent) : Prop :=
  outer.address ≤ inner.address ∧ inner.address + inner.size ≤ outer.address + outer.size

structure MemoryChunk where
  mem : Nat
  chunkSize : UInt64
  bytesAlreadyAllocated : UInt64

namespace MemoryChunk

def defaultChunkSize : UInt64 := 4096

def construct (chunkSize : UInt64) (mem : Nat) : MemoryChunk :=
  { mem, chunkSize := if defaultChunkSize > chunkSize then defaultChunkSize else chunkSize, bytesAlreadyAllocated := 0 }

def spaceAvailable (chunk : MemoryChunk) : UInt64 := chunk.chunkSize - chunk.bytesAlreadyAllocated

def alloc (requestSize : UInt64) (chunk : MemoryChunk) : Nat × MemoryChunk :=
  (chunk.mem + chunk.bytesAlreadyAllocated.toNat,
    { chunk with bytesAlreadyAllocated := chunk.bytesAlreadyAllocated + requestSize })

/-- What `new char[chunkSize_]` has returned. -/
def storage (chunk : MemoryChunk) : Extent := { address := chunk.mem, size := chunk.chunkSize.toNat }

/-- What has been cut off it. -/
def used (chunk : MemoryChunk) : Extent := { address := chunk.mem, size := chunk.bytesAlreadyAllocated.toNat }

end MemoryChunk

/-- The first chunk and those behind it. The ranges that were returned are kept count of. -/
structure ByteMemoryPool where
  listOfMemoryChunks : MemoryChunk
  nextChunks : List MemoryChunk
  returned : List Extent

namespace ByteMemoryPool

def construct (initSize : UInt64) (mem : Nat) : ByteMemoryPool :=
  { listOfMemoryChunks := .construct initSize mem, nextChunks := [], returned := [] }

def expandStorage (requestSize : UInt64) (mem : Nat) (pool : ByteMemoryPool) : ByteMemoryPool :=
  { pool with
    listOfMemoryChunks := .construct requestSize mem, nextChunks := pool.listOfMemoryChunks :: pool.nextChunks }

/-- `return listOfMemoryChunks_->alloc(requestSize);` -/
def cut (requestSize : UInt64) (pool : ByteMemoryPool) : ByteMemoryPool :=
  let (address, chunk) := pool.listOfMemoryChunks.alloc requestSize
  { pool with listOfMemoryChunks := chunk, returned := { address, size := requestSize.toNat } :: pool.returned }

/-- With the storage that `new` returns, if it is called. Where it throws, the pool stays as it is. -/
def alloc (requestSize : UInt64) (mem : Option Nat) (pool : ByteMemoryPool) : ByteMemoryPool :=
  if pool.listOfMemoryChunks.spaceAvailable < requestSize then
    match mem with
    | none => pool
    | some mem => (pool.expandStorage requestSize mem).cut requestSize
  else pool.cut requestSize

def chunks (pool : ByteMemoryPool) : List MemoryChunk := pool.listOfMemoryChunks :: pool.nextChunks

/-- One request, with what `new` returns in it. -/
structure ByteRequest where
  requestSize : UInt64
  mem : Option Nat

def step (pool : ByteMemoryPool) (request : ByteRequest) : Option ByteMemoryPool :=
  some (pool.alloc request.requestSize request.mem)

/-- `new` returns storage that no chunk has. -/
def allowed (pool : ByteMemoryPool) (request : ByteRequest) : Prop :=
  ∀ mem, request.mem = some mem → ∀ chunk ∈ pool.chunks,
    (MemoryChunk.construct request.requestSize mem).storage.Apart chunk.storage

/-- Every range lies in a chunk and has no byte in common with another one, and no difference underflows. -/
structure Sound (pool : ByteMemoryPool) : Prop where
  inside : ∀ range ∈ pool.returned, ∃ chunk ∈ pool.chunks, range.Within chunk.storage
  apart : pool.returned.Pairwise Extent.Apart
  space : ∀ chunk ∈ pool.chunks,
    chunk.spaceAvailable.toNat + chunk.bytesAlreadyAllocated.toNat = chunk.chunkSize.toNat

/-! ### What has been cut off -/

variable {pool start : ByteMemoryPool} {chunk : MemoryChunk} {range : Extent} {requestSize : UInt64} {mem : Nat}

theorem chunkSize_construct (requestSize : UInt64) (mem : Nat) :
    requestSize.toNat ≤ (MemoryChunk.construct requestSize mem).chunkSize.toNat := by
  unfold MemoryChunk.construct
  dsimp only
  split
  · next small => exact Nat.le_of_lt (UInt64.lt_iff_toNat_lt.mp small)
  · exact Nat.le_refl _

/-- Nothing is cut off beyond the storage. -/
def Fits (chunk : MemoryChunk) : Prop := chunk.bytesAlreadyAllocated ≤ chunk.chunkSize

theorem Fits.space (fits : Fits chunk) :
    chunk.spaceAvailable.toNat + chunk.bytesAlreadyAllocated.toNat = chunk.chunkSize.toNat := by
  rw [MemoryChunk.spaceAvailable, UInt64.toNat_sub_of_le _ _ fits]
  exact Nat.sub_add_cancel (UInt64.le_iff_toNat_le.mp fits)

theorem alloc_bytes (fits : Fits chunk) (enough : ¬ chunk.spaceAvailable < requestSize) :
    (chunk.alloc requestSize).2.bytesAlreadyAllocated.toNat =
      chunk.bytesAlreadyAllocated.toNat + requestSize.toNat ∧
    chunk.bytesAlreadyAllocated.toNat + requestSize.toNat ≤ chunk.chunkSize.toNat := by
  have space := fits.space
  have within : requestSize.toNat ≤ chunk.spaceAvailable.toNat :=
    UInt64.le_iff_toNat_le.mp (UInt64.not_lt.mp enough)
  have bound := chunk.chunkSize.toNat_lt
  unfold MemoryChunk.alloc
  dsimp only
  rw [UInt64.toNat_add, Nat.mod_eq_of_lt (by omega)]
  omega

/-- Every range lies in what has been cut off a chunk, and the chunks have no byte in common. -/
structure Held (pool : ByteMemoryPool) : Prop where
  fits : ∀ chunk ∈ pool.chunks, Fits chunk
  storages : pool.chunks.Pairwise fun one two => one.storage.Apart two.storage
  cut : ∀ range ∈ pool.returned, ∃ chunk ∈ pool.chunks, range.Within chunk.used
  apart : pool.returned.Pairwise Extent.Apart

theorem Held.sound (held : Held pool) : pool.Sound := by
  refine ⟨fun range member => ?_, held.apart, fun chunk member => (held.fits chunk member).space⟩
  obtain ⟨chunk, here, low, high⟩ := held.cut range member
  refine ⟨chunk, here, low, Nat.le_trans high ?_⟩
  exact Nat.add_le_add_left (UInt64.le_iff_toNat_le.mp (held.fits chunk here)) _

theorem construct_held (initSize : UInt64) (mem : Nat) : Held (construct initSize mem) where
  fits := by
    intro chunk member
    rw [List.mem_singleton.mp member]
    exact UInt64.le_iff_toNat_le.mpr (Nat.zero_le _)
  storages := List.pairwise_singleton _ _
  cut := fun range member => by cases member
  apart := List.Pairwise.nil

theorem Held.expandStorage (held : Held pool)
    (other : ∀ chunk ∈ pool.chunks, (MemoryChunk.construct requestSize mem).storage.Apart chunk.storage) :
    Held (pool.expandStorage requestSize mem) where
  fits := by
    intro chunk member
    rcases List.mem_cons.mp member with rfl | member
    · exact UInt64.le_iff_toNat_le.mpr (Nat.zero_le _)
    · exact held.fits chunk member
  storages := List.pairwise_cons.mpr ⟨other, held.storages⟩
  cut := by
    intro range member
    obtain ⟨chunk, here, within⟩ := held.cut range member
    exact ⟨chunk, List.mem_cons_of_mem _ here, within⟩
  apart := held.apart

theorem expandStorage_enough :
    ¬ (pool.expandStorage requestSize mem).listOfMemoryChunks.spaceAvailable < requestSize := by
  rw [UInt64.not_lt, UInt64.le_iff_toNat_le]
  unfold ByteMemoryPool.expandStorage MemoryChunk.spaceAvailable
  rw [UInt64.toNat_sub_of_le _ _ (UInt64.le_iff_toNat_le.mpr (Nat.zero_le _))]
  exact chunkSize_construct requestSize mem

/-- The new range begins where the ranges of its chunk end, and the others lie in other chunks. -/
theorem Held.cut_apart (held : Held pool) (enough : ¬ pool.listOfMemoryChunks.spaceAvailable < requestSize)
    (member : range ∈ pool.returned) :
    Extent.Apart { address := (pool.listOfMemoryChunks.alloc requestSize).1, size := requestSize.toNat } range := by
  obtain ⟨chunk, here, low, high⟩ := held.cut range member
  have bytes := (alloc_bytes (held.fits _ List.mem_cons_self) enough).2
  have fits := UInt64.le_iff_toNat_le.mp (held.fits chunk here)
  unfold MemoryChunk.alloc
  dsimp only [MemoryChunk.used] at low high
  rcases List.mem_cons.mp here with rfl | behind
  · exact .inr high
  · have apart := (List.pairwise_cons.mp held.storages).1 chunk behind
    unfold Extent.Apart MemoryChunk.storage at apart
    unfold Extent.Apart
    dsimp only at apart ⊢
    omega

theorem Held.cut_held (held : Held pool) (enough : ¬ pool.listOfMemoryChunks.spaceAvailable < requestSize) :
    Held (pool.cut requestSize) := by
  obtain ⟨bytes, within⟩ := alloc_bytes (held.fits _ List.mem_cons_self) enough
  refine ⟨fun chunk member => ?_, ?_, fun range member => ?_, ?_⟩
  · rcases List.mem_cons.mp member with rfl | member
    · refine UInt64.le_iff_toNat_le.mpr ?_
      rw [ByteMemoryPool.cut]
      dsimp only
      rw [bytes]
      exact within
    · exact held.fits chunk (List.mem_cons_of_mem _ member)
  · exact List.pairwise_cons.mpr (List.pairwise_cons.mp held.storages)
  · rcases List.mem_cons.mp member with rfl | member
    · refine ⟨_, List.mem_cons_self, Nat.le_add_right _ _, ?_⟩
      unfold MemoryChunk.used
      dsimp only [ByteMemoryPool.cut]
      rw [bytes]
      exact Nat.le_of_eq (Nat.add_assoc _ _ _)
    · obtain ⟨chunk, here, low, high⟩ := held.cut range member
      rcases List.mem_cons.mp here with rfl | behind
      · refine ⟨_, List.mem_cons_self, low, Nat.le_trans high ?_⟩
        unfold MemoryChunk.used
        dsimp only [ByteMemoryPool.cut]
        rw [bytes]
        exact Nat.add_le_add_left (Nat.le_add_right _ _) _
      · exact ⟨chunk, List.mem_cons_of_mem _ behind, low, high⟩
  · exact List.pairwise_cons.mpr ⟨fun range member => held.cut_apart enough member, held.apart⟩

theorem step_held {request : ByteRequest} {pool' : ByteMemoryPool} (held : Held pool) (ok : allowed pool request)
    (next : step pool request = some pool') : Held pool' := by
  obtain rfl := Option.some.inj next
  unfold alloc
  split
  · cases given : request.mem with
    | none => exact held
    | some mem => exact (held.expandStorage (ok mem given)).cut_held expandStorage_enough
  · next enough => exact held.cut_held enough

theorem byteMemoryPool_sound (initSize : UInt64) (mem : Nat) (run : Reach step allowed (construct initSize mem) pool) :
    pool.Sound :=
  (run.invariant (I := Held) (construct_held initSize mem) fun _ _ _ held ok next => step_held held ok next).sound

/-- A request that is larger than what the first chunk has left. -/
theorem byteMemoryPool_sample :
    ∃ pool, step (construct 100 65536) { requestSize := 5000, mem := some 131072 } = some pool ∧
      pool.returned.length = 1 ∧ pool.Sound :=
  ⟨_, rfl, rfl, byteMemoryPool_sound 100 65536 (.tail (e := { requestSize := 5000, mem := some 131072 }) .refl
    (fun mem given chunk member => by
      rw [← Option.some.inj given, List.mem_singleton.mp member]
      exact .inr (by decide)) rfl)⟩

end ByteMemoryPool

end LiveStreaming.Study
