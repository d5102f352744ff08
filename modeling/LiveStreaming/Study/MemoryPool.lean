import LiveStreaming.Library.LinkedBlocks
import LiveStreaming.Library.Transition
import Mathlib.Data.List.Nodup

/-!
# Memory pool

`MemoryPool<T>` keeps the blocks that are free in a list that is threaded through them, and gets more of them from the
heap when it runs out. `Rational` of rational.cpp has the same three functions, on a list that is empty at first. Where
`new` throws nothing catches it, and the run ends.
-/

namespace LiveStreaming.Study
open Library.LinkedBlocks Library.Transition

/-- With the first word of each block in the memory. The blocks that the heap has given, and those that `alloc` has
returned and that were not freed since, are kept count of. -/
structure MemoryPool where
  next : Option Nat
  link : Nat → Option Nat
  obtained : List Nat
  inUse : List Nat

namespace MemoryPool

/-- `for( int index = 0; index < howMany; ++index )`, with the turns that are left and what `new` will return. -/
def expandLoop : Nat → (Nat → Option Nat) → Nat → List Nat → Option (Nat → Option Nat)
  | 0, link, runner, _ => some (Function.update link runner none)
  | _ + 1, _, _, [] => none
  | left + 1, link, runner, block :: supply => expandLoop left (Function.update link runner (some block)) block supply

def expandTheFreeList (howMany : Int) (supply : List Nat) (pool : MemoryPool) : Option MemoryPool :=
  match supply with
  | [] => none
  | runner :: supply => do
    let link ← expandLoop howMany.toNat pool.link runner supply
    some { pool with
      next := some runner, link, obtained := pool.obtained ++ runner :: supply.take howMany.toNat }

def expansionSize : Int := 32

/-- The size becomes an `int`. What `next` and the memory are before is not known. -/
def construct (size : Nat) (supply : List Nat) (next : Option Nat) (link : Nat → Option Nat) : Option MemoryPool :=
  expandTheFreeList ((size : Int).bmod 4294967296) supply { next, link, obtained := [], inUse := [] }

/-- The block, and the pool after it. -/
def alloc (supply : List Nat) (pool : MemoryPool) : Option (Nat × MemoryPool) := do
  let pool ← (if pool.next = none then expandTheFreeList expansionSize supply pool else some pool : Option MemoryPool)
  let head ← pool.next
  some (head, { pool with next := pool.link head, inUse := head :: pool.inUse })

def free (doomed : Nat) (pool : MemoryPool) : MemoryPool :=
  { pool with
    link := Function.update pool.link doomed pool.next, next := some doomed, inUse := pool.inUse.erase doomed }

end MemoryPool

/-- `freeList = 0` -/
def rationalStart (link : Nat → Option Nat) : MemoryPool := { next := none, link, obtained := [], inUse := [] }

/-- A call, with what `new` will return in it, or a store that the program makes into a block. -/
inductive PoolEvent where
  | alloc (supply : List Nat)
  | free (block : Nat)
  | write (block : Nat) (value : Option Nat)

namespace MemoryPool

def step (pool : MemoryPool) : PoolEvent → Option MemoryPool
  | .alloc supply => (pool.alloc supply).map Prod.snd
  | .free block => some (pool.free block)
  | .write block value => some { pool with link := Function.update pool.link block value }

/-- `new` returns storage that is not in use yet. The program frees a block that `alloc` returned, once, and stores into
blocks until it frees them. -/
def allowed (pool : MemoryPool) : PoolEvent → Prop
  | .alloc supply => supply.Nodup ∧ ∀ block ∈ supply, block ∉ pool.obtained
  | .free block => block ∈ pool.inUse
  | .write block _ => block ∈ pool.inUse

/-- A pool that was constructed, or the free list of `Rational`. -/
def Began (pool : MemoryPool) : Prop :=
  (∃ size supply next link, supply.Nodup ∧ construct size supply next link = some pool) ∨
    ∃ link, pool = rationalStart link

/-- No block is in use twice, and each one is either in use or on the free list, once. -/
structure Sound (pool : MemoryPool) : Prop where
  different : pool.inUse.Nodup
  once : ∃ freeList, Linked pool.link pool.next freeList ∧
    (∀ block ∈ pool.obtained, (freeList ++ pool.inUse).count block = 1) ∧
    ∀ block ∈ freeList ++ pool.inUse, block ∈ pool.obtained

/-! ### The free list -/

variable {pool pool' start : MemoryPool} {link link' : Nat → Option Nat} {runner left block : Nat} {supply : List Nat}
variable {howMany : Int}

/-- By induction on the turns: the new blocks are linked in the order in which they came. -/
theorem expandLoop_linked (done : expandLoop left link runner supply = some link') (other : (runner :: supply).Nodup) :
    Linked link' (some runner) (runner :: supply.take left) ∧
      ∀ block, block ∉ runner :: supply.take left → link' block = link block := by
  induction left generalizing link runner supply with
  | zero =>
    obtain rfl := Option.some.inj done
    refine ⟨⟨rfl, Function.update_self _ _ _⟩, fun block outside => ?_⟩
    refine Function.update_of_ne ?_ _ _
    rintro rfl
    exact outside List.mem_cons_self
  | succ left ih =>
    cases supply with
    | nil => cases done
    | cons block supply =>
      obtain ⟨apart, other⟩ := List.nodup_cons.mp other
      obtain ⟨linked, kept⟩ := ih done other
      rw [List.take_succ_cons]
      have runner_ : link' runner = some block := by
        rw [kept runner fun member => apart (List.cons_subset_cons block (List.take_subset left supply) member),
          Function.update_self]
      refine ⟨⟨rfl, runner_ ▸ linked⟩, fun other outside => ?_⟩
      rw [List.mem_cons, not_or] at outside
      rw [kept other outside.2, Function.update_of_ne outside.1]

/-- The free list and the blocks in use together are what the heap has given. -/
def Divided (pool : MemoryPool) (freeList : List Nat) : Prop :=
  Linked pool.link pool.next freeList ∧ (freeList ++ pool.inUse).Perm pool.obtained ∧ pool.obtained.Nodup

theorem expandTheFreeList_divided (all : pool.inUse.Perm pool.obtained) (different : pool.obtained.Nodup)
    (other : supply.Nodup) (new_ : ∀ block ∈ supply, block ∉ pool.obtained)
    (done : expandTheFreeList howMany supply pool = some pool') :
    (∃ freeList, Divided pool' freeList) ∧ pool'.inUse = pool.inUse := by
  cases supply with
  | nil => cases done
  | cons runner supply =>
    obtain ⟨link, loop, rest⟩ := Option.bind_eq_some_iff.mp done
    obtain rfl := Option.some.inj rest
    obtain ⟨linked, _⟩ := expandLoop_linked loop other
    have within : runner :: supply.take howMany.toNat ⊆ runner :: supply :=
      List.cons_subset_cons runner (List.take_subset _ supply)
    refine ⟨⟨runner :: supply.take howMany.toNat, linked, ?_, ?_⟩, rfl⟩
    · exact List.perm_append_comm.trans (all.append_right _)
    · refine List.nodup_append.mpr ⟨different, ?_, fun a member b member' same => ?_⟩
      · exact other.sublist ((List.take_sublist _ supply).cons_cons runner)
      · exact new_ b (within member') (same ▸ member)

/-- What `alloc` returns was on the free list, also where that has been filled just before. -/
theorem alloc_divided {freeList : List Nat} (divided : Divided pool freeList) (other : supply.Nodup)
    (new_ : ∀ block ∈ supply, block ∉ pool.obtained) (done : pool.alloc supply = some (block, pool')) :
    block ∉ pool.inUse ∧ ∃ freeList', Divided pool' freeList' := by
  obtain ⟨filled, expanded, done⟩ := Option.bind_eq_some_iff.mp done
  obtain ⟨head, front, done⟩ := Option.bind_eq_some_iff.mp done
  obtain ⟨rfl, rfl⟩ := Prod.mk.inj (Option.some.inj done)
  obtain ⟨⟨freeList', linked, all, different⟩, same⟩ : (∃ freeList, Divided filled freeList) ∧
      filled.inUse = pool.inUse := by
    split at expanded
    · next empty =>
      obtain ⟨linked, all, different⟩ := divided
      rw [empty] at linked
      rw [linked_none linked, List.nil_append] at all
      exact expandTheFreeList_divided all different other new_ expanded
    · obtain rfl := Option.some.inj expanded
      exact ⟨⟨freeList, divided⟩, rfl⟩
  rw [front] at linked
  obtain ⟨rest, rfl, behind⟩ := linked_some linked
  have apart := all.nodup_iff.mpr different
  rw [List.cons_append, List.nodup_cons, List.mem_append, not_or] at apart
  refine ⟨same ▸ apart.1.2, rest, behind, ?_, different⟩
  exact List.perm_middle.trans all

theorem divided_apart {freeList : List Nat} (divided : Divided pool freeList) (used : block ∈ pool.inUse) :
    block ∉ freeList := by
  have apart := divided.2.1.nodup_iff.mpr divided.2.2
  exact fun member => (List.nodup_append.mp apart).2.2 block member block used rfl

theorem free_divided {freeList : List Nat} (divided : Divided pool freeList) (used : block ∈ pool.inUse) :
    Divided (pool.free block) (block :: freeList) := by
  refine ⟨divided.1.push (divided_apart divided used), ?_, divided.2.2⟩
  have back := (List.perm_cons_erase used).append_left freeList
  exact (List.perm_middle.symm.trans back.symm).trans divided.2.1

/-! ### Runs -/

theorem step_divided {event : PoolEvent} (divided : ∃ freeList, Divided pool freeList) (ok : allowed pool event)
    (next : step pool event = some pool') : ∃ freeList, Divided pool' freeList := by
  obtain ⟨freeList, divided⟩ := divided
  cases event with
  | alloc supply =>
    obtain ⟨⟨block, after⟩, done, rfl⟩ := Option.map_eq_some_iff.mp next
    exact (alloc_divided divided ok.1 ok.2 done).2
  | free block =>
    obtain rfl := Option.some.inj next
    exact ⟨_, free_divided divided ok⟩
  | write block value =>
    obtain rfl := Option.some.inj next
    exact ⟨freeList, divided.1.update (divided_apart divided ok) value, divided.2⟩

theorem Began.divided (began : Began start) : ∃ freeList, Divided start freeList := by
  rcases began with ⟨size, supply, next, link, other, done⟩ | ⟨link, rfl⟩
  · exact (expandTheFreeList_divided (.refl _) List.nodup_nil other (fun _ _ => List.not_mem_nil) done).1
  · exact ⟨[], rfl, .refl _, List.nodup_nil⟩

theorem Divided.sound {freeList : List Nat} (divided : Divided pool freeList) : pool.Sound := by
  obtain ⟨linked, all, different⟩ := divided
  have apart := all.nodup_iff.mpr different
  refine ⟨(List.nodup_append.mp apart).2.1, freeList, linked, fun block member => ?_, fun block => (all.mem_iff).mp⟩
  exact List.nodup_iff_count_eq_one.mp apart block (all.mem_iff.mpr member)

/-- In every state of every run the pool is sound, and `alloc` returns no block that is in use. -/
theorem memoryPool_sound (began : Began start) (run : Reach step allowed start pool) :
    pool.Sound ∧ ∀ supply block pool', allowed pool (.alloc supply) → pool.alloc supply = some (block, pool') →
      block ∉ pool.inUse := by
  obtain ⟨freeList, divided⟩ := run.invariant (I := fun pool => ∃ freeList, Divided pool freeList) began.divided
    fun _ _ _ divided ok next => step_divided divided ok next
  exact ⟨divided.sound, fun supply block pool' ok done => (alloc_divided divided ok.1 ok.2 done).1⟩

theorem memoryPool_sample : ∃ pool, step (rationalStart fun _ => none) (.alloc (List.range' 1 33)) = some pool ∧
    pool.inUse = [1] ∧ pool.Sound :=
  ⟨_, rfl, rfl, (memoryPool_sound (.inr ⟨_, rfl⟩)
    (.tail (e := .alloc (List.range' 1 33)) .refl ⟨List.nodup_range', fun _ _ => List.not_mem_nil⟩ rfl)).1⟩

end MemoryPool

end LiveStreaming.Study
