import LiveStreaming.Library.RoundRobin

/-!
# Choosing a work thread

`startupThreadsPool` starts as many work threads as the configuration says, and `getWorkthreadThroughRoundrobin`
gives each stream to the next of them. Its counter goes round at the default size of the pool.
-/

namespace LiveStreaming.XtraRtmp
open Library.RoundRobin

def DEFAULT_WORKTHREADS_SIZE : Nat := 8

/-- The loop of `startupThreadsPool` from `index` on: the pool, where a work thread is the index it was made at, and
whether all could be made. `created` tells which of them can. -/
def startupThreads (created : Nat → Bool) : Nat → Nat → List Nat × Bool
  | _, 0 => ([], true)
  | index, left + 1 =>
    if created index then
      let (pool, ret) := startupThreads created (index + 1) left
      (index :: pool, ret)
    else ([], false)

def startupThreadsPool (totalThreads : Nat) (created : Nat → Bool) : List Nat × Bool :=
  startupThreads created 0 totalThreads

/-- The loop of `getWorkthreadThroughRoundrobin`; `none` is the end of the pool. -/
def seekWorkthread {α : Type} (round : Nat) : Nat → List α → Option α
  | _, [] => none
  | count, w :: rest => if count = round then some w else seekWorkthread round (count + 1) rest

/-- The work thread, and the static counter after the call. -/
def getWorkthreadThroughRoundrobin {α : Type} (pool : List α) (round : Nat) : Option α × Nat :=
  (seekWorkthread round 0 pool, (round + 1) % DEFAULT_WORKTHREADS_SIZE)

/-- The static counter after a number of calls. -/
def roundAfter {α : Type} (pool : List α) : Nat → Nat
  | 0 => 0
  | calls + 1 => (getWorkthreadThroughRoundrobin pool (roundAfter pool calls)).2

/-- What the call behind `calls` others returns. -/
def workthread {α : Type} (pool : List α) (calls : Nat) : Option α :=
  (getWorkthreadThroughRoundrobin pool (roundAfter pool calls)).1

/-- Every call returns a work thread of the pool, and as many calls in a row as there are threads return each once. -/
structure Fair {α : Type} (pool : List α) : Prop where
  existing : ∀ calls, ∃ w ∈ pool, workthread pool calls = some w
  once : ∀ calls, ((List.range pool.length).map fun i => workthread pool (calls + i)).Perm (pool.map some)

theorem startupThreads_started {created : Nat → Bool} {index left : Nat} {pool : List Nat}
    (started : startupThreads created index left = (pool, true)) : pool = List.range' index left := by
  induction left generalizing index pool with
  | zero => exact (Prod.mk.inj started).1.symm
  | succ left ih =>
    rw [startupThreads] at started
    by_cases made : created index = true
    · rw [if_pos made] at started
      cases rest : startupThreads created (index + 1) left with
      | mk others ret =>
        rw [rest] at started
        obtain ⟨rfl, all⟩ := Prod.mk.inj started
        rw [show ret = true from all] at rest
        rw [ih rest, List.range'_succ]
    · rw [if_neg made] at started
      cases (Prod.mk.inj started).2

theorem seekWorkthread_eq {α : Type} (pool : List α) {round count : Nat} (ahead : count ≤ round) :
    seekWorkthread round count pool = pool[round - count]? := by
  induction pool generalizing count with
  | nil => rfl
  | cons w rest ih =>
    rw [seekWorkthread]
    split
    · next here => rw [here, Nat.sub_self, List.getElem?_cons_zero]
    · next later =>
      have next : round - count = (round - (count + 1)) + 1 := by omega
      rw [ih (by omega), next, List.getElem?_cons_succ]

theorem roundAfter_eq {α : Type} (pool : List α) (calls : Nat) :
    roundAfter pool calls = calls % DEFAULT_WORKTHREADS_SIZE := by
  induction calls with
  | zero => rfl
  | succ calls ih =>
    rw [roundAfter, getWorkthreadThroughRoundrobin, ih]
    exact Nat.mod_add_mod _ _ _

theorem workthread_eq {α : Type} (pool : List α) (calls : Nat) :
    workthread pool calls = pool[calls % DEFAULT_WORKTHREADS_SIZE]? := by
  rw [workthread, getWorkthreadThroughRoundrobin, roundAfter_eq]
  exact seekWorkthread_eq pool (Nat.zero_le _)

/-- With a pool of the default size the counter goes round with it. -/
theorem fair_of_default {α : Type} {pool : List α} (size : pool.length = DEFAULT_WORKTHREADS_SIZE) : Fair pool := by
  have turns : ∀ calls, workthread pool calls = turn pool calls := by
    intro calls
    rw [workthread_eq, turn, size]
  have filled : pool ≠ [] := by
    rintro rfl
    cases size
  refine ⟨fun calls => ?_, fun calls => ?_⟩
  · obtain ⟨w, found⟩ := turn_some filled calls
    exact ⟨w, List.mem_of_getElem? found, (turns calls).trans found⟩
  · simp only [turns]
    exact perm_turns pool calls

/-- With a smaller pool some call passes its end; of a larger one some thread is never reached. -/
theorem default_of_fair {totalThreads : Nat} (fair : Fair (List.range' 0 totalThreads)) :
    totalThreads = DEFAULT_WORKTHREADS_SIZE := by
  rcases Nat.lt_trichotomy totalThreads DEFAULT_WORKTHREADS_SIZE with few | same | many
  · obtain ⟨w, _, found⟩ := fair.existing totalThreads
    rw [workthread_eq, Nat.mod_eq_of_lt few, List.getElem?_eq_none (by rw [List.length_range'])] at found
    cases found
  · exact same
  · have member : some DEFAULT_WORKTHREADS_SIZE ∈ (List.range' 0 totalThreads).map some :=
      List.mem_map.mpr ⟨_, List.mem_range'_1.mpr ⟨Nat.zero_le _, by omega⟩, rfl⟩
    obtain ⟨i, _, found⟩ := List.mem_map.mp ((fair.once 0).mem_iff.mpr member)
    have below : (0 + i) % DEFAULT_WORKTHREADS_SIZE < DEFAULT_WORKTHREADS_SIZE := Nat.mod_lt _ (by decide)
    rw [workthread_eq, List.getElem?_range' (by omega)] at found
    have place := Option.some.inj found
    omega

/-- The counter goes round with the pool exactly when the pool has the default size. -/
theorem roundrobin_fair_iff {totalThreads : Nat} {created : Nat → Bool} {pool : List Nat}
    (started : startupThreadsPool totalThreads created = (pool, true)) :
    Fair pool ↔ totalThreads = DEFAULT_WORKTHREADS_SIZE := by
  obtain rfl := startupThreads_started started
  constructor
  · exact default_of_fair
  · intro size
    exact fair_of_default (by rw [List.length_range', size])

theorem roundrobin_fair_sample : startupThreadsPool 8 (fun _ => true) = ([0, 1, 2, 3, 4, 5, 6, 7], true) ∧
    (Fair [0, 1, 2, 3, 4, 5, 6, 7] ↔ 8 = DEFAULT_WORKTHREADS_SIZE) :=
  ⟨by decide, @roundrobin_fair_iff 8 (fun _ => true) _ (by decide)⟩

/-- Of four threads, the fifth call returns the end of the pool. -/
theorem fifth_of_four : startupThreadsPool 4 (fun _ => true) = ([0, 1, 2, 3], true) ∧
    workthread [0, 1, 2, 3] 4 = none ∧ ¬ Fair [0, 1, 2, 3] := by
  refine ⟨by decide, by decide, fun fair => ?_⟩
  have size := @default_of_fair 4 fair
  revert size
  decide

end LiveStreaming.XtraRtmp
