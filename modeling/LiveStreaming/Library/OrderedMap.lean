import Mathlib

/-!
# Ordered maps

A `std::map`: the entries stand in the order of their keys, and no key stands there twice.
-/

namespace LiveStreaming.Library

/-- Byte strings are compared byte by byte. -/
instance linearOrderUInt8 : LinearOrder UInt8 where
  le_refl := UInt8.le_refl
  le_trans := fun _ _ _ => UInt8.le_trans
  lt_iff_le_not_ge := fun _ _ => by
    simp only [UInt8.lt_iff_toNat_lt, UInt8.le_iff_toNat_le]
    omega
  le_antisymm := fun _ _ => UInt8.le_antisymm
  le_total := UInt8.le_total
  toDecidableLE := inferInstance

structure OrderedMap (κ α : Type*) [LinearOrder κ] where
  entries : List (κ × α)
  sorted : entries.Pairwise fun a b => a.1 < b.1

namespace OrderedMap

variable {κ α : Type*} [LinearOrder κ]

def empty : OrderedMap κ α := ⟨[], .nil⟩

def find (m : OrderedMap κ α) (k : κ) : Option α := (m.entries.find? fun e => e.1 = k).map Prod.snd

/-- `m[k] = a`. -/
def set (m : OrderedMap κ α) (k : κ) (a : α) : OrderedMap κ α where
  entries := (m.entries.filter fun e => e.1 < k) ++ (k, a) :: m.entries.filter fun e => k < e.1
  sorted := by
    rw [List.pairwise_append, List.pairwise_cons]
    refine ⟨m.sorted.filter _, ⟨fun e member => ?_, m.sorted.filter _⟩, fun e before f after => ?_⟩
    · simpa using (List.mem_filter.mp member).2
    · have below : e.1 < k := by simpa using (List.mem_filter.mp before).2
      rcases List.mem_cons.mp after with rfl | after
      · exact below
      · have above : k < f.1 := by simpa using (List.mem_filter.mp after).2
        exact lt_trans below above

def erase (m : OrderedMap κ α) (k : κ) : OrderedMap κ α := ⟨m.entries.filter fun e => e.1 ≠ k, m.sorted.filter _⟩

variable {m : OrderedMap κ α} {k l : κ} {a b : α}

theorem nodup_keys (m : OrderedMap κ α) : (m.entries.map Prod.fst).Nodup :=
  List.pairwise_map.mpr (m.sorted.imp fun below => ne_of_lt below)

theorem mem_entries : (k, a) ∈ m.entries ↔ m.find k = some a := by
  unfold find
  constructor
  · intro member
    obtain ⟨e, found⟩ := Option.isSome_iff_exists.mp
      (List.find?_isSome.mpr ⟨(k, a), member, by simp⟩ : (m.entries.find? fun e => e.1 = k).isSome)
    have same : e.1 = k := by simpa using List.find?_some found
    rw [found, List.inj_on_of_nodup_map m.nodup_keys (List.mem_of_find?_eq_some found) member same]
    rfl
  · intro found
    obtain ⟨e, first, rfl⟩ := Option.map_eq_some_iff.mp found
    have same : e.1 = k := by simpa using List.find?_some first
    rw [← same]
    exact List.mem_of_find?_eq_some first

@[simp] theorem find_empty (k : κ) : (empty : OrderedMap κ α).find k = none := rfl

theorem find_set (m : OrderedMap κ α) (k l : κ) (a : α) :
    (m.set k a).find l = if l = k then some a else m.find l := by
  apply Option.ext
  intro b
  rw [← mem_entries]
  unfold set
  rw [List.mem_append, List.mem_cons, List.mem_filter, List.mem_filter, mem_entries]
  by_cases same : l = k
  · simp [same, eq_comm]
  · have other := lt_or_gt_of_ne same
    simp only [same, decide_eq_true_eq, Prod.mk.injEq, false_and, false_or, if_false, ← and_or_left]
    exact and_iff_left other

theorem find_erase (m : OrderedMap κ α) (k l : κ) : (m.erase k).find l = if l = k then none else m.find l := by
  apply Option.ext
  intro b
  rw [← mem_entries]
  unfold erase
  rw [List.mem_filter, mem_entries]
  by_cases same : l = k
  · simp [same]
  · simp [same]

theorem length_set (m : OrderedMap κ α) (k : κ) (a : α) :
    (m.set k a).entries.length + (m.entries.filter fun e => e.1 = k).length = m.entries.length + 1 := by
  have parts (entries : List (κ × α)) : (entries.filter fun e => e.1 < k).length +
      (entries.filter fun e => k < e.1).length + (entries.filter fun e => e.1 = k).length = entries.length := by
    induction entries with
    | nil => rfl
    | cons e entries ih =>
      rcases lt_trichotomy e.1 k with below | same | above
      · simp only [List.filter_cons, below, below.ne, not_lt_of_gt below, decide_true, decide_false, if_true, if_false,
          List.length_cons, Bool.false_eq_true]
        omega
      · simp only [List.filter_cons, same, lt_irrefl, decide_true, decide_false, if_true, if_false, List.length_cons,
          Bool.false_eq_true]
        omega
      · simp only [List.filter_cons, above, above.ne', not_lt_of_gt above, decide_true, decide_false, if_true, if_false,
          List.length_cons, Bool.false_eq_true]
        omega
  have split := parts m.entries
  simp only [set, List.length_append, List.length_cons]
  omega

theorem length_set_le (m : OrderedMap κ α) (k : κ) (a : α) : (m.set k a).entries.length ≤ m.entries.length + 1 := by
  have length := m.length_set k a
  omega

theorem length_set_of_find (found : m.find k = some b) (a : α) : (m.set k a).entries.length ≤ m.entries.length := by
  have member : (k, b) ∈ m.entries.filter fun e => e.1 = k :=
    List.mem_filter.mpr ⟨mem_entries.mpr found, decide_eq_true rfl⟩
  have filled := List.length_pos_of_mem member
  have length := m.length_set k a
  omega

theorem erase_absent (absent : m.find k = none) : (m.erase k).entries = m.entries := by
  apply List.filter_eq_self.mpr
  intro e member
  have other : e.1 ≠ k := by
    rintro rfl
    rw [mem_entries.mp member] at absent
    cases absent
  exact decide_eq_true other

theorem nodup_entries (m : OrderedMap κ α) : m.entries.Nodup := m.nodup_keys.of_map _

theorem nodup_cons_erase (m : OrderedMap κ α) (k : κ) (a : α) : ((k, a) :: (m.erase k).entries).Nodup := by
  rw [List.nodup_cons, mem_entries, find_erase, if_pos rfl]
  exact ⟨Option.some_ne_none a ∘ Eq.symm, (m.erase k).nodup_entries⟩

theorem mem_cons_erase : (l, b) ∈ (k, a) :: (m.erase k).entries ↔ (if l = k then some a else m.find l) = some b := by
  rw [List.mem_cons, mem_entries, find_erase, Prod.mk.injEq]
  by_cases same : l = k
  · simp [same, eq_comm]
  · simp [same]

/-- What is stored under a key, and the entries of the others. -/
theorem perm_of_find (found : m.find k = some a) : m.entries.Perm ((k, a) :: (m.erase k).entries) := by
  rw [List.perm_ext_iff_of_nodup m.nodup_entries (m.nodup_cons_erase k a)]
  rintro ⟨l, b⟩
  rw [mem_cons_erase, mem_entries]
  split
  · next same => rw [same, found]
  · rfl

theorem perm_set (m : OrderedMap κ α) (k : κ) (a : α) : (m.set k a).entries.Perm ((k, a) :: (m.erase k).entries) := by
  rw [List.perm_ext_iff_of_nodup (m.set k a).nodup_entries (m.nodup_cons_erase k a)]
  rintro ⟨l, b⟩
  rw [mem_cons_erase, mem_entries, find_set]

theorem length_erase_le (m : OrderedMap κ α) (k : κ) : (m.erase k).entries.length ≤ m.entries.length :=
  List.length_filter_le _ _

/-! ### Another value in the place of each -/

variable {β : Type*}

def map (f : α → β) (m : OrderedMap κ α) : OrderedMap κ β :=
  ⟨m.entries.map fun e => (e.1, f e.2), List.pairwise_map.mpr m.sorted⟩

theorem eq_of_entries {m n : OrderedMap κ α} (same : m.entries = n.entries) : m = n := by
  cases m
  cases n
  cases same
  rfl

theorem find_map (f : α → β) (m : OrderedMap κ α) (k : κ) : (m.map f).find k = (m.find k).map f := by
  unfold find map
  rw [List.find?_map, Option.map_map, Option.map_map]
  rfl

theorem map_set (f : α → β) (m : OrderedMap κ α) (k : κ) (a : α) : (m.set k a).map f = (m.map f).set k (f a) := by
  apply eq_of_entries
  unfold set map
  dsimp only
  rw [List.map_append, List.map_cons, List.filter_map, List.filter_map]
  rfl

theorem map_congr {f g : α → β} {m : OrderedMap κ α} (same : ∀ e ∈ m.entries, f e.2 = g e.2) : m.map f = m.map g := by
  apply eq_of_entries
  apply List.map_congr_left
  intro e member
  rw [same e member]

end OrderedMap

end LiveStreaming.Library
