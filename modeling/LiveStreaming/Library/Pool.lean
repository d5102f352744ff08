import Mathlib.Data.List.AList

/-!
# Keyed pools

A `std::map` from keys to values is an association list without duplicate keys. `traverse` is a
loop over all its values that may fail at any of them.
-/

namespace LiveStreaming.Library

abbrev Pool (κ α : Type*) := AList fun _ : κ => α

namespace Pool

variable {κ : Type*} {α β : Type*} [DecidableEq κ]

/-- `f` applied to every value; `none` if it fails at one of them. -/
def traverse (f : α → Option β) (p : Pool κ α) : Option (Pool κ β) :=
  (p.entries.mapM fun e => (f e.2).map (Sigma.mk e.1)).map List.toAList

theorem dlookup_mapM {f : α → Option β} {k : κ} {es : List (Sigma fun _ : κ => α)}
    {es' : List (Sigma fun _ : κ => β)} (h : es.mapM (fun e => (f e.2).map (Sigma.mk e.1)) = some es') :
    es'.dlookup k = (es.dlookup k).bind f := by
  induction es generalizing es' with
  | nil =>
    obtain rfl : [] = es' := by simpa using h
    simp
  | cons e es ih =>
    rw [List.mapM_cons] at h
    simp only [Option.bind_eq_bind, Option.bind_eq_some_iff, Option.map_eq_some_iff, Option.pure_def,
      Option.some.injEq] at h
    obtain ⟨_, ⟨b, applied, rfl⟩, rest, mapped, rfl⟩ := h
    obtain ⟨key, a⟩ := e
    by_cases same : k = key
    · subst same
      simp only [List.dlookup_cons_eq, Option.bind_some]
      exact applied.symm
    · rw [List.dlookup_cons_ne _ _ (by simpa using same), List.dlookup_cons_ne _ _ (by simpa using same)]
      exact ih mapped

theorem lookup_traverse {f : α → Option β} {p : Pool κ α} {p' : Pool κ β} (h : traverse f p = some p') (k : κ) :
    p'.lookup k = (p.lookup k).bind f := by
  rw [traverse, Option.map_eq_some_iff] at h
  obtain ⟨es, mapped, rfl⟩ := h
  rw [AList.lookup_to_alist]
  exact dlookup_mapM mapped

theorem traverse_isSome {f : α → Option β} {p : Pool κ α} (ok : ∀ k a, p.lookup k = some a → (f a).isSome) :
    (traverse f p).isSome := by
  have each : ∀ e ∈ p.entries, (f e.2).isSome := by
    rintro ⟨k, a⟩ member
    exact ok k a (AList.mem_lookup_iff.mpr member)
  rw [traverse, Option.isSome_map]
  generalize p.entries = entries at each
  induction entries with
  | nil => rfl
  | cons e es ih =>
    obtain ⟨b, applied⟩ := Option.isSome_iff_exists.mp (each e List.mem_cons_self)
    obtain ⟨rest, mapped⟩ := Option.isSome_iff_exists.mp (ih fun e member => each e (List.mem_cons_of_mem _ member))
    rw [List.mapM_cons]
    simp [applied, mapped]

end Pool

end LiveStreaming.Library
