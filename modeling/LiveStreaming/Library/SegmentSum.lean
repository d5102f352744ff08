import Mathlib.Algebra.Order.Group.Defs
import Mathlib.Algebra.BigOperators.Group.List.Basic
import Mathlib.Order.Lattice

/-!
# Largest sums

The largest sum of a part of a list: of any part, of one at its front and of one at its end. The empty part counts.
-/

namespace LiveStreaming.Library.SegmentSum

variable {α : Type} [AddCommGroup α] [LinearOrder α] [IsOrderedAddMonoid α]

/-- The largest sum of such parts. -/
structure Greatest (part : List α → Prop) (sum : α) : Prop where
  reached : ∃ s, part s ∧ s.sum = sum
  bound : ∀ s, part s → s.sum ≤ sum

/-- The largest sum of a part. -/
def BestSum (l : List α) : α → Prop := Greatest (· <:+: l)

def BestFront (l : List α) : α → Prop := Greatest (· <+: l)

def BestEnd (l : List α) : α → Prop := Greatest (· <:+ l)

section Greatest

variable {part part' : List α → Prop} {sum sum' : α}

omit [IsOrderedAddMonoid α] in
theorem Greatest.unique (one : Greatest part sum) (two : Greatest part sum') : sum = sum' := by
  obtain ⟨s, here, rfl⟩ := one.reached
  obtain ⟨s', there, rfl⟩ := two.reached
  exact le_antisymm (two.bound s here) (one.bound s' there)

omit [IsOrderedAddMonoid α] in
theorem Greatest.congr (greatest : Greatest part sum) (same : ∀ s, part' s ↔ part s) : Greatest part' sum := by
  obtain ⟨s, here, total⟩ := greatest.reached
  exact ⟨⟨s, (same s).mpr here, total⟩, fun s there => greatest.bound s ((same s).mp there)⟩

omit [IsOrderedAddMonoid α] in
theorem Greatest.or (one : Greatest part sum) (two : Greatest part' sum') :
    Greatest (fun s => part s ∨ part' s) (max sum sum') where
  reached := by
    rcases le_total sum sum' with less | more
    · obtain ⟨s, here, total⟩ := two.reached
      exact ⟨s, .inr here, total.trans (max_eq_right less).symm⟩
    · obtain ⟨s, here, total⟩ := one.reached
      exact ⟨s, .inl here, total.trans (max_eq_left more).symm⟩
  bound := by
    rintro s (here | here)
    · exact le_trans (one.bound s here) (le_max_left sum sum')
    · exact le_trans (two.bound s here) (le_max_right sum sum')

omit [IsOrderedAddMonoid α] in
theorem Greatest.single (l : List α) : Greatest (· = l) l.sum :=
  ⟨⟨l, rfl, rfl⟩, fun _ same => le_of_eq (congrArg List.sum same)⟩

theorem Greatest.append (one : Greatest part sum) (two : Greatest part' sum') :
    Greatest (fun s => ∃ l l', s = l ++ l' ∧ part l ∧ part' l') (sum + sum') where
  reached := by
    obtain ⟨l, here, total⟩ := one.reached
    obtain ⟨l', here', total'⟩ := two.reached
    exact ⟨l ++ l', ⟨l, l', rfl, here, here'⟩, by rw [List.sum_append, total, total']⟩
  bound := by
    rintro _ ⟨l, l', rfl, here, here'⟩
    rw [List.sum_append]
    exact add_le_add (one.bound l here) (two.bound l' here')

end Greatest

variable {l l' : List α} {best best' front end_ x : α}

omit [IsOrderedAddMonoid α] in
theorem bestSum_nil : BestSum ([] : List α) 0 :=
  (Greatest.single []).congr fun _ => List.infix_nil

omit [IsOrderedAddMonoid α] in
theorem bestFront_nil : BestFront ([] : List α) 0 :=
  (Greatest.single []).congr fun _ => List.prefix_nil

omit [IsOrderedAddMonoid α] in
theorem bestEnd_nil : BestEnd ([] : List α) 0 :=
  (Greatest.single []).congr fun _ => List.suffix_nil

omit [IsOrderedAddMonoid α] in
/-- One element more behind: the only new part at the front is the whole list. -/
theorem BestFront.concat (largest : BestFront l front) (x : α) : BestFront (l ++ [x]) (max (l.sum + x) front) := by
  have whole := Greatest.single (l ++ [x])
  rw [List.sum_append, List.sum_singleton] at whole
  exact (whole.or largest).congr fun _ => List.prefix_concat_iff

omit [IsOrderedAddMonoid α] in
theorem BestEnd.cons (largest : BestEnd l end_) (x : α) : BestEnd (x :: l) (max (x + l.sum) end_) := by
  have whole := Greatest.single (x :: l)
  rw [List.sum_cons] at whole
  exact (whole.or largest).congr fun _ => List.suffix_cons_iff

/-- The new parts at the end are the old ones with the element behind, and the empty one. -/
theorem BestEnd.concat (largest : BestEnd l end_) (x : α) : BestEnd (l ++ [x]) (max 0 (end_ + x)) := by
  have longer := largest.append (Greatest.single [x])
  rw [List.sum_singleton] at longer
  refine ((Greatest.single []).or longer).congr fun s => ?_
  rw [List.suffix_concat_iff]
  refine or_congr_right ⟨?_, ?_⟩
  · rintro ⟨t, same, here⟩
    exact ⟨t, [x], same, here, rfl⟩
  · rintro ⟨t, _, same, here, rfl⟩
    exact ⟨t, same, here⟩

omit [IsOrderedAddMonoid α] in
theorem BestSum.concat (largest : BestSum l best) (atEnd : BestEnd (l ++ [x]) end_) :
    BestSum (l ++ [x]) (max end_ best) :=
  (Greatest.or atEnd largest).congr fun _ => List.infix_concat_iff

/-- A part lies in one of two lists, or it is the end of one with the front of the other. -/
theorem BestSum.append (one : BestSum l best) (two : BestSum l' best') (atEnd : BestEnd l end_)
    (atFront : BestFront l' front) : BestSum (l ++ l') (max best (max best' (end_ + front))) :=
  (Greatest.or one (Greatest.or two (Greatest.append atEnd atFront))).congr fun _ => List.infix_append_iff

end LiveStreaming.Library.SegmentSum
