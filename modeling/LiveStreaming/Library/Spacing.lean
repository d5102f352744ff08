import Mathlib.Data.List.Basic

/-!
# Marks and the runs between them

A list that grows at its end, by a pair of marks or by an item. Between one pair of marks and the next
there are at most as many items as the limit says.
-/

namespace LiveStreaming.Library

variable {α : Type*} {first second body : α → Prop} {limit n : ℕ} {items : List α}

/-- The number counts the items behind the last pair of marks. -/
inductive Spaced (first second body : α → Prop) (limit : ℕ) : ℕ → List α → Prop where
  | opened {a b : α} (isFirst : first a) (isSecond : second b) : Spaced first second body limit 0 [a, b]
  | marked {n : ℕ} {items : List α} {a b : α} (before : Spaced first second body limit n items) (isFirst : first a)
      (isSecond : second b) : Spaced first second body limit 0 (items ++ [a, b])
  | item {n : ℕ} {items : List α} {x : α} (before : Spaced first second body limit n items) (room : n < limit)
      (isBody : body x) : Spaced first second body limit (n + 1) (items ++ [x])

namespace Spaced

theorem opens (spaced : Spaced first second body limit n items) :
    ∃ a b rest, items = a :: b :: rest ∧ first a ∧ second b := by
  induction spaced with
  | opened isFirst isSecond => exact ⟨_, _, [], rfl, isFirst, isSecond⟩
  | marked _ _ _ ih =>
    obtain ⟨a, b, rest, rfl, isFirst, isSecond⟩ := ih
    exact ⟨a, b, _, rfl, isFirst, isSecond⟩
  | item _ _ _ ih =>
    obtain ⟨a, b, rest, rfl, isFirst, isSecond⟩ := ih
    exact ⟨a, b, _, rfl, isFirst, isSecond⟩

theorem count_le (spaced : Spaced first second body limit n items) : n ≤ limit := by
  cases spaced with
  | opened => exact Nat.zero_le _
  | marked => exact Nat.zero_le _
  | item _ room _ => exact room

/-- No run of items reaches back across a mark. -/
theorem no_mark {run : List α} {x : α} (suffix : run <:+ items ++ [x]) (all : ∀ y ∈ run, body y) (mark : ¬ body x) :
    run = [] := by
  rcases List.suffix_concat_iff.mp suffix with rfl | ⟨t, rfl, _⟩
  · rfl
  · exact absurd (all x (List.mem_append_right t List.mem_cons_self)) mark

theorem suffix_le (marks : ∀ x, body x → ¬ second x) (spaced : Spaced first second body limit n items) {run : List α}
    (suffix : run <:+ items) (all : ∀ x ∈ run, body x) : run.length ≤ n := by
  induction spaced generalizing run with
  | @opened a b _ isSecond =>
    obtain rfl := @no_mark _ body [a] run b suffix all fun isBody => marks b isBody isSecond
    exact Nat.le_refl 0
  | @marked n items a b _ _ isSecond _ =>
    rw [← List.singleton_append, ← List.append_assoc] at suffix
    obtain rfl := @no_mark _ body (items ++ [a]) run b suffix all fun isBody => marks b isBody isSecond
    exact Nat.le_refl 0
  | @item n items x _ _ _ ih =>
    rcases List.suffix_concat_iff.mp suffix with rfl | ⟨t, rfl, before⟩
    · exact Nat.zero_le _
    · rw [List.length_append]
      exact Nat.succ_le_succ (ih before fun y member => all y (List.mem_append_left _ member))

theorem infix_le (marks : ∀ x, body x → ¬ first x ∧ ¬ second x) (spaced : Spaced first second body limit n items)
    {run : List α} (within : run <:+: items) (all : ∀ x ∈ run, body x) : run.length ≤ limit := by
  have ends {n : ℕ} {items : List α} (spaced : Spaced first second body limit n items) (suffix : run <:+ items) :
      run.length ≤ limit :=
    Nat.le_trans (spaced.suffix_le (fun x isBody => (marks x isBody).2) suffix all) spaced.count_le
  induction spaced with
  | @opened a b isFirst isSecond =>
    rcases List.infix_concat_iff.mp (show run <:+: [a] ++ [b] from within) with suffix | within
    · exact ends (.opened isFirst isSecond) suffix
    rcases List.infix_concat_iff.mp (show run <:+: [] ++ [a] from within) with suffix | within
    · obtain rfl := @no_mark _ body [] run a suffix all fun isBody => (marks a isBody).1 isFirst
      exact Nat.zero_le _
    · rw [List.infix_nil.mp within]
      exact Nat.zero_le _
  | @marked n items a b before isFirst isSecond ih =>
    have split : items ++ [a, b] = items ++ [a] ++ [b] := by rw [List.append_assoc, List.singleton_append]
    rcases List.infix_concat_iff.mp (split ▸ within) with suffix | within
    · exact ends (.marked before isFirst isSecond) (split ▸ suffix)
    rcases List.infix_concat_iff.mp within with suffix | within
    · obtain rfl := no_mark suffix all fun isBody => (marks a isBody).1 isFirst
      exact Nat.zero_le _
    · exact ih within
  | item before room isBody ih =>
    rcases List.infix_concat_iff.mp within with suffix | within
    · exact ends (.item before room isBody) suffix
    · exact ih within

end Spaced

end LiveStreaming.Library
