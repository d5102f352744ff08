import Mathlib.Logic.Function.Basic
import Mathlib.Tactic.ByContra

/-!
# One static state behind many parties

A callback that keeps its progress in static variables serves all its parties from one state. It can
remember one of them at a time: `Holds` says that it remembers a party as it ought to, `Idle` that there is
nothing to remember of a party, and `Fresh` that the state remembers nothing.
-/

namespace LiveStreaming.Library

variable {κ α σ : Type*}

structure Exclusive (Holds : σ → α → Prop) (Idle : α → Prop) (Fresh : σ → Prop) (s : σ)
    (parties : κ → Option α) : Prop where
  holds : ∀ k a, parties k = some a → ¬ Idle a → Holds s a
  rest : (∀ k a, parties k = some a → Idle a) → Fresh s

/-- The parties other than `k` are idle. -/
def OthersIdle (Idle : α → Prop) (parties : κ → Option α) (k : κ) : Prop :=
  ∀ l b, l ≠ k → parties l = some b → Idle b

namespace Exclusive

variable {Holds : σ → α → Prop} {Idle : α → Prop} {Fresh : σ → Prop} {s s' : σ} {parties : κ → Option α}

theorem none (fresh : Fresh s) : Exclusive Holds Idle Fresh s fun _ : κ => Option.none where
  holds := fun k a found => by cases found
  rest := fun _ => fresh

/-- Where all the others are idle, the state remembers the party that is left. -/
theorem own (exclusive : Exclusive Holds Idle Fresh s parties)
    (blank : ∀ a, Idle a → Fresh s → Holds s a) {k : κ} {a : α}
    (found : parties k = some a) (others : OthersIdle Idle parties k) : Holds s a := by
  by_cases idle : Idle a
  · refine blank a idle (exclusive.rest fun l b also => ?_)
    by_cases same : l = k
    · rw [same, found] at also
      rwa [← Option.some.inj also]
    · exact others l b same also
  · exact exclusive.holds k a found idle

variable [DecidableEq κ]

theorem updated {k l : κ} {a b : α} (found : Function.update parties k (some a) l = some b) :
    (l = k ∧ b = a) ∨ (l ≠ k ∧ parties l = some b) := by
  rw [Function.update_apply] at found
  split at found
  · next same => exact .inl ⟨same, (Option.some.inj found).symm⟩
  · next different => exact .inr ⟨different, found⟩

theorem join (exclusive : Exclusive Holds Idle Fresh s parties) {k : κ} {a : α} (new : parties k = .none)
    (idle : Idle a) :
    Exclusive Holds Idle Fresh s (Function.update parties k (some a)) where
  holds := by
    intro l b found busy
    rcases updated found with ⟨_, rfl⟩ | ⟨_, found⟩
    · exact (busy idle).elim
    · exact exclusive.holds l b found busy
  rest := by
    intro all
    refine exclusive.rest fun l b found => all l b ?_
    rw [Function.update_of_ne, found]
    rintro rfl
    rw [new] at found
    cases found

theorem called {k : κ} {a : α} (others : OthersIdle Idle parties k) (holds : ¬ Idle a → Holds s' a)
    (fresh : Idle a → Fresh s') : Exclusive Holds Idle Fresh s' (Function.update parties k (some a)) where
  holds := by
    intro l b found busy
    rcases updated found with ⟨_, rfl⟩ | ⟨different, found⟩
    · exact holds busy
    · exact (busy (others l b different found)).elim
  rest := fun all => fresh (all k a (Function.update_self k (some a) parties))

end Exclusive

end LiveStreaming.Library
