import Mathlib.Data.List.Basic

/-!
# Partial step functions and their runs

A system is a function that takes a state and an event to the next state, where it has one. A run may
be restricted to steps that satisfy a condition on the state before the step and the event.
-/

namespace LiveStreaming.Library.Transition

variable {σ ε : Type*}

/-- The states that runs from `start` reach by steps that are all `allowed`. -/
inductive Reach (step : σ → ε → Option σ) (allowed : σ → ε → Prop) (start : σ) : σ → Prop where
  | refl : Reach step allowed start start
  | tail {s s' : σ} {e : ε} (before : Reach step allowed start s) (ok : allowed s e) (next : step s e = some s') :
      Reach step allowed start s'

variable {step : σ → ε → Option σ} {allowed : σ → ε → Prop} {start s : σ}

/-- What holds at the start and is kept by every allowed step holds in every state reached. -/
theorem Reach.invariant {I : σ → Prop} (base : I start)
    (keeps : ∀ s e s', I s → allowed s e → step s e = some s' → I s') (run : Reach step allowed start s) :
    I s := by
  induction run with
  | refl => exact base
  | tail _ ok next ih => exact keeps _ _ _ ih ok next

/-- The same, with an invariant already known. -/
theorem Reach.invariant_with {K I : σ → Prop} (holds : ∀ s, Reach step allowed start s → K s)
    (base : I start) (keeps : ∀ s e s', K s → I s → allowed s e → step s e = some s' → I s')
    (run : Reach step allowed start s) : I s := by
  induction run with
  | refl => exact base
  | tail before ok next ih => exact keeps _ _ _ (holds _ before) ih ok next

def exec (step : σ → ε → Option σ) : σ → List ε → Option σ
  | s, [] => some s
  | s, e :: events => (step s e).bind (exec step · events)

theorem exec_append (events more : List ε) (s : σ) :
    exec step s (events ++ more) = (exec step s events).bind (exec step · more) := by
  induction events generalizing s with
  | nil => rfl
  | cons e events ih =>
    rw [List.cons_append, exec, exec, Option.bind_assoc]
    exact congrArg _ (funext ih)

theorem exec_snoc {events : List ε} {e : ε} {s' : σ} (ran : exec step s (events ++ [e]) = some s') :
    ∃ mid, exec step s events = some mid ∧ step mid e = some s' := by
  rw [exec_append] at ran
  obtain ⟨mid, before, last⟩ := Option.bind_eq_some_iff.mp ran
  obtain ⟨end_, stepped, is⟩ := Option.bind_eq_some_iff.mp last
  obtain rfl := Option.some.inj is
  exact ⟨mid, before, stepped⟩

theorem reach_of_exec {events : List ε} {s₁ s₂ : σ} (reached : Reach step allowed start s₁)
    (free : ∀ e ∈ events, ∀ s, allowed s e) (ran : exec step s₁ events = some s₂) : Reach step allowed start s₂ := by
  induction events generalizing s₁ with
  | nil =>
    obtain rfl := Option.some.inj ran
    exact reached
  | cons e events ih =>
    obtain ⟨s, next, rest⟩ := Option.bind_eq_some_iff.mp ran
    exact ih (.tail reached (free e List.mem_cons_self _) next) (fun e member => free e (List.mem_cons_of_mem _ member))
      rest

/-- A run whose steps are checked one by one. -/
theorem reach_of_checked [∀ s e, Decidable (allowed s e)] {events : List ε} {s₁ s₂ : σ}
    (reached : Reach step allowed start s₁)
    (ran : exec (fun s e => if allowed s e then step s e else none) s₁ events = some s₂) :
    Reach step allowed start s₂ := by
  induction events generalizing s₁ with
  | nil =>
    obtain rfl := Option.some.inj ran
    exact reached
  | cons e events ih =>
    obtain ⟨s, next, rest⟩ := Option.bind_eq_some_iff.mp ran
    dsimp only at next
    split at next
    · next ok => exact ih (.tail reached ok next) rest
    · cases next

end LiveStreaming.Library.Transition
