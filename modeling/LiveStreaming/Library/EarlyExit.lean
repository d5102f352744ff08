/-!
# Early exits

A body with `return` in the middle is a chain of `Except` phases whose errors are the ways to leave.
`Ends post next` says what holds where the body leaves and where it goes on.
-/

namespace LiveStreaming.Library.EarlyExit

variable {ε α β : Type}

def Ends (post : ε → Prop) (next : α → Prop) : Except ε α → Prop
  | .error left => post left
  | .ok a => next a

theorem Ends.bind {post : ε → Prop} {next : α → Prop} {next' : β → Prop} {first : Except ε α} {rest : α → Except ε β}
    (h : Ends post next first) (then_ : ∀ a, next a → Ends post next' (rest a)) : Ends post next' (first >>= rest) := by
  cases first with
  | error left => exact h
  | ok a => exact then_ a h

theorem Ends.mono {post post' : ε → Prop} {next next' : α → Prop} {body : Except ε α} (h : Ends post next body)
    (left : ∀ e, post e → post' e) (on : ∀ a, next a → next' a) : Ends post' next' body := by
  cases body with
  | error e => exact left e h
  | ok a => exact on a h

/-- A phase for each element of a list, with an invariant that speaks of the phases still to come. -/
theorem Ends.foldlM {γ : Type} {post : ε → Prop} {I : List γ → α → Prop} {f : α → γ → Except ε α}
    (step : ∀ x rest a, I (x :: rest) a → Ends post (I rest) (f a x)) (xs : List γ) (a : α) (h : I xs a) :
    Ends post (I []) (xs.foldlM f a) := by
  induction xs generalizing a with
  | nil => exact h
  | cons x rest ih =>
    rw [List.foldlM_cons]
    exact (step x rest a h).bind fun a' => ih a'

theorem Ends.of_ok {post : ε → Prop} {next : α → Prop} {body : Except ε α} {a : α} (h : Ends post next body)
    (ran : body = .ok a) : next a := by
  rw [ran] at h
  exact h

theorem Ends.exact {post : ε → Prop} {next : α → Prop} {body : Except ε α} (h : Ends post next body) :
    Ends post (fun a => body = .ok a) body := by
  cases body with
  | error _ => exact h
  | ok _ => rfl

/-- A body that has gone on to its end has gone through its first phase. -/
theorem bind_ok {first : Except ε α} {rest : α → Except ε β} {b : β} (ran : first >>= rest = .ok b) :
    ∃ a, first = .ok a ∧ rest a = .ok b := by
  cases first with
  | error left => cases ran
  | ok a => exact ⟨a, rfl, ran⟩

end LiveStreaming.Library.EarlyExit
