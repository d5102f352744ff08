import LiveStreaming.Library.Transition
import Mathlib.Data.List.Perm.Basic
import Mathlib.Tactic.Common

/-!
# The timers of the event loop

`event_timeout` sorts a timer into the list, `event_timeout_delete` takes the first one of a callback and an argument
out, and `eventloop` takes the head when `select` times out. Callbacks call the first two at any time.
`timers_in_order` shows that over every run each timer is called back or deleted once, and that none is called back
while one is pending that is due earlier, or as early and was registered before it.
-/

namespace LiveStreaming.Rudp
open Library.Transition

structure Timeval where
  sec : Int
  usec : Int
  deriving DecidableEq

/-- `timercmp( a, b, < )` -/
def Timeval.before (a b : Timeval) : Bool := if a.sec = b.sec then a.usec < b.usec else a.sec < b.sec

/-- A timer, with the number of timers that were registered before it. -/
structure EventData (F A : Type) where
  fn : F
  time : Timeval
  arg : A
  serial : Nat

variable {F A : Type} [DecidableEq F] [DecidableEq A]

/-- Sorted into the right place: before the first timer that is due later. -/
def eventTimeout (e : EventData F A) : List (EventData F A) → List (EventData F A)
  | [] => [e]
  | e1 :: rest => if e.time.before e1.time then e :: e1 :: rest else e1 :: eventTimeout e rest

/-- The first timer of the callback and the argument is taken out. -/
def eventDelete (fn : F) (arg : A) : List (EventData F A) → List (EventData F A)
  | [] => []
  | e :: rest => if fn = e.fn ∧ arg = e.arg then rest else e :: eventDelete fn arg rest

/-- What is pending, and what has become of the timers that were registered: each that was called back stands with
those that were pending then. -/
structure EventLoop (F A : Type) where
  eeTimers : List (EventData F A)
  registered : List (EventData F A)
  fired : List (EventData F A × List (EventData F A))
  deleted : List (EventData F A)

inductive EventCall (F A : Type) where
  | timeout (t : Timeval) (fn : F) (arg : A)
  | timeoutDelete (fn : F) (arg : A)
  | expire

/-- What a call registers. -/
def EventCall.asks : EventCall F A → Option (Timeval × F × A)
  | .timeout t fn arg => some (t, fn, arg)
  | _ => none

namespace EventLoop

def start : EventLoop F A := { eeTimers := [], registered := [], fired := [], deleted := [] }

def step (s : EventLoop F A) : EventCall F A → Option (EventLoop F A)
  | .timeout t fn arg =>
    let e := { fn := fn, time := t, arg := arg, serial := s.registered.length }
    some { s with eeTimers := eventTimeout e s.eeTimers, registered := s.registered ++ [e] }
  | .timeoutDelete fn arg =>
    some { s with
      eeTimers := eventDelete fn arg s.eeTimers
      deleted := s.deleted ++ (s.eeTimers.find? fun e => fn = e.fn ∧ arg = e.arg).toList }
  | .expire =>
    match s.eeTimers with
    | [] => none
    | e :: rest => some { s with eeTimers := rest, fired := s.fired ++ [(e, rest)] }

end EventLoop

/-! ### The order of the list -/

theorem Timeval.before_trans {a b c : Timeval} (one : a.before b = true) (two : b.before c = true) :
    a.before c = true := by
  unfold before at *
  split at one <;> split at two <;> split <;> simp only [decide_eq_true_eq] at * <;> omega

theorem Timeval.eq_or_before {a b : Timeval} (not_less : a.before b = false) : b = a ∨ b.before a = true := by
  obtain ⟨sec, usec⟩ := a
  obtain ⟨sec', usec'⟩ := b
  unfold before at *
  simp only [Timeval.mk.injEq] at *
  split at not_less <;> split <;> simp only [decide_eq_false_iff_not, decide_eq_true_eq] at * <;> omega

/-- The timer is called back first of the two. -/
def Sooner (e e' : EventData F A) : Prop :=
  e.time.before e'.time = true ∨ (e.time = e'.time ∧ e.serial < e'.serial)

variable {e e' : EventData F A} {timers : List (EventData F A)} {fn : F} {arg : A} {s s' : EventLoop F A}

omit [DecidableEq F] [DecidableEq A]

theorem Sooner.trans_before (one : e.time.before e'.time = true) {e'' : EventData F A} (two : Sooner e' e'') :
    Sooner e e'' := by
  rcases two with less | ⟨same, _⟩
  · exact .inl (Timeval.before_trans one less)
  · exact .inl (same ▸ one)

theorem mem_eventTimeout {x : EventData F A} : x ∈ eventTimeout e timers ↔ x = e ∨ x ∈ timers := by
  induction timers with
  | nil => simp [eventTimeout]
  | cons e1 rest ih =>
    rw [eventTimeout]
    split
    · exact List.mem_cons
    · rw [List.mem_cons, ih, List.mem_cons]
      exact or_left_comm

theorem eventTimeout_perm (e : EventData F A) (timers : List (EventData F A)) :
    (eventTimeout e timers).Perm (e :: timers) := by
  induction timers with
  | nil => exact .refl _
  | cons e1 rest ih =>
    rw [eventTimeout]
    split
    · exact .refl _
    · exact (ih.cons e1).trans (.swap e e1 rest)

/-- A timer that was registered last goes behind those that are due as early. -/
theorem eventTimeout_sorted (sorted : timers.Pairwise Sooner) (last : ∀ e' ∈ timers, e'.serial < e.serial) :
    (eventTimeout e timers).Pairwise Sooner := by
  induction timers with
  | nil => exact List.pairwise_singleton _ e
  | cons e1 rest ih =>
    obtain ⟨first, sorted'⟩ := List.pairwise_cons.mp sorted
    rw [List.forall_mem_cons] at last
    rw [eventTimeout]
    split
    · next less =>
      refine List.pairwise_cons.mpr ⟨?_, sorted⟩
      rw [List.forall_mem_cons]
      exact ⟨.inl less, fun e' there => Sooner.trans_before less (first e' there)⟩
    · next not_less =>
      refine List.pairwise_cons.mpr ⟨?_, ih sorted' last.2⟩
      intro e' there
      rcases mem_eventTimeout.mp there with rfl | old
      · rcases Timeval.eq_or_before (eq_false_of_ne_true not_less) with same | less
        · exact .inr ⟨same, last.1⟩
        · exact .inl less
      · exact first e' old

theorem eventDelete_sublist [DecidableEq F] [DecidableEq A] (fn : F) (arg : A) (timers : List (EventData F A)) :
    (eventDelete fn arg timers).Sublist timers := by
  induction timers with
  | nil => exact .refl _
  | cons e rest ih =>
    rw [eventDelete]
    split
    · exact List.sublist_cons_self e rest
    · exact ih.cons_cons e

/-- What is taken out is what the search for it finds. -/
theorem eventDelete_perm [DecidableEq F] [DecidableEq A] (fn : F) (arg : A) (timers : List (EventData F A)) :
    timers.Perm ((timers.find? fun e => fn = e.fn ∧ arg = e.arg).toList ++ eventDelete fn arg timers) := by
  induction timers with
  | nil => exact .refl _
  | cons e rest ih =>
    rw [eventDelete, List.find?_cons]
    by_cases here : fn = e.fn ∧ arg = e.arg
    · rw [if_pos here, decide_eq_true here]
      exact .refl _
    · rw [if_neg here, decide_eq_false here]
      exact (ih.cons e).trans List.perm_middle.symm

/-! ### Runs -/

/-- The timers are in order, and each that was registered is pending, called back or deleted. -/
structure InOrder (s : EventLoop F A) : Prop where
  sorted : s.eeTimers.Pairwise Sooner
  numbered : ∀ e ∈ s.registered, e.serial < s.registered.length
  kept : s.registered.Perm (s.fired.map Prod.fst ++ s.deleted ++ s.eeTimers)
  soonest : ∀ f ∈ s.fired, ∀ e ∈ f.2, Sooner f.1 e

theorem InOrder.pending (holds : InOrder s) (there : e ∈ s.eeTimers) : e ∈ s.registered :=
  holds.kept.mem_iff.mpr (List.mem_append_right _ there)

theorem inOrder_start : InOrder (EventLoop.start : EventLoop F A) where
  sorted := .nil
  numbered := by simp [EventLoop.start]
  kept := .refl _
  soonest := by simp [EventLoop.start]

theorem step_inOrder [DecidableEq F] [DecidableEq A] {call : EventCall F A} (holds : InOrder s)
    (stepped : s.step call = some s') : InOrder s' := by
  cases call with
  | timeout t fn arg =>
    obtain rfl := Option.some.inj stepped
    refine ⟨?_, ?_, ?_, holds.soonest⟩
    · exact eventTimeout_sorted holds.sorted fun e' there => holds.numbered e' (holds.pending there)
    · intro e there
      rw [List.length_append, List.length_singleton]
      rcases List.mem_append.mp there with old | new
      · exact Nat.lt_succ_of_lt (holds.numbered e old)
      · rw [List.mem_singleton.mp new]
        exact Nat.lt_succ_self _
    · refine (List.perm_append_singleton _ _).trans ((holds.kept.cons _).trans ?_)
      exact List.perm_middle.symm.trans ((eventTimeout_perm _ _).symm.append_left _)
  | timeoutDelete fn arg =>
    obtain rfl := Option.some.inj stepped
    refine ⟨holds.sorted.sublist (eventDelete_sublist fn arg _), holds.numbered, ?_, holds.soonest⟩
    refine holds.kept.trans (((eventDelete_perm fn arg s.eeTimers).append_left _).trans ?_)
    rw [← List.append_assoc, ← List.append_assoc, List.append_assoc (s.fired.map Prod.fst)]
  | expire =>
    rw [EventLoop.step] at stepped
    split at stepped
    · exact absurd stepped (by simp)
    · next e rest head =>
      obtain rfl := Option.some.inj stepped
      have sorted := holds.sorted
      have kept := holds.kept
      rw [head] at sorted kept
      obtain ⟨first, sorted⟩ := List.pairwise_cons.mp sorted
      refine ⟨sorted, holds.numbered, ?_, ?_⟩
      · refine kept.trans ?_
        rw [List.map_append, List.map_singleton, List.append_assoc, List.append_assoc, List.append_assoc]
        exact List.perm_middle.append_left _
      · intro f there
        rcases List.mem_append.mp there with old | new
        · exact holds.soonest f old
        · rw [List.mem_singleton.mp new]
          exact first

/-- By induction over the calls. -/
theorem run_inOrder [DecidableEq F] [DecidableEq A] {calls : List (EventCall F A)} (holds : InOrder s)
    (ran : exec EventLoop.step s calls = some s') : InOrder s' := by
  induction calls generalizing s with
  | nil =>
    obtain rfl := Option.some.inj ran
    exact holds
  | cons call calls ih =>
    obtain ⟨mid, stepped, ran⟩ := Option.bind_eq_some_iff.mp ran
    exact ih (step_inOrder holds stepped) ran

theorem run_registered [DecidableEq F] [DecidableEq A] {calls : List (EventCall F A)}
    (ran : exec EventLoop.step s calls = some s') :
    s'.registered.map (fun e => (e.time, e.fn, e.arg)) =
      s.registered.map (fun e => (e.time, e.fn, e.arg)) ++ calls.filterMap EventCall.asks := by
  induction calls generalizing s with
  | nil =>
    obtain rfl := Option.some.inj ran
    rw [List.filterMap_nil, List.append_nil]
  | cons call calls ih =>
    obtain ⟨mid, stepped, ran⟩ := Option.bind_eq_some_iff.mp ran
    rw [ih ran]
    cases call with
    | timeout t fn arg =>
      obtain rfl := Option.some.inj stepped
      rw [List.map_append, List.append_assoc]
      rfl
    | timeoutDelete fn arg =>
      obtain rfl := Option.some.inj stepped
      rfl
    | expire =>
      rw [EventLoop.step] at stepped
      split at stepped
      · exact absurd stepped (by simp)
      · obtain rfl := Option.some.inj stepped
        rfl

theorem timers_in_order [DecidableEq F] [DecidableEq A] {calls : List (EventCall F A)}
    (ran : exec EventLoop.step EventLoop.start calls = some s) :
    s.registered.map (fun e => (e.time, e.fn, e.arg)) = calls.filterMap EventCall.asks ∧
      s.registered.Perm (s.fired.map Prod.fst ++ s.deleted ++ s.eeTimers) ∧
      s.eeTimers.Pairwise Sooner ∧ ∀ f ∈ s.fired, ∀ e ∈ f.2, Sooner f.1 e :=
  have holds := run_inOrder inOrder_start ran
  ⟨run_registered ran, holds.kept, holds.sorted, holds.soonest⟩

/-- Two timers due at once and one before them, of which one is deleted. -/
def sampleCalls : List (EventCall Nat Nat) :=
  [.timeout ⟨2, 0⟩ 0 1, .timeout ⟨2, 0⟩ 0 2, .timeout ⟨1, 500000⟩ 0 3, .expire, .timeoutDelete 0 1, .expire]

theorem timers_in_order_sample :
    ∃ s, exec EventLoop.step EventLoop.start sampleCalls = some s ∧ s.fired.map (fun f => f.1.arg) = [3, 2] ∧
      s.registered.Perm (s.fired.map Prod.fst ++ s.deleted ++ s.eeTimers) ∧
      s.eeTimers.Pairwise Sooner ∧ ∀ f ∈ s.fired, ∀ e ∈ f.2, Sooner f.1 e := by
  obtain ⟨s, ran, order⟩ : ∃ s, exec EventLoop.step EventLoop.start sampleCalls = some s ∧
      s.fired.map (fun f => f.1.arg) = [3, 2] := ⟨_, rfl, rfl⟩
  exact ⟨s, ran, order, (timers_in_order ran).2⟩

end LiveStreaming.Rudp
