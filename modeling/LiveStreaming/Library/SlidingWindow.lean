import Mathlib.Data.List.Basic
import Mathlib.Logic.Relation

/-!
# A sliding window between one sender and one receiver

The sender numbers what it accepts and has at most `window` numbers sent and not acknowledged. What was once sent may
arrive at any time, more than once and in any order, or never. The receiver hands on the next number only, and an
acknowledgement names the first number that has not been handed on.
-/

namespace LiveStreaming.Library.SlidingWindow

structure Session (α : Type*) where
  accepted : List α
  base : Nat
  sent : Nat
  packets : List (Nat × α)
  handed : List α
  acks : List Nat

variable {α : Type*} {window : Nat} {s t : Session α}

def start (α : Type*) : Session α := ⟨[], 0, 0, [], [], []⟩

namespace Session

def accept (s : Session α) (x : α) : Session α := { s with accepted := s.accepted ++ [x] }

def send (s : Session α) (x : α) : Session α :=
  { s with sent := s.sent + 1, packets := s.packets ++ [(s.sent, x)] }

def hand (s : Session α) (x : α) : Session α :=
  { s with handed := s.handed ++ [x], acks := s.acks ++ [s.handed.length + 1] }

def learn (s : Session α) (n : Nat) : Session α := { s with base := max s.base n }

end Session

inductive Step (window : Nat) : Session α → Session α → Prop where
  | accept (s : Session α) (x : α) : Step window s (s.accept x)
  | send (s : Session α) {x : α} (room : s.sent < s.base + window) (next : s.accepted[s.sent]? = some x) :
      Step window s (s.send x)
  | hand (s : Session α) {x : α} (arrived : (s.handed.length, x) ∈ s.packets) : Step window s (s.hand x)
  | learn (s : Session α) {n : Nat} (arrived : n ∈ s.acks) : Step window s (s.learn n)

abbrev Steps (window : Nat) : Session α → Session α → Prop := Relation.ReflTransGen (Step window)

structure Holds (window : Nat) (s : Session α) : Prop where
  packet : ∀ k x, (k, x) ∈ s.packets → k < s.sent ∧ s.accepted[k]? = some x
  onWire : ∀ k, k < s.sent → ∃ x, (k, x) ∈ s.packets
  ack : ∀ n ∈ s.acks, n ≤ s.handed.length
  acked : ∀ n, 0 < n → n ≤ s.handed.length → n ∈ s.acks
  sent_accepted : s.sent ≤ s.accepted.length
  in_window : s.sent ≤ s.base + window
  base_handed : s.base ≤ s.handed.length
  handed_sent : s.handed.length ≤ s.sent
  in_order : s.handed <+: s.accepted

theorem start_holds : Holds window (start α) where
  packet k x arrived := by cases arrived
  onWire k early := absurd early (Nat.not_lt_zero k)
  ack n arrived := by cases arrived
  acked n positive small := absurd (Nat.lt_of_lt_of_le positive small) (Nat.lt_irrefl 0)
  sent_accepted := Nat.le_refl 0
  in_window := Nat.zero_le _
  base_handed := Nat.le_refl 0
  handed_sent := Nat.le_refl 0
  in_order := List.prefix_rfl

theorem accept_holds (holds : Holds window s) (x : α) : Holds window (s.accept x) := by
  have longer : (s.accept x).accepted.length = s.accepted.length + 1 := List.length_append
  refine { holds with packet := ?_, sent_accepted := ?_, in_order := holds.in_order.trans (List.prefix_append _ _) }
  · intro k y arrived
    obtain ⟨early, found⟩ := holds.packet k y arrived
    refine ⟨early, ?_⟩
    rw [← found]
    exact List.getElem?_append_left (Nat.lt_of_lt_of_le early holds.sent_accepted)
  · rw [longer]
    exact Nat.le_succ_of_le holds.sent_accepted

theorem send_holds (holds : Holds window s) {x : α} (room : s.sent < s.base + window)
    (next : s.accepted[s.sent]? = some x) : Holds window (s.send x) := by
  obtain ⟨inside, -⟩ := List.getElem?_eq_some_iff.mp next
  refine { holds with
    packet := ?_, onWire := ?_, sent_accepted := inside, in_window := room
    handed_sent := Nat.le_succ_of_le holds.handed_sent }
  · intro k y arrived
    rcases List.mem_append.mp arrived with before | now
    · obtain ⟨early, found⟩ := holds.packet k y before
      exact ⟨Nat.lt_succ_of_lt early, found⟩
    · obtain ⟨rfl, rfl⟩ := Prod.mk.inj (List.mem_singleton.mp now)
      exact ⟨Nat.lt_succ_self _, next⟩
  · intro k early
    rcases Nat.lt_succ_iff_lt_or_eq.mp early with before | rfl
    · obtain ⟨y, arrived⟩ := holds.onWire k before
      exact ⟨y, List.mem_append_left _ arrived⟩
    · exact ⟨x, List.mem_append_right _ (List.mem_singleton.mpr rfl)⟩

theorem hand_holds (holds : Holds window s) {x : α} (arrived : (s.handed.length, x) ∈ s.packets) :
    Holds window (s.hand x) := by
  obtain ⟨early, found⟩ := holds.packet _ _ arrived
  have longer : (s.hand x).handed.length = s.handed.length + 1 := List.length_append
  refine { holds with
    ack := ?_, acked := ?_, base_handed := ?_, handed_sent := by rw [longer]; exact early
    in_order := ?_ }
  · intro n known
    rw [longer]
    rcases List.mem_append.mp known with before | now
    · exact Nat.le_succ_of_le (holds.ack n before)
    · exact Nat.le_of_eq (List.mem_singleton.mp now)
  · intro n positive small
    rw [longer] at small
    rcases Nat.lt_or_eq_of_le small with before | rfl
    · exact List.mem_append_left _ (holds.acked n positive (Nat.lt_succ_iff.mp before))
    · exact List.mem_append_right _ (List.mem_singleton.mpr rfl)
  · rw [longer]
    exact Nat.le_succ_of_le holds.base_handed
  · obtain ⟨rest, parts⟩ := holds.in_order
    rw [← parts, List.getElem?_append_right (Nat.le_refl _), Nat.sub_self] at found
    cases rest with
    | nil => cases found
    | cons y rest =>
      obtain rfl : y = x := Option.some.inj found
      refine ⟨rest, ?_⟩
      change s.handed ++ [y] ++ rest = s.accepted
      rw [← parts, List.append_assoc, List.singleton_append]

theorem learn_holds (holds : Holds window s) {n : Nat} (arrived : n ∈ s.acks) : Holds window (s.learn n) := by
  have within := holds.in_window
  refine { holds with in_window := ?_, base_handed := Nat.max_le.mpr ⟨holds.base_handed, holds.ack n arrived⟩ }
  exact Nat.le_trans within (Nat.add_le_add_right (Nat.le_max_left _ _) _)

theorem step_holds (holds : Holds window s) (step : Step window s t) : Holds window t := by
  cases step with
  | accept x => exact accept_holds holds x
  | send room next => exact send_holds holds room next
  | hand arrived => exact hand_holds holds arrived
  | learn arrived => exact learn_holds holds arrived

theorem steps_holds (holds : Holds window s) (run : Steps window s t) : Holds window t := by
  induction run with
  | refl => exact holds
  | tail _ step ih => exact step_holds ih step

end LiveStreaming.Library.SlidingWindow
