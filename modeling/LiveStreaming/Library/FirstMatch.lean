import Mathlib.Data.List.Basic

/-!
# The first entry that matches

A linked list that is searched from its head: the entry that is found is changed in its place or taken out.
-/

namespace LiveStreaming.Library.FirstMatch

variable {α : Type*}

def change (p : α → Bool) (f : α → α) : List α → List α
  | [] => []
  | x :: rest => if p x then f x :: rest else x :: change p f rest

variable {p q : α → Bool} {f : α → α}

theorem find?_change (keeps : ∀ x, p (f x) = p x) (l : List α) : (change p f l).find? p = (l.find? p).map f := by
  induction l with
  | nil => rfl
  | cons x rest ih =>
    rw [change]
    by_cases here : p x
    · rw [if_pos here, List.find?_cons_of_pos here, List.find?_cons_of_pos ((keeps x).trans here), Option.map_some]
    · rw [if_neg here, List.find?_cons_of_neg here, List.find?_cons_of_neg here, ih]

theorem find?_change_other (apart : ∀ x, p x → ¬q x) (keeps : ∀ x, p (f x) = p x) (l : List α) :
    (change p f l).find? q = l.find? q := by
  induction l with
  | nil => rfl
  | cons x rest ih =>
    rw [change]
    by_cases here : p x
    · rw [if_pos here, List.find?_cons_of_neg (apart x here),
        List.find?_cons_of_neg (apart _ ((keeps x).trans here))]
    · rw [if_neg here]
      by_cases found : q x
      · rw [List.find?_cons_of_pos found, List.find?_cons_of_pos found]
      · rw [List.find?_cons_of_neg found, List.find?_cons_of_neg found, ih]

theorem find?_eraseP_other (apart : ∀ x, p x → ¬q x) (l : List α) : (l.eraseP p).find? q = l.find? q := by
  induction l with
  | nil => rfl
  | cons x rest ih =>
    by_cases here : p x
    · rw [List.eraseP_cons_of_pos here, List.find?_cons_of_neg (apart x here)]
    · rw [List.eraseP_cons_of_neg here]
      by_cases found : q x
      · rw [List.find?_cons_of_pos found, List.find?_cons_of_pos found]
      · rw [List.find?_cons_of_neg found, List.find?_cons_of_neg found, ih]

theorem mem_change {x : α} {l : List α} (member : x ∈ change p f l) : x ∈ l ∨ ∃ y ∈ l, p y ∧ x = f y := by
  induction l with
  | nil => cases member
  | cons y rest ih =>
    rw [change] at member
    split at member
    · next here =>
      rcases List.mem_cons.mp member with rfl | later
      · exact .inr ⟨y, List.mem_cons_self, here, rfl⟩
      · exact .inl (List.mem_cons_of_mem _ later)
    · rcases List.mem_cons.mp member with rfl | later
      · exact .inl List.mem_cons_self
      · rcases ih later with before | ⟨z, was, matches_, is⟩
        · exact .inl (List.mem_cons_of_mem _ before)
        · exact .inr ⟨z, List.mem_cons_of_mem _ was, matches_, is⟩

end LiveStreaming.Library.FirstMatch
