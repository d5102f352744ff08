import Mathlib.Data.List.Basic
import Mathlib.Logic.Function.Basic

/-!
# Lists threaded through their blocks

A list of blocks where each one has the address of the next in its own memory. No block is the null pointer.
-/

namespace LiveStreaming.Library.LinkedBlocks

variable {α : Type} {link link' : α → Option α} {first : Option α} {block : α} {blocks : List α}

/-- The blocks from the first one on, with what the memory has at each. -/
def Linked (link : α → Option α) : Option α → List α → Prop
  | first, [] => first = none
  | first, block :: rest => first = some block ∧ Linked link (link block) rest

theorem linked_none (linked : Linked link none blocks) : blocks = [] := by
  cases blocks with
  | nil => rfl
  | cons block rest => cases linked.1

theorem linked_some (linked : Linked link (some block) blocks) :
    ∃ rest, blocks = block :: rest ∧ Linked link (link block) rest := by
  cases blocks with
  | nil => cases linked
  | cons other rest =>
    obtain rfl := Option.some.inj linked.1
    exact ⟨rest, rfl, linked.2⟩

/-- What is elsewhere in the memory does not matter. -/
theorem Linked.congr (linked : Linked link first blocks) (same : ∀ block ∈ blocks, link' block = link block) :
    Linked link' first blocks := by
  induction blocks generalizing first with
  | nil => exact linked
  | cons block rest ih =>
    refine ⟨linked.1, ?_⟩
    rw [same block List.mem_cons_self]
    exact ih linked.2 fun other member => same other (List.mem_cons_of_mem block member)

variable [DecidableEq α]

theorem Linked.update (linked : Linked link first blocks) (other : block ∉ blocks) (value : Option α) :
    Linked (Function.update link block value) first blocks := by
  refine linked.congr fun each member => Function.update_of_ne ?_ _ _
  rintro rfl
  exact other member

theorem Linked.push (linked : Linked link first blocks) (other : block ∉ blocks) :
    Linked (Function.update link block first) (some block) (block :: blocks) := by
  refine ⟨rfl, ?_⟩
  rw [Function.update_self]
  exact linked.update other first

end LiveStreaming.Library.LinkedBlocks
