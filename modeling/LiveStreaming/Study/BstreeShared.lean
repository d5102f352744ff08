import LiveStreaming.Study.Bstree
import Mathlib.Data.List.Basic

/-!
# The shared search tree

The operations of `bstree<T>` with one argument, on the nodes that `_bstree` points to. `insert` looks for the place of
the new node with a copy of that pointer, and assigns the node to the copy.
-/

namespace LiveStreaming.Study
open Library.SearchTree

/-- With the addresses of its children. -/
structure BtNode (α : Type) where
  value : α
  left : Option Nat
  right : Option Nat

/-- The nodes that are allocated, the pointer all calls share, and the next address. -/
structure SharedBstree (α : Type) where
  nodes : Nat → Option (BtNode α)
  bstree : Option Nat
  fresh : Nat

namespace SharedBstree

variable {α : Type}

def start : SharedBstree α := { nodes := fun _ => none, bstree := none, fresh := 1 }

def store (s : SharedBstree α) (address : Nat) (node : BtNode α) : SharedBstree α :=
  { s with nodes := fun a => if a = address then some node else s.nodes a }

def delete (s : SharedBstree α) (address : Nat) : SharedBstree α :=
  { s with nodes := fun a => if a = address then none else s.nodes a }

/-- `( parent->left == bstree_walker ) ? ( parent->left = child ) : ( parent->right = child );` -/
def relink (s : SharedBstree α) (parent walker : Nat) (child : Option Nat) : Option (SharedBstree α) := do
  let node ← s.nodes parent
  some (s.store parent (if node.left = some walker then { node with left := child } else { node with right := child }))

/-- `while( left_tree_walker->right != 0 )`, with the parent of the last node. -/
def rightmost (s : SharedBstree α) : Nat → Nat → Option Nat → Option (Nat × BtNode α × Option Nat)
  | 0, _, _ => none
  | turns + 1, walker, parent => do
    let node ← s.nodes walker
    match node.right with
    | some right => rightmost s turns right (some walker)
    | none => some (walker, node, parent)

/-- The eight cases of the node that was found. A null pointer is not followed. -/
def eraseFound (turns : Nat) (s : SharedBstree α) (walker : Nat) (node : BtNode α) (parent : Option Nat) :
    Option (SharedBstree α) :=
  match node.left, node.right with
  | none, none =>
    match parent with
    -- `_bstree` keeps the address
    | none => some (s.delete walker)
    | some parent => do
      let s ← s.relink parent walker none
      some (s.delete walker)
  | none, some right =>
    match parent with
    | none => some ({ s with bstree := some right }.delete walker)
    | some parent => do
      let s ← s.relink parent walker (some right)
      some (s.delete walker)
  | some left, none =>
    match parent with
    -- the right child again, which is null
    | none => some ({ s with bstree := node.right }.delete walker)
    | some parent => do
      let s ← s.relink parent walker (some left)
      some (s.delete walker)
  | some left, some _ => do
    let (last, lastNode, parent) ← s.rightmost turns left parent
    let s := s.store walker { node with value := lastNode.value }
    let parent ← parent
    let parentNode ← s.nodes parent
    some ((s.store parent { parentNode with right := lastNode.left }).delete last)

variable [LinearOrder α]

/-- `while( next != 0 )` of `insert`. -/
def insertWalk (s : SharedBstree α) (value : α) : Nat → Option Nat → Option Unit
  | 0, _ => none
  | _ + 1, none => some ()
  | turns + 1, some next => do
    let node ← s.nodes next
    insertWalk s value turns (if ¬ value < node.value then node.right else node.left)

def insert (turns : Nat) (value : α) (s : SharedBstree α) : Option (SharedBstree α) := do
  let node : BtNode α := { value, left := none, right := none }
  let s := { s.store s.fresh node with fresh := s.fresh + 1 }
  insertWalk s value turns s.bstree
  -- `next = node;` is the end of it
  some s

/-- `while( bstree_walker )` of `find`. -/
def findWalk (s : SharedBstree α) (value : α) : Nat → Option Nat → Option (Option Nat)
  | 0, _ => none
  | _ + 1, none => some none
  | turns + 1, some walker => do
    let node ← s.nodes walker
    if ¬ node.value < value ∧ ¬ value < node.value then some (some walker)
    else findWalk s value turns (if node.value < value then node.right else node.left)

def find (turns : Nat) (value : α) (s : SharedBstree α) : Option (Option Nat) := findWalk s value turns s.bstree

/-- `while( bstree_walker != 0 )` of `erase`. -/
def eraseWalk (s : SharedBstree α) (value : α) : Nat → Option Nat → Option Nat → Option (SharedBstree α)
  | 0, _, _ => none
  | _ + 1, none, _ => some s
  | turns + 1, some walker, parent => do
    let node ← s.nodes walker
    if value < node.value then eraseWalk s value turns node.left (some walker)
    else if node.value < value then eraseWalk s value turns node.right (some walker)
    else eraseFound turns s walker node parent

def erase (turns : Nat) (value : α) (s : SharedBstree α) : Option (SharedBstree α) :=
  eraseWalk s value turns s.bstree none

end SharedBstree

inductive BstreeCall (α : Type) where
  | insert (value : α)
  | erase (value : α)
  | find (value : α)

variable {α : Type} [LinearOrder α]

def SharedBstree.step (turns : Nat) (s : SharedBstree α) : BstreeCall α → Option (SharedBstree α)
  | .insert value => s.insert turns value
  | .erase value => s.erase turns value
  | .find value => do
    let _ ← s.find turns value
    some s

/-- With a bound on the depth of each walk. -/
def SharedBstree.run (turns : Nat) (s : SharedBstree α) : List (BstreeCall α) → Option (SharedBstree α)
  | [] => some s
  | call :: calls => do
    let s ← s.step turns call
    s.run turns calls

/-! ### What the calls are for -/

/-- The tree at an address. -/
inductive TreeAt (nodes : Nat → Option (BtNode α)) : Option Nat → KeyTree α → Prop
  | null : TreeAt nodes none .empty
  | node {address : Nat} {node : BtNode α} {left right : KeyTree α} (found : nodes address = some node)
      (onLeft : TreeAt nodes node.left left) (onRight : TreeAt nodes node.right right) :
      TreeAt nodes (some address) (.node left node.value right)

def afterCall (values : List α) : BstreeCall α → List α
  | .insert value => value :: values
  | .erase value => values.filter (· ≠ value)
  | .find _ => values

/-- The values that were inserted and not erased since. -/
def valuesLeft (calls : List (BstreeCall α)) : List α := calls.foldl afterCall []

/-- The tree is a search tree of these values, `find` returns a node for no others, and `erase` would leave the keys
that the recursive one leaves. -/
structure ServesValues (s : SharedBstree α) (values : List α) : Prop where
  tree : ∃ t, TreeAt s.nodes s.bstree t ∧ t.keys.Pairwise (· ≤ ·) ∧ (∀ key, key ∈ t.keys ↔ key ∈ values) ∧
    ∀ value, ∃ turns s' t' t'', s.erase turns value = some s' ∧ TreeAt s'.nodes s'.bstree t' ∧
      Bstree.erase value t = some t'' ∧ ∀ key, key ∈ t'.keys ↔ key ∈ t''.keys
  finds : ∀ value, ∃ turns found, s.find turns value = some found ∧ (found.isSome ↔ value ∈ values) ∧
    ∀ address, found = some address → ∃ node, s.nodes address = some node ∧ node.value = value

/-- After these calls, from the empty tree. -/
def BstreeServes (calls : List (BstreeCall α)) : Prop :=
  ∃ turns s, SharedBstree.start.run turns calls = some s ∧ ServesValues s (valuesLeft calls)

/-! ### Any search tree -/

variable {turns : Nat} {s s' : SharedBstree α} {calls : List (BstreeCall α)} {values : List α} {value : α}
  {address : Option Nat} {t : KeyTree α}

/-- By induction over the tree: the walk ends at the value, or at a null pointer where it is not a key. -/
theorem SharedBstree.findWalk_finds (at_ : TreeAt s.nodes address t) (ordered : t.Ordered) (value : α) :
    ∃ turns found, s.findWalk value turns address = some found ∧ (found.isSome ↔ value ∈ t.keys) ∧
      ∀ a, found = some a → ∃ node, s.nodes a = some node ∧ node.value = value := by
  induction at_ with
  | null => exact ⟨1, none, rfl, by simp [KeyTree.keys], fun a found => by cases found⟩
  | @node address node left right read onLeft onRight ihLeft ihRight =>
    obtain ⟨orderedLeft, orderedRight, _, _⟩ := ordered_node.mp ordered
    by_cases more : node.value < value
    · obtain ⟨turns, found, walk, here, values⟩ := ihRight orderedRight
      refine ⟨turns + 1, found, ?_, here.trans (mem_keys_right ordered more).symm, values⟩
      rw [findWalk, read]
      dsimp only [Option.bind_eq_bind, Option.bind_some]
      rw [if_neg fun equal => equal.1 more, if_pos more]
      exact walk
    · by_cases less : value < node.value
      · obtain ⟨turns, found, walk, here, values⟩ := ihLeft orderedLeft
        refine ⟨turns + 1, found, ?_, here.trans (mem_keys_left ordered less).symm, values⟩
        rw [findWalk, read]
        dsimp only [Option.bind_eq_bind, Option.bind_some]
        rw [if_neg fun equal => equal.2 less, if_neg more]
        exact walk
      · have same : node.value = value := le_antisymm (not_lt.mp less) (not_lt.mp more)
        refine ⟨1, some address, ?_, ?_, fun a found => ?_⟩
        · rw [findWalk, read]
          exact if_pos ⟨more, less⟩
        · rw [KeyTree.keys, same]
          simp
        · obtain rfl := Option.some.inj found
          exact ⟨node, read, same⟩

/-- A value that is no key is looked for, and nothing changes. -/
theorem SharedBstree.eraseWalk_absent (at_ : TreeAt s.nodes address t) (ordered : t.Ordered)
    (absent : value ∉ t.keys) (parent : Option Nat) : ∃ turns, s.eraseWalk value turns address parent = some s := by
  induction at_ generalizing parent with
  | null => exact ⟨1, rfl⟩
  | @node address node left right read onLeft onRight ihLeft ihRight =>
    obtain ⟨orderedLeft, orderedRight, _, _⟩ := ordered_node.mp ordered
    by_cases less : value < node.value
    · obtain ⟨turns, walk⟩ := ihLeft orderedLeft (fun member => absent ((mem_keys_left ordered less).mpr member))
        (some address)
      refine ⟨turns + 1, ?_⟩
      rw [eraseWalk, read]
      dsimp only [Option.bind_eq_bind, Option.bind_some]
      rw [if_pos less]
      exact walk
    · have more : node.value < value := by
        refine lt_of_le_of_ne (not_lt.mp less) fun same => absent ?_
        rw [KeyTree.keys, same]
        simp
      obtain ⟨turns, walk⟩ := ihRight orderedRight (fun member => absent ((mem_keys_right ordered more).mpr member))
        (some address)
      refine ⟨turns + 1, ?_⟩
      rw [eraseWalk, read]
      dsimp only [Option.bind_eq_bind, Option.bind_some]
      rw [if_neg less, if_pos more]
      exact walk

/-! ### The tree stays empty -/

theorem SharedBstree.step_empty (empty : s.bstree = none) (call : BstreeCall α) :
    ∃ s', s.step (turns + 1) call = some s' ∧ s'.bstree = none := by
  cases call with
  | insert value =>
    refine ⟨{ s.store s.fresh { value, left := none, right := none } with fresh := s.fresh + 1 }, ?_, empty⟩
    unfold SharedBstree.step SharedBstree.insert
    dsimp only [SharedBstree.store]
    rw [empty]
    rfl
  | erase value =>
    refine ⟨s, ?_, empty⟩
    rw [SharedBstree.step, SharedBstree.erase, empty]
    rfl
  | find value =>
    refine ⟨s, ?_, empty⟩
    rw [SharedBstree.step, SharedBstree.find, empty]
    rfl

theorem SharedBstree.step_keeps_empty (empty : s.bstree = none) {call : BstreeCall α}
    (done : s.step turns call = some s') : s'.bstree = none := by
  cases turns with
  | zero =>
    cases call <;> cases done
  | succ turns =>
    obtain ⟨after, same, empty'⟩ := @SharedBstree.step_empty _ _ turns s empty call
    rw [same] at done
    rwa [← Option.some.inj done]

theorem SharedBstree.run_empty (empty : s.bstree = none) (calls : List (BstreeCall α)) :
    ∃ s', s.run (turns + 1) calls = some s' := by
  induction calls generalizing s with
  | nil => exact ⟨s, rfl⟩
  | cons call calls ih =>
    obtain ⟨after, same, empty'⟩ := @SharedBstree.step_empty _ _ turns s empty call
    obtain ⟨s', rest⟩ := ih empty'
    refine ⟨s', ?_⟩
    rw [SharedBstree.run, same]
    exact rest

/-- By induction over the calls: no call gives the shared pointer a node. -/
theorem SharedBstree.run_keeps_empty (empty : s.bstree = none) (done : s.run turns calls = some s') :
    s'.bstree = none := by
  induction calls generalizing s with
  | nil => rwa [← Option.some.inj done]
  | cons call calls ih =>
    obtain ⟨after, one, rest⟩ := Option.bind_eq_some_iff.mp done
    exact ih (SharedBstree.step_keeps_empty empty one) rest

theorem servesValues_empty (empty : s.bstree = none) : ServesValues s values ↔ values = [] := by
  constructor
  · rintro ⟨⟨t, at_, _, keys, _⟩, _⟩
    rw [empty] at at_
    cases at_
    exact List.eq_nil_iff_forall_not_mem.mpr fun value member => List.not_mem_nil ((keys value).mpr member)
  · rintro rfl
    have at_ : TreeAt s.nodes s.bstree .empty := empty ▸ .null
    refine ⟨⟨.empty, at_, .nil, fun key => Iff.rfl, fun value => ?_⟩, fun value => ?_⟩
    · obtain ⟨turns, kept⟩ := SharedBstree.eraseWalk_absent at_ .nil (List.not_mem_nil (a := value)) none
      exact ⟨turns, s, .empty, .empty, kept, at_, rfl, fun key => Iff.rfl⟩
    · exact SharedBstree.findWalk_finds at_ .nil value

theorem bstreeServes_iff_nil : BstreeServes calls ↔ valuesLeft calls = [] := by
  constructor
  · rintro ⟨turns, s, done, serves⟩
    exact (servesValues_empty (SharedBstree.run_keeps_empty rfl done)).mp serves
  · intro none_
    obtain ⟨s, done⟩ := @SharedBstree.run_empty _ _ 0 SharedBstree.start rfl calls
    exact ⟨1, s, done, (servesValues_empty (SharedBstree.run_keeps_empty rfl done)).mpr none_⟩

/-! ### Which runs are served -/

theorem valuesLeft_nil (noInsert : ∀ value, BstreeCall.insert value ∉ calls) : valuesLeft calls = [] := by
  unfold valuesLeft
  induction calls with
  | nil => rfl
  | cons call calls ih =>
    have rest := ih fun value member => noInsert value (List.mem_cons_of_mem call member)
    cases call with
    | insert value => exact absurd List.mem_cons_self (noInsert value)
    | erase value => exact rest
    | find value => exact rest

/-- The tree has the values, at each moment of a run, exactly where the run inserts none. -/
theorem bstreeServes_iff (calls : List (BstreeCall α)) :
    (∀ n, BstreeServes (calls.take n)) ↔ ∀ value, BstreeCall.insert value ∉ calls := by
  constructor
  · intro serves value member
    obtain ⟨n, inside, at_⟩ := List.mem_iff_getElem.mp member
    have after := bstreeServes_iff_nil.mp (serves (n + 1))
    rw [valuesLeft, List.take_succ_eq_append_getElem inside, at_, List.foldl_append] at after
    cases after
  · intro noInsert n
    exact bstreeServes_iff_nil.mpr (valuesLeft_nil fun value member => noInsert value (List.mem_of_mem_take member))

theorem bstreeServes_refuted : ¬ BstreeServes [BstreeCall.insert (5 : Int)] := by
  intro serves
  cases bstreeServes_iff_nil.mp serves

end LiveStreaming.Study
