import LiveStreaming.Study.BstreeShared
import Mathlib.Data.List.Nodup

/-!
# The iterative erase

The iterative `erase` on any search tree whose nodes are apart, against the recursive one. A node with one child at
most is unlinked from its parent, and as the root where that child is on the right. A node with two children gets the
value of the last node on the walk to the right in its left subtree, where that walk has a step.
-/

namespace LiveStreaming.Study
open Library.SearchTree

variable {α : Type}

/-- The tree at an address, with the addresses of its nodes from left to right. -/
inductive Placed (nodes : Nat → Option (BtNode α)) : Option Nat → KeyTree α → List Nat → Prop
  | null : Placed nodes none .empty []
  | node {address : Nat} {node : BtNode α} {left right : KeyTree α} {before behind : List Nat}
      (found : nodes address = some node) (onLeft : Placed nodes node.left left before)
      (onRight : Placed nodes node.right right behind) :
      Placed nodes (some address) (.node left node.value right) (before ++ address :: behind)

variable {nodes nodes' : Nat → Option (BtNode α)} {pointer : Option Nat} {t left right : KeyTree α}
  {places before behind : List Nat} {s s' : SharedBstree α} {walker : Nat} {node above : BtNode α}

theorem Placed.treeAt (placed : Placed nodes pointer t places) : TreeAt nodes pointer t := by
  induction placed with
  | null => exact .null
  | node found _ _ onLeft onRight => exact .node found onLeft onRight

/-- Only the nodes of the tree count. -/
theorem Placed.congr (placed : Placed nodes pointer t places) (same : ∀ a ∈ places, nodes' a = nodes a) :
    Placed nodes' pointer t places := by
  induction placed with
  | null => exact .null
  | node found _ _ onLeft onRight =>
    refine .node ((same _ (by simp)).trans found) (onLeft fun a member => same a ?_) (onRight fun a member => same a ?_)
    · exact List.mem_append_left _ member
    · exact List.mem_append_right _ (List.mem_cons_of_mem _ member)

theorem Placed.pointer_mem (placed : Placed nodes (some walker) t places) : walker ∈ places := by
  cases placed
  simp

theorem Placed.empty_iff (placed : Placed nodes pointer t places) : t = .empty ↔ pointer = none := by
  cases placed with
  | null => exact iff_of_true rfl rfl
  | node => exact iff_of_false (fun same => by cases same) (Option.some_ne_none _)

theorem separate_node (separate : (before ++ walker :: behind).Nodup) :
    before.Nodup ∧ behind.Nodup ∧ walker ∉ before ∧ walker ∉ behind ∧ ∀ a ∈ before, a ∉ behind := by
  obtain ⟨one, two, off⟩ := List.nodup_append.mp separate
  obtain ⟨fresh, two⟩ := List.nodup_cons.mp two
  refine ⟨one, two, fun member => off walker member walker List.mem_cons_self rfl, fresh, fun a member member' => ?_⟩
  exact off a member a (List.mem_cons_of_mem _ member') rfl

/-- Two trees that have no node in common are not at one address. -/
theorem Placed.apart {other : Option Nat} (onLeft : Placed nodes pointer left before)
    (onRight : Placed nodes other right behind) (separate : (before ++ walker :: behind).Nodup)
    (some_ : right ≠ .empty) : pointer ≠ other := by
  rintro rfl
  cases pointer with
  | none => exact some_ (onRight.empty_iff.mpr rfl)
  | some address =>
    have off := (List.nodup_append.mp separate).2.2 address onLeft.pointer_mem address
    exact off (List.mem_cons_of_mem _ onRight.pointer_mem) rfl

theorem store_self (s : SharedBstree α) (address : Nat) (node : BtNode α) :
    (s.store address node).nodes address = some node := if_pos rfl

theorem store_other {a address : Nat} (other : a ≠ address) : (s.store address node).nodes a = s.nodes a :=
  if_neg other

theorem delete_other {a address : Nat} (other : a ≠ address) : (s.delete address).nodes a = s.nodes a :=
  if_neg other

/-! ### The node that goes in the place of another -/

theorem rightmost_last {turns : Nat} (read : s.nodes walker = some node) (last : node.right = none)
    (parent : Option Nat) : s.rightmost (turns + 1) walker parent = some (walker, node, parent) := by
  rw [SharedBstree.rightmost, read]
  dsimp only [Option.bind_eq_bind, Option.bind_some]
  rw [last]

theorem rightmost_next {turns next : Nat} (read : s.nodes walker = some node) (more : node.right = some next)
    (parent : Option Nat) : s.rightmost (turns + 1) walker parent = s.rightmost turns next (some walker) := by
  rw [SharedBstree.rightmost, read]
  dsimp only [Option.bind_eq_bind, Option.bind_some]
  rw [more]

/-- By induction along the walk to the right: with the last node unlinked from its parent, the tree has the others. -/
theorem rightmost_spec (placed : Placed s.nodes (some walker) t places) (read : s.nodes walker = some node)
    (more : node.right ≠ none) (separate : places.Nodup) (parent : Option Nat) :
    ∃ turns last lastNode parent' parentNode t' places',
      s.rightmost turns walker parent = some (last, lastNode, some parent') ∧ s.nodes parent' = some parentNode ∧
      last ∈ places ∧ parent' ∈ places ∧ parent' ≠ last ∧ places'.Sublist places ∧
      t.keys = t'.keys ++ [lastNode.value] ∧
      ∀ nodes', (∀ a ∈ places, a ≠ parent' → a ≠ last → nodes' a = s.nodes a) →
        nodes' parent' = some { parentNode with right := lastNode.left } → Placed nodes' (some walker) t' places' := by
  induction t generalizing walker node places parent with
  | empty => cases placed
  | node left value right ihLeft ihRight =>
    cases placed with
    | @node _ node' _ _ before behind found onLeft onRight =>
      obtain rfl : node = node' := Option.some.inj (read.symm.trans found)
      obtain ⟨_, separate', offLeft, offRight, disjoint⟩ := separate_node separate
      obtain ⟨next, more⟩ := Option.ne_none_iff_exists'.mp more
      rw [more] at onRight
      obtain ⟨below, readBelow⟩ : ∃ below, s.nodes next = some below := by
        cases onRight with
        | node found _ _ => exact ⟨_, found⟩
      by_cases last : below.right = none
      · cases onRight with
        | @node _ below' left' right' before' behind' found' onLeft' onRight' =>
          obtain rfl : below = below' := Option.some.inj (readBelow.symm.trans found')
          rw [last] at onRight'
          cases onRight'
          obtain ⟨_, _, offLast, _, _⟩ := separate_node separate'
          refine ⟨2, next, below, walker, node, .node left node.value left', before ++ walker :: before',
            (rightmost_next read more _).trans (rightmost_last readBelow last _), read, by simp, by simp, ?_, ?_, ?_,
            fun nodes' same stored => ?_⟩
          · rintro rfl
            exact offRight (by simp)
          · exact (List.Sublist.refl before).append ((List.sublist_append_left _ _).cons_cons walker)
          · simp [KeyTree.keys]
          · have onLeft'' := @Placed.congr _ _ nodes' _ _ _ onLeft fun a member =>
              same a (List.mem_append_left _ member) (fun equal => offLeft (equal ▸ member))
                fun equal => disjoint a member (equal ▸ by simp)
            have onRight'' := @Placed.congr _ _ nodes' _ _ _ onLeft' fun a member =>
              same a (by simp [member]) (fun equal => offRight (equal ▸ by simp [member]))
                fun equal => offLast (equal ▸ member)
            have built := Placed.node stored onLeft'' onRight''
            exact built
      · obtain ⟨turns, last, lastNode, parent', parentNode, t', places', walk, readParent, lastIn, parentIn, other, sub,
          keys, build⟩ := ihRight onRight readBelow last separate' (some walker)
        refine ⟨turns + 1, last, lastNode, parent', parentNode, .node left node.value t', before ++ walker :: places',
          (rightmost_next read more _).trans walk, readParent, by simp [lastIn], by simp [parentIn], other, ?_, ?_,
          fun nodes' same stored => ?_⟩
        · exact (List.Sublist.refl before).append (sub.cons_cons walker)
        · rw [KeyTree.keys, KeyTree.keys, keys, List.append_assoc, List.cons_append]
        · have kept : nodes' walker = some node := by
            rw [same walker (by simp) (fun equal => offRight (equal ▸ parentIn)) fun equal => offRight (equal ▸ lastIn)]
            exact read
          refine .node kept (onLeft.congr fun a member => same a (List.mem_append_left _ member)
            (fun equal => disjoint a member (equal ▸ parentIn)) fun equal => disjoint a member (equal ▸ lastIn)) ?_
          rw [more]
          exact build nodes' (fun a member => same a (by simp [member])) stored

/-- The walk to the right in the tree has a step. -/
def StepsRight : KeyTree α → Prop
  | .empty => False
  | .node _ _ right => right ≠ .empty

/-- The tree at `walker` has these keys, and is made of the nodes that were there. All other nodes are as they were. -/
structure ErasedAt (s s' : SharedBstree α) (walker : Nat) (places : List Nat) (keys : List α) : Prop where
  bstree : s'.bstree = s.bstree
  kept : ∀ a, a ∉ places → s'.nodes a = s.nodes a
  tree : ∃ t' places', Placed s'.nodes (some walker) t' places' ∧ places'.Sublist places ∧ t'.keys = keys

/-- A node with two children, whatever its parent is. -/
theorem eraseFound_both {onLeft_ onRight_ : Nat} (read : s.nodes walker = some node) (some_ : node.left = some onLeft_)
    (some' : node.right = some onRight_) (onLeft : Placed s.nodes (some onLeft_) left before)
    (onRight : Placed s.nodes (some onRight_) right behind) (separate : (before ++ walker :: behind).Nodup)
    (steps : StepsRight left) (parent : Option Nat) :
    ∃ turns s', s.eraseFound turns walker node parent = some s' ∧
      ErasedAt s s' walker (before ++ walker :: behind) (left.keys ++ right.keys) := by
  obtain ⟨separate', _, offLeft, offRight, disjoint⟩ := separate_node separate
  obtain ⟨first, readFirst, more⟩ : ∃ first, s.nodes onLeft_ = some first ∧ first.right ≠ none := by
    cases onLeft with
    | node found _ onRight' => exact ⟨_, found, fun none_ => steps (onRight'.empty_iff.mpr none_)⟩
  obtain ⟨turns, last, lastNode, parent', parentNode, left', before', walk, readParent, lastIn, parentIn, other, sub,
    keys, build⟩ := rightmost_spec onLeft readFirst more separate' parent
  have apart : parent' ≠ walker := fun equal => offLeft (equal ▸ parentIn)
  have apart' : walker ≠ last := fun equal => offLeft (equal ▸ lastIn)
  have run : s.eraseFound turns walker node parent =
      some (((s.store walker { node with value := lastNode.value }).store parent'
        { parentNode with right := lastNode.left }).delete last) := by
    unfold SharedBstree.eraseFound
    rw [some_, some']
    dsimp only [Option.bind_eq_bind]
    rw [walk]
    dsimp only [Option.bind_some]
    rw [store_other apart, readParent]
    rfl
  have stored (a : Nat) (here : a ≠ walker) (here' : a ≠ parent') (here'' : a ≠ last) :
      (((s.store walker { node with value := lastNode.value }).store parent'
        { parentNode with right := lastNode.left }).delete last).nodes a = s.nodes a := by
    rw [delete_other here'', store_other here', store_other here]
  refine ⟨turns, _, run, rfl, fun a off => ?_, .node left' lastNode.value right, before' ++ walker :: behind, ?_, ?_,
    ?_⟩
  · refine stored a ?_ ?_ ?_
    all_goals
      rintro rfl
      apply off
      simp [parentIn, lastIn]
  · have root : (((s.store walker { node with value := lastNode.value }).store parent'
        { parentNode with right := lastNode.left }).delete last).nodes walker =
          some { node with value := lastNode.value } := by
      rw [delete_other apart', store_other (Ne.symm apart), store_self]
    have atLeft := build _ (fun a member => stored a fun equal => offLeft (equal ▸ member)) (by
      rw [delete_other other, store_self])
    have atRight := onRight.congr fun a member => stored a (fun equal => offRight (equal ▸ member))
      (fun equal => disjoint parent' parentIn (equal ▸ member)) fun equal => disjoint last lastIn (equal ▸ member)
    rw [← some_] at atLeft
    rw [← some'] at atRight
    exact @Placed.node _ _ walker { node with value := lastNode.value } _ _ _ _ root atLeft atRight
  · exact sub.append (List.Sublist.refl _)
  · rw [KeyTree.keys, keys, List.append_assoc, List.cons_append, List.nil_append]

/-! ### Below a parent -/

/-- With another child in the place of one. -/
def BtNode.relinked (node : BtNode α) (old child : Option Nat) : BtNode α :=
  if node.left = old then { node with left := child } else { node with right := child }

/-- The parent's pointer leads to a tree with these keys instead, made of the nodes that were there. All other nodes
are as they were. -/
structure ErasedBelow (s s' : SharedBstree α) (parent : Nat) (above : BtNode α) (pointer : Option Nat)
    (places : List Nat) (keys : List α) : Prop where
  bstree : s'.bstree = s.bstree
  kept : ∀ a, a ≠ parent → a ∉ places → s'.nodes a = s.nodes a
  tree : ∃ pointer' t' places', s'.nodes parent = some (above.relinked pointer pointer') ∧
    Placed s'.nodes pointer' t' places' ∧ places'.Sublist places ∧ t'.keys = keys

theorem relinked_left (node : BtNode α) (child : Option Nat) :
    node.relinked node.left child = { node with left := child } := if_pos rfl

theorem relinked_right (other : node.left ≠ node.right) (child : Option Nat) :
    node.relinked node.right child = { node with right := child } := if_neg other

theorem ErasedAt.below {parent : Nat} {keys : List α} (erased : ErasedAt s s' walker places keys)
    (readParent : s.nodes parent = some above) (off : parent ∉ places)
    (linked : above.relinked (some walker) (some walker) = above) :
    ErasedBelow s s' parent above (some walker) places keys := by
  obtain ⟨t', places', placed, sub, same⟩ := erased.tree
  refine ⟨erased.bstree, fun a _ out => erased.kept a out, some walker, t', places', ?_, placed, sub, same⟩
  rw [linked, erased.kept parent off, readParent]

theorem ErasedBelow.atLeft {keys : List α} (erased : ErasedBelow s s' walker node node.left before keys)
    (onRight : Placed s.nodes node.right right behind) (separate : (before ++ walker :: behind).Nodup) :
    ErasedAt s s' walker (before ++ walker :: behind) (keys ++ node.value :: right.keys) := by
  obtain ⟨_, _, _, offRight, disjoint⟩ := separate_node separate
  obtain ⟨child, left', before', stored, placed, sub, same⟩ := erased.tree
  rw [relinked_left] at stored
  have onRight' := onRight.congr fun a inside =>
    erased.kept a (fun equal => offRight (equal ▸ inside)) fun inside' => disjoint a inside' inside
  refine ⟨erased.bstree, fun a out => ?_, .node left' node.value right, before' ++ walker :: behind, ?_, ?_, ?_⟩
  · apply erased.kept a
    · rintro rfl
      exact out (by simp)
    · exact fun inside => out (List.mem_append_left _ inside)
  · exact @Placed.node _ _ walker { node with left := child } _ _ _ _ stored placed onRight'
  · exact sub.append (List.Sublist.refl _)
  · rw [KeyTree.keys, same]

theorem ErasedBelow.atRight {keys : List α} (erased : ErasedBelow s s' walker node node.right behind keys)
    (onLeft : Placed s.nodes node.left left before) (separate : (before ++ walker :: behind).Nodup)
    (apart : node.left ≠ node.right) :
    ErasedAt s s' walker (before ++ walker :: behind) (left.keys ++ node.value :: keys) := by
  obtain ⟨_, _, offLeft, _, disjoint⟩ := separate_node separate
  obtain ⟨child, right', behind', stored, placed, sub, same⟩ := erased.tree
  rw [relinked_right apart] at stored
  have onLeft' := onLeft.congr fun a inside =>
    erased.kept a (fun equal => offLeft (equal ▸ inside)) (disjoint a inside)
  refine ⟨erased.bstree, fun a out => ?_, .node left node.value right', before ++ walker :: behind', ?_, ?_, ?_⟩
  · apply erased.kept a
    · rintro rfl
      exact out (by simp)
    · exact fun inside => out (by simp [inside])
  · exact @Placed.node _ _ walker { node with right := child } _ _ _ _ stored onLeft' placed
  · exact (List.Sublist.refl before).append (sub.cons_cons walker)
  · rw [KeyTree.keys, same]

theorem unlink_erased {parent : Nat} {child : Option Nat} (readParent : s.nodes parent = some above)
    (placed : Placed s.nodes child t before) (sub : before.Sublist places) (inside : walker ∈ places)
    (fresh : walker ∉ before) (off : parent ∉ places) :
    ∃ s', ((s.relink parent walker child).bind fun s => some (s.delete walker)) = some s' ∧
      ErasedBelow s s' parent above (some walker) places t.keys := by
  have other : parent ≠ walker := fun equal => off (equal ▸ inside)
  refine ⟨(s.store parent (above.relinked (some walker) child)).delete walker, ?_, rfl, fun a out out' => ?_,
    child, t, before, ?_, placed.congr fun a member => ?_, sub, rfl⟩
  · rw [SharedBstree.relink, readParent]
    rfl
  · have apart : a ≠ walker := fun equal => out' (equal ▸ inside)
    rw [delete_other apart, store_other out]
  · rw [delete_other other, store_self]
  · have apart : a ≠ walker := fun equal => fresh (equal ▸ member)
    have apart' : a ≠ parent := fun equal => off (equal ▸ sub.subset member)
    rw [delete_other apart, store_other apart']

theorem eraseFound_below {parent : Nat} (read : s.nodes walker = some node)
    (onLeft : Placed s.nodes node.left left before) (onRight : Placed s.nodes node.right right behind)
    (separate : (before ++ walker :: behind).Nodup) (readParent : s.nodes parent = some above)
    (off : parent ∉ before ++ walker :: behind)
    (linked : above.relinked (some walker) (some walker) = above)
    (steps : left ≠ .empty → right ≠ .empty → StepsRight left) :
    ∃ turns s', s.eraseFound turns walker node (some parent) = some s' ∧
      ErasedBelow s s' parent above (some walker) (before ++ walker :: behind) (left.keys ++ right.keys) := by
  obtain ⟨_, _, offLeft, offRight, _⟩ := separate_node separate
  have leftPart : before.Sublist (before ++ walker :: behind) := List.sublist_append_left _ _
  have rightPart : behind.Sublist (before ++ walker :: behind) :=
    (List.sublist_cons_self walker behind).trans (List.sublist_append_right _ _)
  have inside : walker ∈ before ++ walker :: behind := by simp
  cases some_ : node.left with
  | none =>
    rw [some_] at onLeft
    cases onLeft
    obtain ⟨s', unlinked, erased⟩ := unlink_erased readParent onRight rightPart inside offRight off
    refine ⟨0, s', ?_, erased⟩
    unfold SharedBstree.eraseFound
    rw [some_]
    cases some' : node.right with
    | none =>
      rw [some'] at unlinked
      exact unlinked
    | some onRight_ =>
      rw [some'] at unlinked
      exact unlinked
  | some onLeft_ =>
    cases some' : node.right with
    | none =>
      rw [some'] at onRight
      cases onRight
      obtain ⟨s', unlinked, erased⟩ := unlink_erased readParent onLeft leftPart inside offLeft off
      refine ⟨0, s', ?_, by rw [KeyTree.keys, List.append_nil]; exact erased⟩
      unfold SharedBstree.eraseFound
      rw [some']
      rw [some_] at unlinked ⊢
      exact unlinked
    | some onRight_ =>
      rw [some_] at onLeft
      rw [some'] at onRight
      have deep := steps (fun none_ => by cases onLeft.empty_iff.mp none_) fun none_ => by
        cases onRight.empty_iff.mp none_
      obtain ⟨turns, s', run, erased⟩ :=
        eraseFound_both read some_ some' onLeft onRight separate deep (some parent)
      exact ⟨turns, s', run, erased.below readParent off linked⟩

variable [LinearOrder α] {value : α}

/-- A node with two children can be erased where the walk to the right in its left subtree has a step. -/
def ErasesBelow (value : α) : KeyTree α → Prop
  | .empty => True
  | .node left root right =>
    if root < value then ErasesBelow value right
    else if value < root then ErasesBelow value left
    else left ≠ .empty → right ≠ .empty → StepsRight left

/-- What is erased below a child of the node is erased in its tree, whatever the parent of the node is. -/
theorem eraseWalk_turn (read : s.nodes walker = some node) (onLeft : Placed s.nodes node.left left before)
    (onRight : Placed s.nodes node.right right behind) (separate : (before ++ walker :: behind).Nodup)
    (ordered : (KeyTree.node left node.value right).Ordered) (other : value ≠ node.value)
    (member : value ∈ (KeyTree.node left node.value right).keys)
    (inLeft : value < node.value → value ∈ left.keys → ∃ turns s',
      s.eraseWalk value turns node.left (some walker) = some s' ∧
        ErasedBelow s s' walker node node.left before (left.keys.filter (· ≠ value)))
    (inRight : node.value < value → value ∈ right.keys → node.left ≠ node.right → ∃ turns s',
      s.eraseWalk value turns node.right (some walker) = some s' ∧
        ErasedBelow s s' walker node node.right behind (right.keys.filter (· ≠ value))) (parent : Option Nat) :
    ∃ turns s', s.eraseWalk value turns (some walker) parent = some s' ∧
      ErasedAt s s' walker (before ++ walker :: behind)
        ((KeyTree.node left node.value right).keys.filter (· ≠ value)) := by
  by_cases less : value < node.value
  · obtain ⟨turns, s', walk, erased⟩ := inLeft less ((mem_keys_left ordered less).mp member)
    refine ⟨turns + 1, s', ?_, ?_⟩
    · rw [SharedBstree.eraseWalk, read]
      dsimp only [Option.bind_eq_bind, Option.bind_some]
      rw [if_pos less]
      exact walk
    · rw [filter_keys_left ordered less]
      exact erased.atLeft onRight separate
  · have more : node.value < value := lt_of_le_of_ne (not_lt.mp less) (Ne.symm other)
    have member' := (mem_keys_right ordered more).mp member
    have apart : node.left ≠ node.right := onLeft.apart onRight separate fun none_ => by
      rw [none_] at member'
      cases member'
    obtain ⟨turns, s', walk, erased⟩ := inRight more member' apart
    refine ⟨turns + 1, s', ?_, ?_⟩
    · rw [SharedBstree.eraseWalk, read]
      dsimp only [Option.bind_eq_bind, Option.bind_some]
      rw [if_neg less, if_pos more]
      exact walk
    · rw [filter_keys_right ordered more]
      exact erased.atRight onLeft separate apart

theorem eraseWalk_below {parent : Nat} (placed : Placed s.nodes pointer t places) (separate : places.Nodup)
    (ordered : t.Ordered) (member : value ∈ t.keys) (erases : ErasesBelow value t)
    (readParent : s.nodes parent = some above) (off : parent ∉ places)
    (linked : above.relinked pointer pointer = above) :
    ∃ turns s', s.eraseWalk value turns pointer (some parent) = some s' ∧
      ErasedBelow s s' parent above pointer places (t.keys.filter (· ≠ value)) := by
  induction placed generalizing parent above with
  | null => cases member
  | @node walker node left right before behind read onLeft onRight ihLeft ihRight =>
    obtain ⟨separateLeft, separateRight, offLeft, offRight, _⟩ := separate_node separate
    obtain ⟨orderedLeft, orderedRight, _, _⟩ := ordered_node.mp ordered
    rw [ErasesBelow] at erases
    by_cases same : value = node.value
    · have less : ¬ value < node.value := same ▸ lt_irrefl _
      have more : ¬ node.value < value := same ▸ lt_irrefl _
      rw [if_neg more, if_neg less] at erases
      obtain ⟨turns, s', found, erased⟩ := eraseFound_below read onLeft onRight separate readParent off linked erases
      refine ⟨turns + 1, s', ?_, ?_⟩
      · rw [SharedBstree.eraseWalk, read]
        dsimp only [Option.bind_eq_bind, Option.bind_some]
        rw [if_neg less, if_neg more]
        exact found
      · rw [same, filter_keys_root ordered]
        exact erased
    · obtain ⟨turns, s', walk, erased⟩ := eraseWalk_turn read onLeft onRight separate ordered same member
        (fun less member' => ihLeft separateLeft orderedLeft member'
          (by rwa [if_neg (lt_asymm less), if_pos less] at erases) read offLeft (relinked_left node _))
        (fun more member' apart => ihRight separateRight orderedRight member'
          (by rwa [if_pos more] at erases) read offRight (relinked_right apart _)) (some parent)
      exact ⟨turns, s', walk, erased.below readParent off linked⟩

/-! ### From the root -/

/-- The root can be erased where it has a right child, too. -/
def ErasesRoot (value : α) : KeyTree α → Prop
  | .empty => True
  | .node left root right =>
    if root < value then ErasesBelow value right
    else if value < root then ErasesBelow value left
    else right ≠ .empty ∧ (left ≠ .empty → StepsRight left)

omit [LinearOrder α] in
theorem eraseFound_root (read : s.nodes walker = some node) (onLeft : Placed s.nodes node.left left before)
    (onRight : Placed s.nodes node.right right behind) (separate : (before ++ walker :: behind).Nodup)
    (some_ : right ≠ .empty) (steps : left ≠ .empty → StepsRight left) (pointed : s.bstree = some walker) :
    ∃ turns s' t' places', s.eraseFound turns walker node none = some s' ∧ Placed s'.nodes s'.bstree t' places' ∧
      places'.Sublist (before ++ walker :: behind) ∧ t'.keys = left.keys ++ right.keys := by
  obtain ⟨onRight_, pointed'⟩ := Option.ne_none_iff_exists'.mp fun none_ => some_ (onRight.empty_iff.mpr none_)
  rw [pointed'] at onRight
  cases pointed'' : node.left with
  | none =>
    rw [pointed''] at onLeft
    cases onLeft
    obtain ⟨_, _, _, offRight, _⟩ := separate_node separate
    refine ⟨0, { s with bstree := some onRight_ }.delete walker, right, behind, ?_, ?_, ?_, rfl⟩
    · unfold SharedBstree.eraseFound
      rw [pointed'', pointed']
    · refine onRight.congr fun a inside => ?_
      have apart : a ≠ walker := fun equal => offRight (equal ▸ inside)
      exact delete_other apart
    · exact (List.sublist_cons_self walker behind).trans (List.sublist_append_right _ _)
  | some onLeft_ =>
    rw [pointed''] at onLeft
    obtain ⟨turns, s', run, erased⟩ := eraseFound_both read pointed'' pointed' onLeft onRight separate
      (steps fun none_ => by cases onLeft.empty_iff.mp none_) none
    obtain ⟨t', places', placed, sub, keys⟩ := erased.tree
    refine ⟨turns, s', t', places', run, ?_, sub, keys⟩
    rw [erased.bstree, pointed]
    exact placed

theorem erase_erasesRoot (placed : Placed s.nodes s.bstree t places) (separate : places.Nodup) (ordered : t.Ordered)
    (member : value ∈ t.keys) (erases : ErasesRoot value t) :
    ∃ turns s' t' places', s.erase turns value = some s' ∧ Placed s'.nodes s'.bstree t' places' ∧
      places'.Sublist places ∧ t'.keys = t.keys.filter (· ≠ value) := by
  unfold SharedBstree.erase
  generalize pointed : s.bstree = pointer at placed
  cases placed with
  | null => cases member
  | @node walker node left right before behind read onLeft onRight =>
    obtain ⟨separateLeft, separateRight, offLeft, offRight, _⟩ := separate_node separate
    obtain ⟨orderedLeft, orderedRight, _, _⟩ := ordered_node.mp ordered
    rw [ErasesRoot] at erases
    by_cases same : value = node.value
    · have less : ¬ value < node.value := same ▸ lt_irrefl _
      have more : ¬ node.value < value := same ▸ lt_irrefl _
      rw [if_neg more, if_neg less] at erases
      obtain ⟨turns, s', t', places', found, placed', sub, keys⟩ :=
        eraseFound_root read onLeft onRight separate erases.1 erases.2 pointed
      refine ⟨turns + 1, s', t', places', ?_, placed', sub, ?_⟩
      · rw [SharedBstree.eraseWalk, read]
        dsimp only [Option.bind_eq_bind, Option.bind_some]
        rw [if_neg less, if_neg more]
        exact found
      · rw [same, filter_keys_root ordered, keys]
    · obtain ⟨turns, s', walk, erased⟩ := eraseWalk_turn read onLeft onRight separate ordered same member
        (fun less member' => eraseWalk_below onLeft separateLeft orderedLeft member'
          (by rwa [if_neg (lt_asymm less), if_pos less] at erases) read offLeft (relinked_left node _))
        (fun more member' apart => eraseWalk_below onRight separateRight orderedRight member'
          (by rwa [if_pos more] at erases) read offRight (relinked_right apart _)) none
      obtain ⟨t', places', placed', sub, keys⟩ := erased.tree
      refine ⟨turns, s', t', places', walk, ?_, sub, keys⟩
      rw [erased.bstree, pointed]
      exact placed'

/-- The two versions of `erase` leave the same keys in the same order. -/
theorem SharedBstree.erase_agrees (placed : Placed s.nodes s.bstree t places) (separate : places.Nodup)
    (ordered : t.Ordered) (erases : ErasesRoot value t) :
    ∃ turns s' t' places' t'', s.erase turns value = some s' ∧ Placed s'.nodes s'.bstree t' places' ∧ places'.Nodup ∧
      Bstree.erase value t = some t'' ∧ t'.keys = t''.keys := by
  by_cases member : value ∈ t.keys
  · obtain ⟨t'', erased'', keys''⟩ := @Bstree.erase_keys _ _ t value ordered
    obtain ⟨turns, s', t', places', run, placed', sub, keys⟩ := erase_erasesRoot placed separate ordered member erases
    exact ⟨turns, s', t', places', t'', run, placed', separate.sublist sub, erased'', keys.trans keys''.symm⟩
  · obtain ⟨turns, kept⟩ := SharedBstree.eraseWalk_absent placed.treeAt ordered member none
    have unchanged := Bstree.erase_absent ordered member
    exact ⟨turns, s, t, places, t, kept, placed, separate, unchanged, rfl⟩

end LiveStreaming.Study
