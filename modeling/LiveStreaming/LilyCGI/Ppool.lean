import LiveStreaming.Library.RoundRobin

/-!
# The parent of a process pool

`letParentGo` takes new connections in turns to the children that were forked. What it knows of a child that has
died is that one more has: `pid_` stays what `fork` returned.
-/

namespace LiveStreaming.LilyCGI
open Library.RoundRobin

inductive Signal where
  | sigchld | sigterm | sigint | other
  deriving DecidableEq

/-- What `letParentGo` comes across, and what happens to its children meanwhile. The actions between two calls of
`epoll_wait` are a batch; such a call has `failed` where it fails for another reason than a signal. -/
inductive Action where
  | epollWait (failed : Bool)
  | connection
  | signals (signals : List Signal)
  | died (child : Nat)
  deriving DecidableEq

inductive Outcome where
  | announced (child : Nat)
  | stopped
  | outOfBounds
  deriving DecidableEq

/-- The parent's variables, and its children as the kernel knows them. -/
structure Parent where
  subProcesses : List Int
  subProcessCounter : Nat
  count : Nat
  stop : Bool
  left : Bool
  alive : List Nat
  zombies : Nat

def isForked (subProcesses : List Int) (index : Nat) : Bool := subProcesses.getD index (-1) != -1

def forked (subProcesses : List Int) : List Nat := (List.range subProcesses.length).filter (isForked subProcesses)

/-- The parent behind the constructor, with what each `fork` returned. -/
def started (subProcesses : List Int) : Parent := ⟨subProcesses, 0, 0, false, false, forked subProcesses, 0⟩

/-- The round robin scan, which ends at the latest where it is round. -/
def selectFrom (subProcesses : List Int) (subProcessCounter : Nat) : Nat → Nat → Nat
  | 0, subProcessIndex => subProcessIndex
  | rounds + 1, subProcessIndex =>
    if isForked subProcesses subProcessIndex then subProcessIndex
    else
      let subProcessIndex := (subProcessIndex + 1) % subProcesses.length
      if subProcessIndex = subProcessCounter then subProcessIndex
      else selectFrom subProcesses subProcessCounter rounds subProcessIndex

/-- A new connection. Where no child is left, the rest of the batch is left, and so is the loop. -/
def onConnection (p : Parent) : Parent × Outcome :=
  if p.subProcesses = [] then ({ p with left := true }, .outOfBounds)
  else
    let subProcessIndex := selectFrom p.subProcesses p.subProcessCounter p.subProcesses.length p.subProcessCounter
    if isForked p.subProcesses subProcessIndex then
      ({ p with subProcessCounter := (subProcessIndex + 1) % p.subProcesses.length }, .announced subProcessIndex)
    else ({ p with stop := true, left := true }, .stopped)

/-- `waitpid` takes every child that has died, and only counts it. -/
def onSignal (p : Parent) : Signal → Parent
  | .sigchld => { p with count := p.count + p.zombies, zombies := 0 }
  | .sigterm | .sigint => if p.count ≠ p.subProcesses.length then p else { p with stop := true }
  | .other => p

def step (p : Parent) : Action → Parent × Option Outcome
  | .epollWait failed => ({ p with left := p.left || p.stop || failed }, none)
  | .connection => if p.left then (p, none) else ((onConnection p).1, some (onConnection p).2)
  | .signals signals => if p.left then (p, none) else (signals.foldl onSignal p, none)
  | .died child =>
    if child ∈ p.alive then ({ p with alive := p.alive.erase child, zombies := p.zombies + 1 }, none) else (p, none)

/-- A connection that was handled, and the children that lived then. -/
structure Turn where
  alive : List Nat
  outcome : Outcome
  deriving DecidableEq

def letParentGo (p : Parent) : List Action → List Turn
  | [] => []
  | action :: actions =>
    ((step p action).2.map fun outcome => ⟨p.alive, outcome⟩).toList ++ letParentGo (step p action).1 actions

/-- Each connection goes to a child that lives, where one does, and the parent stops where none does; and as many
connections in a row as there are children, with none dying meanwhile, are one for each. -/
structure Fair (turns : List Turn) : Prop where
  living : ∀ t ∈ turns, t.alive ≠ [] → ∃ child ∈ t.alive, t.outcome = .announced child
  stops : ∀ before t after, turns = before ++ t :: after → t.alive = [] → t.outcome = .stopped ∧ after = []
  evenly : ∀ before row after alive, turns = before ++ row ++ after → (∀ t ∈ row, t.alive = alive) →
    row.length = alive.length → (row.map Turn.outcome).Perm (alive.map .announced)

/-- The child whose turn it is lives, where any child was forked. -/
def TurnAlive (subProcesses : List Int) (k : Nat) (alive : List Nat) : Prop :=
  subProcesses ≠ [] ∧ ∀ child, turn (forked subProcesses) k = some child → child ∈ alive

/-- What the code makes of the `k`-th connection. -/
def expected (subProcesses : List Int) (k : Nat) : Outcome :=
  if subProcesses = [] then .outOfBounds
  else ((turn (forked subProcesses) k).map Outcome.announced).getD .stopped

/-- The parent before its `k`-th connection: the children from its counter on are in turn. -/
structure InTurn (subProcesses : List Int) (k : Nat) (p : Parent) : Prop where
  same : p.subProcesses = subProcesses
  inside : subProcesses ≠ [] → p.subProcessCounter < subProcesses.length
  queue : (order subProcesses.length p.subProcessCounter).filter (isForked subProcesses) =
    (forked subProcesses).rotate k
  alive : p.alive.Sublist (forked subProcesses)

variable {subProcesses : List Int} {k : Nat} {p : Parent}

/-- The scan, from any place on: what is left of the order decides. -/
theorem selectFrom_order {start : Nat} (inside : start < subProcesses.length) {before after : List Nat}
    (split : order subProcesses.length start = before ++ after) (index : Nat) (here : after.head? = some index) :
    selectFrom subProcesses start after.length index = (after.find? (isForked subProcesses)).getD start := by
  induction after generalizing before index with
  | nil => cases here
  | cons i after ih =>
    obtain rfl : i = index := Option.some.inj here
    rw [List.length_cons, selectFrom, List.find?_cons]
    cases isForked subProcesses i with
    | true => rfl
    | false =>
      have next := after_head split
      have first := order_head inside
      rw [if_neg Bool.false_ne_true]
      dsimp only
      cases after with
      | nil =>
        rw [split] at first
        rw [List.nil_append, first] at next
        rw [if_pos (Option.some.inj next).symm, ← Option.some.inj next]
        rfl
      | cons j after =>
        have j_next : j = (i + 1) % subProcesses.length := Option.some.inj next
        have distinct := nodup_order subProcesses.length start
        rw [split, List.append_cons] at distinct first
        have seen : start ∈ before ++ [i] := by
          cases before with
          | nil => exact List.mem_singleton.mpr (Option.some.inj first).symm
          | cons b before =>
            rw [← Option.some.inj first]
            exact List.mem_cons_self
        have new : j ≠ start := fun same =>
          List.disjoint_of_nodup_append distinct seen (same ▸ List.mem_cons_self)
        rw [← j_next, if_neg new]
        rw [List.append_cons] at split
        exact ih split j rfl

theorem selectFrom_find (inside : p.subProcessCounter < p.subProcesses.length) :
    selectFrom p.subProcesses p.subProcessCounter p.subProcesses.length p.subProcessCounter =
      ((order p.subProcesses.length p.subProcessCounter).find? (isForked p.subProcesses)).getD p.subProcessCounter := by
  have scan := selectFrom_order inside (List.nil_append _).symm p.subProcessCounter (order_head inside)
  rwa [length_order] at scan

/-- A connection where no child was forked, and where one was: the head of the queue goes to its end. -/
theorem onConnection_turn (inTurn : InTurn subProcesses k p) (filled : subProcesses ≠ []) :
    (turn (forked subProcesses) k = none ∧ onConnection p = ({ p with stop := true, left := true }, .stopped)) ∨
      ∃ child, turn (forked subProcesses) k = some child ∧ (onConnection p).2 = .announced child ∧
        InTurn subProcesses (k + 1) (onConnection p).1 := by
  obtain ⟨rfl, inside, queue, alive⟩ := inTurn
  have scan := selectFrom_find (inside filled)
  have found : (order p.subProcesses.length p.subProcessCounter).find? (isForked p.subProcesses) =
      turn (forked p.subProcesses) k := by
    rw [← List.head?_filter, queue, head_rotate]
  rw [found] at scan
  unfold onConnection
  rw [if_neg filled]
  dsimp only
  rw [scan]
  cases turn_k : turn (forked p.subProcesses) k with
  | none =>
    left
    rw [turn_k, List.find?_eq_none] at found
    have here := List.mem_of_head? (order_head (inside filled))
    exact ⟨rfl, if_neg (found _ here)⟩
  | some child =>
    right
    rw [turn_k] at found
    rw [Option.getD_some, if_pos (List.find?_some found)]
    refine ⟨child, rfl, rfl, rfl, fun _ => Nat.mod_lt _ (List.length_pos_iff.mpr filled), ?_, alive⟩
    rw [← List.rotate_rotate, ← queue]
    exact filter_after found

theorem onSignal_inTurn (inTurn : InTurn subProcesses k p) (signal : Signal) :
    InTurn subProcesses k (onSignal p signal) := by
  obtain ⟨same, inside, queue, alive⟩ := inTurn
  cases signal with
  | sigchld => exact ⟨same, inside, queue, alive⟩
  | sigterm =>
    simp only [onSignal]
    split <;> exact ⟨same, inside, queue, alive⟩
  | sigint =>
    simp only [onSignal]
    split <;> exact ⟨same, inside, queue, alive⟩
  | other => exact ⟨same, inside, queue, alive⟩

theorem onSignals_inTurn (signals : List Signal) (inTurn : InTurn subProcesses k p) :
    InTurn subProcesses k (signals.foldl onSignal p) := by
  induction signals generalizing p with
  | nil => exact inTurn
  | cons signal signals ih => exact ih (onSignal_inTurn inTurn signal)

/-- An action that is no connection leaves the turns as they are. -/
theorem step_quiet (inTurn : InTurn subProcesses k p) (action : Action) (quiet : (step p action).2 = none) :
    InTurn subProcesses k (step p action).1 := by
  obtain ⟨same, inside, queue, alive⟩ := id inTurn
  unfold step at quiet ⊢
  cases action with
  | epollWait failed => exact ⟨same, inside, queue, alive⟩
  | connection =>
    dsimp only at quiet ⊢
    split at quiet
    · next left => rwa [if_pos left]
    · cases quiet
  | signals signals =>
    dsimp only
    split
    · exact inTurn
    · exact onSignals_inTurn signals inTurn
  | died child =>
    dsimp only
    split
    · exact ⟨same, inside, queue, (List.erase_sublist).trans alive⟩
    · exact inTurn

theorem step_turn {action : Action} {outcome : Outcome} (some_turn : (step p action).2 = some outcome) :
    p.left = false ∧ action = .connection ∧ outcome = (onConnection p).2 ∧ (step p action).1 = (onConnection p).1 := by
  unfold step at some_turn ⊢
  cases action with
  | epollWait failed => cases some_turn
  | connection =>
    dsimp only at some_turn ⊢
    split at some_turn
    · cases some_turn
    · next going =>
      rw [if_neg going]
      exact ⟨Bool.eq_false_iff.mpr going, rfl, (Option.some.inj some_turn).symm, rfl⟩
  | signals signals =>
    dsimp only at some_turn
    split at some_turn <;> cases some_turn
  | died child =>
    dsimp only at some_turn
    split at some_turn <;> cases some_turn

theorem step_left (action : Action) (left : p.left = true) :
    (step p action).2 = none ∧ (step p action).1.left = true := by
  unfold step
  cases action with
  | epollWait failed => exact ⟨rfl, by simp [left]⟩
  | connection => simp [left]
  | signals signals => simp [left]
  | died child =>
    dsimp only
    split <;> exact ⟨rfl, left⟩

/-- Behind the loop no connection is handled. -/
theorem letParentGo_left (actions : List Action) (left : p.left = true) : letParentGo p actions = [] := by
  induction actions generalizing p with
  | nil => rfl
  | cons action actions ih =>
    obtain ⟨quiet, left⟩ := step_left action left
    rw [letParentGo, quiet, ih left]
    rfl

theorem expected_filled (filled : subProcesses ≠ []) :
    expected subProcesses k = ((turn (forked subProcesses) k).map Outcome.announced).getD .stopped := if_neg filled

/-- A connection that is handled: what is expected of it, and the state that follows it. -/
theorem onConnection_expected (inTurn : InTurn subProcesses k p) :
    (onConnection p).2 = expected subProcesses k ∧
      ((onConnection p).1.left = true ∨
        (onConnection p).2 ≠ .stopped ∧ InTurn subProcesses (k + 1) (onConnection p).1) := by
  by_cases filled : subProcesses = []
  · have bare : p.subProcesses = [] := inTurn.same.trans filled
    unfold onConnection expected
    rw [if_pos bare, if_pos filled]
    exact ⟨rfl, .inl rfl⟩
  · rw [expected_filled filled]
    rcases onConnection_turn inTurn filled with ⟨no_turn, stops⟩ | ⟨child, has_turn, outcome, next⟩
    · rw [no_turn, stops]
      exact ⟨rfl, .inl rfl⟩
    · rw [has_turn, outcome]
      exact ⟨rfl, .inr ⟨Outcome.noConfusion, next⟩⟩

/-- Induction on the actions: the `j`-th turn from here on. -/
theorem letParentGo_turn {actions : List Action} (inTurn : InTurn subProcesses k p) {j : Nat} {t : Turn}
    (found : (letParentGo p actions)[j]? = some t) :
    t.outcome = expected subProcesses (k + j) ∧ t.alive.Sublist (forked subProcesses) := by
  induction actions generalizing p k j with
  | nil => cases found
  | cons action actions ih =>
    rw [letParentGo] at found
    cases some_turn : (step p action).2 with
    | none =>
      rw [some_turn] at found
      exact ih (step_quiet inTurn action some_turn) found
    | some outcome =>
      obtain ⟨_, _, rfl, next⟩ := step_turn some_turn
      rw [some_turn, next] at found
      obtain ⟨outcome, after⟩ := onConnection_expected inTurn
      cases j with
      | zero =>
        obtain rfl := Option.some.inj found
        exact ⟨outcome, inTurn.alive⟩
      | succ j =>
        change (letParentGo (onConnection p).1 actions)[j]? = some t at found
        rcases after with left | ⟨_, after⟩
        · rw [letParentGo_left actions left] at found
          cases found
        · rw [← Nat.add_assoc, Nat.add_right_comm]
          exact ih after found

/-- Where the parent stops, the turn is the last. -/
theorem letParentGo_last {actions : List Action} (inTurn : InTurn subProcesses k p) {before after : List Turn}
    {t : Turn} (split : letParentGo p actions = before ++ t :: after) (stopped : t.outcome = .stopped) :
    after = [] := by
  induction actions generalizing p k before with
  | nil => cases before <;> cases split
  | cons action actions ih =>
    rw [letParentGo] at split
    cases some_turn : (step p action).2 with
    | none =>
      rw [some_turn] at split
      exact ih (step_quiet inTurn action some_turn) split
    | some outcome =>
      obtain ⟨_, _, rfl, next⟩ := step_turn some_turn
      rw [some_turn, next] at split
      obtain ⟨_, following⟩ := onConnection_expected inTurn
      cases before with
      | nil =>
        obtain ⟨rfl, rest⟩ := List.cons.inj split
        rcases following with left | ⟨going, _⟩
        · rw [← letParentGo_left actions left]
          exact rest.symm
        · exact absurd stopped going
      | cons first before =>
        have rest := (List.cons.inj split).2
        rcases following with left | ⟨_, following⟩
        · change letParentGo (onConnection p).1 actions = _ at rest
          rw [letParentGo_left actions left] at rest
          cases before <;> cases rest
        · exact ih following rest

theorem started_inTurn (subProcesses : List Int) : InTurn subProcesses 0 (started subProcesses) := by
  refine ⟨rfl, List.length_pos_iff.mpr, ?_, List.Sublist.refl _⟩
  rw [List.rotate_zero, order, started, List.rotate_zero]
  rfl

theorem nodup_forked (subProcesses : List Int) : (forked subProcesses).Nodup := List.nodup_range.filter _

/-- The outcomes of a row of connections, all while the child whose turn it is lives. -/
theorem row_perm {first : Nat} {row : List Turn} {alive : List Nat} (live : alive.Sublist (forked subProcesses))
    (length : row.length = alive.length)
    (outcomes : ∀ j t, row[j]? = some t → ∃ child ∈ alive, turn (forked subProcesses) (first + j) = some child ∧
      t.outcome = .announced child) :
    (row.map Turn.outcome).Perm (alive.map .announced) := by
  have children : ∃ children : List Nat, row.map Turn.outcome = children.map .announced ∧ children.length = row.length ∧
      ∀ j child, children[j]? = some child → turn (forked subProcesses) (first + j) = some child ∧ child ∈ alive := by
    refine ⟨(List.range row.length).map fun j => (turn (forked subProcesses) (first + j)).getD 0, ?_, by simp, ?_⟩
    · apply List.ext_getElem
      · simp
      · intro j inside _
        rw [List.length_map] at inside
        obtain ⟨child, _, has_turn, outcome⟩ := outcomes j row[j] (List.getElem?_eq_getElem inside)
        simp [outcome, has_turn]
    · intro j child found
      obtain ⟨j', inside, rfl⟩ := List.mem_map.mp (List.mem_of_getElem? found)
      have place : j < row.length := by simpa using (List.getElem?_eq_some_iff.mp found).1
      obtain ⟨child, lives, has_turn, _⟩ := outcomes j row[j] (List.getElem?_eq_getElem place)
      rw [List.getElem?_map, List.getElem?_range place, Option.map_some, has_turn] at found
      rw [← Option.some.inj found]
      exact ⟨has_turn, lives⟩
  obtain ⟨children, outcomes, same, follow⟩ := children
  rw [outcomes]
  apply List.Perm.map
  apply perm_of_turns (nodup_forked subProcesses) live.length_le (same.trans length)
  · exact fun j child found => (follow j child found).1
  · intro child member
    obtain ⟨j, found⟩ := List.mem_iff_getElem?.mp member
    exact (follow j child found).2

/-- The turns are fair exactly where each connection comes while the child whose turn it is lives. -/
theorem letParentGo_fair (subProcesses : List Int) (actions : List Action) :
    Fair (letParentGo (started subProcesses) actions) ↔
      ∀ k t, (letParentGo (started subProcesses) actions)[k]? = some t → TurnAlive subProcesses k t.alive := by
  have inTurn := started_inTurn subProcesses
  have known {k : Nat} {t : Turn} (found : (letParentGo (started subProcesses) actions)[k]? = some t) :
      t.outcome = expected subProcesses k ∧ t.alive.Sublist (forked subProcesses) := by
    simpa using letParentGo_turn inTurn found
  constructor
  · intro fair k t found
    obtain ⟨outcome, alive⟩ := known found
    have member := List.mem_of_getElem? found
    obtain ⟨before, after, split⟩ := List.append_of_mem member
    have filled : subProcesses ≠ [] := by
      rintro rfl
      have stopped := (fair.stops before t after split (List.sublist_nil.mp alive)).1
      rw [stopped] at outcome
      cases outcome
    refine ⟨filled, fun child has_turn => ?_⟩
    rw [expected_filled filled, has_turn] at outcome
    have some_alive : t.alive ≠ [] := by
      intro none_alive
      have stopped := (fair.stops before t after split none_alive).1
      rw [stopped] at outcome
      cases outcome
    obtain ⟨other, lives, announced⟩ := fair.living t member some_alive
    rw [announced] at outcome
    exact Outcome.announced.inj outcome ▸ lives
  · intro turns
    have announced {k : Nat} {t : Turn} (found : (letParentGo (started subProcesses) actions)[k]? = some t)
        (some_alive : t.alive ≠ []) :
        ∃ child ∈ t.alive, turn (forked subProcesses) k = some child ∧ t.outcome = .announced child := by
      obtain ⟨filled, lives⟩ := turns k t found
      obtain ⟨outcome, alive⟩ := known found
      have some_forked : forked subProcesses ≠ [] := by
        intro none
        rw [none] at alive
        exact some_alive (List.sublist_nil.mp alive)
      obtain ⟨child, has_turn⟩ := turn_some some_forked k
      rw [expected_filled filled, has_turn] at outcome
      exact ⟨child, lives child has_turn, has_turn, outcome⟩
    refine ⟨?_, ?_, ?_⟩
    · intro t member some_alive
      obtain ⟨k, found⟩ := List.mem_iff_getElem?.mp member
      obtain ⟨child, lives, _, outcome⟩ := announced found some_alive
      exact ⟨child, lives, outcome⟩
    · intro before t after split none_alive
      have found : (letParentGo (started subProcesses) actions)[before.length]? = some t := by
        rw [split, List.getElem?_append_right (Nat.le_refl _), Nat.sub_self]
        rfl
      obtain ⟨filled, lives⟩ := turns _ t found
      have no_turn : turn (forked subProcesses) before.length = none := by
        rw [Option.eq_none_iff_forall_ne_some]
        intro child has_turn
        have := lives child has_turn
        rw [none_alive] at this
        cases this
      have stopped : t.outcome = .stopped := by
        rw [(known found).1, expected_filled filled, no_turn]
        rfl
      exact ⟨stopped, letParentGo_last inTurn split stopped⟩
    · intro before row after alive split same length
      have place {j : Nat} {t : Turn} (found : row[j]? = some t) :
          (letParentGo (started subProcesses) actions)[before.length + j]? = some t := by
        have inside := (List.getElem?_eq_some_iff.mp found).1
        rw [split, List.append_assoc, List.getElem?_append_right (Nat.le_add_right _ _), Nat.add_sub_cancel_left,
          List.getElem?_append_left inside]
        exact found
      cases row with
      | nil =>
        rw [List.eq_nil_of_length_eq_zero length.symm]
        rfl
      | cons t row =>
        have first : t.alive = alive := same t List.mem_cons_self
        have live : alive.Sublist (forked subProcesses) := first ▸ (known (@place 0 t rfl)).2
        refine @row_perm _ before.length _ _ live length fun j t found => ?_
        have here := same t (List.mem_of_getElem? found)
        have some_alive : t.alive ≠ [] := by
          rw [here]
          exact List.ne_nil_of_length_pos (length ▸ Nat.zero_lt_succ _)
        rw [← here]
        exact announced (place found) some_alive

/-- Of two children the first dies, which the parent is told, and gets the next connection. -/
theorem dead_child_chosen :
    let actions := [.epollWait false, .died 0, .epollWait false, .signals [.sigchld], .epollWait false, .connection]
    letParentGo (started [100, 101]) actions = [⟨[1], .announced 0⟩] ∧
      ¬ ∀ subProcesses actions, Fair (letParentGo (started subProcesses) actions) := by
  intro actions
  have run : letParentGo (started [100, 101]) actions = [⟨[1], .announced 0⟩] := by decide
  refine ⟨run, fun all => ?_⟩
  have fair := all [100, 101] actions
  rw [run] at fair
  obtain ⟨child, lives, outcome⟩ := fair.living _ List.mem_cons_self (List.cons_ne_nil _ _)
  obtain rfl := Outcome.announced.inj outcome
  exact absurd lives (by decide)

end LiveStreaming.LilyCGI
