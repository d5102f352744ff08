import LiveStreaming.Library.CString
import LiveStreaming.Library.Transition
import Mathlib.Data.List.Nodup
import Mathlib.Logic.Function.Basic

/-!
# Reporting channels to the notify thread

The main thread reports that a channel is online and the work threads that one is offline, all through
the `data` pointer of `NOTIFY_ASYNC_WATCHER`. Its pending flag is the only guard of that slot.

`do_channel_notify` fills a `NOTIFY_DATA` and `do_notify_cb` formats it for a notify server.
-/

namespace LiveStreaming.Streamer
open Library.CString

def ONLINE : Int := 0
def OFFLINE : Int := 1

/-- `channel` is the C string in the array of 64 bytes. -/
structure NotifyData where
  channel : List UInt8
  flag : Int
  deriving DecidableEq

def notifyData (channel : List UInt8) (flag : Int) : NotifyData := ⟨cString channel, flag⟩

def notifyFormat (data : NotifyData) : List UInt8 :=
  ascii "POST /daemon/channel_stat.do?channel=" ++ data.channel ++ ascii "&status=" ++ ascii (toString data.flag) ++
    ascii " HTTP/1.1\r\n\r\n"

/-- What `do_notify_cb` writes to a notify server; `notify_message` has 99 bytes. -/
def doNotifyCb : Option NotifyData → Option (List UInt8)
  | none => none
  | some data =>
    if data.flag ≠ ONLINE ∧ data.flag ≠ OFFLINE then none else some (truncate 99 (notifyFormat data))

end LiveStreaming.Streamer

namespace LiveStreaming.Streamer
open Library

/-- A call of `do_channel_notify`: the calls are numbered in the order in which they are made. -/
structure Report where
  call : Nat
  data : NotifyData
  deriving DecidableEq

/-- Where a thread stands in `do_channel_notify`: it has seen the flag clear, or has stored the pointer
and not yet called `ev_async_send`. -/
inductive Reporter where
  | idle
  | checked (report : Report)
  | stored
  deriving DecidableEq

/-- Where the notify thread stands: libev has cleared the flag and is about to call
`read_channel_status_cb`, or the call has read its pointer. -/
inductive NotifyThread where
  | idle
  | woken
  | running (notifyData : Option Report)
  deriving DecidableEq

/-- `data` is `NOTIFY_ASYNC_WATCHER->data`. The lists record the calls that were made and what
`read_channel_status_cb` took from the slot on entry. -/
structure NotifySlot where
  sent : Bool
  data : Option Report
  threads : Nat → Reporter
  notifier : NotifyThread
  reported : List Report
  read : List Report

namespace NotifySlot

def start : NotifySlot := ⟨false, none, fun _ => .idle, .idle, [], []⟩

inductive Event where
  | call (thread : Nat) (channel : List UInt8) (flag : Int)
  | store (thread : Nat)
  | send (thread : Nat)
  | wake
  | enter
  | finish

def step (s : NotifySlot) : Event → Option NotifySlot
  | .call thread channel flag =>
    match s.threads thread with
    | .idle =>
      let report := ⟨s.reported.length, notifyData channel flag⟩
      -- with the flag set the call only logs that it failed
      if s.sent then some { s with reported := s.reported ++ [report] }
      else some { s with
        reported := s.reported ++ [report]
        threads := Function.update s.threads thread (.checked report) }
    | _ => none
  | .store thread =>
    match s.threads thread with
    | .checked report => some { s with data := some report, threads := Function.update s.threads thread .stored }
    | _ => none
  | .send thread =>
    match s.threads thread with
    | .stored => some { s with sent := true, threads := Function.update s.threads thread .idle }
    | _ => none
  | .wake =>
    match s.sent, s.notifier with
    | true, .idle => some { s with sent := false, notifier := .woken }
    | _, _ => none
  | .enter =>
    match s.notifier with
    | .woken => some { s with read := s.read ++ s.data.toList, notifier := .running s.data }
    | _ => none
  | .finish =>
    match s.notifier with
    -- the block in the slot is deleted, whichever it is by now
    | .running _ => some { s with data := none, notifier := .idle }
    | _ => none

def Holds (s : NotifySlot) (thread : Nat) (report : Report) : Prop := s.threads thread = .checked report

def about (channel : List UInt8) (reports : List Report) : List Report :=
  reports.filter fun report => report.data.channel = channel

def Quiet (s : NotifySlot) : Prop :=
  (∀ thread, s.threads thread = .idle) ∧ s.sent = false ∧ s.notifier = .idle

/-- What the threads that report and the notify thread owe each other. -/
structure Delivered (s : NotifySlot) : Prop where
  once : s.read.Nodup
  ordered : ∀ channel, about channel s.read <+: about channel s.reported
  all : s.Quiet → ∀ channel, about channel s.read = about channel s.reported

/-- A call finds the flag clear. A pointer is stored in an empty slot, and no thread is still holding back
an earlier report about the same channel. -/
def Undisturbed (s : NotifySlot) : Event → Prop
  | .call _ _ _ => s.sent = false
  | .store thread => s.data = none ∧ ∀ report other earlier, s.Holds thread report → s.Holds other earlier →
      earlier.data.channel = report.data.channel → report.call ≤ earlier.call
  | _ => True

/-- Who has the slot: nobody, a thread that has stored its pointer, the pending flag, or the notify thread. -/
inductive Turn where
  | free
  | reporter (thread : Nat)
  | flag
  | notifier

structure AtTurn (s : NotifySlot) (turn : Turn) : Prop where
  slot : s.data = none ↔ turn = .free
  stored : ∀ thread, s.threads thread = .stored ↔ turn = .reporter thread
  sent : s.sent = true ↔ turn = .flag
  notifier : s.notifier ≠ .idle ↔ turn = .notifier

/-- What the slot holds and `read_channel_status_cb` has not read. -/
def unread (s : NotifySlot) : List Report :=
  match s.notifier with
  | .running _ => []
  | _ => s.data.toList

/-- Channel by channel, the reports are those read, the one in the slot, and those that threads hold back. -/
structure Inv (s : NotifySlot) : Prop where
  numbered : s.reported.map Report.call = List.range s.reported.length
  holders : ∀ thread other report, s.Holds thread report → s.Holds other report → thread = other
  turn : ∃ turn, s.AtTurn turn
  split : ∀ channel, ∃ waiting, about channel s.reported = about channel (s.read ++ s.unread) ++ waiting ∧
    ∀ report, report ∈ waiting ↔ report.data.channel = channel ∧ ∃ thread, s.Holds thread report

variable {s s' : NotifySlot}

theorem start_inv : Inv start where
  numbered := rfl
  holders := by simp [Holds, start]
  turn := ⟨.free, by simp [start], by simp [start], by simp [start], by simp [start]⟩
  split := fun channel => ⟨[], rfl, by simp [Holds, start]⟩

theorem Inv.increasing (inv : Inv s) : s.reported.Pairwise fun a b => a.call < b.call := by
  rw [← List.pairwise_map, inv.numbered]
  exact List.pairwise_lt_range

theorem Inv.nodup (inv : Inv s) : s.reported.Nodup :=
  inv.increasing.imp fun {a b} less same => by simp [same] at less

theorem mem_about {channel : List UInt8} {reports : List Report} {report : Report} :
    report ∈ about channel reports ↔ report ∈ reports ∧ report.data.channel = channel := by
  simp [about]

theorem about_append (channel : List UInt8) (first second : List Report) :
    about channel (first ++ second) = about channel first ++ about channel second := List.filter_append ..

theorem Inv.held_reported (inv : Inv s) {thread : Nat} {report : Report} (held : s.Holds thread report) :
    report ∈ s.reported := by
  obtain ⟨waiting, split, waits⟩ := inv.split report.data.channel
  have member := List.mem_append_right (about report.data.channel (s.read ++ s.unread))
    ((waits report).mpr ⟨rfl, thread, held⟩)
  rw [← split] at member
  exact (mem_about.mp member).1

theorem Inv.call_lt (inv : Inv s) {report : Report} (member : report ∈ s.reported) :
    report.call < s.reported.length := by
  have number := List.mem_map_of_mem (f := Report.call) member
  rw [inv.numbered, List.mem_range] at number
  exact number

theorem Inv.delivered (inv : Inv s) : Delivered s := by
  have ordered : ∀ channel, about channel s.read <+: about channel s.reported := by
    intro channel
    obtain ⟨waiting, split, _⟩ := inv.split channel
    rw [split, about_append, List.append_assoc]
    exact List.prefix_append _ _
  refine ⟨?_, ordered, ?_⟩
  · rw [List.nodup_iff_count_le_one]
    intro report
    have distinct : (about report.data.channel s.read).Nodup := (inv.nodup.filter _).sublist (ordered _).sublist
    have counted := List.nodup_iff_count_le_one.mp distinct report
    rwa [about, List.count_filter (by simp)] at counted
  · rintro ⟨idle, clear, rest⟩ channel
    obtain ⟨waiting, split, waits⟩ := inv.split channel
    obtain ⟨turn, atTurn⟩ := inv.turn
    have none : waiting = [] := by
      rw [List.eq_nil_iff_forall_not_mem]
      intro report member
      obtain ⟨_, thread, held⟩ := (waits report).mp member
      rw [Holds, idle] at held
      cases held
    have empty : s.data = .none := by
      rw [atTurn.slot]
      cases turn with
      | free => rfl
      | reporter thread => simpa [idle] using atTurn.stored thread
      | flag => simpa [clear] using atTurn.sent
      | notifier => simpa [rest] using atTurn.notifier
    rw [split, none, unread, rest, empty]
    simp

theorem update_eq {threads : Nat → Reporter} {thread other : Nat} {reporter found : Reporter} :
    Function.update threads thread reporter other = found ↔
      (other = thread ∧ reporter = found) ∨ (other ≠ thread ∧ threads other = found) := by
  by_cases same : other = thread
  · simp [same]
  · simp [same]

theorem Inv.call {thread : Nat} {channel : List UInt8} {flag : Int} (inv : Inv s) (clear : s.sent = false)
    (next : step s (.call thread channel flag) = some s') : Inv s' := by
  rw [step] at next
  split at next
  · next idle =>
    rw [if_neg (by simp [clear])] at next
    obtain rfl := Option.some.inj next
    have fresh : ∀ other, ¬ s.Holds other ⟨s.reported.length, notifyData channel flag⟩ := fun other held =>
      Nat.lt_irrefl _ (inv.call_lt (inv.held_reported held))
    have nothing : ∀ report, ¬ s.Holds thread report := by
      intro report held
      rw [Holds, idle] at held
      cases held
    obtain ⟨turn, atTurn⟩ := inv.turn
    refine ⟨?_, ?_, ⟨turn, atTurn.slot, ?_, atTurn.sent, atTurn.notifier⟩, ?_⟩
    · simp [inv.numbered, List.range_succ]
    · intro first second report held also
      simp only [Holds, update_eq, Reporter.checked.injEq] at held also
      rcases held with ⟨rfl, rfl⟩ | ⟨_, held⟩ <;> rcases also with ⟨rfl, new⟩ | ⟨_, also⟩
      · rfl
      · exact (fresh _ also).elim
      · exact (fresh _ (new ▸ held)).elim
      · exact inv.holders _ _ _ held also
    · intro other
      rw [← atTurn.stored other]
      simp only [update_eq, reduceCtorEq, and_false, false_or, and_iff_right_iff_imp]
      rintro stored rfl
      rw [idle] at stored
      cases stored
    · intro topic
      obtain ⟨waiting, split, waits⟩ := inv.split topic
      refine ⟨waiting ++ about topic [⟨s.reported.length, notifyData channel flag⟩], ?_, fun report => ?_⟩
      · rw [about_append, split, List.append_assoc]
        rfl
      · simp only [List.mem_append, waits, mem_about, List.mem_singleton, Holds, update_eq, Reporter.checked.injEq]
        constructor
        · rintro (⟨same, other, held⟩ | ⟨rfl, same⟩)
          · refine ⟨same, other, .inr ⟨?_, held⟩⟩
            rintro rfl
            exact nothing _ held
          · exact ⟨same, thread, .inl ⟨rfl, rfl⟩⟩
        · rintro ⟨same, other, ⟨_, rfl⟩ | ⟨_, held⟩⟩
          · exact .inr ⟨rfl, same⟩
          · exact .inl ⟨same, other, held⟩
  · cases next

theorem Inv.first_waiting (inv : Inv s) {report : Report} {waiting taken : List Report}
    (split : about report.data.channel s.reported = taken ++ waiting) (member : report ∈ waiting)
    (least : ∀ other ∈ waiting, report.call ≤ other.call) : ∃ rest, waiting = report :: rest ∧ report ∉ rest := by
  have increasing := inv.increasing.filter fun r => r.data.channel = report.data.channel
  rw [about] at split
  rw [split, List.pairwise_append] at increasing
  cases waiting with
  | nil => cases member
  | cons first rest =>
    obtain ⟨below, _⟩ := List.pairwise_cons.mp increasing.2.1
    rcases List.mem_cons.mp member with rfl | later
    · exact ⟨rest, rfl, fun again => Nat.lt_irrefl _ (below _ again)⟩
    · have := below _ later
      have := least first List.mem_cons_self
      omega

theorem Inv.store {thread : Nat} (inv : Inv s) (undisturbed : s.Undisturbed (.store thread))
    (next : step s (.store thread) = some s') : Inv s' := by
  rw [step] at next
  split at next
  · next report checked =>
    obtain rfl := Option.some.inj next
    obtain ⟨empty, first⟩ := undisturbed
    obtain ⟨turn, atTurn⟩ := inv.turn
    obtain rfl := atTurn.slot.mp empty
    have rest : s.notifier = .idle := by simpa using atTurn.notifier
    have others : ∀ other, s.threads other ≠ .stored := fun other => by simpa using atTurn.stored other
    have holds : ∀ other held, ({ s with data := some report, threads := Function.update s.threads thread .stored } :
        NotifySlot).Holds other held ↔ other ≠ thread ∧ s.Holds other held := by
      intro other held
      simp [Holds, update_eq]
    refine ⟨inv.numbered, ?_, ⟨.reporter thread, ?_⟩, ?_⟩
    · intro one other held holding also
      exact inv.holders _ _ _ ((holds _ _).mp holding).2 ((holds _ _).mp also).2
    · refine ⟨by simp, fun other => ?_, by simpa using atTurn.sent, by simp [rest]⟩
      simp only [update_eq, others other, and_false, or_false, Turn.reporter.injEq, and_true]
      exact eq_comm
    · intro topic
      obtain ⟨waiting, split, waits⟩ := inv.split topic
      have unreadBefore : s.unread = [] := by simp [unread, rest, empty]
      have unreadAfter : ({ s with data := some report, threads := Function.update s.threads thread .stored } :
          NotifySlot).unread = [report] := by simp [unread, rest]
      rw [unreadBefore, List.append_nil] at split
      rw [unreadAfter]
      by_cases same : report.data.channel = topic
      · subst same
        obtain ⟨rest, rfl, once⟩ := inv.first_waiting split ((waits report).mpr ⟨rfl, thread, checked⟩)
          fun other member =>
            have ⟨same, holder, held⟩ := (waits other).mp member
            first report holder other checked held same
        refine ⟨rest, ?_, fun held => ?_⟩
        · rw [split, about_append]
          simp [about]
        · simp only [holds]
          constructor
          · intro member
            obtain ⟨topic, other, holding⟩ := (waits held).mp (List.mem_cons_of_mem _ member)
            refine ⟨topic, other, ?_, holding⟩
            rintro rfl
            obtain rfl := Reporter.checked.inj (checked.symm.trans holding)
            exact once member
          · rintro ⟨topic, other, different, holding⟩
            rcases List.mem_cons.mp ((waits held).mpr ⟨topic, other, holding⟩) with rfl | member
            · exact (different (inv.holders _ _ _ holding checked)).elim
            · exact member
      · refine ⟨waiting, ?_, fun held => ?_⟩
        · rw [split, about_append]
          simp [about, same]
        · rw [waits]
          simp only [holds]
          refine and_congr_right fun topic => exists_congr fun other => ?_
          refine ⟨fun holding => ⟨?_, holding⟩, And.right⟩
          rintro rfl
          obtain rfl := Reporter.checked.inj (checked.symm.trans holding)
          exact same topic
  · cases next

theorem Inv.send {thread : Nat} (inv : Inv s) (next : step s (.send thread) = some s') : Inv s' := by
  rw [step] at next
  split at next
  · next stored =>
    obtain rfl := Option.some.inj next
    obtain ⟨turn, atTurn⟩ := inv.turn
    obtain rfl := (atTurn.stored thread).mp stored
    have holds : ∀ other held, ({ s with sent := true, threads := Function.update s.threads thread .idle } :
        NotifySlot).Holds other held ↔ s.Holds other held := by
      intro other held
      simp only [Holds, update_eq, reduceCtorEq, and_false, false_or, and_iff_right_iff_imp]
      rintro holding rfl
      rw [stored] at holding
      cases holding
    refine ⟨inv.numbered, ?_, ⟨.flag, by simpa using atTurn.slot, ?_, by simp, by simpa using atTurn.notifier⟩, ?_⟩
    · intro one other held holding also
      exact inv.holders _ _ _ ((holds _ _).mp holding) ((holds _ _).mp also)
    · intro other
      simp only [update_eq, reduceCtorEq, and_false, false_or, atTurn.stored, Turn.reporter.injEq, iff_false, not_and]
      exact fun different same => different same.symm
    · simp only [holds]
      exact inv.split
  · cases next

theorem Inv.wake (inv : Inv s) (next : step s .wake = some s') : Inv s' := by
  rw [step] at next
  split at next
  · next sent idle =>
    obtain rfl := Option.some.inj next
    obtain ⟨turn, atTurn⟩ := inv.turn
    obtain rfl := atTurn.sent.mp sent
    have split := inv.split
    simp only [unread, idle] at split
    exact ⟨inv.numbered, inv.holders, ⟨.notifier, by simpa using atTurn.slot, by simpa using atTurn.stored,
      by simp, by simp⟩, split⟩
  · cases next

theorem Inv.enter (inv : Inv s) (next : step s .enter = some s') : Inv s' := by
  rw [step] at next
  split at next
  · next woken =>
    obtain rfl := Option.some.inj next
    obtain ⟨turn, atTurn⟩ := inv.turn
    obtain rfl := atTurn.notifier.mp (by simp [woken])
    have split := inv.split
    simp only [unread, woken] at split
    refine ⟨inv.numbered, inv.holders, ⟨.notifier, atTurn.slot, atTurn.stored, atTurn.sent, by simp⟩, fun topic => ?_⟩
    obtain ⟨waiting, reported, waits⟩ := split topic
    exact ⟨waiting, by simpa [unread] using reported, waits⟩
  · cases next

theorem Inv.finish (inv : Inv s) (next : step s .finish = some s') : Inv s' := by
  rw [step] at next
  split at next
  · next running =>
    obtain rfl := Option.some.inj next
    obtain ⟨turn, atTurn⟩ := inv.turn
    obtain rfl := atTurn.notifier.mp (by simp [running])
    have split := inv.split
    simp only [unread, running] at split
    exact ⟨inv.numbered, inv.holders, ⟨.free, by simp, by simpa using atTurn.stored,
      by simpa using atTurn.sent, by simp⟩, split⟩
  · cases next

theorem step_inv {e : Event} (inv : Inv s) (undisturbed : s.Undisturbed e) (next : step s e = some s') : Inv s' := by
  cases e with
  | call thread channel flag => exact inv.call undisturbed next
  | store thread => exact inv.store undisturbed next
  | send thread => exact inv.send next
  | wake => exact inv.wake next
  | enter => exact inv.enter next
  | finish => exact inv.finish next

end NotifySlot

/-- In every interleaving in which each call finds the flag clear and stores into an empty slot, earlier
reports about its channel first, the notify thread reads every report once and each channel's in order. -/
theorem notifySlot_delivers {s : NotifySlot}
    (run : Transition.Reach NotifySlot.step NotifySlot.Undisturbed NotifySlot.start s) : s.Delivered :=
  (run.invariant NotifySlot.start_inv fun _ _ _ => NotifySlot.step_inv).delivered

theorem notifySlot_delivers_sample : ∃ s : NotifySlot, s.Delivered ∧ s.read = [⟨0, notifyData [99] ONLINE⟩] := by
  have delivered := notifySlot_delivers <|
    .tail (e := .finish) (.tail (e := .enter) (.tail (e := .wake) (.tail (e := .send 0) (.tail (e := .store 0)
      (.tail (e := .call 0 [99] ONLINE) .refl rfl rfl)
      ⟨rfl, fun report other earlier held also _ => by
        simp only [NotifySlot.Holds, NotifySlot.start, NotifySlot.update_eq, Reporter.checked.injEq] at held also
        obtain ⟨_, rfl⟩ | ⟨_, no⟩ := held
        · exact Nat.zero_le _
        · cases no⟩ rfl)
      trivial rfl) trivial rfl) trivial rfl) trivial rfl
  exact ⟨_, delivered, rfl⟩

/-- The main thread has reported that channel 99 is online. Before the notify thread wakes, a work thread
finds the flag set, and its report that channel 100 is offline reaches nobody. -/
def reportWhilePending : List NotifySlot.Event :=
  [.call 0 [99] ONLINE, .store 0, .send 0, .call 1 [100] OFFLINE, .wake, .enter, .finish]

theorem pending_flag_drops_report :
    ¬ ∀ s, Transition.Reach NotifySlot.step (fun _ _ => True) NotifySlot.start s → s.Delivered := by
  intro delivers
  have ran : ∃ s, Transition.exec NotifySlot.step NotifySlot.start reportWhilePending = some s ∧ s.Quiet ∧
      s.read = [⟨0, notifyData [99] ONLINE⟩] ∧
      s.reported = [⟨0, notifyData [99] ONLINE⟩, ⟨1, notifyData [100] OFFLINE⟩] := by
    refine ⟨_, rfl, ⟨fun thread => ?_, rfl, rfl⟩, rfl, rfl⟩
    simp only [NotifySlot.update_eq]
    by_cases same : thread = 0
    · exact .inl ⟨same, trivial⟩
    · exact .inr ⟨same, .inr ⟨same, .inr ⟨same, rfl⟩⟩⟩
  obtain ⟨s, ran, quiet, read, reported⟩ := ran
  have all := (delivers s (Transition.reach_of_exec .refl (fun _ _ _ => trivial) ran)).all quiet [100]
  rw [read, reported] at all
  exact absurd all (by decide)

end LiveStreaming.Streamer
